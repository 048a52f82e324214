import LoraMesh.Firmware.Relaying
import LoraMesh.Engine.Transit

/-!
# Firmware — Forwards

The one slot in which a forward waits out its listen delay (`schedule_forward`, the forward branch of
`poll_timeouts`), followed through the log of a run.

* `run_held`: the slot holds what the log says is waiting, and only that is handed to the radio.
* `forwards_kept`: with no forward scheduled over a waiting one, each is handed over once, cancelled
  or still waiting.
* `copies_ignored`: exactly which runs cancel a forward on a copy with fewer hops, and only on such.
-/

namespace LoraMesh

open Std.Do

set_option mvcgen.warning false

/-! ### The slot, by the log -/

/-- The frame that an answer of the engine asks to forward. -/
def Output.forwards : Output → Option AirFrame
  | .incoming (.forward, some fwd, _) => some (airFromOutgoing fwd)
  | _ => none

def Happening.forwards : Happening → Option AirFrame
  | .engine _ out _ => out.forwards
  | _ => none

/-- The forward that is handed to the radio. -/
def Happening.hands : Happening → Option AirFrame
  | .queued (.tx _ frame _ _ _) .forward _ => some frame
  | _ => none

/-- A fault, or the radio switched off. -/
def Happening.cancels : Happening → Bool
  | .failClosed _ _ => true
  | .cleared _ => true
  | _ => false

/-- The forward that waits: the last one scheduled, until it is handed over or cancelled. -/
def waiting : List Happening → Option AirFrame
  | [] => none
  | x :: log => if x.cancels || x.hands.isSome then none else x.forwards.or (waiting log)

/-- Only what waits is handed over. -/
def Handed : List Happening → Prop
  | [] => True
  | x :: log => (∀ frame, x.hands = some frame → waiting log = some frame) ∧ Handed log

/-- The forward in the slot that is not with the radio yet. -/
def World.slot (w : World) : Option AirFrame :=
  match w.forward with
  | some fwd => if fwd.cmdId.isNone then some fwd.frame else none
  | none => none

/-- An answer of the engine is one that it gives. -/
def Happening.answered (C : Crypto) : Happening → Prop
  | .engine op out _ => ∃ e, out = (step C e op).2
  | _ => True

/-- Where the runtime may stand. -/
structure Orderly (C : Crypto) (w : World) : Prop where
  handed : Handed w.log
  answers : ∀ x ∈ w.log, x.answered C

/-- The log says that `o` waits. -/
structure Ledger (C : Crypto) (o : Option AirFrame) (w : World) : Prop extends Orderly C w where
  waits : waiting w.log = o

/-- The slot holds what waits. -/
def Held (C : Crypto) (w : World) : Prop := Ledger C w.slot w

section

variable {C : Crypto} {w : World} {x : Happening} {o : Option AirFrame}

theorem Ledger.record (h : Ledger C o w) (hc : x.cancels = false) (hh : x.hands = none)
    (hx : x.answered C) : Ledger C (x.forwards.or o) (w.record x) where
  handed := by
    refine ⟨fun frame hf => ?_, h.handed⟩
    rw [hh] at hf
    cases hf
  answers := List.forall_mem_cons.mpr ⟨hx, h.answers⟩
  waits := by
    rw [World.record, waiting, hc, hh, h.waits]
    rfl

theorem Ledger.keep (h : Ledger C o w) (hc : x.cancels = false) (hh : x.hands = none)
    (hf : x.forwards = none) (hx : x.answered C) : Ledger C o (w.record x) := by
  have hr := h.record hc hh hx
  rwa [hf] at hr

/-- A happening outside the relaying moves nothing. -/
theorem Ledger.neutral (h : Ledger C o w) (hx : x.relays = false) : Ledger C o (w.record x) := by
  cases x with
  | engine op out anew => cases hx
  | failClosed radioOn ping => cases hx
  | cleared send => cases hx
  | queued cmd use valid =>
      cases cmd with
      | tx cmd frame jitter contact token =>
          cases use with
          | forward => cases hx
          | ack => cases hx
          | _ => exact h.keep rfl rfl rfl trivial
      | _ => exact h.keep rfl rfl rfl trivial
  | _ => exact h.keep rfl rfl rfl trivial

/-- A cancel leaves nothing to wait. -/
theorem Ledger.cancel (h : Ledger C o w) (hc : x.cancels = true) (hh : x.hands = none)
    (hx : x.answered C) : Ledger C none (w.record x) where
  handed := by
    refine ⟨fun frame hf => ?_, h.handed⟩
    rw [hh] at hf
    cases hf
  answers := List.forall_mem_cons.mpr ⟨hx, h.answers⟩
  waits := by
    rw [World.record, waiting, hc]
    rfl

/-- Only a received frame is answered with a forward. -/
theorem step_forwards (e : Engine) {op : Op} (hop : ∀ frame now pid, op ≠ .onFrame frame now pid) :
    (step C e op).2.forwards = none := by
  cases op with
  | onFrame frame now pid => exact absurd rfl (hop frame now pid)
  | _ => rfl

theorem Ledger.called (h : Ledger C o w) (op : Op) :
    Ledger C ((step C w.engine op).2.forwards.or o) (w.called C op) := by
  have hw : Ledger C o { w with engine := (step C w.engine op).1 } := ⟨⟨h.handed, h.answers⟩, h.waits⟩
  exact hw.record (x := .engine op (step C w.engine op).2 _) rfl rfl ⟨w.engine, rfl⟩

theorem Ledger.of_log {w' : World} (h : Ledger C o w) (hl : w'.log = w.log) : Ledger C o w' where
  handed := hl ▸ h.handed
  answers := hl ▸ h.answers
  waits := hl ▸ h.waits

theorem ledger_frame (C : Crypto) (o : Option AirFrame) : RelayFrame C (Ledger C o) (Orderly C) where
  stands _ h := h.toOrderly
  view h hv := by
    simp only [World.relayView, Prod.mk.injEq] at hv
    exact h.of_log hv.2.2.2
  record h hx := h.neutral hx
  tick _ h := ⟨⟨h.handed, h.answers⟩, h.waits⟩
  call := by
    intro w op h hop
    have hc := h.called (C := C) op
    rw [step_forwards w.engine (by rintro frame now pid rfl; cases hop)] at hc
    exact hc

theorem held_frame (C : Crypto) : RelayFrame C (Held C) (Orderly C) where
  stands _ h := h.toOrderly
  view h hv := by
    simp only [World.relayView, Prod.mk.injEq] at hv
    rw [Held, World.slot, hv.2.2.1]
    exact Ledger.of_log h hv.2.2.2
  record h hx := Ledger.neutral h hx
  tick _ h := ⟨⟨h.handed, h.answers⟩, h.waits⟩
  call h hop := (ledger_frame C _).call h hop

/-! ### The programs -/

theorem failRadioClosed_held : Keeps (Held C) (Orderly C) (failRadioClosed C) := by
  have hframe := (ledger_frame C none).live
  have policy := hframe.policy
  have alloc := hframe.alloc
  have queue (cmd : RadioCmd) := hframe.queue cmd .control rfl
  have complete := hframe.calls .sendComplete rfl
  have reply := (ledger_frame C none).replies
  unfold failRadioClosed emitErr
  mvcgen [policy, alloc, queue, complete, reply]
  · have hw : Held C _ := ‹_›
    exact Ledger.cancel hw rfl rfl trivial
  all_goals
    have hw : Ledger C none _ := ‹_›
    exact hw.of_log rfl

theorem held_quiet (C : Crypto) : RelayQuiet C (Held C) (Orderly C) where
  toRelayFrame := held_frame C
  stood h := ⟨h.handed, h.answers⟩
  close := failRadioClosed_held

theorem forwardDone_held (id : ℕ) : Keeps (Held C) (Orderly C) (forwardDone id) := by
  refine triple_iff.mpr fun w hw => ?_
  rcases forwardDone_run id w with hrun | ⟨⟨fwd, hfwd, hid⟩, hrun⟩
  · rw [hrun]
    exact hw
  · -- a forward that is with the radio does not wait
    have hslot : w.slot = none := by
      rw [World.slot, hfwd]
      dsimp only
      rw [hid]
      rfl
    rw [hrun]
    rw [Held, hslot] at hw
    exact hw.of_log rfl

theorem clearInFlight_held (enabled : Bool) : Keeps (Held C) (Orderly C) (clearInFlight enabled) := by
  unfold clearInFlight
  mvcgen
  rename_i w hw _
  have hdrop : Ledger C w.slot { w with send := none, forward := none } := Ledger.of_log hw rfl
  exact hdrop.cancel (x := .cleared w.send.isSome) rfl rfl trivial

/-- Hand over what waits; a full queue leaves it waiting. -/
theorem trySend_forward (cmd jitter : ℕ) (frame : AirFrame) (contact : Option UInt8) (token : TxToken) :
    ⦃fun w => ⌜Ledger C (some frame) w⌝⦄ trySend (.tx cmd frame jitter contact token) .forward
    ⦃post⟨fun ok w => ⌜Ledger C (if ok then none else some frame) w⌝, fun _ w => ⌜Orderly C w⌝⟩⦄ := by
  unfold trySend
  mvcgen
  · rename_i w h _
    refine ⟨⟨⟨fun f hf => ?_, h.handed⟩, List.forall_mem_cons.mpr ⟨trivial, h.answers⟩⟩, rfl⟩
    cases hf
    exact h.waits
  · rename_i w h _
    exact Ledger.neutral h rfl

theorem pollForward_held (C : Crypto) : Keeps (Held C) (Orderly C) pollForward := by
  have hframe (frame : AirFrame) := (ledger_frame C (some frame)).live
  have jit (frame : AirFrame) := (hframe frame).jitter
  have sync (frame : AirFrame) := (hframe frame).sync
  have token (frame : AirFrame) := txToken_keeps (Ledger C (some frame)) (Orderly C) none
  have alloc (frame : AirFrame) := (hframe frame).alloc
  have queue := trySend_forward (C := C)
  unfold pollForward mintAndSend
  mvcgen [jit, sync, token, alloc, queue]
  · rename_i w hw fwd hfwd hdue
    have hnone : fwd.cmdId.isNone = true := (Bool.and_eq_true_iff.mp hdue).1
    have hslot : w.slot = some fwd.frame := by
      rw [World.slot, hfwd]
      exact if_pos hnone
    rw [Held, hslot] at hw
    exact hw.of_log rfl
  · rename_i ok w hw _
    cases ok with
    | false => exact hw.of_log rfl
    | true => exact hw.of_log rfl

/-! ### Receptions -/

theorem noteOrigin_held (bytes : List UInt8) (now : UInt64) :
    Keeps (Held C) (Orderly C) (callEngine C (.noteOrigin bytes now)) :=
  triple_iff.mpr fun _ hw => Ledger.called hw (.noteOrigin bytes now)

theorem sendAckFrame_held (ack : OutgoingFrame) : Keeps (Held C) (Orderly C) (sendAckFrame C ack) := by
  have hframe := (held_frame C).live
  have jit := hframe.jitter
  have sync := hframe.sync
  have token := txToken_keeps (Held C) (Orderly C) ack.contactId
  have alloc := hframe.alloc
  have note := noteOrigin_held (C := C)
  have queue (cmd : ℕ) (frame : AirFrame) (jitter : ℕ) (contact : Option UInt8) (token : TxToken) :
      Keeps (Held C) (Orderly C) (trySend (.tx cmd frame jitter contact token) .ack) := by
    unfold trySend
    mvcgen
    · rename_i w hw _
      have hroom : Ledger C w.slot
          { w with cmds := w.cmds ++ [.tx cmd frame jitter contact token] } := Ledger.of_log hw rfl
      exact Ledger.keep hroom rfl rfl rfl trivial
    · have hw : Held C _ := ‹_›
      exact Ledger.neutral hw rfl
  unfold sendAckFrame
  mvcgen [jit, sync, token, alloc, note, queue]

/-- Schedule what waits by the log. -/
theorem scheduleForward_held (C : Crypto) (fwd : OutgoingFrame) :
    ⦃fun w => ⌜Ledger C (some (airFromOutgoing fwd)) w⌝⦄ scheduleForward fwd
    ⦃post⟨fun _ w => ⌜Held C w⌝, fun _ w => ⌜Orderly C w⌝⟩⦄ := by
  have wait := (ledger_frame C (some (airFromOutgoing fwd))).live.wait
  unfold scheduleForward
  mvcgen [wait]
  have hw : Ledger C _ _ := ‹_›
  exact hw.of_log rfl

/-- The engine has answered: what it asks to forward waits, and the slot holds what waited. -/
def Answered (C : Crypto) (out : Output) (w : World) : Prop := Ledger C (out.forwards.or w.slot) w

theorem Answered.held {out : Output} (h : Answered C out w)
    (hout : ∀ kind ack event, out = .incoming (kind, ack, event) → False) : Held C w := by
  cases out with
  | incoming r => exact (hout _ _ _ rfl).elim
  | _ => exact h

theorem onFrame_held (frame : AirFrame) (now : UInt64) (pid : UInt32) :
    ⦃fun w => ⌜Held C w⌝⦄ callEngine C (.onFrame frame now pid)
    ⦃post⟨fun out w => ⌜Answered C out w⌝, fun _ w => ⌜Orderly C w⌝⟩⦄ :=
  triple_iff.mpr fun _ hw => Ledger.called hw (.onFrame frame now pid)

theorem onRx_held (frame : AirFrame) : Keeps (Held C) (Orderly C) (onRx C frame) := by
  have hquiet := held_quiet C
  have wait := hquiet.live.wait
  have call := onFrame_held (C := C)
  have finish (id : UInt64) := finishSend_keeps hquiet.quiet.toSendsKeep (r := .ok id .acknowledged) rfl
  have commit := hquiet.live.commits
  have pending := commitPending_keeps hquiet.live.idle
  have ack := sendAckFrame_held (C := C)
  have reply := hquiet.live.replies
  have forward := scheduleForward_held C
  unfold onRx
  mvcgen [wait, call, finish, commit, pending, ack, reply, forward]
  all_goals
    have hw : Answered C _ _ := ‹_›
    first
      | exact hw
      | exact hw.held ‹_›

theorem held_invariant (C : Crypto) : RelayInvariant C (Held C) (Orderly C) where
  toRelayQuiet := held_quiet C
  forwardDone := forwardDone_held
  receive := onRx_held
  forward := pollForward_held C
  clear := clearInFlight_held

/-- **The slot.**  Between the turns of a run the slot holds what the log says waits, and only what
waits has been handed to the radio. -/
theorem run_held (C : Crypto) (stored : Option (List UInt8)) (uid : Bytes 8) (hw : Bool)
    (is : List Input) :
    let w := run (World.step C) (.boot C stored uid hw) is
    Orderly C w ∧ (w.suspended = false → w.slot = waiting w.log) := by
  have hboot : Held C (.boot C stored uid hw) := ⟨⟨trivial, List.forall_mem_nil _⟩, rfl⟩
  have h := (held_invariant C).holds rfl hboot is
  split at h
  · rename_i hs
    exact ⟨h, fun hn => absurd hs (by rw [hn]; exact Bool.false_ne_true)⟩
  · exact ⟨h.toOrderly, fun _ => h.waits.symm⟩

end

/-! ### Every forward once -/

/-- The forwards that are neither handed over nor cancelled. -/
def owed : List Happening → List AirFrame
  | [] => []
  | x :: log =>
    if x.cancels then []
    else
      match x.hands with
      | some frame => (owed log).erase frame
      | none => x.forwards.toList ++ owed log

/-- Every hand-over is of a forward that is owed. -/
def HandedOnce : List Happening → Prop
  | [] => True
  | x :: log => (∀ frame, x.hands = some frame → frame ∈ owed log) ∧ HandedOnce log

/-- No forward is scheduled over one that waits. -/
def Apart : List Happening → Prop
  | [] => True
  | x :: log => (x.forwards ≠ none → waiting log = none) ∧ Apart log

instance : DecidablePred Apart := fun log =>
  match log with
  | [] => .isTrue trivial
  | _ :: log => @instDecidableAnd _ _ inferInstance (instDecidablePredListHappeningApart log)

/-- Then what is owed is what waits. -/
theorem owed_waiting {log : List Happening} (hh : Handed log) (ha : Apart log) :
    owed log = (waiting log).toList ∧ HandedOnce log := by
  induction log with
  | nil => exact ⟨rfl, trivial⟩
  | cons x log ih =>
      obtain ⟨hx, hh⟩ := hh
      obtain ⟨hf, ha⟩ := ha
      obtain ⟨howed, honce⟩ := ih hh ha
      refine ⟨?_, fun frame hframe => ?_, honce⟩
      · rw [owed, waiting, howed]
        cases hc : x.cancels with
        | true => rfl
        | false =>
            cases hhands : x.hands with
            | some frame =>
                rw [hx frame hhands]
                simp
            | none =>
                cases hforwards : x.forwards with
                | none => rfl
                | some frame =>
                    rw [hf (by rw [hforwards]; exact Option.some_ne_none frame)]
                    rfl
      · rw [howed, hx frame hframe]
        exact List.mem_singleton_self frame

/-- **No forward lost.**  In a run in which no forward is scheduled over one that waits, each is
handed to the radio once, cancelled, or still in the slot. -/
theorem forwards_kept (C : Crypto) (stored : Option (List UInt8)) (uid : Bytes 8) (hw : Bool)
    (is : List Input) :
    let w := run (World.step C) (.boot C stored uid hw) is
    Apart w.log → HandedOnce w.log ∧ (w.suspended = false → owed w.log = w.slot.toList) := by
  intro w hapart
  obtain ⟨h, hslot⟩ := run_held C stored uid hw is
  obtain ⟨howed, honce⟩ := owed_waiting h.handed hapart
  refine ⟨honce, fun hs => ?_⟩
  rw [howed, hslot hs]

namespace Sample

/-- Another frame of the other mesh, with a hop left. -/
def other : AirFrame :=
  [1, 0, 0, 0, 0, 1, 0, 0, 0, 2, 0, 0, 0, 4, 1, 0, 0, 0, 0, 0, 0, 0, 0, 0, 0, 0, 1, 0, 146, 253]

/-- The radio is on, and hears these frames. -/
def hearing (frames : List AirFrame) : List Input :=
  [switchOn, { turn := .sleep, wakes := [wake (frames.flatMap hears)] }] ++
    frames.map fun _ => { turn := .radioEvt, wakes := [wake [], wake []] }

/-- The forward that is due is handed over. -/
def due : List Input :=
  [{ turn := .sleep, wakes := [wake [.tick 300000]] }, { turn := .pollTimeouts, wakes := [wake []] }]

end Sample

/-- One forward is handed over. -/
theorem forwards_kept_sample :
    let w := run (World.step Sample.crypto) (.boot Sample.crypto none (Sample.bytes8 1) true)
      (Sample.hearing [Sample.foreign] ++ Sample.due)
    HandedOnce w.log ∧ (w.suspended = false → owed w.log = w.slot.toList) :=
  forwards_kept Sample.crypto none (Sample.bytes8 1) true _ (by decide +kernel)

/-- A second forward is heard within the delay of the first: two are owed, and the slot holds one. -/
theorem forward_lost :
    let w := run (World.step Sample.crypto) (.boot Sample.crypto none (Sample.bytes8 1) true)
      (Sample.hearing [Sample.foreign, Sample.other])
    w.suspended = false ∧ (owed w.log).length = 2 ∧ w.slot.toList.length = 1 := by
  decide +kernel

/-! ### Copies -/

/-- The valid frame that is received: its hops, and what no relay changes. -/
def Happening.heard : Happening → Option (UInt8 × List UInt8)
  | .engine (.onFrame bytes _ _) _ _ =>
    match decodeFrame bytes with
    | .ok (h, _) => some (h.hops, immutable bytes)
    | .error _ => none
  | _ => none

/-- A copy of `frame` with this many hops is received. -/
def Copy (hops : UInt8) (x : Happening) (frame : AirFrame) : Prop := x.heard = some (hops, immutable frame)

instance (hops : UInt8) (x : Happening) (frame : AirFrame) : Decidable (Copy hops x frame) :=
  inferInstanceAs (Decidable (_ = _))

/-- A copy with fewer hops than what was heard cancels a forward that waits, and one with as many
does not. -/
def Suppresses : List Happening → Prop
  | [] => True
  | x :: log =>
    (∀ frame ∈ waiting log,
      (Copy 0 x frame → waiting (x :: log) = none) ∧ (Copy 1 x frame → waiting (x :: log) = some frame)) ∧
    Suppresses log

instance : DecidablePred Suppresses := fun log =>
  match log with
  | [] => .isTrue trivial
  | _ :: log => @instDecidableAnd _ _ inferInstance (instDecidablePredListHappeningSuppresses log)

/-- No copy with fewer hops is received while a forward waits. -/
def NeverUndercut : List Happening → Prop
  | [] => True
  | x :: log => (∀ frame ∈ waiting log, ¬ Copy 0 x frame) ∧ NeverUndercut log

/-- A forward comes of a received frame with a hop left. -/
theorem forwards_received {C : Crypto} {x : Happening} (h : x.answered C) {frame : AirFrame}
    (hf : x.forwards = some frame) :
    ∃ bytes now pid out anew hd body, x = .engine (.onFrame bytes now pid) out anew ∧
      decodeFrame bytes = .ok (hd, body) ∧ hd.hops = 1 ∧ frame = rewritten (immutable bytes) ∧
      immutable frame = immutable bytes := by
  cases x with
  | engine op out anew =>
      obtain ⟨e, rfl⟩ := h
      cases op with
      | onFrame bytes now pid =>
          have hk : (e.onFrame C bytes now pid).2.1 = .forward := by
            change Output.forwards (.incoming (e.onFrame C bytes now pid).2) = some frame at hf
            revert hf
            generalize (e.onFrame C bytes now pid).2 = r
            obtain ⟨kind, ack, event⟩ := r
            cases kind with
            | forward => exact fun _ => rfl
            | _ => exact fun hf => nomatch hf
          obtain ⟨hd, body, fwd, hdec, hout, hhops, hprep, -⟩ := Engine.onFrame_forward hk
          obtain ⟨hr, himm, hlen⟩ := prepareForward_rewritten hprep
          have hframe : frame = fwd.bytes := by
            change Output.forwards (.incoming (e.onFrame C bytes now pid).2) = some frame at hf
            rw [hout] at hf
            exact (Option.some.inj hf).symm.trans (List.take_of_length_le hlen)
          rw [hframe]
          exact ⟨bytes, now, pid, _, anew, hd, body, rfl, hdec, hhops, hr, himm⟩
      | _ => exact nomatch hf
  | _ => exact nomatch hf

/-- What waits is a frame rewritten. -/
theorem waiting_rewritten {C : Crypto} {log : List Happening} (h : ∀ x ∈ log, x.answered C)
    {frame : AirFrame} (hw : waiting log = some frame) : frame = rewritten (immutable frame) := by
  induction log with
  | nil => cases hw
  | cons x log ih =>
      obtain ⟨hx, hlog⟩ := List.forall_mem_cons.mp h
      rw [waiting] at hw
      split at hw
      · cases hw
      cases hf : x.forwards with
      | none =>
          rw [hf] at hw
          exact ih hlog hw
      | some g =>
          rw [hf] at hw
          obtain rfl : g = frame := Option.some.inj hw
          obtain ⟨bytes, now, pid, out, anew, hd, body, -, -, -, hr, himm⟩ := forwards_received hx hf
          rw [himm]
          exact hr

/-- A copy received, whatever its hops, leaves a forward that waits. -/
theorem waiting_copy {C : Crypto} {x : Happening} {log : List Happening}
    (h : ∀ y ∈ x :: log, y.answered C) {frame : AirFrame} (hw : waiting log = some frame) {hops : UInt8}
    (hc : Copy hops x frame) : waiting (x :: log) = some frame := by
  obtain ⟨hx, hlog⟩ := List.forall_mem_cons.mp h
  have hkeep (hcancels : x.cancels = false) (hhands : x.hands = none)
      (hf : x.forwards = none ∨ x.forwards = some frame) : waiting (x :: log) = some frame := by
    rw [waiting, hw, hcancels, hhands]
    rcases hf with hf | hf
    · rw [hf]
      rfl
    · rw [hf]
      rfl
  cases x with
  | engine op out anew =>
      refine hkeep rfl rfl ?_
      cases hf : Happening.forwards (.engine op out anew) with
      | none => exact .inl rfl
      | some g =>
          -- it is forwarded again, as the same bytes
          obtain ⟨bytes, now, pid, out', anew', hd, body, he, hdec, -, hr, -⟩ := forwards_received hx hf
          cases he
          have himm : immutable bytes = immutable frame := by
            unfold Copy Happening.heard at hc
            dsimp only at hc
            rw [hdec] at hc
            exact congrArg Prod.snd (Option.some.inj hc)
          rw [hr, himm, ← waiting_rewritten hlog hw]
          exact .inr rfl
  | _ => cases hc

/-- **Copies.**  The slot holds what the log says waits, and only that is handed to the radio; and
copies suppress as they should exactly in the runs in which none with fewer hops is received while a
forward waits. -/
theorem copies_ignored (C : Crypto) (stored : Option (List UInt8)) (uid : Bytes 8) (hw : Bool)
    (is : List Input) :
    let w := run (World.step C) (.boot C stored uid hw) is
    Handed w.log ∧ (w.suspended = false → w.slot = waiting w.log) ∧
      (Suppresses w.log ↔ NeverUndercut w.log) := by
  intro w
  obtain ⟨h, hslot⟩ := run_held C stored uid hw is
  refine ⟨h.handed, hslot, ?_⟩
  have hall := h.answers
  change ∀ x ∈ w.log, x.answered C at hall
  generalize w.log = log at hall
  induction log with
  | nil => exact Iff.rfl
  | cons x log ih =>
      refine and_congr (forall₂_congr fun frame hwait => ⟨?_, ?_⟩) (ih (List.forall_mem_cons.mp hall).2)
      · rintro ⟨hlower, -⟩ hc
        have hnone := hlower hc
        rw [waiting_copy hall hwait hc] at hnone
        cases hnone
      · exact fun hnot => ⟨fun hc => absurd hc hnot, waiting_copy hall hwait⟩

namespace Sample

/-- The first frame as another relay has forwarded it. -/
def lower : AirFrame :=
  [1, 0, 0, 0, 0, 1, 0, 0, 0, 2, 0, 0, 0, 3, 0, 0, 0, 0, 0, 0, 0, 0, 0, 0, 0, 0, 1, 0, 145, 11]

end Sample

/-- The copy that another relay has forwarded is heard within the delay, and the forward is handed
over all the same. -/
theorem copy_ignored :
    let w := run (World.step Sample.crypto) (.boot Sample.crypto none (Sample.bytes8 1) true)
      (Sample.hearing [Sample.foreign, Sample.lower] ++ Sample.due)
    ¬ Suppresses w.log ∧ w.log.filterMap Happening.hands = [Sample.lower] := by
  decide +kernel

end LoraMesh
