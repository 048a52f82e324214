import LoraMesh.Core.Lifetime
import LoraMesh.Firmware.Forwards

/-!
# Firmware — Echoes

The frames of this node, heard back (`note_origin`, the origins of `queue_tx`, `poll_timeouts` and
`send_ack_frame`).  The log of a run tells the engine at every point of it, and so the relay cache.

* `run_traced`: the log tells the engine, its times are in order, and an ACK is registered as it is
  queued.
* `echoes_kept`: no ACK is relayed in the life of its entry, and no DATA frame that the relay cache
  knows.
-/

namespace LoraMesh

open Std.Do

set_option mvcgen.warning false

/-! ### The relay cache of the engine -/

namespace Engine

variable {C : Crypto}

/-- A received frame is observed, or leaves the relay cache as it is. -/
theorem onFrame_relayCache (e : Engine) (frame : List UInt8) (now : UInt64) (pid : UInt32) :
    (e.onFrame C frame now pid).1.relayCache = e.relayCache ∨
      (e.onFrame C frame now pid).1.relayCache = (e.relayCache.observe (frameKey C frame) now).2 := by
  have transit (e' : Engine) (hc : e'.relayCache = e.relayCache) (h : Header)
      (hmin : minFrameLen ≤ frame.length) :
      (e'.transit C frame h hmin now).1.relayCache = (e.relayCache.observe (frameKey C frame) now).2 := by
    rw [← cacheKey_slices C hmin, ← hc]
    unfold transit
    dsimp only
    split
    · rfl
    split
    · split
      · rfl
      · rfl
    · rfl
  unfold onFrame
  split
  swap
  · exact .inl rfl
  split
  · exact .inl rfl
  rename_i h body _
  split
  · exact .inl rfl
  split
  · exact .inl rfl
  split
  · exact .inr (transit e rfl h _)
  split
  · exact .inr (transit e rfl h _)
  obtain ⟨as, failed, r, hscan, -⟩ := scan_spec (C := C) h body (List.finRange maxContacts) e false
  rw [hscan]
  cases r with
  | none =>
      refine .inr (transit _ ?_ h _)
      cases failed with
      | false => rfl
      | true => rfl
  | some r => exact .inl (congrArg Prod.snd (acceptBody_fixed (C := C) r.1 r.2.1 h r.2.2 pid))

/-- A frame marked as ours is observed. -/
theorem noteOrigin_relayCache (e : Engine) {bytes : List UInt8} (now : UInt64) {h : Header}
    {body : List UInt8} (hd : decodeFrame bytes = .ok (h, body)) :
    (e.noteOrigin C bytes now).relayCache = (e.relayCache.observe (frameKey C bytes) now).2 := by
  have hlen := (decodeFrame_length hd).1
  have hmin : minFrameLen ≤ bytes.length := by
    simp only [minFrameLen, headerLen, crcLen] at hlen ⊢
    omega
  have hbody : body = (bytes.drop headerLen).take (bytes.length - 2 - headerLen) := decodeFrame_body hd
  have hkey : cacheKeyOfFrame C bytes body = some (frameKey C bytes) := by
    unfold cacheKeyOfFrame
    rw [dif_pos (Nat.le_of_add_right_le hmin), hbody]
    exact congrArg some (cacheKey_slices C hmin)
  unfold noteOrigin
  rw [hd]
  dsimp only
  rw [hkey]

end Engine

/-! ### The engine, by the log -/

/-- The engine after what the log says. -/
def engineAt (C : Crypto) (e : Engine) : List Happening → Engine
  | [] => e
  | .engine op _ _ :: log => (step C (engineAt C e log) op).1
  | _ :: log => engineAt C e log

def Happening.call : Happening → Option Op
  | .engine op _ _ => some op
  | _ => none

/-- The frame that the relay cache is asked about, and when. -/
def Happening.observes : Happening → Option (List UInt8 × UInt64)
  | .engine (.onFrame bytes now _) _ _ => some (bytes, now)
  | .engine (.noteOrigin bytes now) _ _ => some (bytes, now)
  | _ => none

/-- The ACK that is queued. -/
def Happening.acks : Happening → Option AirFrame
  | .queued (.tx _ frame _ _ _) .ack _ => some frame
  | _ => none

/-- Each answer of the engine is the one it gives at that point. -/
def Replays (C : Crypto) (e : Engine) : List Happening → Prop
  | [] => True
  | x :: log =>
    (∀ op out anew, x = .engine op out anew → out = (step C (engineAt C e log) op).2) ∧ Replays C e log

/-- The relay cache is asked in the order of time, and up to now. -/
def Timely (now : ℕ) : List Happening → Prop
  | [] => True
  | x :: log =>
    (∀ bytes t, x.observes = some (bytes, t) → t.toNat ≤ now ∧ Timely t.toNat log) ∧ Timely now log

/-- Each ACK is a frame, and was registered just before it was queued. -/
def Registered : List Happening → Prop
  | [] => True
  | x :: log =>
    (∀ frame, x.acks = some frame →
      (∃ h body, decodeFrame frame = .ok (h, body)) ∧
        ∃ t out anew rest, log = .engine (.noteOrigin frame t) out anew :: rest) ∧
    Registered log

/-- What the log of a run from the engine `e` tells. -/
structure Traced (C : Crypto) (e : Engine) (w : World) : Prop where
  engine : w.engine = engineAt C e w.log
  replays : Replays C e w.log
  -- the clock is one of 64 bits
  timely : w.now < 2 ^ 64 → Timely (w.now / ticksPerMs) w.log
  registered : Registered w.log

section

variable {C : Crypto} {e : Engine} {w : World} {x : Happening}

theorem Timely.mono {now now' : ℕ} (hle : now ≤ now') {log : List Happening} (h : Timely now log) :
    Timely now' log := by
  induction log with
  | nil => trivial
  | cons x log ih =>
      obtain ⟨hx, hlog⟩ := h
      exact ⟨fun bytes t ht => ⟨(hx bytes t ht).1.trans hle, (hx bytes t ht).2⟩, ih hlog⟩

/-- A happening that is no engine call and no ACK. -/
theorem Traced.record (h : Traced C e w) (hx : x.call = none) (ha : x.acks = none) :
    Traced C e (w.record x) where
  engine := by
    have hlog : engineAt C e (x :: w.log) = engineAt C e w.log := by
      cases x with
      | engine op out anew => cases hx
      | _ => rfl
    exact h.engine.trans hlog.symm
  replays := by
    refine ⟨fun op out anew hop => ?_, h.replays⟩
    rw [hop] at hx
    cases hx
  timely hnow := by
    refine ⟨fun bytes t ht => ?_, h.timely hnow⟩
    cases x with
    | engine op out anew => cases hx
    | _ => cases ht
  registered := by
    refine ⟨fun frame hf => ?_, h.registered⟩
    rw [ha] at hf
    cases hf

/-- A call of the engine that asks the relay cache nothing. -/
theorem Traced.called (h : Traced C e w) {op : Op} (hop : op.relays = false) : Traced C e (w.called C op) where
  engine := congrArg (fun e => (step C e op).1) h.engine
  replays := by
    refine ⟨fun op' out anew he => ?_, h.replays⟩
    cases he
    rw [← h.engine]
  timely hnow := by
    refine ⟨fun bytes t ht => ?_, h.timely hnow⟩
    cases op with
    | onFrame => cases hop
    | noteOrigin => cases hop
    | _ => cases ht
  registered := ⟨nofun, h.registered⟩

/-- A call of the engine, with the time that was read for it. -/
theorem Traced.asked (h : Traced C e w) {op : Op} {now : UInt64}
    (ht : w.now < 2 ^ 64 → now.toNat ≤ w.now / ticksPerMs ∧ Timely now.toNat w.log)
    (hop : ∀ out anew bytes t, Happening.observes (.engine op out anew) = some (bytes, t) → t = now) :
    Traced C e (w.called C op) where
  engine := congrArg (fun e => (step C e op).1) h.engine
  replays := by
    refine ⟨fun op' out anew he => ?_, h.replays⟩
    cases he
    rw [← h.engine]
  timely hnow := by
    refine ⟨fun bytes t hobs => ?_, h.timely hnow⟩
    rw [hop _ _ bytes t hobs]
    exact ht hnow
  registered := ⟨nofun, h.registered⟩

theorem Traced.of_eq {w' : World} (h : Traced C e w) (he : w'.engine = w.engine) (hn : w'.now = w.now)
    (hl : w'.log = w.log) : Traced C e w' where
  engine := by rw [he, hl, h.engine]
  replays := hl ▸ h.replays
  timely hnow := by
    rw [hn] at hnow ⊢
    rw [hl]
    exact h.timely hnow
  registered := hl ▸ h.registered

theorem Traced.tick (h : Traced C e w) (ticks : ℕ) : Traced C e { w with now := w.now + ticks } where
  engine := h.engine
  replays := h.replays
  timely hnow :=
    (h.timely ((Nat.le_add_right _ _).trans_lt hnow)).mono (Nat.div_le_div_right (Nat.le_add_right _ _))
  registered := h.registered

theorem Traced.neutral (h : Traced C e w) (hx : x.relays = false) : Traced C e (w.record x) := by
  cases x with
  | engine op out anew => cases hx
  | queued cmd use valid =>
      refine h.record rfl ?_
      cases cmd with
      | tx cmd frame jitter contact token =>
          cases use with
          | ack => cases hx
          | _ => rfl
      | _ => rfl
  | _ => exact h.record rfl rfl

theorem traced_frame (C : Crypto) (e : Engine) : RelayFrame C (Traced C e) (Traced C e) where
  stands _ h := h
  view h hv := by
    simp only [World.relayView, Prod.mk.injEq] at hv
    exact h.of_eq hv.1 hv.2.1 hv.2.2.2
  record h hx := h.neutral hx
  tick ticks h := h.tick ticks
  call h hop := h.called hop

/-- The clock was read as `now`, and the relay cache has not been asked since. -/
structure Read (C : Crypto) (e : Engine) (now : UInt64) (w : World) : Prop extends Traced C e w where
  read : w.now < 2 ^ 64 → now.toNat ≤ w.now / ticksPerMs ∧ Timely now.toNat w.log

theorem Traced.read (h : Traced C e w) : Read C e (UInt64.ofNat (w.now / ticksPerMs)) w where
  toTraced := h
  read hnow := by
    have hms : (UInt64.ofNat (w.now / ticksPerMs)).toNat = w.now / ticksPerMs :=
      UInt64.toNat_ofNat_of_lt ((Nat.div_le_self _ _).trans_lt hnow)
    rw [hms]
    exact ⟨Nat.le_refl _, h.timely hnow⟩

theorem Timely.cons {now : ℕ} {log : List Happening} (h : Timely now log) (hx : x.observes = none) :
    Timely now (x :: log) := by
  refine ⟨fun bytes t ht => ?_, h⟩
  rw [hx] at ht
  cases ht

theorem read_frame (C : Crypto) (e : Engine) (now : UInt64) :
    RelayFrame C (Read C e now) (Traced C e) where
  stands _ h := h.toTraced
  view h hv := by
    simp only [World.relayView, Prod.mk.injEq] at hv
    refine ⟨h.of_eq hv.1 hv.2.1 hv.2.2.2, ?_⟩
    rw [hv.2.1, hv.2.2.2]
    exact h.read
  record h hx := by
    refine ⟨h.neutral hx, fun hnow => ⟨(h.read hnow).1, (h.read hnow).2.cons ?_⟩⟩
    rename_i w x
    cases x with
    | engine op out anew => cases hx
    | _ => rfl
  tick ticks h :=
    ⟨h.toTraced.tick ticks, fun hnow =>
      ⟨(h.read ((Nat.le_add_right _ _).trans_lt hnow)).1.trans
        (Nat.div_le_div_right (Nat.le_add_right _ _)), (h.read ((Nat.le_add_right _ _).trans_lt hnow)).2⟩⟩
  call := by
    intro w op h hop
    refine ⟨h.toTraced.called hop, fun hnow => ⟨(h.read hnow).1, (h.read hnow).2.cons ?_⟩⟩
    cases op with
    | onFrame => cases hop
    | noteOrigin => cases hop
    | _ => rfl

/-! ### The programs -/

theorem failRadioClosed_traced : Keeps (Traced C e) (Traced C e) (failRadioClosed C) := by
  have hframe := (traced_frame C e).live
  have policy := hframe.policy
  have alloc := hframe.alloc
  have queue (cmd : RadioCmd) := hframe.queue cmd .control rfl
  have complete := hframe.calls .sendComplete rfl
  have reply := (traced_frame C e).replies
  unfold failRadioClosed emitErr
  mvcgen [policy, alloc, queue, complete, reply]
  all_goals
    have hw : Traced C e _ := ‹_›
    first
      | exact hw.of_eq rfl rfl rfl
      | exact hw.record rfl rfl

theorem traced_quiet (C : Crypto) (e : Engine) : RelayQuiet C (Traced C e) (Traced C e) where
  toRelayFrame := traced_frame C e
  stood h := h.of_eq rfl rfl rfl
  close := failRadioClosed_traced

theorem forwardDone_traced (id : ℕ) : Keeps (Traced C e) (Traced C e) (forwardDone id) := by
  refine triple_iff.mpr fun w hw => ?_
  rcases forwardDone_run id w with hrun | ⟨-, hrun⟩
  · rw [hrun]
    exact hw
  · rw [hrun]
    exact hw.of_eq rfl rfl rfl

theorem clearInFlight_traced (enabled : Bool) : Keeps (Traced C e) (Traced C e) (clearInFlight enabled) := by
  unfold clearInFlight
  mvcgen
  rename_i w hw _
  have hdrop : Traced C e { w with send := none, forward := none } := hw.of_eq rfl rfl rfl
  exact hdrop.record rfl rfl

/-- A transmission that is no ACK. -/
theorem trySend_traced (cmd jitter : ℕ) (frame : AirFrame) (contact : Option UInt8) (token : TxToken)
    (use : Use) (huse : (use == .ack) = false) :
    Keeps (Traced C e) (Traced C e) (trySend (.tx cmd frame jitter contact token) use) := by
  unfold trySend
  mvcgen
  · rename_i w hw _
    have hroom : Traced C e { w with cmds := w.cmds ++ [.tx cmd frame jitter contact token] } :=
      hw.of_eq rfl rfl rfl
    refine hroom.record rfl ?_
    cases use with
    | ack => cases huse
    | _ => rfl
  · rename_i w hw _
    exact hw.record rfl rfl

theorem pollForward_traced : Keeps (Traced C e) (Traced C e) pollForward := by
  have hframe := (traced_frame C e).live
  have jit := hframe.jitter
  have sync := hframe.sync
  have token := txToken_keeps (Traced C e) (Traced C e) none
  have alloc := hframe.alloc
  have queue (cmd jitter : ℕ) (frame : AirFrame) (contact : Option UInt8) (token : TxToken) :=
    trySend_traced (C := C) (e := e) cmd jitter frame contact token .forward rfl
  unfold pollForward mintAndSend
  mvcgen [jit, sync, token, alloc, queue]
  all_goals
    have hw : Traced C e _ := ‹_›
    exact hw.of_eq rfl rfl rfl

/-- The relay cache has just been asked about this frame. -/
structure Noted (C : Crypto) (e : Engine) (frame : List UInt8) (w : World) : Prop extends Traced C e w where
  last : ∃ t out anew rest, w.log = .engine (.noteOrigin frame t) out anew :: rest

theorem noteOrigin_traced (bytes : List UInt8) (now : UInt64) :
    ⦃fun w => ⌜Read C e now w⌝⦄ callEngine C (.noteOrigin bytes now)
    ⦃post⟨fun _ w => ⌜Noted C e bytes w⌝, fun _ w => ⌜Traced C e w⌝⟩⦄ := by
  refine triple_iff.mpr fun w hw => ⟨hw.asked hw.read fun _ _ b t ht => ?_, now, _, _, w.log, rfl⟩
  cases ht
  rfl

/-- An ACK is queued, just registered. -/
theorem trySend_ack {frame : AirFrame} (hframe : ∃ h body, decodeFrame frame = .ok (h, body))
    (cmd jitter : ℕ) (contact : Option UInt8) (token : TxToken) :
    ⦃fun w => ⌜Noted C e frame w⌝⦄ trySend (.tx cmd frame jitter contact token) .ack
    ⦃post⟨fun _ w => ⌜Traced C e w⌝, fun _ w => ⌜Traced C e w⌝⟩⦄ := by
  unfold trySend
  mvcgen
  · rename_i w hw _
    have hroom : Traced C e { w with cmds := w.cmds ++ [.tx cmd frame jitter contact token] } :=
      hw.of_eq rfl rfl rfl
    refine
      { engine := hroom.engine
        replays := ⟨fun _ _ _ he => (nomatch he), hroom.replays⟩
        timely := fun hnow => ⟨fun _ _ ht => (nomatch ht), hroom.timely hnow⟩
        registered := ⟨fun f hf => ?_, hroom.registered⟩ }
    cases hf
    exact ⟨hframe, hw.last⟩
  · rename_i w hw _
    exact hw.toTraced.record rfl rfl

theorem airFromOutgoing_eq {f : OutgoingFrame} (h : ∃ hd body, decodeFrame f.bytes = .ok (hd, body)) :
    airFromOutgoing f = f.bytes := by
  obtain ⟨hd, body, hdec⟩ := h
  exact List.take_of_length_le (decodeFrame_length hdec).2

theorem sendAckFrame_traced {ack : OutgoingFrame}
    (hack : ∃ h body, decodeFrame ack.bytes = .ok (h, body)) :
    Keeps (Traced C e) (Traced C e) (sendAckFrame C ack) := by
  have hframe := (traced_frame C e).live
  have jit := hframe.jitter
  have sync := hframe.sync
  have token := txToken_keeps (Traced C e) (Traced C e) ack.contactId
  have alloc := hframe.alloc
  have note := noteOrigin_traced (C := C) (e := e)
  have queue := trySend_ack (C := C) (e := e) hack
  unfold sendAckFrame
  rw [airFromOutgoing_eq hack]
  mvcgen [jit, sync, token, alloc, note, queue]
  have hw : Traced C e _ := ‹_›
  exact hw.read

theorem scheduleForward_traced (fwd : OutgoingFrame) :
    Keeps (Traced C e) (Traced C e) (scheduleForward fwd) := by
  have wait := (traced_frame C e).live.wait
  unfold scheduleForward
  mvcgen [wait]
  have hw : Traced C e _ := ‹_›
  exact hw.of_eq rfl rfl rfl

/-- The engine has answered a received frame. -/
structure Received (C : Crypto) (e : Engine) (out : Output) (w : World) : Prop extends Traced C e w where
  ack : ∀ kind ack event, out = .incoming (kind, some ack, event) → kind ≠ .forward →
    ∃ h body, decodeFrame ack.bytes = .ok (h, body)

theorem onFrame_traced (frame : List UInt8) (now : UInt64) (pid : UInt32) :
    ⦃fun w => ⌜Read C e now w⌝⦄ callEngine C (.onFrame frame now pid)
    ⦃post⟨fun out w => ⌜Received C e out w⌝, fun _ w => ⌜Traced C e w⌝⟩⦄ := by
  refine triple_iff.mpr fun w hw => ⟨hw.asked hw.read fun _ _ b t ht => ?_, ?_⟩
  · cases ht
    rfl
  · intro kind ack event hout hkind
    exact Engine.onFrame_ack (Output.incoming.inj hout) hkind

theorem onRx_traced (frame : AirFrame) : Keeps (Traced C e) (Traced C e) (onRx C frame) := by
  have hquiet := traced_quiet C e
  have wait (now : UInt64) := (read_frame C e now).live.wait
  have call := onFrame_traced (C := C) (e := e)
  have finish (id : UInt64) := finishSend_keeps hquiet.quiet.toSendsKeep (r := .ok id .acknowledged) rfl
  have commit := hquiet.live.commits
  have pending := commitPending_keeps hquiet.live.idle
  have ack (f : OutgoingFrame) (h : ∃ hd body, decodeFrame f.bytes = .ok (hd, body)) :=
    sendAckFrame_traced (C := C) (e := e) h
  have reply := hquiet.live.replies
  have forward := scheduleForward_traced (C := C) (e := e)
  unfold onRx
  mvcgen [wait, call, finish, commit, pending, ack, reply, forward]
  case vc2.pre =>
    have hw : Traced C e _ := ‹_›
    exact hw.read
  case vc6.h =>
    rename_i ack hack _ _
    subst hack
    have hw : Received C e _ _ := ‹_›
    exact hw.ack _ _ _ rfl IncomingKind.noConfusion
  case vc15 =>
    rename_i ack hack
    subst hack
    have hw : Received C e _ _ := ‹_›
    exact fun _ _ => hw.ack _ _ _ rfl IncomingKind.noConfusion
  all_goals
    have hw : Received C e _ _ := ‹_›
    exact hw.toTraced

theorem traced_invariant (C : Crypto) (e : Engine) : RelayInvariant C (Traced C e) (Traced C e) where
  toRelayQuiet := traced_quiet C e
  forwardDone := forwardDone_traced
  receive := onRx_traced
  forward := pollForward_traced
  clear := clearInFlight_traced

/-- The log of a run tells the engine. -/
theorem run_traced {w : World} (hs : w.suspended = false) (h : Traced C e w) (is : List Input) :
    Traced C e (run (World.step C) w is) := by
  have h := (traced_invariant C e).holds hs h is
  split at h
  · exact h
  · exact h

theorem traced_boot (C : Crypto) (stored : Option (List UInt8)) (uid : Bytes 8) (hw : Bool) :
    Traced C (bootEngine C stored uid hw).1 (.boot C stored uid hw) :=
  ⟨rfl, trivial, fun _ => trivial, trivial⟩

end

/-! ### The life of an entry, by the log -/

/-- The keys that the relay cache is asked about, and when. -/
def asked (C : Crypto) (log : List Happening) : List (Bytes 32 × UInt64) :=
  (log.filterMap Happening.observes).map fun p => (frameKey C p.1, p.2)

/-- The relay cache met the key at this time, when it had no live entry for it. -/
def Met (C : Crypto) (e : Engine) : List Happening → Bytes 32 → UInt64 → Prop
  | [], _, _ => False
  | x :: log, key, t =>
    (∃ bytes, x.observes = some (bytes, t) ∧ frameKey C bytes = key ∧
      ((engineAt C e log).relayCache.observe key t).1 = .new) ∨ Met C e log key t

/-- The frames that the relay cache has been asked about from a time on. -/
def heardSince (t : UInt64) (log : List Happening) : Finset (List UInt8) :=
  (((log.filterMap Happening.observes).filter fun p => t ≤ p.2).map fun p => immutable p.1).toFinset

section

variable {C : Crypto} {e : Engine}

/-- One happening, and the relay cache. -/
theorem relayCache_cons (C : Crypto) (e : Engine) (x : Happening) (log : List Happening) :
    (engineAt C e (x :: log)).relayCache = (engineAt C e log).relayCache ∨
      ∃ bytes t, x.observes = some (bytes, t) ∧
        (engineAt C e (x :: log)).relayCache =
          ((engineAt C e log).relayCache.observe (frameKey C bytes) t).2 := by
  cases x with
  | engine op out anew =>
      cases op with
      | onFrame bytes t pid =>
          exact ((engineAt C e log).onFrame_relayCache bytes t pid).imp_right fun heq =>
            ⟨bytes, t, rfl, heq⟩
      | noteOrigin bytes t =>
          cases hd : decodeFrame bytes with
          | error r =>
              refine .inl ?_
              change ((engineAt C e log).noteOrigin C bytes t).relayCache = _
              unfold Engine.noteOrigin
              rw [hd]
          | ok r => exact .inr ⟨bytes, t, rfl, (engineAt C e log).noteOrigin_relayCache t hd⟩
      | _ => exact .inl (step_relayCache C (engineAt C e log) rfl)
  | _ => exact .inl rfl

theorem relayCache_ok (hd : RelayCache.Distinct e.relayCache.toList)
    (hs : RelayCache.Sourced (Met C e []) e.relayCache.toList) (log : List Happening) :
    RelayCache.Distinct (engineAt C e log).relayCache.toList ∧
      RelayCache.Sourced (Met C e log) (engineAt C e log).relayCache.toList := by
  induction log with
  | nil => exact ⟨hd, hs⟩
  | cons x log ih =>
      obtain ⟨hdist, hsrc⟩ := ih
      rcases relayCache_cons C e x _ with heq | ⟨bytes, t, hobs, heq⟩
      · rw [heq]
        refine ⟨hdist, fun a ha hocc => ?_⟩
        obtain ⟨t, ht, hexp⟩ := hsrc a ha hocc
        exact ⟨t, .inr ht, hexp⟩
      · rw [heq]
        exact ⟨RelayCache.observe_distinct hdist _ _, RelayCache.observe_sourced hsrc (fun _ _ => .inr)
          fun hnew => .inl ⟨bytes, hobs, rfl, hnew⟩⟩

theorem Met.asked {key : Bytes 32} {t : UInt64} {log : List Happening} (h : Met C e log key t) :
    (key, t) ∈ asked C log := by
  induction log with
  | nil => exact h.elim
  | cons x log ih =>
      unfold LoraMesh.asked
      rw [List.filterMap_cons]
      rcases h with ⟨bytes, hobs, rfl, -⟩ | h
      · rw [hobs]
        exact List.mem_cons_self
      · split
        · exact ih h
        · exact List.mem_cons_of_mem _ (ih h)

/-- An entry that expires no earlier was observed no earlier. -/
theorem satAdd64_le {a b : UInt64} (ha : a.toNat + 8000 < 2 ^ 64)
    (h : satAdd64 a relayCacheTtlMs ≤ satAdd64 b relayCacheTtlMs) : a ≤ b := by
  have httl : relayCacheTtlMs.toNat = 8000 := rfl
  rw [UInt64.le_iff_toNat_le] at h ⊢
  unfold satAdd64 at h
  rw [httl, if_pos ha] at h
  by_contra hlt
  rw [if_pos (by omega)] at h
  rw [UInt64.toNat_add, UInt64.toNat_add, httl] at h
  omega

theorem toNat_satAdd64 {a : UInt64} (ha : a.toNat + 8000 < 2 ^ 64) :
    (satAdd64 a relayCacheTtlMs).toNat = a.toNat + 8000 := by
  have httl : relayCacheTtlMs.toNat = 8000 := rfl
  unfold satAdd64
  rw [httl, if_pos ha, UInt64.toNat_add, httl, Nat.mod_eq_of_lt ha]

theorem heardSince_cons (t : UInt64) (x : Happening) (log : List Happening) :
    heardSince t log ⊆ heardSince t (x :: log) := by
  intro parts hp
  simp only [heardSince, List.mem_toFinset, List.mem_map, List.mem_filter, List.mem_filterMap] at hp ⊢
  obtain ⟨p, ⟨⟨y, hy, hobs⟩, hle⟩, hparts⟩ := hp
  exact ⟨p, ⟨⟨y, List.mem_cons_of_mem x hy, hobs⟩, hle⟩, hparts⟩

/-- What the relay cache was asked since is heard since. -/
theorem mem_heard {log : List Happening} {key : Bytes 32} {t t' : UInt64} (h : (key, t') ∈ asked C log)
    (hle : t ≤ t') : key ∈ (heardSince t log).image C.sha256 := by
  simp only [asked, List.mem_map] at h
  obtain ⟨p, hp, heq⟩ := h
  cases heq
  refine Finset.mem_image.mpr ⟨immutable p.1, ?_, rfl⟩
  simp only [heardSince, List.mem_toFinset, List.mem_map, List.mem_filter]
  exact ⟨p, ⟨hp, decide_eq_true hle⟩, rfl⟩

/-- The entry made by the registering of a frame lives on. -/
theorem registered_lives (hd : RelayCache.Distinct e.relayCache.toList)
    (hs : RelayCache.Sourced (Met C e []) e.relayCache.toList) {frame : List UInt8} {t : UInt64}
    (ht : t.toNat + 8000 < 2 ^ 64) (hframe : ∃ h body, decodeFrame frame = .ok (h, body)) {out : Output}
    {anew : Bool} {pre : List Happening}
    (hnew : ((engineAt C e pre).relayCache.observe (frameKey C frame) t).1 = .new)
    (mid : List Happening)
    (htimes : ∀ x ∈ mid, ∀ bytes t', x.observes = some (bytes, t') → t ≤ t' ∧ t'.toNat < t.toNat + 8000)
    (hcard : (heardSince t (mid ++ .engine (.noteOrigin frame t) out anew :: pre)).card ≤ 64) :
    RelayCache.Lives (frameKey C frame) (satAdd64 t relayCacheTtlMs)
      (engineAt C e (mid ++ .engine (.noteOrigin frame t) out anew :: pre)).relayCache.toList := by
  induction mid with
  | nil =>
      obtain ⟨hd, body, hdec⟩ := hframe
      have heq := (engineAt C e pre).noteOrigin_relayCache (C := C) t hdec
      change RelayCache.Lives _ _ (((engineAt C e pre).noteOrigin C frame t).relayCache).toList
      rw [heq]
      exact RelayCache.observe_new hnew
  | cons x mid ih =>
      rw [List.cons_append] at hcard ⊢
      have hlives := ih (fun y hy => htimes y (List.mem_cons_of_mem x hy))
        ((Finset.card_le_card (heardSince_cons t x _)).trans hcard)
      obtain ⟨hdist, hsrc⟩ := relayCache_ok (C := C) hd hs _
      rcases relayCache_cons C e x _ with heq | ⟨bytes, t', hobs, heq⟩
      · rw [heq]
        exact hlives
      · rw [heq]
        obtain ⟨hle, hlt⟩ := htimes x List.mem_cons_self bytes t' hobs
        have hnow : t' < satAdd64 t relayCacheTtlMs := by
          rw [UInt64.lt_iff_toNat_lt, toNat_satAdd64 ht]
          exact hlt
        refine RelayCache.observe_lives hdist hlives hnow (H := (heardSince t (x :: _)).image C.sha256) ?_ ?_
          (Finset.card_image_le.trans hcard)
        · intro a ha hocc hexp
          obtain ⟨t'', hmet, heq⟩ := hsrc a ha hocc
          rw [heq] at hexp
          exact Finset.image_subset_image (heardSince_cons t x _) (mem_heard hmet.asked (satAdd64_le ht hexp))
        · have hasked : (frameKey C bytes, t') ∈
              asked C (x :: (mid ++ .engine (.noteOrigin frame t) out anew :: pre)) := by
            unfold asked
            rw [List.filterMap_cons, hobs]
            exact List.mem_cons_self
          exact mem_heard hasked hle

end

/-! ### Frames of our own -/

/-- The DATA frame that is queued. -/
def Happening.sends : Happening → Option AirFrame
  | .queued (.tx _ frame _ _ _) .data _ => some frame
  | _ => none

/-- What is forwarded is no copy of a DATA frame queued before, nor of an ACK queued at most eight
seconds before with fewer than 64 other frames heard or registered since. -/
def Unrelayed : List Happening → Prop
  | [] => True
  | x :: log =>
    (∀ bytes now pid out anew, x = .engine (.onFrame bytes now pid) out anew → out.forwards ≠ none →
      (∀ frame ∈ log.filterMap Happening.sends, immutable bytes ≠ immutable frame) ∧
      ∀ mid ack frame t out' anew' pre,
        log = mid ++ ack :: .engine (.noteOrigin frame t) out' anew' :: pre → ack.acks = some frame →
        now.toNat < t.toNat + 8000 → ((heardSince t log).erase (immutable frame)).card < 64 →
        immutable bytes ≠ immutable frame) ∧
    Unrelayed log

/-- The frame can be relayed. -/
def hopLeft (bytes : List UInt8) : Bool :=
  match decodeFrame bytes with
  | .ok (h, _) => h.hops == 1
  | .error _ => false

/-- A copy with a hop left of a DATA frame of ours is in the relay cache when it is received, and an
ACK is not when it is registered. -/
def Happening.known (C : Crypto) (e : Engine) (log : List Happening) : Happening → Prop
  | .engine (.onFrame bytes now _) _ _ =>
    hopLeft bytes = true → immutable bytes ∈ (log.filterMap Happening.sends).map immutable →
      ((engineAt C e log).relayCache.observe (frameKey C bytes) now).1 = .duplicate
  | .engine (.noteOrigin bytes now) _ _ =>
    ((engineAt C e log).relayCache.observe (frameKey C bytes) now).1 = .new
  | _ => True

instance (C : Crypto) (e : Engine) (log : List Happening) (x : Happening) :
    Decidable (x.known C e log) := by
  cases x with
  | engine op out anew =>
      cases op with
      | onFrame bytes now pid =>
          exact inferInstanceAs (Decidable (hopLeft bytes = true → _ → _))
      | noteOrigin bytes now => exact inferInstanceAs (Decidable (_ = Observe.new))
      | _ => exact .isTrue trivial
  | _ => exact .isTrue trivial

def EchoesKnown (C : Crypto) (e : Engine) : List Happening → Prop
  | [] => True
  | x :: log => x.known C e log ∧ EchoesKnown C e log

instance (C : Crypto) (e : Engine) (log : List Happening) : Decidable (EchoesKnown C e log) := by
  induction log with
  | nil => exact .isTrue trivial
  | cons x log ih => exact inferInstanceAs (Decidable (x.known C e log ∧ EchoesKnown C e log))

section

variable {C : Crypto} {e : Engine}

theorem Timely.le {now : ℕ} {log : List Happening} (h : Timely now log) {x : Happening} (hx : x ∈ log)
    {bytes : List UInt8} {t : UInt64} (hobs : x.observes = some (bytes, t)) : t.toNat ≤ now := by
  induction log with
  | nil => cases hx
  | cons y log ih =>
      rcases List.mem_cons.mp hx with rfl | hx
      · exact (h.1 bytes t hobs).1
      · exact ih h.2 hx

/-- What holds of a log holds of the earlier part. -/
theorem Timely.suffix {now : ℕ} {mid log : List Happening} (h : Timely now (mid ++ log)) :
    Timely now log := by
  induction mid with
  | nil => exact h
  | cons x mid ih => exact ih h.2

theorem Replays.suffix {mid log : List Happening} (h : Replays C e (mid ++ log)) : Replays C e log := by
  induction mid with
  | nil => exact h
  | cons x mid ih => exact ih h.2

theorem Registered.suffix {mid log : List Happening} (h : Registered (mid ++ log)) : Registered log := by
  induction mid with
  | nil => exact h
  | cons x mid ih => exact ih h.2

theorem EchoesKnown.suffix {mid log : List Happening} (h : EchoesKnown C e (mid ++ log)) :
    EchoesKnown C e log := by
  induction mid with
  | nil => exact h
  | cons x mid ih => exact ih h.2

/-- After a query at `t` come queries no earlier. -/
theorem Timely.after {now : ℕ} {mid pre : List Happening} {x : Happening} {bytes : List UInt8} {t : UInt64}
    (h : Timely now (mid ++ x :: pre)) (hx : x.observes = some (bytes, t)) {y : Happening} (hy : y ∈ mid)
    {bytes' : List UInt8} {t' : UInt64} (hobs : y.observes = some (bytes', t')) : t ≤ t' := by
  induction mid with
  | nil => cases hy
  | cons z mid ih =>
      rcases List.mem_cons.mp hy with rfl | hy
      · have hbefore := (h.1 bytes' t' hobs).2
        rw [UInt64.le_iff_toNat_le]
        exact hbefore.le (List.mem_append_right mid List.mem_cons_self) hx
      · exact ih h.2 hy

/-- A frame that is forwarded is new to the relay cache, and has a hop left. -/
theorem forward_new {log : List Happening} {bytes : List UInt8} {now : UInt64} {pid : UInt32} {out : Output}
    {anew : Bool} (h : Replays C e (.engine (.onFrame bytes now pid) out anew :: log))
    (hf : out.forwards ≠ none) :
    ((engineAt C e log).relayCache.observe (frameKey C bytes) now).1 = .new ∧ hopLeft bytes = true := by
  obtain rfl := h.1 _ _ _ rfl
  have hk : ((engineAt C e log).onFrame C bytes now pid).2.1 = .forward := by
    change Output.forwards (.incoming ((engineAt C e log).onFrame C bytes now pid).2) ≠ none at hf
    revert hf
    generalize ((engineAt C e log).onFrame C bytes now pid).2 = r
    obtain ⟨kind, ack, event⟩ := r
    cases kind with
    | forward => exact fun _ => rfl
    | _ => exact fun hf => absurd rfl hf
  obtain ⟨hd, body, fwd, hdec, -, hhops, -, hnew⟩ := Engine.onFrame_forward hk
  refine ⟨hnew, ?_⟩
  unfold hopLeft
  rw [hdec]
  exact beq_iff_eq.mpr hhops

theorem unrelayed_of_known (hd : RelayCache.Distinct e.relayCache.toList)
    (hs : RelayCache.Sourced (Met C e []) e.relayCache.toList) {now : ℕ} (hnow : now + 8000 < 2 ^ 64)
    {log : List Happening} (hr : Replays C e log) (ht : Timely now log) (hreg : Registered log)
    (hk : EchoesKnown C e log) : Unrelayed log := by
  induction log with
  | nil => trivial
  | cons x log ih =>
      refine ⟨?_, ih hr.2 ht.2 hreg.2 hk.2⟩
      rintro bytes s pid out anew rfl hf
      obtain ⟨hnew, hhop⟩ := forward_new hr hf
      refine ⟨fun frame hframe hcopy => ?_, ?_⟩
      · -- a DATA frame is in the cache
        have hdup := hk.1 hhop (List.mem_map.mpr ⟨frame, hframe, hcopy.symm⟩)
        rw [hnew] at hdup
        cases hdup
      · rintro mid ack frame t out' anew' pre hlog hack hlife hfew hcopy
        -- an ACK was put there, and has stayed
        have hsplit : log = (mid ++ [ack]) ++ .engine (.noteOrigin frame t) out' anew' :: pre := by
          rw [hlog, List.append_assoc]
          rfl
        have hframe := ((hlog ▸ hreg.2 : Registered (mid ++ ack :: _)).suffix.1 frame hack).1
        have hearlier : EchoesKnown C e (mid ++ [ack] ++ .engine (.noteOrigin frame t) out' anew' :: pre) :=
          hsplit ▸ hk.2
        have hfirst := hearlier.suffix.1
        have hbefore : Timely s.toNat log := (ht.1 bytes s rfl).2
        have hnote : t.toNat ≤ s.toNat := by
          refine hbefore.le (x := .engine (.noteOrigin frame t) out' anew') ?_ rfl
          rw [hsplit]
          exact List.mem_append_right _ List.mem_cons_self
        have hs64 : s.toNat ≤ now := (ht.1 bytes s rfl).1
        have hcard : (heardSince t log).card ≤ 64 := by
          have hle := Finset.pred_card_le_card_erase (s := heardSince t log) (a := immutable frame)
          omega
        have hsum : t.toNat + 8000 < 2 ^ 64 := by omega
        have hlives := registered_lives hd hs hsum hframe hfirst (mid ++ [ack])
          (fun y hy bytes' t' hobs => ⟨(hsplit ▸ hbefore : Timely s.toNat _).after rfl hy hobs,
            (hbefore.le (hsplit ▸ List.mem_append_left _ hy) hobs).trans_lt hlife⟩) (hsplit ▸ hcard)
        rw [← hsplit] at hlives
        have hlt : s < satAdd64 t relayCacheTtlMs := by
          rw [UInt64.lt_iff_toNat_lt, toNat_satAdd64 hsum]
          exact hlife
        have hdup := RelayCache.observe_live hlives hlt
        rw [frameKey, ← hcopy] at hdup
        rw [frameKey, hdup] at hnew
        cases hnew

end

/-- The relay cache is empty at a boot. -/
theorem bootEngine_relayCache (C : Crypto) (stored : Option (List UInt8)) (uid : Bytes 8) (hw : Bool) :
    (bootEngine C stored uid hw).1.relayCache = .new := by
  have hidentity (e : Engine) : ((e.setIdentity uid).setRadioAvailable hw).relayCache = e.relayCache := by
    have hid : (Op.setIdentity uid).relays = false := rfl
    have hav : (Op.setRadioAvailable hw).relays = false := rfl
    exact (step_relayCache C (e.setIdentity uid) hav).trans (step_relayCache C e hid)
  unfold bootEngine
  cases stored with
  | none => exact hidentity _
  | some bytes =>
      dsimp only
      unfold Engine.restore
      cases decodeView bytes with
      | error x => exact hidentity _
      | ok v => exact hidentity _

/-- **Echoes.**  In a run in which each copy with a hop left of a DATA frame of ours is known to the
relay cache, and no ACK is when it is registered, nothing that is forwarded is a frame of our own; and
each ACK is registered as it is queued. -/
theorem echoes_kept (C : Crypto) (stored : Option (List UInt8)) (uid : Bytes 8) (hw : Bool)
    (is : List Input) :
    let w := run (World.step C) (.boot C stored uid hw) is
    w.now < 2 ^ 64 → EchoesKnown C (bootEngine C stored uid hw).1 w.log →
      Unrelayed w.log ∧ Registered w.log := by
  intro w hnow hk
  have h : Traced C (bootEngine C stored uid hw).1 w :=
    run_traced rfl (traced_boot C stored uid hw) is
  have hcache := bootEngine_relayCache C stored uid hw
  refine ⟨unrelayed_of_known ?_ ?_ ?_ h.replays (h.timely hnow) h.registered hk, h.registered⟩
  · rw [hcache]
    exact RelayCache.distinct_new
  · rw [hcache]
    exact RelayCache.sourced_new _
  · have hms : w.now / ticksPerMs ≤ w.now / 1000 := Nat.le_refl _
    omega

/-- A copy of a DATA frame of ours is forwarded. -/
def Happening.relaysData (log : List Happening) : Happening → Bool
  | .engine (.onFrame bytes _ _) out _ =>
    out.forwards.isSome && decide (immutable bytes ∈ (log.filterMap Happening.sends).map immutable)
  | _ => false

def relaysData : List Happening → Bool
  | [] => false
  | x :: log => x.relaysData log || relaysData log

theorem not_unrelayed {log : List Happening} (hr : relaysData log = true) : ¬ Unrelayed log := by
  induction log with
  | nil => cases hr
  | cons x log ih =>
      rintro ⟨hx, hlog⟩
      rcases (Bool.or_eq_true _ _).mp hr with hr | hr
      · cases x with
        | engine op out anew =>
            cases op with
            | onFrame bytes now pid =>
                obtain ⟨hf, hmem⟩ := (Bool.and_eq_true _ _).mp hr
                obtain ⟨frame, hframe, hcopy⟩ := List.mem_map.mp (of_decide_eq_true hmem)
                exact (hx bytes now pid out anew rfl (Option.isSome_iff_ne_none.mp hf)).1 frame hframe
                  hcopy.symm
            | _ => cases hr
        | _ => cases hr
      · exact ih hr hlog

namespace Sample

/-- The record of device 1, paired with device 2. -/
def met : List UInt8 := (after (.new true) (setup 1 ++ ceremony 1 ++ [.commitOk])).persistScratch

/-- Its clock is set, the radio is on, and it sends a text. -/
def texting : List Input :=
  [ { turn := .usb (.request 1 (.timeSet (some 7200) true)), wakes := [wake []] },
    switchOn,
    { turn := .usb (.request 3 (.send (some 1) (some (ascii "hi"))))
      wakes := [wake [], wake [], wake [], wake []] } ]

/-- The frame that it sends. -/
def sent : AirFrame :=
  [1, 1, 5, 181, 231, 168, 5, 181, 231, 168, 228, 171, 233, 254, 1, 0, 0, 0, 2, 0, 0, 0, 0, 0, 0, 0, 0, 19,
    1, 104, 105, 125, 24, 70, 116, 168, 237, 65, 117, 237, 195, 233, 145, 210, 185, 221, 126, 142, 29]

/-- And hears. -/
def echoed (frame : AirFrame) : List Input :=
  texting ++ [{ turn := .sleep, wakes := [wake (hears frame)] }, { turn := .radioEvt, wakes := [wake [], wake []] }]

end Sample

/-- A frame of another mesh is relayed while a DATA frame of ours is out. -/
theorem echoes_kept_sample :
    let w := run (World.step Sample.crypto) (.boot Sample.crypto (some Sample.met) (Sample.bytes8 1) true)
      (Sample.echoed Sample.foreign)
    Unrelayed w.log ∧ Registered w.log :=
  echoes_kept Sample.crypto (some Sample.met) (Sample.bytes8 1) true (Sample.echoed Sample.foreign)
    (by decide +kernel) (by decide +kernel)

set_option maxRecDepth 10000 in
/-- The copy of our own DATA frame is forwarded. -/
theorem echo_relayed :
    let w := run (World.step Sample.crypto) (.boot Sample.crypto (some Sample.met) (Sample.bytes8 1) true)
      (Sample.echoed Sample.sent)
    w.log.filterMap Happening.sends = [Sample.sent] ∧ ¬ Unrelayed w.log :=
  And.imp_right not_unrelayed (by decide +kernel)

end LoraMesh
