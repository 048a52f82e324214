import LoraMesh.Firmware.Arm

/-!
# Firmware — Frames

What the programs of the runtime leave alone.  A statement about the requests in flight, the forward
that waits, the radio task and the log is kept by every turn, once the few programs that touch these
keep it.

* `HostKeep`, `LineKeep`: what the lines of the host keep; `LineKeep.carries`: and so a run.
* `LiveFrame`, `LiveQuiet`, `LiveInvariant`: what such a statement must satisfy.
* `LiveInvariant.holds`: then it holds in every run.
-/

namespace LoraMesh

open Std.Do

set_option mvcgen.warning false

/-! ### Lines -/

/-- All but what only the lines of the host look at. -/
def World.hostView (w : World) :=
  ((w.engine, w.health, w.staged, w.nextCmd, w.send, w.ping, w.forward, w.lastPolicy),
    (w.hwPresent, w.toBus, w.now, w.log))

/-- The moves and programs that keep `I`, and what a line is then driven by; the pings apart. -/
structure HostKeep (C : Crypto) (I S : World → Prop) : Prop extends RelayKeep C I S where
  host : ∀ {w w'}, I w → w'.hostView = w.hostView → w'.pingCount = w.pingCount → I w'
  kept : ∀ {w x}, x.kept = true → I w → I (w.record x)
  record : ∀ {w} line snapshot, I w → I (w.record (.dispatched line snapshot))
  flag : ∀ id enabled, Keeps I S (trySend (.setEnabled id enabled) .control)
  replies : ∀ r, Keeps I S (LoraMesh.reply r none)

/-- And the lines. -/
structure LineKeep (C : Crypto) (I S : World → Prop) : Prop extends HostKeep C I S where
  pingPrep : Ends I S drivePingPrep
  dispatch : ∀ id req, Keeps I S (LoraMesh.dispatch C id req)

theorem defers {I S : World → Prop} {m : Async Outcome} (hm : Ends I S m) : Keeps I S m :=
  triple_mono hm (fun _ hw => hw) (fun _ _ hw => hw.2) fun _ hw => hw

namespace HostKeep

section

variable {C : Crypto} {I S : World → Prop} (h : HostKeep C I S)

include h

theorem configs : ConfigKeep C I S where
  toIdleKeep := h.toIdleKeep
  config hw hc hf hp := by
    simp only [World.core, Prod.mk.injEq] at hc
    obtain ⟨⟨he, hh, hst, -, hn, hs, hpi, hl⟩, hhw, hb, hnow, hlog⟩ := hc
    refine h.host hw ?_ hp
    simp only [World.hostView, he, hh, hst, hn, hs, hpi, hf, hl, hhw, hb, hnow, hlog]
  kept := h.kept

theorem commitReply : Keeps I S commitReply := by
  have reply := h.replies
  unfold LoraMesh.commitReply
  mvcgen [reply]
  all_goals
    have hw : I _ := ‹_›
    exact h.host hw rfl rfl

theorem controlSetRadio (id : UInt64) (enabled : Bool) : Keeps I S (controlSetRadio C id enabled) := by
  have commit := h.commit
  have reply := h.replies
  have sync := h.sync
  have alloc := h.alloc
  have queue := h.flag
  have barrier := barrier_keeps h.toRelayKeep
  have clear := h.clear
  have done := h.commitReply
  unfold LoraMesh.controlSetRadio emitErr
  mvcgen [commit, reply, sync, alloc, queue, barrier, clear, done]
  all_goals
    have hw : I _ := ‹_›
    exact h.host hw rfl rfl

theorem controlSetBlocked (id : UInt64) : Keeps I S (controlSetBlocked C id) := by
  have commit := h.commit
  have reply := h.replies
  have sync := h.sync
  have barrier := barrier_keeps h.toRelayKeep
  have done := h.commitReply
  unfold LoraMesh.controlSetBlocked emitErr
  mvcgen [commit, reply, sync, barrier, done]

theorem onNeedsCommit : Keeps I S (onNeedsCommit C) := by
  have setRadio := h.controlSetRadio
  have setBlocked := h.controlSetBlocked
  have delete := controlDelete_keeps h.toRelayKeep
  have settings := commitSettings_keeps h.configs
  have wifi := commitWifi_keeps h.configs
  have commit := h.commit
  have reply := h.replies
  have done := h.commitReply
  unfold LoraMesh.onNeedsCommit emitErr
  mvcgen [setRadio, setBlocked, delete, settings, wifi, commit, reply, done]
  all_goals
    have hw : I _ := ‹_›
    exact h.host hw rfl rfl

theorem onUsbOutcome (outcome : Outcome) (ping : outcome = .needsPingPrep → Keeps I S drivePingPrep) :
    Keeps I S (onUsbOutcome C outcome) := by
  have trng := defers (driveTrngOp_ends h.toIdleKeep)
  have send := defers h.prep
  have commit := h.onNeedsCommit
  have reply := h.replies
  have pending (w : World) (op : Option PendingOp) (hw : I w) : I { w with pendingOp := op } := h.host hw rfl rfl
  unfold LoraMesh.onUsbOutcome
  cases outcome with
  | needsPingPrep =>
      have ping := ping rfl
      mvcgen [ping, commit, reply]
      exact pending _ _ ‹_›
  | _ =>
      mvcgen [trng, send, commit, reply]
      all_goals exact pending _ _ ‹_›

/-- A line, once its dispatch keeps `I`. -/
theorem onLine (line : Line)
    (dispatch : ⦃fun w => ⌜I w⌝⦄ LoraMesh.dispatchLine C line
      ⦃post⟨fun o w => ⌜(o = .needsPingPrep → Keeps I S drivePingPrep) ∧ I w⌝, fun _ w => ⌜S w⌝⟩⦄) :
    Keeps I S (onLine C line) := by
  have outcome (o : Outcome) :
      ⦃fun w => ⌜(o = .needsPingPrep → Keeps I S drivePingPrep) ∧ I w⌝⦄ LoraMesh.onUsbOutcome C o
      ⦃post⟨fun _ w => ⌜I w⌝, fun _ w => ⌜S w⌝⟩⦄ :=
    triple_iff.mpr fun w hw => triple_iff.mp (h.onUsbOutcome o hw.1) w hw.2
  unfold LoraMesh.onLine
  mvcgen [dispatch, outcome]
  rename_i hw _
  exact ⟨hw.1, h.record _ _ hw.2⟩

end

end HostKeep

namespace LineKeep

section

variable {C : Crypto} {I S : World → Prop} (h : LineKeep C I S)

include h

theorem dispatchLine (line : Line) : Keeps I S (dispatchLine C line) := by
  have dispatch := h.dispatch
  unfold LoraMesh.dispatchLine
  mvcgen [dispatch]
  all_goals
    have hw : I _ := ‹_›
    exact h.host hw rfl rfl

theorem onLine (line : Line) : Keeps I S (onLine C line) :=
  h.toHostKeep.onLine line (triple_mono (h.dispatchLine line) (fun _ hw => hw)
    (fun _ _ hw => ⟨fun _ => defers h.pingPrep, hw⟩) fun _ hw => hw)

/-- Between the turns of a run `I` holds, and at an `await` at least `S`. -/
theorem carries {w : World} (hw : if w.suspended then S w else I w) (is : List Input) :
    if (run (World.step C) w is).suspended then S (run (World.step C) w is)
      else I (run (World.step C) w is) :=
  run_carries h.toRelayKeep is (fun _ _ l _ => h.onLine l) hw

end

end LineKeep

/-! ### What a statement looks at -/

/-- What a statement may look at. -/
def World.liveView (w : World) := (w.engine, w.now, w.send, w.ping, w.forward, w.radio, w.log)

/-- The happenings that it may take note of. -/
def Happening.tracked : Happening → Bool
  | .engine _ _ _ => true
  | .queued _ use _ => use.transmits
  | .failClosed _ _ => true
  | .cleared _ => true
  | .accepted _ _ => true
  | .reply _ ends => ends.isSome
  | _ => false

theorem tracked_kept {x : Happening} (hx : x.kept = true) : x.tracked = false := by
  cases x <;> first | rfl | cases hx

/-- A statement that the moves of the other programs keep: `I` on the way, `S` where the runtime
stands at an `await`. -/
structure LiveFrame (C : Crypto) (I S : World → Prop) : Prop where
  stands : ∀ w, I w → S w
  view : ∀ {w w'}, I w → w'.liveView = w.liveView → I w'
  record : ∀ {w x}, I w → x.tracked = false → I (w.record x)
  tick : ∀ {w} ticks, I w → I { w with now := w.now + ticks }
  radio : ∀ {w} i, I w → I { w with toBus := (w.toBus.step i).1 }
  call : ∀ {w op}, I w → op.relays = false → I (w.called C op)

/-- And that `fail_radio_closed` keeps. -/
structure LiveQuiet (C : Crypto) (I S : World → Prop) : Prop extends LiveFrame C I S where
  stood : ∀ {w}, S w → S { w with suspended := true }
  close : Keeps I S (failRadioClosed C)

/-- And that the programs of the sends, of the pings and of the relaying keep. -/
structure LiveInvariant (C : Crypto) (I S : World → Prop) : Prop extends LiveQuiet C I S where
  ends : ∀ send code, ⦃fun w => ⌜I w ∧ w.send = some send⌝⦄ endSend C send code
    ⦃post⟨fun _ w => ⌜I w⌝, fun _ w => ⌜S w⌝⟩⦄
  prep : Ends I S (driveSendPrep C)
  retry : Keeps I S (pollSend C)
  pingPrep : Ends I S drivePingPrep
  cadDone : ∀ id result, Keeps I S (onCadDone id result)
  txDone : ∀ id result, Keeps I S (onTxDone C id result)
  receive : ∀ frame, Keeps I S (onRx C frame)
  forward : Keeps I S pollForward
  clear : ∀ enabled, Keeps I S (clearInFlight enabled)

/-! ### Moves -/

namespace LiveFrame

section

variable {C : Crypto} {I S : World → Prop} (h : LiveFrame C I S)

include h

theorem wait : Keeps I S await :=
  triple_mono (await_keeps (P := I) (fun _ _ hw => h.view hw rfl) (fun _ ticks hw => h.tick ticks hw)
    (fun _ i hw => h.radio i hw) fun _ _ hw => h.record hw rfl) (fun _ hw => hw) (fun _ _ hw => hw) h.stands

theorem alloc : Keeps I S allocCmd := triple_iff.mpr fun _ hw => h.view hw rfl

theorem replies (r : Reply) : Keeps I S (reply r none) :=
  triple_iff.mpr fun _ hw => h.record hw rfl

theorem calls (op : Op) (hop : op.relays = false) : Keeps I S (callEngine C op) :=
  triple_iff.mpr fun _ hw => h.call hw hop

theorem stage : Keeps I S stageForCommit := stageForCommit_keeps fun _ _ hw => h.view hw rfl

theorem queue (cmd : RadioCmd) (use : Use) (huse : use.transmits = false) : Keeps I S (trySend cmd use) := by
  unfold trySend
  mvcgen
  · rename_i w hw _
    have hrec : I (w.record (.queued cmd use (w.cmdValid cmd))) := h.record hw huse
    exact h.view hrec rfl
  · rename_i w hw _
    exact h.record hw rfl

theorem policy (enabled : Bool) (mask : UInt32) : Keeps I S (setPolicy enabled mask) := by
  refine triple_iff.mpr fun w hw => ?_
  have hrec : I (w.record (.policy enabled mask)) := h.record hw rfl
  exact h.view hrec rfl

theorem sync : Keeps I S syncPolicy := by
  have policy := h.policy
  unfold syncPolicy
  mvcgen [policy]
  have hw : I _ := ‹_›
  exact h.view hw rfl

theorem jitter : Keeps I S jitter := by
  have wait := h.wait
  unfold LoraMesh.jitter
  mvcgen [wait]

end

end LiveFrame

namespace LiveQuiet

section

variable {C : Crypto} {I S : World → Prop} (h : LiveQuiet C I S)

include h

theorem commits : Keeps I S (commit C) := by
  have wait := h.wait
  have stage := h.stage
  have ok := h.calls .commitOk rfl
  have discard := h.calls .discardStaged rfl
  have fault := h.calls .markFault rfl
  have close := h.close
  unfold commit restage
  mvcgen [wait, stage, ok, discard, fault, close]
  all_goals
    have hw : I _ := ‹_›
    first
      | exact h.record hw rfl
      | exact h.view hw rfl

theorem idle : IdleKeep C I S where
  stands := h.stands
  stood := h.stood
  scratch hw hc hf _ := by
    simp only [World.core, Prod.mk.injEq] at hc
    obtain ⟨⟨he, -, -, -, -, hs, hp, -⟩, -, hb, hn, hl⟩ := hc
    refine h.view hw ?_
    simp only [World.liveView, he, hs, hp, hf, hb, hn, hl]
  pop hw _ := h.view hw rfl
  wait := h.wait
  alloc := h.alloc
  call op _ hop := h.calls op hop
  keyed op hop := h.calls op (by cases op <;> first | rfl | cases hop)
  stage := h.stage
  sync := h.sync
  queue cmd use _ huse := h.queue cmd use huse
  reply r _ := h.replies r
  commit := h.commits
  close := h.close

end

end LiveQuiet

/-! ### Programs -/

namespace LiveInvariant

section

variable {C : Crypto} {I S : World → Prop} (h : LiveInvariant C I S)

include h

theorem relay : RelayKeep C I S where
  toIdleKeep := h.toLiveQuiet.idle
  ends := h.ends
  prep := h.prep
  retry := h.retry
  cadDone := h.cadDone
  txDone := h.txDone
  receive := h.receive
  forward := h.forward
  clear := h.clear

omit h in
/-- An answer settled, whatever it is. -/
theorem settled {α : Type} (id : UInt64) (r : Except EngineError α) {k : α → Async Outcome}
    (hk : ∀ a, Keeps I S (k a)) : Keeps I S (settled id r k) := by
  cases r with
  | error x => exact triple_iff.mpr fun _ hw => hw
  | ok a => exact hk a

theorem stageReply (owed : StagedReply) : Keeps I S (stageReply owed) := by
  have stage := h.stage
  unfold LoraMesh.stageReply
  mvcgen [stage]
  have hw : I _ := ‹_›
  exact h.view hw rfl

theorem stageInline (r : Reply) : Keeps I S (stageInline r) := by
  have stage := h.stage
  unfold LoraMesh.stageInline
  mvcgen [stage]

theorem dispatch (id : UInt64) (req : Request) : Keeps I S (dispatch C id req) := by
  have call := h.calls
  have owes {α : Type} (r : Except EngineError α) (owed : StagedReply) :=
    settled id r fun _ => h.stageReply owed
  have answers {α : Type} (r : Except EngineError α) (f : α → Reply) :=
    settled id r fun a => h.stageInline (f a)
  unfold LoraMesh.dispatch opProvision opTimeSet opBlock opDelete opRadioSet opArm opSettingsSet
    opWifiSet opWifiForget opSend opPing opPairOffer opPairRecord opPairImport opRebootBootsel
  cases req with
  | status => mvcgen
  | _ =>
      mvcgen [call, owes, answers]
      all_goals
        subst_vars
        have hw : I _ := ‹_›
        exact h.view hw rfl

theorem lines : LineKeep C I S where
  toRelayKeep := h.relay
  host hw hv _ := by
    simp only [World.hostView, Prod.mk.injEq] at hv
    obtain ⟨⟨he, -, -, -, hs, hp, hf, -⟩, -, hb, hn, hl⟩ := hv
    refine h.view hw ?_
    simp only [World.liveView, he, hs, hp, hf, hb, hn, hl]
  kept hx hw := h.toLiveFrame.record hw (tracked_kept hx)
  record _ _ hw := h.toLiveFrame.record hw rfl
  flag _ _ := h.queue _ .control rfl
  replies := h.replies
  pingPrep := h.pingPrep
  dispatch := h.dispatch

/-- Between the turns of a run `I` holds, and at an `await` at least `S`. -/
theorem carries {w : World} (hw : if w.suspended then S w else I w) (is : List Input) :
    if (run (World.step C) w is).suspended then S (run (World.step C) w is)
      else I (run (World.step C) w is) :=
  h.lines.carries hw is

theorem holds {w : World} (hs : w.suspended = false) (hw : I w) (is : List Input) :
    if (run (World.step C) w is).suspended then S (run (World.step C) w is)
      else I (run (World.step C) w is) := by
  refine h.carries ?_ is
  rw [hs, if_neg Bool.false_ne_true]
  exact hw

end

end LiveInvariant

end LoraMesh
