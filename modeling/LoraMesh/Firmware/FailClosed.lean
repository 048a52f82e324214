import LoraMesh.Firmware.Enable

/-!
# Firmware — FailClosed

After a failed commit of the node state the gate is closed and the engine faulted.  The gate stays
closed as long as no forward comes due: `poll_timeouts` writes the policy from the engine's radio
flag, which a failed commit leaves as it was, and a faulted engine goes on relaying.

* `Latch`: what holds at every point of the runtime's programs, before and after a failure.
* `stays_closed`: over every run that meets no due forward on a faulted engine with its radio
  flag up.
-/

namespace LoraMesh

open Std.Do

set_option mvcgen.warning false

/-- A commit of the node state failed. -/
def Happening.failure : Happening → Bool
  | .stored _ _ ok => !ok
  | _ => false

/-- Enables the gate, or queues a transmission the gate would pass. -/
def Happening.opening : Happening → Bool
  | .policy enabled _ => enabled
  | .queued _ _ valid => valid
  | _ => false

def failed (log : List Happening) : Bool := log.any Happening.failure

/-- Nothing opens after a failure. -/
def staysClosed : List Happening → Bool
  | [] => true
  | x :: log => !(x.opening && failed log) && staysClosed log

/-- The engine is faulted and the USB side refuses. -/
structure Faulted (w : World) : Prop where
  closed : staysClosed w.log = true
  fault : failed w.log = true → w.engine.fault = true
  health : failed w.log = true → w.health = .fault

/-- The latch, at a point of a program that is reached only before a failure if `p`. -/
structure Latch (p : Prop) (w : World) : Prop extends Faulted w where
  policy : failed w.log = true → w.policy.enabled = false
  send : failed w.log = true → w.send = none
  up : p → failed w.log = false

/-- What the latch looks at. -/
def World.latchView (w : World) : Bool × Bool × Bool × StoreHealth × Bool × Option InFlight :=
  (staysClosed w.log, failed w.log, w.engine.fault, w.health, w.policy.enabled, w.send)

namespace Latch

variable {p q : Prop} {w w' : World}

theorem weaken (h : Latch p w) (hq : q → p) : Latch q w := { h with up := fun x => h.up (hq x) }

theorem of_view (h : Latch p w) (hq : q → p) (hv : w'.latchView = w.latchView) : Latch q w' := by
  simp only [World.latchView, Prod.mk.injEq] at hv
  obtain ⟨hclosed, hfailed, hfault, hhealth, hpolicy, hsend⟩ := hv
  exact
    { closed := hclosed.trans h.closed
      fault := fun hf => hfault.trans (h.fault (hfailed ▸ hf))
      health := fun hf => hhealth.trans (h.health (hfailed ▸ hf))
      policy := fun hf => hpolicy.trans (h.policy (hfailed ▸ hf))
      send := fun hf => hsend.trans (h.send (hfailed ▸ hf))
      up := fun x => hfailed.trans (h.up (hq x)) }

theorem drop (h : Latch p w) : Latch p { w with send := none } := { h with send := fun _ => rfl }

/-- Before a failure only the log matters. -/
theorem of_up (h : Latch p w) (hp : p) (hclosed : staysClosed w'.log = true)
    (hfailed : failed w'.log = failed w.log) : Latch q w' := by
  have hn : failed w'.log ≠ true := by
    rw [hfailed, h.up hp]
    exact Bool.false_ne_true
  exact
    { closed := hclosed
      fault := fun hf => (hn hf).elim
      health := fun hf => (hn hf).elim
      policy := fun hf => (hn hf).elim
      send := fun hf => (hn hf).elim
      up := fun _ => Bool.eq_false_iff.mpr hn }

/-- While a send is in flight nothing has failed. -/
theorem up_of_send (h : Latch p w) {send : InFlight} (hs : w.send = some send) : Latch True w := by
  refine { h with up := fun _ => Bool.eq_false_iff.mpr fun hf => ?_ }
  rw [h.send hf] at hs
  cases hs

/-- While the USB side does not refuse nothing has failed. -/
theorem up_of_health (h : Latch p w) (hh : ¬ w.health = .fault) : Latch True w :=
  { h with up := fun _ => Bool.eq_false_iff.mpr fun hf => hh (h.health hf) }

/-- A happening that opens, before a failure. -/
theorem record_up (h : Latch True w) {x : Happening} (hf : x.failure = false) : Latch True (w.record x) := by
  refine h.of_up trivial ?_ ?_
  · change (!(x.opening && failed w.log) && staysClosed w.log) = true
    rw [h.up trivial, Bool.and_false, h.closed]
    rfl
  · simp only [World.record, failed, List.any_cons, hf, Bool.false_or]

end Latch

/-- From a point reached only before a failure if `p`, a program's answer is so if `q`. -/
abbrev Latches {α : Type} (p : Prop) (m : Async α) (q : α → Prop) : Prop :=
  ⦃fun w => ⌜Latch p w⌝⦄ m ⦃post⟨fun a w => ⌜Latch (q a) w⌝, fun _ w => ⌜Latch False w⌝⟩⦄

/-! ### The primitives -/

section

variable (C : Crypto) (p : Prop)

theorem await_latch : Latches p await fun _ => p := by
  refine triple_mono (await_keeps (fun _ _ h => h.of_view id rfl) (fun _ _ h => h.of_view id rfl)
    (fun w i h => ?_) fun _ _ h => h.of_view id rfl) (fun _ h => h) (fun _ _ h => h)
    fun _ h => Latch.weaken h False.elim
  refine Latch.of_view h id ?_
  simp only [World.latchView, w.toBus.step_policy i]

theorem reply_latch (r : Reply) (ends : Option Flight) : Latches p (reply r ends) fun _ => p :=
  triple_iff.mpr fun _ h => Latch.of_view h id rfl

theorem allocCmd_latch : Latches p allocCmd fun _ => p :=
  triple_iff.mpr fun _ h => Latch.of_view h id rfl

theorem callEngine_latch {op : Op} (hop : op.movesFlags = false) :
    Latches p (callEngine C op) fun _ => p := by
  refine triple_iff.mpr fun w h => Latch.of_view h id ?_
  have hfault : (step C w.engine op).1.fault = w.engine.fault :=
    congrArg Prod.fst (step_flags C w.engine hop)
  exact congrArg (fun b => (staysClosed w.log, failed w.log, b, w.health, w.policy.enabled, w.send)) hfault

theorem sendComplete_latch : Latches p (callEngine C .sendComplete) fun _ => p :=
  callEngine_latch C p rfl

/-- Before a failure any call will do. -/
theorem callEngine_up (op : Op) : Latches True (callEngine C op) fun _ => True :=
  triple_iff.mpr fun _ h => Latch.of_up h trivial h.closed rfl

/-- Under a closed gate no token is valid. -/
theorem cmdValid_closed {w : World} (h : w.policy.enabled = false) (cmd : RadioCmd) :
    w.cmdValid cmd = false := by
  cases cmd with
  | tx id frame jitterMs contact token => simp [World.cmdValid, PolicyState.tokenValid, h]
  | setEnabled => rfl
  | barrier => rfl
  | cadProbe => rfl

theorem trySend_latch (cmd : RadioCmd) (use : Use) : Latches p (trySend cmd use) fun _ => p := by
  unfold trySend
  mvcgen
  · rename_i w h _
    cases hf : failed w.log with
    | true =>
        rw [cmdValid_closed (h.policy hf) cmd]
        exact h.of_view id rfl
    | false =>
        have hw : Latch p { w with cmds := w.cmds ++ [cmd] } := h.of_view id rfl
        have hu : Latch True { w with cmds := w.cmds ++ [cmd] } := { hw with up := fun _ => hf }
        exact (hu.record_up rfl).weaken fun _ => trivial
  · rename_i w h _
    exact h.of_view id rfl

/-- After a failure the engine's radio flag is down. -/
structure Muted (p : Prop) (w : World) : Prop extends Latch p w where
  radioOn : failed w.log = true → w.engine.radioOn = false

theorem muted_of_up {w : World} (h : Latch True w) : Muted True w where
  toLatch := h
  radioOn hf := by
    rw [h.up trivial] at hf
    cases hf

theorem syncPolicy_muted :
    ⦃fun w => ⌜Muted p w⌝⦄ syncPolicy ⦃post⟨fun _ w => ⌜Latch p w⌝, fun _ w => ⌜Latch False w⌝⟩⦄ := by
  unfold syncPolicy setPolicy
  mvcgen
  · rename_i w h cur _ _ t
    cases hf : failed w.log with
    | true =>
        have hclosed : staysClosed t.2.log = staysClosed w.log := by
          change (!(w.engine.radioOn && failed w.log) && staysClosed w.log) = staysClosed w.log
          rw [h.radioOn hf, Bool.false_and, Bool.not_false, Bool.true_and]
        have hpolicy : t.2.policy.enabled = w.policy.enabled :=
          (h.radioOn hf).trans (h.policy hf).symm
        exact h.toLatch.of_view id (congrArg₂
          (fun a b => (a, failed w.log, w.engine.fault, w.health, b, w.send)) hclosed hpolicy)
    | false =>
        have hu : Latch True w := { h.toLatch with up := fun _ => hf }
        have hu' : Latch True { w with policy := w.policy.setPolicy cur.1 cur.2 } :=
          hu.of_up trivial hu.closed rfl
        have hx : (Happening.policy cur.1 cur.2).failure = false := rfl
        exact (hu'.record_up hx).of_view (fun _ => trivial) rfl
  · exact Muted.toLatch ‹_›

theorem syncPolicy_up : Latches True syncPolicy fun _ => True :=
  triple_mono (syncPolicy_muted True) (fun _ h => muted_of_up h) (fun _ _ h => h) fun _ h => h

theorem txToken_latch (contact : Option UInt8) : Latches p (txToken contact) fun _ => p :=
  triple_iff.mpr fun _ h => h

theorem mintAndSend_muted (frame : AirFrame) (jitter : ℕ) (contact : Option UInt8) (use : Use) :
    ⦃fun w => ⌜Muted p w⌝⦄ mintAndSend frame jitter contact use
    ⦃post⟨fun _ w => ⌜Latch p w⌝, fun _ w => ⌜Latch False w⌝⟩⦄ := by
  have sync := syncPolicy_muted p
  have token := txToken_latch p contact
  have alloc := allocCmd_latch p
  have queue := trySend_latch p
  unfold mintAndSend
  mvcgen [sync, token, alloc, queue]

theorem mintAndSend_up (frame : AirFrame) (jitter : ℕ) (contact : Option UInt8) (use : Use) :
    Latches True (mintAndSend frame jitter contact use) fun _ => True :=
  triple_mono (mintAndSend_muted True frame jitter contact use) (fun _ h => muted_of_up h)
    (fun _ _ h => h) fun _ h => h

theorem jitter_latch : Latches p jitter fun _ => p := by
  have wait := await_latch p
  unfold jitter
  mvcgen [wait]

theorem failRadioClosed_latch :
    ⦃fun w => ⌜Faulted w⌝⦄ failRadioClosed C
    ⦃post⟨fun _ w => ⌜Latch False w⌝, fun _ w => ⌜Latch False w⌝⟩⦄ := by
  unfold failRadioClosed setPolicy allocCmd trySend emitErr reply callEngine
  mvcgen
  all_goals
    have h : Faulted _ := ‹_›
    exact
      { closed := h.closed
        fault := h.fault
        health := h.health
        policy := fun _ => rfl
        send := fun _ => by first | rfl | assumption
        up := False.elim }

theorem stageForCommit_latch : Latches p stageForCommit fun _ => p := by
  refine triple_iff.mpr fun w h => ?_
  obtain ⟨staged, hrun⟩ := stageForCommit_run w
  rw [hrun]
  exact Latch.of_view h id rfl

theorem restage_latch : Latches p restage fun _ => p := by
  have stage := stageForCommit_latch p
  unfold restage
  mvcgen [stage]

theorem commit_latch : Latches p (commit C) fun ok => p ∧ ok = true := by
  have stage := restage_latch p
  have wait := await_latch p
  have close := failRadioClosed_latch C
  unfold commit callEngine
  mvcgen [stage, wait, close]
  · assumption
  · have h : Latch _ _ := ‹_›
    exact h.of_view id rfl
  · rename_i k w h t hok _ _
    have hfailed : failed t.2.log = failed w.log := by
      simp [t, World.record, failed, Happening.failure, hok]
    have hfault : (step C w.engine .commitOk).1.fault = w.engine.fault :=
      congrArg (fun x => x.1.1) commitOk_fixed
    refine h.of_view id ?_
    simp only [World.latchView, World.record, staysClosed, Happening.opening, Bool.false_and,
      Bool.not_false, Bool.true_and]
    exact congrArg₂ (fun a b => (staysClosed w.log, a, b, w.health, w.policy.enabled, w.send)) hfailed hfault
  · rename_i h _ _ _ _ _ _ _
    exact { closed := h.closed, fault := fun _ => rfl, health := fun _ => rfl }
  · have h : Latch _ _ := ‹_›
    exact h.weaken fun hp => by cases hp.2

theorem commit_up : Latches True (commit C) fun ok => ok = true := by
  refine triple_mono (commit_latch C True) (fun _ h => h) (fun ok _ h => ?_) fun _ h => h
  exact Latch.weaken h fun hok => ⟨trivial, hok⟩

theorem commitPending_latch : Latches p (commitPending C) fun _ => False := by
  have commit := commit_latch C p
  unfold commitPending
  mvcgen [commit]
  all_goals
    have h : Latch _ _ := ‹_›
    exact h.weaken False.elim

/-! ### Sends and pings -/

theorem finishSend_latch (r : Reply) : Latches p (finishSend C r) fun _ => p := by
  have complete := sendComplete_latch C p
  have reply := reply_latch p
  unfold finishSend
  mvcgen [complete, reply]
  have h : Latch _ _ := ‹_›
  exact h.drop.of_view id rfl

theorem endSend_latch (send : InFlight) (code : ErrCode) : Latches p (endSend C send code) fun _ => p :=
  finishSend_latch C p (.err send.replyId code)

theorem queueTx_up (id : UInt64) (contact : UInt8) (frame : OutgoingFrame) :
    Latches True (queueTx C id contact frame) fun _ => True := by
  have jit := jitter_latch True
  have mint := mintAndSend_up
  have call := callEngine_up C
  have reply := reply_latch True
  unfold queueTx emitErr
  mvcgen [jit, mint, call, reply]
  rename_i h _
  exact h.of_up trivial h.closed rfl

/-- The outcome leaves work to do, which a refused line does not. -/
def Outcome.deferred : Outcome → Prop
  | .inline _ => False
  | .silent => False
  | _ => True

theorem driveSendPrep_up : Latches True (driveSendPrep C) Outcome.deferred := by
  have wait := await_latch True
  have call := callEngine_up C
  have commit := commit_up C
  have queue := queueTx_up C
  unfold driveSendPrep
  mvcgen [wait, call, commit, queue]
  all_goals
    have h : Latch _ _ := ‹_›
    first
      | exact h.of_view False.elim rfl
      | exact h.of_view id rfl
      | exact h.of_view (by simp_all) rfl

theorem driveTrngOp_up : Latches True (driveTrngOp C) Outcome.deferred := by
  have wait := await_latch True
  have call := callEngine_up C
  have stage := stageForCommit_latch True
  unfold driveTrngOp completeProvision completePairOffer settled stageInline
  mvcgen [wait, call, stage]
  all_goals
    have h : Latch _ _ := ‹_›
    first
      | exact h.of_view False.elim rfl
      | exact h.of_view id rfl

theorem drivePingPrep_up : Latches True drivePingPrep Outcome.deferred := by
  have alloc := allocCmd_latch True
  have queue := trySend_latch True
  unfold drivePingPrep
  mvcgen [alloc, queue]
  all_goals
    have h : Latch _ _ := ‹_›
    first
      | exact h.of_view False.elim rfl
      | exact h.of_view id rfl

theorem forwardDone_latch (id : ℕ) : Latches p (forwardDone id) fun _ => p := by
  refine triple_iff.mpr fun w h => ?_
  rcases forwardDone_run id w with hrun | ⟨-, hrun⟩
  · rw [hrun]
    exact h
  · rw [hrun]
    exact Latch.of_view h (fun hp => hp) rfl

theorem onTxDone_latch (id : ℕ) (result : Except TxFault Unit) :
    Latches p (onTxDone C id result) fun _ => p := by
  have ends := endSend_latch C p
  have forward := forwardDone_latch p
  unfold onTxDone
  mvcgen [ends, forward]
  rename_i w h send hs _ _
  exact (h.up_of_send hs).of_up trivial h.closed rfl

theorem endPing_latch (r : Reply) : Latches p (endPing r) fun _ => p := by
  have reply := reply_latch p
  unfold endPing
  mvcgen [reply]
  have h : Latch _ _ := ‹_›
  exact h.of_view id rfl

theorem onCadDone_latch (id : ℕ) (result : Except TxFault Bool) :
    Latches p (onCadDone id result) fun _ => p := by
  have ends := endPing_latch p
  have alloc := allocCmd_latch p
  have queue := trySend_latch p
  unfold onCadDone
  mvcgen [ends, alloc, queue]
  all_goals
    have h : Latch _ _ := ‹_›
    exact h.of_view (fun hp => hp) rfl

/-! ### Received frames -/

theorem sendAckFrame_up (ack : OutgoingFrame) : Latches True (sendAckFrame C ack) fun _ => True := by
  have jit := jitter_latch True
  have sync := syncPolicy_up
  have token := txToken_latch True
  have alloc := allocCmd_latch True
  have call := callEngine_up C
  have queue := trySend_latch True
  unfold sendAckFrame
  mvcgen [jit, sync, token, alloc, call, queue]

theorem scheduleForward_latch (fwd : OutgoingFrame) : Latches p (scheduleForward fwd) fun _ => p := by
  have wait := await_latch p
  unfold scheduleForward
  mvcgen [wait]
  have h : Latch _ _ := ‹_›
  exact h.of_view id rfl

/-- The frame is the node's own. -/
def Output.own : Output → Prop
  | .incoming (.deliver _ _, _, _) => True
  | .incoming (.reAck _, _, _) => True
  | .incoming (.ack _, _, _) => True
  | _ => False

/-- A faulted engine takes no frame as its own. -/
theorem onFrame_faulted {e : Engine} (hf : e.fault = true) (frame : List UInt8) (now : UInt64)
    (pid : UInt32) : ¬ (step C e (.onFrame frame now pid)).2.own := by
  have transit (frame : List UInt8) (h : Header) (hlen : minFrameLen ≤ frame.length) :
      ¬ (Output.incoming (e.transit C frame h hlen now).2).own := by
    unfold Engine.transit
    dsimp only
    split
    · exact id
    · split
      · split
        · exact id
        · exact id
      · exact id
  change ¬ (Output.incoming (e.onFrame C frame now pid).2).own
  unfold Engine.onFrame
  split
  · split
    · exact id
    · split
      · exact id
      · split
        · exact id
        · rw [hf, Bool.or_true, Bool.true_or, if_pos rfl]
          exact transit _ _ _
  · exact id

theorem onFrame_latch (frame : List UInt8) (now : UInt64) (pid : UInt32) :
    Latches p (callEngine C (.onFrame frame now pid)) fun out => p ∨ out.own := by
  refine triple_iff.mpr fun w h => ?_
  have call : Latches p (callEngine C (.onFrame frame now pid)) fun _ => p := callEngine_latch C p rfl
  have h' := triple_iff.mp call w h
  refine { h' with up := fun hup => hup.elim h'.up fun hown => Bool.eq_false_iff.mpr fun hf => ?_ }
  exact onFrame_faulted C (h.fault hf) frame now pid hown

theorem onRx_latch (frame : AirFrame) : Latches p (onRx C frame) fun _ => False := by
  have wait := await_latch p
  have call := onFrame_latch C p
  have finish := finishSend_latch C True
  have commit := commit_up C
  have pending := commitPending_latch C False
  have ack := sendAckFrame_up C
  have reply := reply_latch True
  have forward := scheduleForward_latch False
  unfold onRx
  mvcgen [wait, call, finish, commit, pending, ack, reply, forward]
  all_goals first
    | exact fun h => h.weaken False.elim
    | have h : Latch _ _ := ‹_›
      first
      | exact h.of_view False.elim rfl
      | exact h.of_view (fun _ => .inr trivial) rfl
      | exact h.of_view (by simp_all) rfl

theorem onRadioEvt_latch (evt : RadioEvt) : Latches p (onRadioEvt C evt) fun _ => False := by
  cases evt with
  | controlDone id ok => exact triple_iff.mpr fun _ h => Latch.weaken h False.elim
  | txDone id result attempted =>
      exact triple_mono (onTxDone_latch C p id result) (fun _ h => h)
        (fun _ _ h => Latch.weaken h False.elim) fun _ h => h
  | cadDone id result =>
      exact triple_mono (onCadDone_latch p id result) (fun _ h => h)
        (fun _ _ h => Latch.weaken h False.elim) fun _ h => h
  | rxFrame frame => exact onRx_latch C p frame
  | rxCrcError => exact triple_iff.mpr fun _ h => Latch.weaken h False.elim
  | fault =>
      exact triple_mono (failRadioClosed_latch C) (fun _ h => h.toFaulted) (fun _ _ h => h) fun _ h => h

theorem waitLoop_latch (want deadline fuel : ℕ) :
    ∀ p, Latches p (waitLoop C want deadline fuel) fun _ => False := by
  induction fuel with
  | zero => exact fun p => triple_iff.mpr fun _ h => Latch.weaken h False.elim
  | succ fuel ih =>
      intro p
      have wait := await_latch p
      have evt := onRadioEvt_latch C p
      have again := ih False
      unfold waitLoop
      mvcgen [wait, evt, again]
      all_goals
        have h : Latch _ _ := ‹_›
        first
          | exact h.of_view False.elim rfl
          | exact h.of_view id rfl

theorem waitControl_latch (want : ℕ) : Latches p (waitControl C want) fun _ => False := by
  have loop (deadline fuel : ℕ) := waitLoop_latch C want deadline fuel p
  unfold waitControl
  mvcgen [loop]
  have h : Latch _ _ := ‹_›
  exact h.weaken False.elim

/-! ### Timeouts -/

/-- No forward is due, or nothing has failed, or the engine's radio flag is down. -/
structure Calm (w : World) : Prop extends Latch False w where
  calm : failed w.log = true → ∀ fwd, w.forward = some fwd → fwd.cmdId = none → fwd.due ≤ w.now →
    w.engine.radioOn = false

theorem calm_of_up {w : World} (h : Latch True w) : Calm w where
  toLatch := h.weaken False.elim
  calm hf := by
    rw [h.up trivial] at hf
    cases hf

theorem pollSend_calm :
    ⦃fun w => ⌜Calm w⌝⦄ pollSend C ⦃post⟨fun _ w => ⌜Calm w⌝, fun _ w => ⌜Latch False w⌝⟩⦄ := by
  have call := callEngine_up C
  have jit := jitter_latch True
  have mint := mintAndSend_up
  have ends := endSend_latch C True
  have finish := finishSend_latch C True
  unfold pollSend
  mvcgen [call, jit, mint, ends, finish]
  · rename_i h send hs _ _
    exact (h.up_of_send hs).drop
  · rename_i h _
    exact calm_of_up (h.of_up trivial h.closed rfl)
  · exact calm_of_up
  · exact calm_of_up
  · exact calm_of_up ‹_›
  · rename_i h send hs _ _
    exact (h.up_of_send hs).drop
  · exact calm_of_up

theorem jitter_muted :
    ⦃fun w => ⌜Muted p w⌝⦄ jitter ⦃post⟨fun _ w => ⌜Muted p w⌝, fun _ w => ⌜Latch False w⌝⟩⦄ := by
  have wait : ⦃fun w => ⌜Muted p w⌝⦄ await ⦃post⟨fun _ w => ⌜Muted p w⌝, fun _ w => ⌜Latch False w⌝⟩⦄ := by
    refine triple_mono (await_keeps (P := Muted p) ?_ ?_ ?_ ?_) (fun _ h => h) (fun _ _ h => h)
      fun _ h => h.weaken False.elim
    · exact fun w ks h => { h.of_view id rfl with radioOn := h.radioOn }
    · exact fun w ticks h => { h.of_view id rfl with radioOn := h.radioOn }
    · intro w i h
      have hv : { w with toBus := (w.toBus.step i).1 }.latchView = w.latchView := by
        simp only [World.latchView, w.toBus.step_policy i]
      exact { h.of_view id hv with radioOn := h.radioOn }
    · exact fun w t h => { h.of_view id rfl with radioOn := h.radioOn }
  unfold jitter
  mvcgen [wait]

theorem pollForward_latch :
    ⦃fun w => ⌜Calm w⌝⦄ pollForward ⦃post⟨fun _ w => ⌜Latch False w⌝, fun _ w => ⌜Latch False w⌝⟩⦄ := by
  have jit := jitter_muted False
  have mint := mintAndSend_muted False
  unfold pollForward
  mvcgen [jit, mint]
  · rename_i w h fwd hf hdue
    rw [Bool.and_eq_true, Option.isNone_iff_eq_none, decide_eq_true_iff] at hdue
    exact { h.toLatch.of_view id rfl with radioOn := fun hd => h.calm hd fwd hf hdue.1 hdue.2 }
  · rename_i h _
    exact h.of_view id rfl
  · exact Calm.toLatch ‹_›
  · exact Calm.toLatch ‹_›

theorem pollTimeouts_latch :
    ⦃fun w => ⌜Calm w⌝⦄ pollTimeouts C ⦃post⟨fun _ w => ⌜Latch False w⌝, fun _ w => ⌜Latch False w⌝⟩⦄ := by
  have send := pollSend_calm C
  have forward := pollForward_latch
  unfold pollTimeouts
  mvcgen [send, forward]

/-! ### Control operations -/

theorem barrier_latch : Latches p (barrier C) fun _ => False := by
  have alloc := allocCmd_latch p
  have queue := trySend_latch p
  have wait := waitControl_latch C p
  unfold barrier
  mvcgen [alloc, queue, wait]
  all_goals
    have h : Latch _ _ := ‹_›
    exact h.weaken False.elim

theorem clearInFlight_latch (enabled : Bool) : Latches p (clearInFlight enabled) fun _ => p := by
  unfold clearInFlight
  mvcgen
  have h : Latch _ _ := ‹_›
  exact h.drop.of_view id rfl

theorem commitReply_latch : Latches p commitReply fun _ => p := by
  have reply := reply_latch p
  unfold commitReply
  mvcgen [reply]
  all_goals
    have h : Latch _ _ := ‹_›
    exact h.of_view id rfl

theorem controlSetRadio_latch (id : UInt64) (enabled : Bool) :
    Latches True (controlSetRadio C id enabled) fun _ => False := by
  have commit := commit_up C
  have sync := syncPolicy_up
  have alloc := allocCmd_latch True
  have queue := trySend_latch True
  have wait := barrier_latch C True
  have clear := clearInFlight_latch False
  have reply := reply_latch False
  have done := commitReply_latch False
  unfold controlSetRadio emitErr
  mvcgen [commit, sync, alloc, queue, wait, clear, reply, done]
  all_goals
    have h : Latch _ _ := ‹_›
    first
      | exact h.of_view False.elim rfl
      | exact h.of_view (by simp_all) rfl

theorem controlSetBlocked_latch (id : UInt64) : Latches True (controlSetBlocked C id) fun _ => False := by
  have commit := commit_up C
  have sync := syncPolicy_up
  have wait := barrier_latch C True
  have reply := reply_latch False
  have done := commitReply_latch False
  unfold controlSetBlocked emitErr
  mvcgen [commit, sync, wait, reply, done]
  all_goals
    have h : Latch _ _ := ‹_›
    first
      | exact h.of_view False.elim rfl
      | exact h.of_view (by simp_all) rfl

theorem controlDelete_latch (id : UInt64) : Latches True (controlDelete C id) fun _ => False := by
  have commit := commit_up C
  have sync := syncPolicy_up
  have ends := endSend_latch C True
  have wait := barrier_latch C True
  have reply := reply_latch False
  unfold controlDelete emitErr
  mvcgen [commit, sync, ends, wait, reply]
  all_goals
    have h : Latch _ _ := ‹_›
    first
      | exact h.of_view False.elim rfl
      | exact h.of_view (by simp_all) rfl

theorem commitSettings_latch : Latches p commitSettings fun _ => p := by
  have wait := await_latch p
  unfold commitSettings
  mvcgen [wait]
  all_goals
    have h : Latch _ _ := ‹_›
    exact h.of_view id rfl

theorem publishWifi_view (w : World) : w.publishWifi.latchView = w.latchView := by
  unfold World.publishWifi
  dsimp only
  split
  · split
    · rfl
    · rfl
  · rfl

theorem commitWifi_latch : Latches p commitWifi fun _ => p := by
  have wait := await_latch p
  unfold commitWifi
  mvcgen [wait]
  have h : Latch _ _ := ‹_›
  exact h.of_view id (publishWifi_view _)

theorem onNeedsCommit_latch : Latches True (onNeedsCommit C) fun _ => False := by
  have setRadio := controlSetRadio_latch C
  have setBlocked := controlSetBlocked_latch C
  have delete := controlDelete_latch C
  have settings := commitSettings_latch True
  have wifi := commitWifi_latch True
  have commit := commit_latch C False
  have reply := reply_latch False
  have done := commitReply_latch False
  unfold onNeedsCommit emitErr
  mvcgen [setRadio, setBlocked, delete, settings, wifi, commit, reply, done]
  all_goals first
    | exact id
    | have h : Latch _ _ := ‹_›
      first
      | exact h.of_view False.elim rfl
      | exact h.of_view id rfl

theorem onUsbOutcome_latch (o : Outcome) : Latches o.deferred (onUsbOutcome C o) fun _ => False := by
  have trng := driveTrngOp_up C
  have send := driveSendPrep_up C
  have ping := drivePingPrep_up
  have commit := onNeedsCommit_latch C
  have reply := reply_latch False
  unfold onUsbOutcome
  mvcgen [trng, send, ping, commit, reply]
  all_goals
    have h : Latch _ _ := ‹_›
    first
      | exact h.of_view False.elim rfl
      | exact h.of_view id rfl
      | exact h.weaken (by simp_all [Outcome.deferred])

theorem core_view {w w' : World} (h : w'.core = w.core) : w'.latchView = w.latchView := by
  simp only [World.core, Prod.mk.injEq] at h
  obtain ⟨⟨he, hh, -, -, -, hs, -⟩, -, hb, -, hl⟩ := h
  simp only [World.latchView, he, hh, hs, hb, hl]

theorem copied_latchView (w : World) : w.copied.latchView = w.latchView := by
  unfold World.copied
  split
  · rfl
  · rfl

/-- Before a failure any call will do. -/
theorem called_up {w : World} (h : Latch True w) (op : Op) : Latch True (w.called C op) :=
  triple_iff.mp (callEngine_up C op) w h

theorem dispatch_latch (id : UInt64) (req : Request) : Latches p (dispatch C id req) Outcome.deferred := by
  refine triple_iff.mpr fun w h => ?_
  obtain ⟨o, w', hrun, hd⟩ := dispatch_cases C id req w
  rw [hrun]
  have up (hh : w.health ≠ .fault) : Latch True w := h.up_of_health hh
  cases hd with
  | closed hh ho => exact h.weaken False.elim
  | light hh ho hw => exact (up hh).of_view (fun _ => trivial) (core_view hw)
  | settings hh ho hw =>
      rename_i owed
      have howing : Latch True (w.owing owed) := (up hh).of_view (fun h => h) rfl
      exact howing.of_view (fun _ => trivial) (core_view hw)
  | refused hop hh hout =>
      rename_i op code
      exact Latch.weaken (called_up C (up hh) op) False.elim
  | owes hop hh hout ho =>
      rename_i op owed
      exact (called_up C (up hh) op).of_view (fun _ => trivial) (copied_latchView _)
  | answers hop hh hout ho =>
      rename_i op body
      exact (called_up C (up hh) op).of_view (fun _ => trivial) (copied_latchView _)

theorem dispatchLine_latch (line : Line) : Latches p (dispatchLine C line) Outcome.deferred := by
  have dispatch := dispatch_latch C p
  unfold dispatchLine
  mvcgen [dispatch]
  all_goals
    have h : Latch _ _ := ‹_›
    first
      | exact h.of_view False.elim rfl
      | exact h.of_view (fun hp => hp) rfl

theorem onLine_latch (line : Line) : Latches p (onLine C line) fun _ => False := by
  have line := dispatchLine_latch C p
  have outcome := onUsbOutcome_latch C
  unfold onLine
  mvcgen [line, outcome]
  have h : Latch _ _ := ‹_›
  exact h.of_view id rfl

theorem advanceTime_latch : Latches p (advanceTime C) fun _ => False := by
  have call (now : UInt64) : Latches p (callEngine C (.advanceTime now)) fun _ => p :=
    callEngine_latch C p rfl
  have close := failRadioClosed_latch C
  have pending := commitPending_latch C p
  unfold advanceTime
  mvcgen [call, close, pending]
  exact Latch.toFaulted ‹_›

end

/-! ### Runs -/

/-- The turn does not find a forward due while the engine is faulted with its radio flag up. -/
def World.calm (w : World) (i : Input) : Bool :=
  match i.turn, w.forward with
  | .pollTimeouts, some fwd =>
    !(fwd.cmdId.isNone && decide (fwd.due ≤ w.now) && w.engine.fault && w.engine.radioOn)
  | _, _ => true

theorem turn_latch (C : Crypto) (w : World) (i : Input) (h : Latch False w) (hc : w.calm i = true) :
    Latch False ((turn C i.turn).run { w with wakes := i.wakes }).2 := by
  have hw : Latch False { w with wakes := i.wakes } := h.of_view id rfl
  obtain ⟨t, wakes⟩ := i
  cases t with
  | advanceTime => exact run_of_triple (advanceTime_latch C False) hw
  | usb line => exact run_of_triple (onLine_latch C False line) hw
  | reboot =>
      have wait := await_latch False
      have hr : Latches False (turn C .reboot) fun _ => False := by
        unfold turn
        mvcgen [wait]
        have h : Latch _ _ := ‹_›
        exact h.of_view id rfl
      exact run_of_triple hr hw
  | radioEvt =>
      have evt := onRadioEvt_latch C False
      have hr : Latches False (turn C .radioEvt) fun _ => False := by
        unfold turn
        mvcgen [evt]
        have h : Latch _ _ := ‹_›
        exact h.of_view id rfl
      exact run_of_triple hr hw
  | pollTimeouts =>
      have hcalm : Calm { w with wakes := wakes } := by
        refine { hw with calm := fun hf fwd hfwd hcmd hdue => ?_ }
        have hfwd : w.forward = some fwd := hfwd
        have hdue : fwd.due ≤ w.now := hdue
        simpa [World.calm, hfwd, hcmd, hdue, h.fault hf] using hc
      exact run_of_triple (pollTimeouts_latch C) hcalm
  | sleep =>
      have wait := await_latch False
      have hr : Latches False (turn C .sleep) fun _ => False := by
        unfold turn
        mvcgen [wait]
      exact run_of_triple hr hw

theorem step_latch (C : Crypto) (w : World) (i : Input) (h : Latch False w) (hc : w.calm i = true) :
    Latch False (w.step C i) := by
  unfold World.step
  split
  · exact h
  · have ht := turn_latch C w i h hc
    split
    · rename_i hrun
      rwa [hrun] at ht
    · rename_i hrun
      rw [hrun] at ht
      exact ht.of_view id rfl

theorem boot_latch (C : Crypto) (stored : Option (List UInt8)) (uid : Bytes 8) (hw : Bool) :
    Latch False (.boot C stored uid hw) where
  closed := rfl
  fault := fun h => nomatch h
  health := fun h => nomatch h
  policy := fun h => nomatch h
  send := fun h => nomatch h
  up := False.elim

/-- **Fail-closed stays closed.**  In a run no turn of which finds a forward due while the engine is
faulted with its radio flag up, nothing enables the gate after a failed commit, and no transmission
is queued that the gate would pass. -/
theorem stays_closed (C : Crypto) (stored : Option (List UInt8)) (uid : Bytes 8) (hw : Bool)
    (is : List Input)
    (h : Along (World.step C) (fun w i => w.calm i = true) (.boot C stored uid hw) is) :
    staysClosed (run (World.step C) (.boot C stored uid hw) is).log = true :=
  (run_invariant (I := Latch False) (fun w i hl hc => step_latch C w i hl hc) is
    (boot_latch C stored uid hw) h).closed

namespace Sample

/-- The radio is on.  A foreign frame is heard while a commit fails; it is relayed by the faulted
engine, and comes due while the next frame waits for its random word. -/
def relayed : List Input :=
  [ switchOn,
    { turn := .advanceTime, wakes := [] },
    { turn := .usb (.request 2 (.timeSet (some 7200) true))
      wakes := [broken (hears foreign ++ hears [])] },
    { turn := .radioEvt, wakes := [wake [], wake []] },
    { turn := .radioEvt, wakes := [wake [.tick 300000]] },
    { turn := .pollTimeouts, wakes := [wake []] } ]

end Sample

/-- The forward enables the gate again. -/
theorem reopened : staysClosed
    (run (World.step Sample.crypto) (.boot Sample.crypto none (Sample.bytes8 1) true) Sample.relayed).log =
      false := by
  decide +kernel

/-- Without the last turn nothing is opened. -/
theorem stays_closed_sample : staysClosed
    (run (World.step Sample.crypto) (.boot Sample.crypto none (Sample.bytes8 1) true)
      (Sample.relayed.take 5)).log = true :=
  stays_closed Sample.crypto none (Sample.bytes8 1) true _ (by decide +kernel)

end LoraMesh
