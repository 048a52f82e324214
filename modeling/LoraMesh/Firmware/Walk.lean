import LoraMesh.Firmware.Runtime
import LoraMesh.Firmware.Lines

/-!
# Firmware — Walk

What the moves of the runtime keep, its programs keep.  A predicate `I` of the world is followed
from one `await` to the next through every program; at the `await`s where a program may be found
standing, `S` holds.

* `MovesKeep`: the moves that keep `I`.
* `IdleKeep`, `SendKeep`, `RelayKeep`: the same where `I` says something of the send in flight, of the
  forward that waits or of what the host has configured; their programs then keep `I` each by a proof of
  their own.
* `turn_keeps`: a turn keeps `I`, if the lines of the host do.
-/

namespace LoraMesh

open Std.Do

set_option mvcgen.warning false

/-- From `I` to `I`, and to `S` at every `await`. -/
abbrev Keeps (I S : World → Prop) {α : Type} (m : Async α) : Prop :=
  ⦃fun w => ⌜I w⌝⦄ m ⦃post⟨fun _ w => ⌜I w⌝, fun _ w => ⌜S w⌝⟩⦄

/-- A deferred line ends with `I`, and leaves no commit. -/
abbrev Ends (I S : World → Prop) (m : Async Outcome) : Prop :=
  ⦃fun w => ⌜I w⌝⦄ m ⦃post⟨fun o w => ⌜o ≠ .needsCommit ∧ I w⌝, fun _ w => ⌜S w⌝⟩⦄

/-- The engine calls the runtime makes by itself, commits apart. -/
def Op.internal : Op → Bool
  | .advanceTime _ => true
  | .sendBegin _ _ _ => true
  | .sendEmit => true
  | .sendRetryEcho => true
  | .sendComplete => true
  | .onFrame _ _ _ => true
  | .noteOrigin _ _ => true
  | _ => false

/-- The engine calls made with what the TRNG supplied. -/
def Op.keyed : Op → Bool
  | .provision _ _ => true
  | .pairOffer _ _ _ => true
  | _ => false

def RadioCmd.setsFlag : RadioCmd → Bool
  | .setEnabled _ _ => true
  | _ => false

/-- A reply that may stand anywhere: an error, a message received, the end of a request in
flight. -/
def Reply.plain (r : Reply) (ends : Option Flight) : Bool :=
  match r with
  | .ok _ _ => ends.isSome
  | _ => true

/-- What the lines of the host configure, and the count of their pings. -/
def World.config (w : World) :=
  (w.settings, w.settingsTxPending, w.stagedWifi, w.wifiConfigured, w.wifiSsidLen, w.pingCount)

/-- The moves that keep `I`. -/
structure MovesKeep (C : Crypto) (I S : World → Prop) : Prop where
  stands : ∀ w, I w → S w
  stood : ∀ {w}, S w → S { w with suspended := true }
  scratch : ∀ {w w'}, I w → w'.core = w.core → I w'
  pop : ∀ {w evt evts}, I w → w.evts = evt :: evts → I { w with evts := evts }
  flights : ∀ {w} send ping, I w → I { w with send := send, ping := ping }
  accepted : ∀ {w} f id, I w → I (w.record (.accepted f id))
  cleared : ∀ {w} send, I w → I (w.record (.cleared send))
  probed : ∀ {w} clear, I w → I (w.record (.probed clear))
  kept : ∀ {w x}, x.kept = true → I w → I (w.record x)
  wait : Keeps I S await
  alloc : Keeps I S allocCmd
  call : ∀ op, op.internal = true → Keeps I S (callEngine C op)
  keyed : ∀ op, op.keyed = true → Keeps I S (callEngine C op)
  stage : Keeps I S stageForCommit
  sync : Keeps I S syncPolicy
  queue : ∀ cmd use, cmd.setsFlag = false → Keeps I S (trySend cmd use)
  reply : ∀ r ends, r.plain ends = true → Keeps I S (reply r ends)
  commit : Keeps I S (commit C)
  close : Keeps I S (failRadioClosed C)

/-- What the relaying queues. -/
def Use.relays : Use → Bool
  | .ack => true
  | .forward => true
  | _ => false

/-- What is transmitted. -/
def Use.transmits : Use → Bool
  | .data => true
  | .ack => true
  | .forward => true
  | _ => false

/-- The moves that keep `I`, sends, pings, relaying and what the host configures apart. -/
structure IdleKeep (C : Crypto) (I S : World → Prop) : Prop where
  stands : ∀ w, I w → S w
  stood : ∀ {w}, S w → S { w with suspended := true }
  scratch : ∀ {w w'}, I w → w'.core = w.core → w'.forward = w.forward → w'.config = w.config → I w'
  pop : ∀ {w evt evts}, I w → w.evts = evt :: evts → I { w with evts := evts }
  wait : Keeps I S await
  alloc : Keeps I S allocCmd
  call : ∀ op, op.internal = true → op.relays = false → Keeps I S (callEngine C op)
  keyed : ∀ op, op.keyed = true → Keeps I S (callEngine C op)
  stage : Keeps I S stageForCommit
  sync : Keeps I S syncPolicy
  queue : ∀ cmd use, cmd.setsFlag = false → use.transmits = false → Keeps I S (trySend cmd use)
  reply : ∀ r, r.plain none = true → Keeps I S (reply r none)
  commit : Keeps I S (commit C)
  close : Keeps I S (failRadioClosed C)

/-- And what the host configures. -/
structure ConfigKeep (C : Crypto) (I S : World → Prop) : Prop extends IdleKeep C I S where
  config : ∀ {w w'}, I w → w'.core = w.core → w'.forward = w.forward → w'.pingCount = w.pingCount → I w'
  kept : ∀ {w x}, x.kept = true → I w → I (w.record x)

/-- And the pings. -/
structure PingKeep (C : Crypto) (I S : World → Prop) : Prop extends IdleKeep C I S where
  pings : ∀ {w} ping, I w → I { w with ping := ping }
  counted : ∀ {w} n, I w → I { w with pingCount := n }
  begun : ∀ {w} id, I w → I (w.record (.accepted .ping id))
  probed : ∀ {w} clear, I w → I (w.record (.probed clear))
  ended : ∀ r, r.plain (some .ping) = true → Keeps I S (LoraMesh.reply r (some .ping))

/-- And the sends. -/
structure SendsKeep (C : Crypto) (I S : World → Prop) : Prop extends IdleKeep C I S where
  sends : ∀ {w} send, I w → I { w with send := send }
  taken : ∀ {w} id, I w → I (w.record (.accepted .send id))
  data : ∀ cmd, cmd.setsFlag = false → Keeps I S (trySend cmd .data)
  ends : ∀ r, r.plain (some .send) = true → Keeps I S (LoraMesh.reply r (some .send))

/-- And the sends and pings. -/
structure QuietKeep (C : Crypto) (I S : World → Prop) : Prop extends SendsKeep C I S, PingKeep C I S

/-- And the sends and the relaying. -/
structure FreeKeep (C : Crypto) (I S : World → Prop) : Prop extends SendsKeep C I S where
  forwards : ∀ {w} forward, I w → I { w with forward := forward }
  relay : ∀ op, op.internal = true → Keeps I S (callEngine C op)
  relayed : ∀ cmd use, cmd.setsFlag = false → Keeps I S (trySend cmd use)
  cleared : ∀ {w} send, I w → I (w.record (.cleared send))

/-- And the programs of the sends and pings. -/
structure SendKeep (C : Crypto) (I S : World → Prop) : Prop extends IdleKeep C I S where
  ends : ∀ send code, ⦃fun w => ⌜I w ∧ w.send = some send⌝⦄ endSend C send code
    ⦃post⟨fun _ w => ⌜I w⌝, fun _ w => ⌜S w⌝⟩⦄
  prep : Ends I S (driveSendPrep C)
  retry : Keeps I S (pollSend C)
  cadDone : ∀ id result, Keeps I S (onCadDone id result)

/-- And the programs of the relaying. -/
structure RelayKeep (C : Crypto) (I S : World → Prop) : Prop extends SendKeep C I S where
  txDone : ∀ id result, Keeps I S (onTxDone C id result)
  receive : ∀ frame, Keeps I S (onRx C frame)
  forward : Keeps I S pollForward
  clear : ∀ enabled, Keeps I S (clearInFlight enabled)

theorem txToken_keeps (I S : World → Prop) (contact : Option UInt8) : Keeps I S (txToken contact) :=
  triple_iff.mpr fun _ hw => hw

theorem MovesKeep.idle {C : Crypto} {I S : World → Prop} (h : MovesKeep C I S) : IdleKeep C I S where
  stands := h.stands
  stood := h.stood
  scratch := fun hw hc _ _ => h.scratch hw hc
  pop := h.pop
  wait := h.wait
  alloc := h.alloc
  call := fun op hop _ => h.call op hop
  keyed := h.keyed
  stage := h.stage
  sync := h.sync
  queue := fun cmd use hcmd _ => h.queue cmd use hcmd
  reply := fun r hr => h.reply r none hr
  commit := h.commit
  close := h.close

theorem MovesKeep.configs {C : Crypto} {I S : World → Prop} (h : MovesKeep C I S) : ConfigKeep C I S where
  toIdleKeep := h.idle
  config := fun hw hc _ _ => h.scratch hw hc
  kept := h.kept

theorem MovesKeep.quiet {C : Crypto} {I S : World → Prop} (h : MovesKeep C I S) : QuietKeep C I S where
  toIdleKeep := h.idle
  sends := fun {w} send hw => h.flights send w.ping hw
  taken := h.accepted .send
  data := fun cmd hcmd => h.queue cmd .data hcmd
  ends := fun r hr => h.reply r (some .send) hr
  pings := fun {w} ping hw => h.flights w.send ping hw
  counted := fun _ hw => h.scratch hw rfl
  begun := h.accepted .ping
  probed := h.probed
  ended := fun r hr => h.reply r (some .ping) hr

theorem MovesKeep.free {C : Crypto} {I S : World → Prop} (h : MovesKeep C I S) : FreeKeep C I S where
  toSendsKeep := h.quiet.toSendsKeep
  forwards := fun _ hw => h.scratch hw rfl
  relay := h.call
  relayed := h.queue
  cleared := h.cleared

section

variable {C : Crypto} {I S : World → Prop} (h : IdleKeep C I S)

include h

/-! ### Keys and time -/

theorem jitter_keeps : Keeps I S jitter := by
  have wait := h.wait
  unfold jitter
  mvcgen [wait]

theorem driveTrngOp_ends : Ends I S (driveTrngOp C) := by
  have wait := h.wait
  have provision (label : UInt8) (key : Bytes 32) := h.keyed (.provision label key) rfl
  have offer (priv pub challenge : Bytes 32) := h.keyed (.pairOffer priv pub challenge) rfl
  have stage := h.stage
  unfold driveTrngOp completeProvision completePairOffer settled stageInline fail
  mvcgen [wait, provision, offer, stage]
  all_goals
    have hw : I _ := ‹_›
    first
      | exact h.scratch hw rfl rfl rfl
      | exact And.intro nofun (h.scratch hw rfl rfl rfl)

theorem commitPending_keeps : Keeps I S (commitPending C) := by
  have commit := h.commit
  unfold commitPending
  mvcgen [commit]

theorem advanceTime_keeps : Keeps I S (advanceTime C) := by
  have call (now : UInt64) := h.call (.advanceTime now) rfl rfl
  have close := h.close
  have pending := commitPending_keeps h
  unfold advanceTime
  mvcgen [call, close, pending]

end

section

variable {C : Crypto} {I S : World → Prop}

/-! ### What the host configures -/

theorem commitSettings_keeps (h : ConfigKeep C I S) : Keeps I S commitSettings := by
  have wait := h.wait
  unfold commitSettings
  mvcgen [wait]
  · have hw : I _ := ‹_›
    exact h.kept rfl hw
  · have hw : I _ := ‹_›
    exact h.config hw rfl rfl rfl

theorem publishWifi_keeps (h : ConfigKeep C I S) {w : World} (hw : I w) : I w.publishWifi := by
  unfold World.publishWifi
  dsimp only
  split
  · split
    · exact h.config hw rfl rfl rfl
    · exact h.kept rfl (h.config hw rfl rfl rfl)
  · exact h.config hw rfl rfl rfl

theorem commitWifi_keeps (h : ConfigKeep C I S) : Keeps I S commitWifi := by
  have wait := h.wait
  unfold commitWifi
  mvcgen [wait]
  have hw : I _ := ‹_›
  exact publishWifi_keeps h (h.kept rfl hw)

end

section

variable {C : Crypto} {I S : World → Prop} (h : PingKeep C I S)

include h

/-! ### Pings -/

theorem drivePingPrep_ends : Ends I S drivePingPrep := by
  have alloc := h.alloc
  have queue (cmd : ℕ) := h.queue (.cadProbe cmd) .probe rfl rfl
  unfold drivePingPrep
  mvcgen [alloc, queue]
  case vc4 =>
    rename_i id count _ _ _ _ _ cmd _ w hw _
    exact ⟨nofun, h.begun id (h.pings _ hw)⟩
  all_goals
    have hw : I _ := ‹_›
    first
      | exact h.scratch hw rfl rfl rfl
      | exact And.intro nofun (h.scratch hw rfl rfl rfl)

theorem endPing_keeps {r : Reply} (hr : r.plain (some .ping) = true) : Keeps I S (endPing r) := by
  have reply := h.ended r hr
  unfold endPing
  mvcgen [reply]
  rename_i w hw _
  exact h.pings none hw

theorem onCadDone_keeps (id : ℕ) (result : Except TxFault Bool) : Keeps I S (onCadDone id result) := by
  have ok (id : UInt64) (body : Body) := endPing_keeps h (r := .ok id body) rfl
  have err (id : UInt64) (code : ErrCode) := endPing_keeps h (r := .err id code) rfl
  have alloc := h.alloc
  have queue (cmd : ℕ) := h.queue (.cadProbe cmd) .probe rfl rfl
  unfold onCadDone
  mvcgen [ok, err, alloc, queue]
  all_goals
    have hw : I _ := ‹_›
    first
      | exact h.probed _ hw
      | exact h.counted _ hw
      | exact h.pings _ hw

end

section

variable {C : Crypto} {I S : World → Prop} (h : SendsKeep C I S)

include h

/-! ### Sends -/

theorem finishSend_keeps {r : Reply} (hr : r.plain (some .send) = true) : Keeps I S (finishSend C r) := by
  have complete := h.call .sendComplete rfl rfl
  have reply := h.ends r hr
  unfold finishSend
  mvcgen [complete, reply]
  rename_i w hw _
  exact h.sends none hw

theorem endSend_keeps (send : InFlight) (code : ErrCode) : Keeps I S (endSend C send code) :=
  finishSend_keeps h rfl

theorem mintAndSend_keeps (frame : AirFrame) (jitter : ℕ) (contact : Option UInt8) :
    Keeps I S (mintAndSend frame jitter contact .data) := by
  have sync := h.sync
  have token := txToken_keeps I S contact
  have alloc := h.alloc
  have queue (cmd : ℕ) (token : TxToken) := h.data (.tx cmd frame jitter contact token) rfl
  unfold mintAndSend
  mvcgen [sync, token, alloc, queue]

theorem queueTx_keeps (id : UInt64) (contact : UInt8) (frame : OutgoingFrame) :
    Keeps I S (queueTx C id contact frame) := by
  have jit := jitter_keeps h.toIdleKeep
  have mint := mintAndSend_keeps h
  have complete := h.call .sendComplete rfl rfl
  have reply := h.reply (.err id .busy) rfl
  unfold queueTx emitErr
  mvcgen [jit, mint, complete, reply]
  rename_i w hw _
  exact h.taken id (h.sends _ hw)

theorem driveSendPrep_ends : Ends I S (driveSendPrep C) := by
  have wait := h.wait
  have begins (id : UInt8) (text : List UInt8) (pid : UInt32) := h.call (.sendBegin id text pid) rfl rfl
  have emit := h.call .sendEmit rfl rfl
  have complete := h.call .sendComplete rfl rfl
  have commit := h.commit
  have queue := queueTx_keeps h
  unfold driveSendPrep fail
  mvcgen [wait, begins, emit, complete, commit, queue]
  all_goals
    have hw : I _ := ‹_›
    first
      | exact h.scratch hw rfl rfl rfl
      | exact And.intro nofun (h.scratch hw rfl rfl rfl)

theorem pollSend_keeps : Keeps I S (pollSend C) := by
  have retry := h.call .sendRetryEcho rfl rfl
  have jit := jitter_keeps h.toIdleKeep
  have mint := mintAndSend_keeps h
  have ends := endSend_keeps h
  have finish (id : UInt64) := finishSend_keeps h (r := .ok id .unconfirmed) rfl
  unfold pollSend
  mvcgen [retry, jit, mint, ends, finish]
  all_goals
    have hw : I _ := ‹_›
    exact h.sends _ hw

theorem onTxDone_keeps (forward : ∀ id, Keeps I S (forwardDone id)) (id : ℕ)
    (result : Except TxFault Unit) : Keeps I S (onTxDone C id result) := by
  have ends := endSend_keeps h
  unfold onTxDone
  mvcgen [ends, forward]
  rename_i w hw _ _ _ _
  exact h.sends _ hw

end

theorem QuietKeep.send {C : Crypto} {I S : World → Prop} (h : QuietKeep C I S) : SendKeep C I S where
  toIdleKeep := h.toIdleKeep
  ends send code := triple_mono (endSend_keeps h.toSendsKeep send code) (fun _ hw => hw.1) (fun _ _ hw => hw)
    fun _ hw => hw
  prep := driveSendPrep_ends h.toSendsKeep
  retry := pollSend_keeps h.toSendsKeep
  cadDone := onCadDone_keeps h.toPingKeep

/-! ### Relaying -/

section

variable {C : Crypto} {I S : World → Prop} (h : FreeKeep C I S)

include h

theorem forwardDone_keeps (id : ℕ) : Keeps I S (forwardDone id) := by
  refine triple_iff.mpr fun w hw => ?_
  rcases forwardDone_run id w with hrun | ⟨-, hrun⟩
  · rw [hrun]
    exact hw
  · rw [hrun]
    exact h.forwards none hw

theorem sendAckFrame_keeps (ack : OutgoingFrame) : Keeps I S (sendAckFrame C ack) := by
  have jit := jitter_keeps h.toIdleKeep
  have sync := h.sync
  have token := txToken_keeps I S ack.contactId
  have alloc := h.alloc
  have note (bytes : List UInt8) (now : UInt64) := h.relay (.noteOrigin bytes now) rfl
  have queue (cmd : ℕ) (frame : AirFrame) (jitter : ℕ) (contact : Option UInt8) (token : TxToken) :=
    h.relayed (.tx cmd frame jitter contact token) .ack rfl
  unfold sendAckFrame
  mvcgen [jit, sync, token, alloc, note, queue]

theorem scheduleForward_keeps (fwd : OutgoingFrame) : Keeps I S (scheduleForward fwd) := by
  have wait := h.wait
  unfold scheduleForward
  mvcgen [wait]
  have hw : I _ := ‹_›
  exact h.forwards _ hw

theorem onRx_keeps (frame : AirFrame) : Keeps I S (onRx C frame) := by
  have wait := h.wait
  have call (now : UInt64) (pid : UInt32) := h.relay (.onFrame frame now pid) rfl
  have finish (id : UInt64) := finishSend_keeps h.toSendsKeep (r := .ok id .acknowledged) rfl
  have commit := h.commit
  have pending := commitPending_keeps h.toIdleKeep
  have ack := sendAckFrame_keeps h
  have reply (c : UInt8) (epoch : UInt32) (seq : UInt64) (text : List UInt8) :=
    h.reply (.received c epoch seq text) rfl
  have forward := scheduleForward_keeps h
  unfold onRx
  mvcgen [wait, call, finish, commit, pending, ack, reply, forward]

theorem pollForward_keeps : Keeps I S pollForward := by
  have jit := jitter_keeps h.toIdleKeep
  have sync := h.sync
  have token := txToken_keeps I S none
  have alloc := h.alloc
  have queue (cmd : ℕ) (frame : AirFrame) (jitter : ℕ) (token : TxToken) :=
    h.relayed (.tx cmd frame jitter none token) .forward rfl
  unfold pollForward mintAndSend
  mvcgen [jit, sync, token, alloc, queue]
  all_goals
    have hw : I _ := ‹_›
    exact h.forwards _ hw

theorem clearInFlight_keeps (enabled : Bool) : Keeps I S (clearInFlight enabled) := by
  unfold clearInFlight
  mvcgen
  rename_i w hw _
  have hf : I { w with send := none, forward := none } := h.forwards none (h.sends none hw)
  exact h.cleared w.send.isSome hf

/-- The relaying, with the pings apart. -/
theorem FreeKeep.relays (ping : ∀ id result, Keeps I S (onCadDone id result)) : RelayKeep C I S where
  toIdleKeep := h.toIdleKeep
  ends send code := triple_mono (endSend_keeps h.toSendsKeep send code) (fun _ hw => hw.1) (fun _ _ hw => hw)
    fun _ hw => hw
  prep := driveSendPrep_ends h.toSendsKeep
  retry := pollSend_keeps h.toSendsKeep
  cadDone := ping
  txDone := onTxDone_keeps h.toSendsKeep (forwardDone_keeps h)
  receive := onRx_keeps h
  forward := pollForward_keeps h
  clear := clearInFlight_keeps h

end

theorem MovesKeep.relay {C : Crypto} {I S : World → Prop} (h : MovesKeep C I S) : RelayKeep C I S :=
  h.free.relays (onCadDone_keeps h.quiet.toPingKeep)

/-! ### Steps -/

/-- A turn of a task that stands at no wait. -/
theorem World.step_awake {C : Crypto} {w : World} {i : Input} (hs : ¬ w.suspended = true) :
    w.step C i =
      match (turn C i.turn).run { w with wakes := i.wakes } with
      | (some (), w) => w
      | (none, w) => { w with suspended := true } := if_neg hs

/-- What a turn keeps, a step keeps. -/
theorem step_of_turn {C : Crypto} {I S : World → Prop} (stands : ∀ w, I w → S w)
    (stood : ∀ {w}, S w → S { w with suspended := true }) (w : World) (i : Input)
    (ht : ⦃fun w' => ⌜w' = { w with wakes := i.wakes } ∧ I w'⌝⦄ turn C i.turn
      ⦃post⟨fun _ w => ⌜I w⌝, fun _ w => ⌜S w⌝⟩⦄)
    (hwakes : I w → I { w with wakes := i.wakes }) (hw : if w.suspended then S w else I w) :
    if (w.step C i).suspended then S (w.step C i) else I (w.step C i) := by
  by_cases hs : w.suspended = true
  · have hstep : w.step C i = w := if_pos hs
    rwa [hstep]
  · rw [if_neg hs] at hw
    have ht := triple_iff.mp ht _ ⟨rfl, hwakes hw⟩
    rw [World.step_awake hs]
    generalize (turn C i.turn).run { w with wakes := i.wakes } = r at ht ⊢
    obtain ⟨_ | a, w'⟩ := r
    · exact stood ht
    · show if w'.suspended then S w' else I w'
      split
      · exact stands w' ht
      · exact ht

section

variable {C : Crypto} {I S : World → Prop} (h : RelayKeep C I S)

include h

/-! ### Radio events -/

theorem onRadioEvt_keeps (evt : RadioEvt) : Keeps I S (onRadioEvt C evt) := by
  cases evt with
  | controlDone id ok => exact triple_iff.mpr fun _ hw => hw
  | txDone id result attempted => exact h.txDone id result
  | cadDone id result => exact h.cadDone id result
  | rxFrame frame => exact h.receive frame
  | rxCrcError => exact triple_iff.mpr fun _ hw => hw
  | fault => exact h.close

/-- A turn that takes the next radio event. -/
theorem radioEvt_keeps : Keeps I S (turn C .radioEvt) := by
  have evt := onRadioEvt_keeps h
  unfold turn
  mvcgen [evt]
  exact h.pop ‹_› ‹_›

theorem waitLoop_keeps (want deadline fuel : ℕ) : Keeps I S (waitLoop C want deadline fuel) := by
  induction fuel with
  | zero => exact triple_iff.mpr fun w hw => h.stands w hw
  | succ fuel ih =>
      have wait := h.wait
      have evt := onRadioEvt_keeps h
      unfold waitLoop
      mvcgen [wait, evt, ih]
      all_goals exact h.pop ‹_› ‹_›

theorem waitControl_keeps (want : ℕ) : Keeps I S (waitControl C want) := by
  have loop := waitLoop_keeps h want
  unfold waitControl
  mvcgen [loop]

theorem barrier_keeps : Keeps I S (barrier C) := by
  have alloc := h.alloc
  have queue (cmd : ℕ) := h.queue (.barrier cmd) .control rfl
  have wait := waitControl_keeps h
  unfold barrier
  mvcgen [alloc, queue, wait]

/-! ### Timeouts and control operations -/

theorem pollTimeouts_keeps : Keeps I S (pollTimeouts C) := by
  have send := h.retry
  have forward := h.forward
  unfold pollTimeouts
  mvcgen [send, forward]

/-- The delete branch, before its reply. -/
theorem controlDelete_keeps (id : UInt64) : Keeps I S (controlDelete C id) := by
  have commit := h.commit
  have sync := h.sync
  have ends := h.ends
  have wait := barrier_keeps h
  have reply (id : UInt64) (code : ErrCode) := h.reply (.err id code) rfl
  unfold controlDelete emitErr
  mvcgen [commit, sync, ends, wait, reply]

/-! ### Turns -/

/-- A turn keeps `I`, if a line of the host does. -/
theorem turn_keeps (t : LoopTurn) (line : ∀ l, t = .usb l → Keeps I S (onLine C l)) :
    Keeps I S (turn C t) := by
  cases t with
  | advanceTime => exact advanceTime_keeps h.toIdleKeep
  | usb l => exact line l rfl
  | reboot =>
      have wait := h.wait
      unfold turn
      mvcgen [wait]
      · have hw : I _ := ‹_›
        exact h.scratch hw rfl rfl rfl
      · exact triple_iff.mpr fun w hw => h.stands w hw
  | radioEvt => exact radioEvt_keeps h
  | pollTimeouts => exact pollTimeouts_keeps h
  | sleep =>
      have wait := h.wait
      unfold turn
      mvcgen [wait]

/-- `I` between the turns, and `S` where the task stands at an `await`. -/
theorem step_keeps (w : World) (i : Input) (line : ∀ l, i.turn = .usb l → Keeps I S (onLine C l))
    (hw : if w.suspended then S w else I w) :
    if (w.step C i).suspended then S (w.step C i) else I (w.step C i) :=
  step_of_turn h.stands h.stood w i
    (triple_mono (turn_keeps h i.turn line) (fun _ hw => hw.2) (fun _ _ hw => hw) fun _ hw => hw)
    (fun hw => h.scratch hw rfl rfl rfl) hw

/-- What the moves and the lines keep, a run keeps. -/
theorem run_carries (is : List Input) (line : ∀ i ∈ is, ∀ l, i.turn = .usb l → Keeps I S (onLine C l))
    {w : World} (hw : if w.suspended then S w else I w) :
    if (run (World.step C) w is).suspended then S (run (World.step C) w is)
      else I (run (World.step C) w is) :=
  run_invariant (I := fun w => if w.suspended then S w else I w)
    (fun w i hw hi => step_keeps h w i hi hw) is hw (along_of_forall line)

theorem run_keeps (is : List Input) (line : ∀ i ∈ is, ∀ l, i.turn = .usb l → Keeps I S (onLine C l))
    {w : World} (hs : w.suspended = false) (hw : I w) :
    if (run (World.step C) w is).suspended then S (run (World.step C) w is)
      else I (run (World.step C) w is) := by
  refine run_carries h is line ?_
  rw [hs, if_neg Bool.false_ne_true]
  exact hw

/-- And so holds in every state of it. -/
theorem run_stands (is : List Input) (line : ∀ i ∈ is, ∀ l, i.turn = .usb l → Keeps I S (onLine C l))
    {w : World} (hs : w.suspended = false) (hw : I w) : S (run (World.step C) w is) := by
  have hr := run_keeps h is line hs hw
  split at hr
  · exact hr
  · exact h.stands _ hr

end

end LoraMesh
