import LoraMesh.Firmware.Frames

/-!
# Firmware — Hosts

What the programs of the runtime leave alone of the host's side.  A statement about what the host has
configured, its ping and the log is kept by every turn, once the lines of the host and the answers to
its probes keep it.

* `HostFrame`: what such a statement must satisfy.
* `HostFrame.free`: then the sends, the relaying and the commits keep it.
-/

namespace LoraMesh

open Std.Do

set_option mvcgen.warning false

/-- What such a statement may look at. -/
def World.hostSide (w : World) := (w.health, w.stagedReply, w.ping, w.config, w.log)

/-- The happenings that it may take note of. -/
def Happening.heeded : Happening → Bool
  | .dispatched _ _ => true
  | .accepted .ping _ => true
  | .probed _ => true
  | .keptSettings _ => true
  | .keptWifi _ => true
  | .published _ => true
  | .reply _ (some .ping) => true
  | _ => false

/-- A statement about the host's side: `I` on the way, `S` where the runtime stands at an `await`. -/
structure HostFrame (I S : World → Prop) : Prop where
  stands : ∀ w, I w → S w
  stood : ∀ {w}, S w → S { w with suspended := true }
  view : ∀ {w w'}, I w → w'.hostSide = w.hostSide → I w'
  record : ∀ {w x}, I w → x.heeded = false → I (w.record x)
  noPing : ∀ {w}, I w → I { w with ping := none }
  fault : ∀ {w}, I w → I { w with health := .fault }

namespace HostFrame

variable {C : Crypto} {I S : World → Prop} (h : HostFrame I S)

include h

theorem wait : Keeps I S await :=
  triple_mono (await_keeps (P := I) (fun _ _ hw => h.view hw rfl) (fun _ _ hw => h.view hw rfl)
    (fun _ _ hw => h.view hw rfl) fun _ _ hw => h.record hw rfl) (fun _ hw => hw) (fun _ _ hw => hw) h.stands

theorem alloc : Keeps I S allocCmd := triple_iff.mpr fun _ hw => h.view hw rfl

theorem stage : Keeps I S stageForCommit := stageForCommit_keeps fun _ _ hw => h.view hw rfl

theorem replies (r : Reply) (ends : Option Flight) (he : ends ≠ some .ping) : Keeps I S (reply r ends) := by
  refine triple_iff.mpr fun w hw => h.record hw ?_
  rcases ends with _ | _ | _
  · rfl
  · rfl
  · exact absurd rfl he

theorem calls (op : Op) : Keeps I S (callEngine C op) :=
  triple_iff.mpr fun w hw => by
    have hrec (anew : Bool) : I (w.record (.engine op (step C w.engine op).2 anew)) := h.record hw rfl
    exact h.view (hrec _) rfl

theorem queue (cmd : RadioCmd) (use : Use) : Keeps I S (trySend cmd use) := by
  unfold trySend
  mvcgen
  · rename_i w hw _
    have hrec : I (w.record (.queued cmd use (w.cmdValid cmd))) := h.record hw rfl
    exact h.view hrec rfl
  · rename_i w hw _
    exact h.record hw rfl

theorem policy (enabled : Bool) (mask : UInt32) : Keeps I S (setPolicy enabled mask) := by
  refine triple_iff.mpr fun w hw => ?_
  have hrec : I (w.record (.policy enabled mask)) := h.record hw rfl
  exact h.view hrec rfl

theorem sync : Keeps I S syncPolicy := by
  have policy := h.policy
  unfold syncPolicy
  mvcgen [policy]
  have hw : I _ := ‹_›
  exact h.view hw rfl

/-- A ping is dropped with the rest. -/
theorem close : Keeps I S (failRadioClosed C) := by
  have policy := h.policy
  have alloc := h.alloc
  have queue := h.queue
  have call := h.calls (C := C)
  have reply (r : Reply) := h.replies r (some .send) nofun
  unfold failRadioClosed emitErr
  mvcgen [policy, alloc, queue, call, reply]
  all_goals
    have hw : I _ := ‹_›
    first
      | exact h.view hw rfl
      | exact h.record hw rfl
      | exact h.view (h.noPing hw) rfl

/-- A commit that fails leaves a node that has failed. -/
theorem commits_fault :
    ⦃fun w => ⌜I w⌝⦄ commit C ⦃post⟨fun ok w => ⌜I w ∧ (ok = false → w.health = .fault)⌝, fun _ w => ⌜S w⌝⟩⦄ := by
  have failed : HostFrame (fun w => I w ∧ w.health = .fault) S :=
    { stands := fun w hw => h.stands w hw.1
      stood := h.stood
      view := fun hw hv => ⟨h.view hw.1 hv, (congrArg Prod.fst hv).trans hw.2⟩
      record := fun hw hx => ⟨h.record hw.1 hx, hw.2⟩
      noPing := fun hw => ⟨h.noPing hw.1, hw.2⟩
      fault := fun hw => ⟨h.fault hw.1, rfl⟩ }
  have wait := h.wait
  have stage := h.stage
  have call := h.calls (C := C)
  have close := failed.close (C := C)
  unfold commit restage
  mvcgen [wait, stage, call, close]
  case vc9 | vc17 => exact ‹_ ∧ _›
  all_goals
    have hw : I _ := ‹_›
    first
      | exact h.record hw rfl
      | exact ⟨h.fault hw, rfl⟩
      | exact h.view hw rfl
      | exact ⟨hw, nofun⟩

theorem commits : Keeps I S (commit C) :=
  triple_mono h.commits_fault (fun _ hw => hw) (fun _ _ hw => hw.1) fun _ hw => hw

theorem idle : IdleKeep C I S where
  stands := h.stands
  stood := h.stood
  scratch hw hc _ hv := by
    simp only [World.core, Prod.mk.injEq] at hc
    obtain ⟨⟨-, hh, -, hr, -, -, hp, -⟩, -, -, -, hl⟩ := hc
    exact h.view hw (by simp only [World.hostSide, hh, hr, hp, hv, hl])
  pop hw _ := h.view hw rfl
  wait := h.wait
  alloc := h.alloc
  call op _ _ := h.calls op
  keyed op _ := h.calls op
  stage := h.stage
  sync := h.sync
  queue cmd use _ _ := h.queue cmd use
  reply r _ := h.replies r none nofun
  commit := h.commits
  close := h.close

theorem free : FreeKeep C I S where
  toIdleKeep := h.idle
  sends _ hw := h.view hw rfl
  taken _ hw := h.record hw rfl
  data cmd _ := h.queue cmd .data
  ends r _ := h.replies r (some .send) nofun
  forwards _ hw := h.view hw rfl
  relay op _ := h.calls op
  relayed cmd use _ := h.queue cmd use
  cleared _ hw := h.record hw rfl

end HostFrame

/-- A statement that says nothing of the pings, and of what happens takes note only of what is kept. -/
structure Unpinged (I : World → Prop) : Prop where
  pings : ∀ {w} ping n, I w → I { w with ping := ping, pingCount := n }
  notes : ∀ {w x}, x.kept = false → I w → I (w.record x)

theorem Unpinged.owing {I : World → Prop} (h : Unpinged I) (p : Option StagedReply → Prop) :
    Unpinged fun w => I w ∧ p w.stagedReply where
  pings ping n hw := ⟨h.pings ping n hw.1, hw.2⟩
  notes hx hw := ⟨h.notes hx hw.1, hw.2⟩

namespace HostFrame

variable {C : Crypto} {I S : World → Prop} (h : HostFrame I S)

include h

/-- The reply that is owed may be spoken of as well. -/
theorem owing (p : Option StagedReply → Prop) : HostFrame (fun w => I w ∧ p w.stagedReply) S where
  stands w hw := h.stands w hw.1
  stood := h.stood
  view hw hv := ⟨h.view hw.1 hv, (congrArg (fun v => p v.2.1) hv).mpr hw.2⟩
  record hw hx := ⟨h.record hw.1 hx, hw.2⟩
  noPing hw := ⟨h.noPing hw.1, hw.2⟩
  fault hw := ⟨h.fault hw.1, hw.2⟩

theorem pinging (hp : Unpinged I) : PingKeep C I S where
  toIdleKeep := h.idle
  pings {w} ping hw := hp.pings ping w.pingCount hw
  counted {w} n hw := hp.pings w.ping n hw
  begun _ hw := hp.notes rfl hw
  probed _ hw := hp.notes rfl hw
  ended _ _ := triple_iff.mpr fun _ hw => hp.notes rfl hw

theorem relay (hp : Unpinged I) : RelayKeep C I S := h.free.relays (onCadDone_keeps (h.pinging (C := C) hp))

end HostFrame

/-! ### Lines -/

/-- The requests that configure the device, or ask for a ping. -/
def Request.configures : Request → Bool
  | .ping _ => true
  | .settingsSet _ _ => true
  | .wifiSet _ _ => true
  | .wifiForget => true
  | _ => false

/-- No ping is to be driven, and no record of a configuration committed. -/
def Outcome.Settles (o : Outcome) (w : World) : Prop :=
  match o with
  | .needsPingPrep => False
  | .needsCommit => ∃ owed, w.stagedReply = some owed ∧ owed.settingsOnly = false
  | _ => True

section

variable {C : Crypto} {I S : World → Prop}

/-- From `I` to `I` with nothing configured. -/
abbrev Settled (I S : World → Prop) (m : Async Outcome) : Prop :=
  ⦃fun w => ⌜I w⌝⦄ m ⦃post⟨fun o w => ⌜o.Settles w ∧ I w⌝, fun _ w => ⌜S w⌝⟩⦄

theorem settled_settles {α : Type} (id : UInt64) (r : Except EngineError α) {k : α → Async Outcome}
    (hk : ∀ a, Settled I S (k a)) : Settled I S (settled id r k) := by
  cases r with
  | error e => exact triple_iff.mpr fun w hw => ⟨trivial, hw⟩
  | ok a => exact hk a

variable (h : HostFrame I S) (owing : ∀ {w} owed, I w → I (w.owing owed))

include h

theorem stageInline_settles (r : Reply) : Settled I S (stageInline r) := by
  have stage := h.stage
  unfold stageInline
  mvcgen [stage]

include owing

theorem stageReply_settles (owed : StagedReply) (ho : owed.settingsOnly = false) :
    Settled I S (stageReply owed) := by
  have stage := h.stage
  unfold stageReply
  mvcgen [stage]
  exact ⟨⟨owed, rfl, ho⟩, owing owed ‹_›⟩

/-- A request that configures nothing. -/
theorem dispatch_settles (id : UInt64) {req : Request} (hreq : req.configures = false) :
    Settled I S (dispatch C id req) := by
  have call := h.calls (C := C)
  have status {α : Type} (r : Except EngineError α) :=
    settled_settles id r fun _ => stageReply_settles h owing (.status id) rfl
  have simple {α : Type} (r : Except EngineError α) :=
    settled_settles id r fun _ => stageReply_settles h owing (.simple id) rfl
  have block {α : Type} (r : Except EngineError α) (c : UInt8) (blocked : Bool) :=
    settled_settles id r fun _ => stageReply_settles h owing (.block id c blocked) rfl
  have radio {α : Type} (r : Except EngineError α) (enabled : Bool) :=
    settled_settles id r fun _ => stageReply_settles h owing (.radioSet id enabled) rfl
  have answers {α : Type} (r : Except EngineError α) (f : α → Reply) :=
    settled_settles id r fun a => stageInline_settles h (f a)
  unfold dispatch opProvision opTimeSet opBlock opDelete opRadioSet opArm opSend opPairOffer opPairRecord
    opPairImport opRebootBootsel
  cases req with
  | status => mvcgen
  | ping count => cases hreq
  | settingsSet key value => cases hreq
  | wifiSet ssid pass => cases hreq
  | wifiForget => cases hreq
  | _ =>
      mvcgen [call, status, simple, block, radio, answers]
      all_goals
        subst_vars
        have hw : I _ := ‹_›
        exact ⟨trivial, h.view hw rfl⟩

end

end LoraMesh
