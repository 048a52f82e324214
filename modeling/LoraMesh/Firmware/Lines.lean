import LoraMesh.Firmware.Usb
import LoraMesh.Firmware.Calls

/-!
# Firmware — Lines

What the dispatch of a line can do (`firmware/src/usb.rs`): at most one engine operation, then the
copy of what it staged, and the reply at once or owed until the commit.

* `dispatch_cases`: every way a line is dispatched.
-/

namespace LoraMesh

open Std.Do

set_option mvcgen.warning false

/-- What only the USB side reads: the fields a line may set without an engine call. -/
def World.core (w : World) :=
  ((w.engine, w.health, w.staged, w.stagedReply, w.nextCmd, w.send, w.ping, w.lastPolicy),
    (w.hwPresent, w.toBus, w.now, w.log))

namespace World

variable (C : Crypto)

/-- After an engine call. -/
def called (w : World) (op : Op) : World :=
  { w with engine := (LoraMesh.step C w.engine op).1 }.record
    (.engine op (LoraMesh.step C w.engine op).2
      (w.staged.isSome &&
        decide ((LoraMesh.step C w.engine op).1.pendingPersist ≠ w.engine.pendingPersist)))

/-- After the engine's snapshot was copied, if it has one. -/
def copied (w : World) : World :=
  match w.engine.pendingPersist with
  | some bytes => { w with staged := some bytes }
  | none => w

/-- With a reply owed. -/
def owing (w : World) (owed : StagedReply) : World := { w with stagedReply := some owed }

end World

theorem callEngine_bind {α : Type} (C : Crypto) (op : Op) (k : Output → Async α) (w : World) :
    (callEngine C op >>= k).run w = (k (step C w.engine op).2).run (w.called C op) := rfl

/-- The engine operation of a request. -/
def Request.op : Request → Option Op
  | .timeSet (some secs) confirm => some (.setTime secs confirm)
  | .radioSet (some enabled) => some (.setRadio enabled)
  | .radioArmNextBoot => some .armNextBoot
  | .block (some c) => some (.setBlocked c true)
  | .unblock (some c) => some (.setBlocked c false)
  | .contactDelete (some c) => some (.deleteContact c)
  | .pairProof => some .pairProof
  | .pairConfirm => some .pairConfirm
  | .pairImport (some record) replace sasMatch => some (.pairImport record replace sasMatch)
  | _ => none

/-- The reply an operation owes until its commit; the others reply at once. -/
def Op.owes (id : UInt64) : Op → Option StagedReply
  | .setTime _ _ => some (.status id)
  | .setRadio enabled => some (.radioSet id enabled)
  | .setBlocked c blocked => some (.block id c blocked)
  | .deleteContact _ => some (.simple id)
  | _ => none

/-- The operation succeeded. -/
def Output.succeeded : Output → Bool
  | .unit (.ok _) => true
  | .hour (.ok _) => true
  | .block (.ok _) => true
  | .record (.ok _) => true
  | .imported (.ok _) => true
  | _ => false

/-- A reply owed that no engine operation has staged anything for. -/
def StagedReply.settingsOnly : StagedReply → Bool
  | .settingsSet _ _ _ _ => true
  | .wifiSet _ => true
  | .wifiForget _ => true
  | _ => false

/-- A line that needs nothing committed: a report, an error, or an operation still to be driven. -/
def Outcome.light : Outcome → Bool
  | .inline (.ok _ .report) => true
  | .inline (.err _ _) => true
  | .needsTrng => true
  | .needsSendPrep => true
  | .needsPingPrep => true
  | .needsRebootBootsel => true
  | _ => false

/-- The ways a request is dispatched. -/
inductive Dispatched (C : Crypto) (w : World) (id : UInt64) (req : Request) : Outcome → World → Prop
  /-- A faulted node answers nothing but its status. -/
  | closed {r} (hh : w.health = .fault) (ho : (Outcome.inline r).light = true) :
    Dispatched C w id req (.inline r) w
  /-- No engine call. -/
  | light {o w'} (hh : w.health ≠ .fault) (ho : o.light = true) (hw : w'.core = w.core) :
    Dispatched C w id req o w'
  /-- A settings record. -/
  | settings {owed w'} (hh : w.health ≠ .fault) (ho : owed.settingsOnly = true)
    (hw : w'.core = (w.owing owed).core) : Dispatched C w id req .needsCommit w'
  /-- The engine refuses. -/
  | refused {op code} (hop : req.op = some op) (hh : w.health ≠ .fault)
    (hout : (step C w.engine op).2.succeeded = false) :
    Dispatched C w id req (.inline (.err id code)) (w.called C op)
  /-- Staged, with the reply owed. -/
  | owes {op owed} (hop : req.op = some op) (hh : w.health ≠ .fault)
    (hout : (step C w.engine op).2.succeeded = true) (ho : op.owes id = some owed) :
    Dispatched C w id req .needsCommit ((w.called C op).copied.owing owed)
  /-- Staged, and replied at once. -/
  | answers {op body} (hop : req.op = some op) (hh : w.health ≠ .fault)
    (hout : (step C w.engine op).2.succeeded = true) (ho : op.owes id = none) :
    Dispatched C w id req (.inline (.ok id body)) (w.called C op).copied

section

variable {C : Crypto} {w : World} {id : UInt64} {req : Request} {op : Op} {α : Type}
  {f : Except EngineError α → Output} {r : Except EngineError α}

/-- An answer settled with a reply owed. -/
theorem owes_cases {owed : StagedReply} (hf : ∀ r, (f r).succeeded = r.isOk)
    (hr : (step C w.engine op).2 = f r) (hop : req.op = some op) (hh : w.health ≠ .fault)
    (ho : op.owes id = some owed) :
    ∃ o w', (settled id r fun _ => stageReply owed).run (w.called C op) = (some o, w') ∧
      Dispatched C w id req o w' := by
  cases r with
  | error x => exact ⟨_, _, rfl, .refused hop hh (by rw [hr, hf]; rfl)⟩
  | ok a => exact ⟨_, _, rfl, .owes hop hh (by rw [hr, hf]; rfl) ho⟩

/-- An answer settled with its reply at once. -/
theorem answers_cases {body : α → Body} (hf : ∀ r, (f r).succeeded = r.isOk)
    (hr : (step C w.engine op).2 = f r) (hop : req.op = some op) (hh : w.health ≠ .fault)
    (ho : op.owes id = none) :
    ∃ o w', (settled id r fun a => stageInline (.ok id (body a))).run (w.called C op) = (some o, w') ∧
      Dispatched C w id req o w' := by
  cases r with
  | error x => exact ⟨_, _, rfl, .refused hop hh (by rw [hr, hf]; rfl)⟩
  | ok a => exact ⟨_, _, rfl, .answers hop hh (by rw [hr, hf]; rfl) ho⟩

theorem unit_succeeded (r : Except EngineError Unit) : (Output.unit r).succeeded = r.isOk := by
  cases r <;> rfl

theorem hour_succeeded (r : Except EngineError UInt32) : (Output.hour r).succeeded = r.isOk := by
  cases r <;> rfl

theorem block_succeeded (r : Except EngineError BlockOutcome) : (Output.block r).succeeded = r.isOk := by
  cases r <;> rfl

theorem record_succeeded (r : Except EngineError (List UInt8)) : (Output.record r).succeeded = r.isOk := by
  cases r <;> rfl

theorem imported_succeeded (r : Except EngineError PairImportOutcome) :
    (Output.imported r).succeeded = r.isOk := by
  cases r <;> rfl

/-- The request is dispatched in one of the ways. -/
abbrev Cases (C : Crypto) (w : World) (id : UInt64) (req : Request) (m : Async Outcome) : Prop :=
  ∃ o w', m.run w = (some o, w') ∧ Dispatched C w id req o w'

variable (hh : w.health ≠ .fault)

include hh

theorem cases_light {m : Async Outcome} {o : Outcome} {w' : World} (hm : m.run w = (some o, w'))
    (ho : o.light = true) (hw : w'.core = w.core) : Cases C w id req m :=
  ⟨o, w', hm, .light hh ho hw⟩

theorem opBlock_cases {c : UInt8} {blocked : Bool} (hop : req.op = some (.setBlocked c blocked)) :
    Cases C w id req (opBlock C id (some c) blocked) := by
  obtain ⟨r, hr⟩ : ∃ r, (step C w.engine (.setBlocked c blocked)).2 = .block r := ⟨_, rfl⟩
  have hrun : (opBlock C id (some c) blocked).run w =
      (settled id r fun _ => stageReply (.block id c blocked)).run
        (w.called C (.setBlocked c blocked)) := by
    refine (callEngine_bind C _ _ w).trans ?_
    rw [hr]
  rw [Cases, hrun]
  exact owes_cases block_succeeded hr hop hh rfl

theorem opTimeSet_cases {secs : UInt64} {confirmed : Bool} (hop : req.op = some (.setTime secs confirmed)) :
    Cases C w id req (opTimeSet C id (some secs) confirmed) := by
  obtain ⟨r, hr⟩ : ∃ r, (step C w.engine (.setTime secs confirmed)).2 = .hour r := ⟨_, rfl⟩
  have hrun : (opTimeSet C id (some secs) confirmed).run w =
      (settled id r fun _ => stageReply (.status id)).run (w.called C (.setTime secs confirmed)) := by
    refine (callEngine_bind C _ _ w).trans ?_
    rw [hr]
  rw [Cases, hrun]
  exact owes_cases hour_succeeded hr hop hh rfl

theorem opDelete_cases {c : UInt8} (hop : req.op = some (.deleteContact c)) :
    Cases C w id req (opDelete C id (some c)) := by
  obtain ⟨r, hr⟩ : ∃ r, (step C w.engine (.deleteContact c)).2 = .unit r := ⟨_, rfl⟩
  have hrun : (opDelete C id (some c)).run w =
      (settled id r fun _ => stageReply (.simple id)).run (w.called C (.deleteContact c)) := by
    refine (callEngine_bind C _ _ w).trans ?_
    rw [hr]
  rw [Cases, hrun]
  exact owes_cases unit_succeeded hr hop hh rfl

theorem opRadioSet_cases {enabled : Bool} (hop : req.op = some (.setRadio enabled)) :
    Cases C w id req (opRadioSet C id (some enabled)) := by
  obtain ⟨r, hr⟩ : ∃ r, (step C w.engine (.setRadio enabled)).2 = .unit r := ⟨_, rfl⟩
  have hrun : (opRadioSet C id (some enabled)).run w =
      (settled id r fun _ => stageReply (.radioSet id enabled)).run (w.called C (.setRadio enabled)) := by
    refine (callEngine_bind C _ _ w).trans ?_
    rw [hr]
  rw [Cases, hrun]
  exact owes_cases unit_succeeded hr hop hh rfl

theorem opArm_cases (hop : req.op = some .armNextBoot) : Cases C w id req (opArm C id) := by
  obtain ⟨r, hr⟩ : ∃ r, (step C w.engine .armNextBoot).2 = .unit r := ⟨_, rfl⟩
  have hrun : (opArm C id).run w =
      (settled id r fun _ => stageInline (.ok id .armedNextBoot)).run (w.called C .armNextBoot) := by
    refine (callEngine_bind C _ _ w).trans ?_
    rw [hr]
  rw [Cases, hrun]
  exact answers_cases unit_succeeded hr hop hh rfl

theorem opPairRecord_cases (hr : ∃ r, (step C w.engine op).2 = .record r) (hop : req.op = some op)
    (ho : op.owes id = none) : Cases C w id req (opPairRecord C id op) := by
  obtain ⟨r, hr⟩ := hr
  have hrun : (opPairRecord C id op).run w =
      (settled id r fun rec => stageInline (.ok id (.record rec))).run (w.called C op) := by
    refine (callEngine_bind C _ _ w).trans ?_
    rw [hr]
  rw [Cases, hrun]
  exact answers_cases record_succeeded hr hop hh ho

theorem opPairImport_cases {record : List UInt8} {replace sasMatch : Bool}
    (hop : req.op = some (.pairImport record replace sasMatch)) :
    Cases C w id req (opPairImport C id (some record) replace sasMatch) := by
  obtain ⟨r, hr⟩ : ∃ r, (step C w.engine (.pairImport record replace sasMatch)).2 = .imported r :=
    ⟨_, rfl⟩
  have hrun : (opPairImport C id (some record) replace sasMatch).run w =
      (settled id r fun o => stageInline (.ok id (.imported o.fingerprint o.contactId))).run
        (w.called C (.pairImport record replace sasMatch)) := by
    refine (callEngine_bind C _ _ w).trans ?_
    rw [hr]
  rw [Cases, hrun]
  exact answers_cases imported_succeeded hr hop hh rfl

omit hh in
/-- A program that calls no engine operation. -/
theorem cases_of_triple {m : Async Outcome}
    (h : ⦃fun s => ⌜s = w⌝⦄ m
      ⦃post⟨fun o w' => ⌜Dispatched C w id req o w'⌝, fun _ _ => ⌜False⌝⟩⦄) :
    Cases C w id req m := by
  have h := triple_iff.mp h w rfl
  generalize hr : m.run w = x at h
  obtain ⟨_ | o, w'⟩ := x
  · exact h.elim
  · exact ⟨o, w', hr, h⟩

theorem opProvision_cases (label : Option UInt8) : Cases C w id req (opProvision id label) := by
  refine cases_of_triple ?_
  unfold opProvision
  mvcgen
  all_goals
    subst_vars
    exact .light hh rfl rfl

theorem opSend_cases (c : Option UInt8) (text : Option (List UInt8)) :
    Cases C w id req (opSend id c text) := by
  refine cases_of_triple ?_
  unfold opSend
  mvcgen
  all_goals
    subst_vars
    exact .light hh rfl rfl

theorem opPing_cases (count : Option UInt8) : Cases C w id req (opPing id count) := by
  refine cases_of_triple ?_
  unfold opPing
  mvcgen
  all_goals
    subst_vars
    exact .light hh rfl rfl

theorem opRebootBootsel_cases (confirm : Bool) : Cases C w id req (opRebootBootsel id confirm) := by
  refine cases_of_triple ?_
  unfold opRebootBootsel
  mvcgen
  all_goals
    subst_vars
    exact .light hh rfl rfl

theorem opSettingsSet_cases (key : Option SettingKey) (value : Option ℤ) :
    Cases C w id req (opSettingsSet id key value) := by
  refine cases_of_triple ?_
  unfold opSettingsSet
  mvcgen
  all_goals
    subst_vars
    first
      | exact .light hh rfl rfl
      | exact .settings hh rfl rfl

theorem opWifiSet_cases (ssid pass : Option (List UInt8)) : Cases C w id req (opWifiSet id ssid pass) := by
  refine cases_of_triple ?_
  unfold opWifiSet
  mvcgen
  all_goals
    subst_vars
    first
      | exact .light hh rfl rfl
      | exact .settings hh rfl rfl

omit hh in
/-- **The dispatch of a request.** -/
theorem dispatch_cases (C : Crypto) (id : UInt64) (req : Request) (w : World) :
    Cases C w id req (dispatch C id req) := by
  have hrun : (dispatch C id req).run w = ((if w.health = .fault then _ else _ : Async Outcome)).run w := rfl
  rw [Cases, hrun]
  split
  · rename_i hh
    cases req with
    | status => exact ⟨_, _, rfl, .closed hh rfl⟩
    | _ => exact ⟨_, _, rfl, .closed hh rfl⟩
  · rename_i hh
    cases req with
    | status => exact cases_light hh rfl rfl rfl
    | contacts => exact cases_light hh rfl rfl rfl
    | provision label => exact opProvision_cases hh label
    | timeSet secs confirm =>
        cases secs with
        | none => exact cases_light hh rfl rfl rfl
        | some secs => exact opTimeSet_cases hh rfl
    | timeStatus => exact cases_light hh rfl rfl rfl
    | radioSet enabled =>
        cases enabled with
        | none => exact cases_light hh rfl rfl rfl
        | some enabled => exact opRadioSet_cases hh rfl
    | radioArmNextBoot => exact opArm_cases hh rfl
    | ping count => exact opPing_cases hh count
    | send c text => exact opSend_cases hh c text
    | block c =>
        cases c with
        | none => exact cases_light hh rfl rfl rfl
        | some c => exact opBlock_cases hh rfl
    | unblock c =>
        cases c with
        | none => exact cases_light hh rfl rfl rfl
        | some c => exact opBlock_cases hh rfl
    | contactDelete c =>
        cases c with
        | none => exact cases_light hh rfl rfl rfl
        | some c => exact opDelete_cases hh rfl
    | pairOffer => exact cases_light hh rfl rfl rfl
    | pairProof => exact opPairRecord_cases hh ⟨_, rfl⟩ rfl rfl
    | pairConfirm => exact opPairRecord_cases hh ⟨_, rfl⟩ rfl rfl
    | pairImport record replace sasMatch =>
        cases record with
        | none => exact cases_light hh rfl rfl rfl
        | some record => exact opPairImport_cases hh rfl
    | settingsGet key =>
        rcases key with _ | _ | key
        · exact cases_light hh rfl rfl rfl
        · exact cases_light hh rfl rfl rfl
        · exact cases_light hh rfl rfl rfl
    | settingsSet key value => exact opSettingsSet_cases hh key value
    | wifiStatus => exact cases_light hh rfl rfl rfl
    | wifiSet ssid pass => exact opWifiSet_cases hh ssid pass
    | wifiForget => exact ⟨_, _, rfl, .settings hh rfl rfl⟩
    | rebootBootsel confirm => exact opRebootBootsel_cases hh confirm
    | unknownOp => exact cases_light hh rfl rfl rfl

end

end LoraMesh
