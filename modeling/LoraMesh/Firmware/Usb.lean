import LoraMesh.Firmware.World

/-!
# Firmware — Usb

The dispatch of one host line (`firmware/src/usb.rs`): it calls the engine, copies a staged
snapshot into `staged`, and says by its `Outcome` how the reply is to be completed.
-/

namespace LoraMesh

/-- Copy the engine's snapshot, if it has one. -/
def stageForCommit : Async Unit :=
  modify fun w =>
    match w.engine.pendingPersist with
    | some bytes => { w with staged := some bytes }
    | none => w

theorem stageForCommit_run (w : World) :
    ∃ staged, stageForCommit.run w = (some (), { w with staged }) := by
  have hrun : stageForCommit.run w = (some (),
      match w.engine.pendingPersist with
      | some bytes => { w with staged := some bytes }
      | none => w) := rfl
  rw [hrun]
  split
  · exact ⟨_, rfl⟩
  · exact ⟨w.staged, rfl⟩

/-- Stage, and owe `owed` once that is committed. -/
def stageReply (owed : StagedReply) : Async Outcome := do
  stageForCommit
  modify fun w => { w with stagedReply := some owed }
  return .needsCommit

/-- Stage, and reply at once. -/
def stageInline (r : Reply) : Async Outcome := do
  stageForCommit
  return .inline r

def fail (id : UInt64) (e : EngineError) : Outcome := .inline (.err id (engineCode e))

/-- The answer of an engine operation whose failures are replied at once. -/
def settled {α : Type} (id : UInt64) (r : Except EngineError α) (k : α → Async Outcome) : Async Outcome :=
  match r with
  | .ok a => k a
  | .error e => return fail id e

section

variable (C : Crypto)

def opProvision (id : UInt64) (label : Option UInt8) : Async Outcome := do
  let w ← get
  -- `engine.provisioned()`, false on a faulted node
  if !w.engine.fault && w.engine.provisioned then return .inline (.err id .alreadyProvisioned)
  match label with
  | none => return .inline (.err id .badRequest)
  | some label =>
    set { w with pendingOp := some (.provision id label) }
    return .needsTrng

/-- `complete_provision`, with the key the TRNG supplied. -/
def completeProvision (id : UInt64) (label : UInt8) (key : Bytes 32) : Async Outcome := do
  match ← callEngine C (.provision label key) with
  | .unit r => settled id r fun _ => stageInline (.ok id (.provisioned label))
  | _ => return .silent

def opTimeSet (id : UInt64) (secs : Option UInt64) (confirmed : Bool) : Async Outcome := do
  match secs with
  | none => return .inline (.err id .badRequest)
  | some secs =>
    match ← callEngine C (.setTime secs confirmed) with
    | .hour r => settled id r fun _ => stageReply (.status id)
    | _ => return .silent

def opBlock (id : UInt64) (contactId : Option UInt8) (blocked : Bool) : Async Outcome := do
  match contactId with
  | none => return .inline (.err id .badRequest)
  | some c =>
    match ← callEngine C (.setBlocked c blocked) with
    | .block r => settled id r fun _ => stageReply (.block id c blocked)
    | _ => return .silent

def opDelete (id : UInt64) (contactId : Option UInt8) : Async Outcome := do
  match contactId with
  | none => return .inline (.err id .badRequest)
  | some c =>
    match ← callEngine C (.deleteContact c) with
    | .unit r => settled id r fun _ => stageReply (.simple id)
    | _ => return .silent

def opRadioSet (id : UInt64) (enabled : Option Bool) : Async Outcome := do
  match enabled with
  | none => return .inline (.err id .badRequest)
  | some enabled =>
    match ← callEngine C (.setRadio enabled) with
    | .unit r => settled id r fun _ => stageReply (.radioSet id enabled)
    | _ => return .silent

def opArm (id : UInt64) : Async Outcome := do
  match ← callEngine C .armNextBoot with
  | .unit r => settled id r fun _ => stageInline (.ok id .armedNextBoot)
  | _ => return .silent

def opSettingsSet (id : UInt64) (key : Option SettingKey) (value : Option ℤ) : Async Outcome := do
  match key, value with
  | some key, some value =>
    let w ← get
    match w.settings.set key value with
    | none => return .inline (.err id .badRequest)
    | some (settings, clamped) =>
      set { w with
        settings := settings
        settingsTxPending := w.settingsTxPending || (key == SettingKey.txPower && w.engine.radioOn)
        stagedReply := some (.settingsSet id key (settings.value key) clamped) }
      return .needsCommit
  | _, _ => return .inline (.err id .badRequest)

def opWifiSet (id : UInt64) (ssid pass : Option (List UInt8)) : Async Outcome := do
  match ssid, pass with
  | some ssid, some pass =>
    if ssid.length < 1 || 32 < ssid.length || 63 < pass.length || !fromUtf8 ssid || !fromUtf8 pass then
      return .inline (.err id .badRequest)
    modify fun w => { w with stagedWifi := some (ssid, pass), stagedReply := some (.wifiSet id) }
    return .needsCommit
  | _, _ => return .inline (.err id .badRequest)

def opWifiForget (id : UInt64) : Async Outcome := do
  modify fun w => { w with stagedWifi := none, stagedReply := some (.wifiForget id) }
  return .needsCommit

def opSend (id : UInt64) (contactId : Option UInt8) (text : Option (List UInt8)) : Async Outcome := do
  match contactId with
  | none => return .inline (.err id .badRequest)
  | some c =>
    if c < 1 || maxContacts < c.toNat then return .inline (.err id .badRequest)
    let w ← get
    if w.contactBlocked c then return .inline (.err id .contactBlocked)
    match text with
    | none => return .inline (.err id .badRequest)
    | some text =>
      if text.length < 1 || 160 < text.length || !fromUtf8 text then
        return .inline (.err id .badRequest)
      if !w.engine.radioOn then return .inline (.err id .radioUnavailable)
      set { w with sendText := text, pendingOp := some (.sendPrep id c) }
      return .needsSendPrep

def opPing (id : UInt64) (count : Option UInt8) : Async Outcome := do
  match count with
  | none => return .inline (.err id .badRequest)
  | some count =>
    if count < 1 || 3 < count then return .inline (.err id .badRequest)
    modify fun w => { w with pingCount := count, pendingOp := some (.pingPrep id count) }
    return .needsPingPrep

def opPairOffer (id : UInt64) : Async Outcome := do
  modify fun w => { w with pendingOp := some (.pairOffer id) }
  return .needsTrng

/-- `complete_pair_offer`, with what the TRNG supplied. -/
def completePairOffer (id : UInt64) (ephPriv ephPub challenge : Bytes 32) : Async Outcome := do
  match ← callEngine C (.pairOffer ephPriv ephPub challenge) with
  | .record r => settled id r fun rec => stageInline (.ok id (.record rec))
  | _ => return .silent

/-- `pair_proof` and `pair_confirm`. -/
def opPairRecord (id : UInt64) (op : Op) : Async Outcome := do
  match ← callEngine C op with
  | .record r => settled id r fun rec => stageInline (.ok id (.record rec))
  | _ => return .silent

def opPairImport (id : UInt64) (record : Option (List UInt8)) (replace sasMatch : Bool) :
    Async Outcome := do
  match record with
  | none => return .inline (.err id .badRequest)
  | some record =>
    match ← callEngine C (.pairImport record replace sasMatch) with
    | .imported r => settled id r fun o => stageInline (.ok id (.imported o.fingerprint o.contactId))
    | _ => return .silent

def opRebootBootsel (id : UInt64) (confirm : Bool) : Async Outcome := do
  if !confirm then return .inline (.err id .badRequest)
  modify fun w => { w with pendingOp := some (.rebootBootsel id) }
  return .needsRebootBootsel

/-- `dispatch`. -/
def dispatch (id : UInt64) (req : Request) : Async Outcome := do
  let w ← get
  if w.health = .fault then
    match req with
    | .status => return .inline (.ok id .report)
    | _ => return .inline (.err id .storageFault)
  else
    match req with
    | .status => return .inline (.ok id .report)
    | .contacts => return .inline (.ok id .report)
    | .provision label => opProvision id label
    | .timeSet secs confirm => opTimeSet C id secs confirm
    | .timeStatus => return .inline (.ok id .report)
    | .radioSet enabled => opRadioSet C id enabled
    | .radioArmNextBoot => opArm C id
    | .ping count => opPing id count
    | .send c text => opSend id c text
    | .block c => opBlock C id c true
    | .unblock c => opBlock C id c false
    | .contactDelete c => opDelete C id c
    | .pairOffer => opPairOffer id
    | .pairProof => opPairRecord C id .pairProof
    | .pairConfirm => opPairRecord C id .pairConfirm
    | .pairImport record replace sasMatch => opPairImport C id record replace sasMatch
    | .settingsGet (some none) => return .inline (.err id .badRequest)
    | .settingsGet _ => return .inline (.ok id .report)
    | .settingsSet key value => opSettingsSet id key value
    | .wifiStatus => return .inline (.ok id .report)
    | .wifiSet ssid pass => opWifiSet id ssid pass
    | .wifiForget => opWifiForget id
    | .rebootBootsel confirm => opRebootBootsel id confirm
    | .unknownOp => return .inline (.err id .unknownOp)

/-- `dispatch_line`, and the report of an overlong line. -/
def dispatchLine : Line → Async Outcome
  | .tooLong => return .inline (.err 0 .lineTooLong)
  | .malformed => return .inline (.err 0 .badRequest)
  | .request id req => do
    modify fun w => { w with replyId := id }
    dispatch C id req

end

/-- The owed reply, once its commit is done. -/
def commitReply : Async Unit := do
  let w ← get
  match w.stagedReply with
  | none => return
  | some owed =>
    let w := { w with stagedReply := none }
    match owed with
    | .status id => set w; reply (.ok id .report) none
    | .simple id => set w; reply (.ok id .deleted) none
    | .block id _ blocked => set w; reply (.ok id (.blocked blocked)) none
    | .radioSet id enabled => set w; reply (.ok id (.radioEnabled enabled)) none
    | .settingsSet id key value clamped => set w; reply (.ok id (.setting key value clamped)) none
    | .wifiSet id =>
      let ssidLen := (w.stagedWifi.map fun c => c.1.length).getD w.wifiSsidLen
      set { w with stagedWifi := none, wifiConfigured := true, wifiSsidLen := ssidLen }
      reply (.ok id (.wifi true ssidLen)) none
    | .wifiForget id =>
      set { w with stagedWifi := none, wifiConfigured := false, wifiSsidLen := 0 }
      reply (.ok id (.wifi false 0)) none

end LoraMesh
