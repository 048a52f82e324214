import LoraMesh.Core.Clock
import LoraMesh.Core.Pairing
import LoraMesh.Core.Relay
import LoraMesh.Lib.Except
import LoraMesh.Engine.Persist

/-!
# Engine — State

The state of the node engine, its staging of snapshots, restore, and the operations on identity,
clock and radio (`mesh-node/src/engine.rs`).  An operation takes the engine to the engine after
it and its answer; one whose failures leave the engine as it was answers an engine only when it
succeeds.
-/

namespace LoraMesh

abbrev seqReserveBlock : UInt64 := 32

inductive EngineError where
  | badRequest
  | unprovisioned
  | storageFault
  | timeUnset
  | timeRollback
  | busy
  | contactBlocked
  | radioMustBeOff
  | radioUnavailable
  | unknownOp
  | pairingAbsent
  | pairingExpired
  | noSlot
  | sasMismatch
  | timeJumpNeedsConfirm
  deriving DecidableEq

/-- Fail with `err` unless `p`. -/
def require (p : Bool) (err : EngineError) : Except EngineError Unit :=
  if p then .ok () else .error err

/-- `o.ok_or(err)`. -/
def okOr {α : Type} (o : Option α) (err : EngineError) : Except EngineError α :=
  match o with
  | some a => .ok a
  | none => .error err

/-- `r.map_err(|_| err)`. -/
def mapErr {ε α : Type} (r : Except ε α) (err : EngineError) : Except EngineError α :=
  match r with
  | .ok a => .ok a
  | .error _ => .error err

section Inversion

variable {α ε : Type} {err : EngineError}

@[simp] theorem require_eq_ok {p : Bool} {u : Unit} : require p err = .ok u ↔ p = true := by
  cases p with
  | true => exact ⟨fun _ => rfl, fun _ => rfl⟩
  | false => exact ⟨fun h => (by cases h), fun h => (by cases h)⟩

@[simp] theorem okOr_eq_ok {o : Option α} {a : α} : okOr o err = .ok a ↔ o = some a := by
  cases o with
  | none => exact ⟨fun h => (by cases h), fun h => (by cases h)⟩
  | some b => rw [okOr, Except.ok.injEq, Option.some.injEq]

@[simp] theorem mapErr_eq_ok {r : Except ε α} {a : α} : mapErr r err = .ok a ↔ r = .ok a := by
  cases r with
  | error x => exact ⟨fun h => (by cases h), fun h => (by cases h)⟩
  | ok b => rw [mapErr, Except.ok.injEq, Except.ok.injEq]

end Inversion

/-! ### State -/

/-- One paired contact. -/
structure Contact where
  present : Bool
  blocked : Bool
  edPeer : Bytes 32
  peerIdentity : Bytes 8
  root : Bytes 32
  trafficLr : Bytes 32
  trafficRl : Bytes 32
  addrSecret : Bytes 32
  role : UInt8
  /-- Next transmit sequence. -/
  txNext : UInt64
  /-- Durably reserved, exclusive. -/
  txReserved : UInt64
  txEpochMax : UInt32
  anchor : AnchorHours
  winData : Fin 3 → ReplayWindow
  winAck : Fin 3 → ReplayWindow
  winEpochs : Fin 3 → UInt32

def Contact.empty : Contact where
  present := false
  blocked := false
  edPeer := .zero 32
  peerIdentity := .zero 8
  root := .zero 32
  trafficLr := .zero 32
  trafficRl := .zero 32
  addrSecret := .zero 32
  role := roleL
  txNext := 0
  txReserved := 0
  txEpochMax := 0
  anchor := ⟨0⟩
  winData := fun _ => .new
  winAck := fun _ => .new
  winEpochs := fun _ => 0

/-- A contact's cached aliases and the epoch they were cached for. -/
structure AliasSlot where
  cache : AliasCache
  cachedEpoch : UInt32

def AliasSlot.empty : AliasSlot := { cache := .new, cachedEpoch := 0xFFFFFFFF }

/-- Pending in-person pairing attempt. -/
structure PendingPair where
  ownOffer : Bytes offerLen
  ownEphPriv : Bytes 32
  peerOffer : Option (Bytes offerLen)
  peerIdentity : Option (Bytes 8)
  transcript : Option (Bytes 32)
  ownRole : UInt8
  ownProof : Option (Bytes proofRecordLen)
  peerProof : Option (Bytes proofRecordLen)
  ownConfirm : Option (Bytes confirmRecordLen)
  startMonoS : UInt64
  slot : Slot
  replace : Bool

structure PendingSend where
  contactId : UInt8
  epoch : UInt32
  sequence : UInt64
  packetId : UInt32
  deriving DecidableEq

inductive StagedCommit where
  | none
  | provision
  | time (unixSeconds : UInt64)
  | pairActivate (slot : Slot)
  | txReserve (slot : Slot) (newReserved : UInt64)
  | rxAccept
  | anchorAdvance
  deriving DecidableEq

/-- The node state.  The alias caches, which the source keeps in the contacts, are a table of
their own: nothing reads them but their refresh. -/
structure Engine where
  provisioned : Bool
  label : UInt8
  uid : Bytes 8
  uidSet : Bool
  unixSeconds : UInt64
  timeValid : Bool
  persistedTxEpoch : UInt32
  radioOn : Bool
  armedNextBoot : Bool
  radioAvailable : Bool
  signPriv : Bytes 32
  signSet : Bool
  contacts : Slot → Contact
  aliases : Slot → AliasSlot
  pending : Option PendingPair
  pendingSend : Option PendingSend
  pendingText : List UInt8
  relayCache : RelayCache
  fault : Bool
  staged : Option StagedCommit
  persistScratch : List UInt8
  persistDirty : Bool
  monoS : UInt64
  utcMonoS : UInt64
  authFailures : UInt32
  replayDrops : UInt32

namespace Engine

def new (radioAvailable : Bool) : Engine where
  provisioned := false
  label := 0
  uid := .zero 8
  uidSet := false
  unixSeconds := 0
  timeValid := false
  persistedTxEpoch := 0
  radioOn := false
  armedNextBoot := false
  radioAvailable := radioAvailable
  signPriv := .zero 32
  signSet := false
  contacts := fun _ => .empty
  aliases := fun _ => .empty
  pending := none
  pendingSend := none
  pendingText := []
  relayCache := .new
  fault := false
  staged := none
  persistScratch := []
  persistDirty := false
  monoS := 0
  utcMonoS := 0
  authFailures := 0
  replayDrops := 0

/-- Replace one contact. -/
def setContact (e : Engine) (i : Slot) (c : Contact) : Engine :=
  { e with contacts := Function.update e.contacts i c }

/-- `*c = Contact::empty()`, the alias cache with it. -/
def clearContact (e : Engine) (i : Slot) : Engine :=
  { e.setContact i .empty with aliases := Function.update e.aliases i .empty }

/-! ### Staging -/

/-- The triple a window is persisted as. -/
def exportWindow (w : ReplayWindow) : PersistWindow := (w.highest?.getD 0, w.bitmap, w.empty)

def persistContact (c : Contact) : PersistContact where
  present := c.present
  blocked := c.blocked
  edPeer := c.edPeer
  peerIdentity := c.peerIdentity
  root := c.root
  role := c.role
  txNext := c.txNext
  txReserved := c.txReserved
  txEpochMax := c.txEpochMax
  anchor := c.anchor.anchor
  winEpochs := c.winEpochs
  winData := fun i => exportWindow (c.winData i)
  winAck := fun i => exportWindow (c.winAck i)

/-- The reservation a staged commit will leave the slot with. -/
def stagedReserved (e : Engine) (i : Slot) : UInt64 :=
  match e.staged with
  | some (.txReserve slot newReserved) => if i = slot then newReserved else (e.contacts i).txReserved
  | _ => (e.contacts i).txReserved

def persistView (e : Engine) : PersistView where
  provisioned := e.provisioned
  label := e.label
  uid := e.uid
  uidSet := e.uidSet
  unixSeconds := e.unixSeconds
  persistedTxEpoch := e.persistedTxEpoch
  armedNextBoot := e.armedNextBoot
  signPriv := e.signPriv
  signSet := e.signSet
  contacts := fun i => { persistContact (e.contacts i) with txReserved := e.stagedReserved i }

/-- Stage the snapshot of the state as it is now. -/
def stagePersist (e : Engine) (op : StagedCommit) : Engine :=
  let e := { e with staged := some op }
  { e with persistScratch := encodeInto e.persistView, persistDirty := true }

/-- Bytes the caller must durably commit before using any staged effect. -/
def pendingPersist (e : Engine) : Option (List UInt8) :=
  if e.persistDirty then some e.persistScratch else none

/-- Apply the staged mutation after a successful durable commit. -/
def commitOk (e : Engine) : Engine :=
  match e.staged with
  | some (.txReserve slot newReserved) =>
    { e.setContact slot { e.contacts slot with txReserved := newReserved } with
      staged := none, persistDirty := false }
  | some (.pairActivate _) => { e with staged := none, pending := none, persistDirty := false }
  | _ => { e with staged := none, persistDirty := false }

def discardStaged (e : Engine) : Engine :=
  { e with staged := none, persistDirty := false, pendingSend := none }

section Restore

variable (C : Crypto)

/-- A contact from its record: nothing of an absent one, and the whole last reserved block of a
present one skipped. -/
def restoreContact (pc : PersistContact) : Contact :=
  if pc.present then
    let skipTo := max pc.txReserved pc.txNext
    { present := true
      blocked := pc.blocked
      edPeer := pc.edPeer
      peerIdentity := pc.peerIdentity
      root := pc.root
      trafficLr := deriveLabel C pc.root labelTrafficLR
      trafficRl := deriveLabel C pc.root labelTrafficRL
      addrSecret := deriveLabel C pc.root labelAddress
      role := pc.role
      txNext := skipTo
      txReserved := max pc.txReserved skipTo
      txEpochMax := pc.txEpochMax
      anchor := ⟨pc.anchor⟩
      winData := fun s => .restore (pc.winData s).1 (pc.winData s).2.1 (pc.winData s).2.2
      winAck := fun s => .restore (pc.winAck s).1 (pc.winAck s).2.1 (pc.winAck s).2.2
      winEpochs := pc.winEpochs }
  else .empty

/-- The engine with a decoded record in place of its persisted state. -/
def restoreView (e : Engine) (v : PersistView) : Engine :=
  { e with
    provisioned := v.provisioned
    label := v.label
    uid := v.uid
    uidSet := v.uidSet
    unixSeconds := v.unixSeconds
    timeValid := false
    persistedTxEpoch := v.persistedTxEpoch
    radioOn := false
    armedNextBoot := v.armedNextBoot
    signPriv := v.signPriv
    signSet := v.signSet
    contacts := fun i => restoreContact C (v.contacts i)
    aliases := fun _ => .empty
    pending := none
    pendingSend := none
    persistDirty := false
    staged := none }

/-- Restore from persisted bytes. -/
def restore (e : Engine) (bytes : List UInt8) : Except EngineError (Engine × Unit) := do
  let v ← mapErr (decodeView bytes) .storageFault
  return (e.restoreView C v, ())

end Restore

/-! ### Clock, identity and radio -/

def setMonoS (e : Engine) (now : UInt64) : Engine := { e with monoS := now }

def markFault (e : Engine) : Engine := { e with fault := true }

def checkUsable (e : Engine) : Except EngineError Unit :=
  if e.fault then .error .storageFault
  else if e.provisioned then .ok () else .error .unprovisioned

/-- Set the hardware flag; without hardware nothing stays on, armed or in flight. -/
def setRadioAvailable (e : Engine) (available : Bool) : Engine :=
  if available then { e with radioAvailable := true }
  else { e with radioAvailable := false, radioOn := false, pendingSend := none, armedNextBoot := false }

/-- The trusted hour, zero while there is none. -/
def epoch (e : Engine) : UInt32 :=
  if e.timeValid then (epochOfUnix e.unixSeconds).getD 0 else 0

def setIdentity (e : Engine) (uid : Bytes 8) : Engine :=
  if e.uidSet ∧ e.uid = uid then e
  else stagePersist { e with uid := uid, uidSet := true } .none

/-- Explicit provisioning, once. -/
def provision (e : Engine) (label : UInt8) (signPriv : Bytes 32) : Except EngineError (Engine × Unit) := do
  require (!e.fault) .storageFault
  require (!e.provisioned) .busy
  require (label != 0 && label ≤ 3) .badRequest
  return (stagePersist { e with label, signPriv, signSet := true, provisioned := true } .provision, ())

def edPubkey (C : Crypto) (e : Engine) : Except EngineError (Bytes 32) := do
  require e.signSet .unprovisioned
  return C.edPublic e.signPriv

/-- The windows of one kind over the three hours around `newEpoch`: those of a retained hour are
carried over, the others start empty. -/
def rotateWindows (winEpochs : Fin 3 → UInt32) (init : List UInt32) (newEpoch : UInt32)
    (win : Fin 3 → ReplayWindow) : Fin 3 → ReplayWindow := fun i =>
  match position winEpochs (slots newEpoch i) with
  | some old => win old
  | none =>
    if slots newEpoch i ∈ init ∨ ∀ j, winEpochs j ≠ slots newEpoch i then .new else win i

/-- A contact moved to a new hour, its anchor already advanced to `anchor`. -/
def rotateContact (c : Contact) (anchor : AnchorHours) (init : List UInt32) (newEpoch : UInt32) :
    Contact :=
  { c with
    anchor := anchor
    winData := rotateWindows c.winEpochs init newEpoch c.winData
    winAck := rotateWindows c.winEpochs init newEpoch c.winAck
    winEpochs := slots newEpoch }

/-- One slot rotated, its cached aliases out of date. -/
def rotateSlot (e : Engine) (i : Slot) (anchor : AnchorHours) (init : List UInt32)
    (newEpoch : UInt32) : Engine :=
  { e.setContact i (rotateContact (e.contacts i) anchor init newEpoch) with
    aliases := Function.update e.aliases i { e.aliases i with cachedEpoch := 0xFFFFFFFF } }

/-- Advance the anchors and windows of the present contacts among `is`, in order. -/
def advanceAll (newEpoch : UInt32) : List Slot → Engine → Engine × Except EngineError Unit
  | [], e => (e, .ok ())
  | i :: is, e =>
    if (e.contacts i).present then
      match (e.contacts i).anchor.trustedAdvance newEpoch with
      | .ok (anchor, init) => advanceAll newEpoch is (e.rotateSlot i anchor init newEpoch)
      | .error _ => (e, .error .timeRollback)
    else advanceAll newEpoch is e

/-- The greatest epoch the clock may not go below. -/
def timeFloor (e : Engine) : UInt32 :=
  (List.finRange maxContacts).foldl
    (fun floor i =>
      if (e.contacts i).present then max floor (e.contacts i).anchor.anchor else floor)
    (max 0 e.persistedTxEpoch)

/-- Set the trusted time; `confirmed` permits a jump of more than an hour. -/
def setTimeConfirmed (e : Engine) (unixSeconds : UInt64) (confirmed : Bool) :
    Engine × Except EngineError UInt32 :=
  if e.fault then (e, .error .storageFault) else
  match epochOfUnix unixSeconds with
  | none => (e, .error .badRequest)
  | some newEpoch =>
    if newEpoch < e.timeFloor then (e, .error .timeRollback) else
    if !confirmed && e.timeValid && satAdd32 e.epoch 1 < newEpoch then
      (e, .error .timeJumpNeedsConfirm)
    else
      match advanceAll newEpoch (List.finRange maxContacts) e with
      | (e, .error x) => (e, .error x)
      | (e, .ok ()) =>
        let e := { e with unixSeconds := unixSeconds, timeValid := true, utcMonoS := e.monoS }
        (e.stagePersist (.time unixSeconds), .ok newEpoch)

def setTime (e : Engine) (unixSeconds : UInt64) : Engine × Except EngineError UInt32 :=
  e.setTimeConfirmed unixSeconds false

/-- Advance trusted UTC without host traffic. -/
def advanceTime (e : Engine) (nowMonoS : UInt64) : Engine × Except EngineError Unit :=
  if e.fault then (e, .error .storageFault) else
  let e := { e with monoS := nowMonoS }
  if !e.timeValid then (e, .ok ()) else
  match checkedSub64 nowMonoS e.utcMonoS with
  | none => ({ e with timeValid := false }, .error .timeRollback)
  | some elapsed =>
    match (checkedAdd64 e.unixSeconds elapsed).filter fun s => (epochOfUnix s).isSome with
    | none => ({ e with timeValid := false }, .error .badRequest)
    | some next =>
      if epochOfUnix next ≠ some e.epoch then
        match e.setTime next with
        | (e, .error x) => (e, .error x)
        | (e, .ok _) => (e, .ok ())
      else ({ e with unixSeconds := next, utcMonoS := nowMonoS }, .ok ())

def setRadio (e : Engine) (enabled : Bool) : Except EngineError (Engine × Unit) := do
  require (!e.fault) .storageFault
  require (!(enabled && !e.radioAvailable)) .radioUnavailable
  let e := { e with radioOn := enabled }
  let e := if enabled then e else { e with pendingSend := none, armedNextBoot := false }
  return (e.stagePersist .none, ())

/-- Stage a one-shot arm. -/
def armNextBoot (e : Engine) : Except EngineError (Engine × Unit) := do
  e.checkUsable
  require e.radioAvailable .radioUnavailable
  return (stagePersist { e with armedNextBoot := true } .none, ())

/-- Clear the arm; whether the hardware is to be enabled once that is committed. -/
def consumeBootArm (e : Engine) : Except EngineError (Engine × Bool) := do
  require (!e.fault) .storageFault
  let armed := e.armedNextBoot
  let e := if armed then stagePersist { e with armedNextBoot := false } .none else e
  return (e, armed && e.radioAvailable)

def requireRadioOff (e : Engine) : Except EngineError Unit := require (!e.radioOn) .radioMustBeOff

end Engine

end LoraMesh
