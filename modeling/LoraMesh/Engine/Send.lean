import LoraMesh.Engine.Ceremony

/-!
# Engine — Send

The transmit path of the engine: traffic keys, the reservation of sequence numbers, and the
sealing of frames.  A frame this engine seals carries, beside its bytes, the `Envelope` it was
sealed from.
-/

namespace LoraMesh

/-- What a frame of ours seals, and under which key. -/
structure Envelope where
  key : Bytes 32
  header : Header
  plaintext : List UInt8
  deriving DecidableEq

/-- A frame the engine wants transmitted.  `envelope` is not in the source: it records what the
bytes were sealed from, and is `none` for a forwarded frame. -/
structure OutgoingFrame where
  bytes : List UInt8
  contactId : Option UInt8
  isAck : Bool
  isRetryEcho : Bool
  envelope : Option Envelope
  deriving DecidableEq

/-- Encrypt a plaintext into a body buffer of `bodyCap` bytes and encode the frame. -/
def sealFrame (C : Crypto) (v : Envelope) (bodyCap : ℕ) : Except EngineError (List UInt8) := do
  let aad := frameAad v.header (UInt8.ofNat (v.plaintext.length + tagLen))
  let body ← mapErr
    (encryptData C v.key (nonce v.header.epoch v.header.sequence) aad v.plaintext bodyCap) .storageFault
  mapErr (encodeFrame v.header body maxFrameLen) .badRequest

namespace Engine

/-- The slot of a present contact. -/
def slotOf (e : Engine) (id : UInt8) : Except EngineError Slot :=
  if h : 1 ≤ id.toNat ∧ id.toNat ≤ maxContacts then
    let slot : Slot := ⟨id.toNat - 1, contactIdx_lt h⟩
    if (e.contacts slot).present then .ok slot else .error .badRequest
  else .error .badRequest

theorem slotOf_ok {e : Engine} {id : UInt8} {i : Slot} (h : e.slotOf id = .ok i) :
    (e.contacts i).present = true ∧ id = contactId i := by
  unfold slotOf at h
  split at h
  · rename_i hid
    dsimp only at h
    split at h
    · rename_i hp
      cases h
      refine ⟨hp, UInt8.toNat_inj.mp ?_⟩
      have hlt := id.toNat_lt
      rw [contactId, UInt8.toNat_ofNat']
      dsimp only
      omega
    · cases h
  · cases h

theorem slotOf_contactId {e : Engine} {i : Slot} (h : (e.contacts i).present = true) :
    e.slotOf (contactId i) = .ok i := by
  have hi := i.2
  simp only [maxContacts] at hi
  have hid : (contactId i).toNat = i.1 + 1 := by
    rw [contactId, UInt8.toNat_ofNat']
    omega
  have hslot : (⟨(contactId i).toNat - 1, by rw [hid]; exact i.2⟩ : Slot) = i :=
    Fin.ext (show (contactId i).toNat - 1 = i.1 by rw [hid, Nat.add_sub_cancel])
  unfold slotOf
  rw [dif_pos ⟨by rw [hid]; exact Nat.le_add_left 1 _, by rw [hid]; exact hi⟩]
  dsimp only
  rw [hslot, if_pos h]

theorem contactId_injective {i j : Slot} (h : contactId i = contactId j) : i = j := by
  have h := congrArg UInt8.toNat h
  rw [contactId, contactId, UInt8.toNat_ofNat', UInt8.toNat_ofNat'] at h
  have hi := i.2
  have hj := j.2
  simp only [maxContacts] at hi hj
  exact Fin.ext (by omega)

end Engine

namespace Contact

variable (C : Crypto)

def outgoingKey (c : Contact) (epoch : UInt32) : Bytes 32 :=
  hourlyKey C (if c.role = roleL then c.trafficLr else c.trafficRl) epoch

def incomingKey (c : Contact) (epoch : UInt32) : Bytes 32 :=
  hourlyKey C (if c.role = roleL then c.trafficRl else c.trafficLr) epoch

/-- Our hourly alias towards the contact. -/
def ownAlias (c : Contact) (uid : Bytes 8) (epoch : UInt32) : Bytes 4 :=
  deriveAddress C c.addrSecret uid epoch

def peerAlias (c : Contact) (epoch : UInt32) : Bytes 4 :=
  deriveAddress C c.addrSecret c.peerIdentity epoch

/-- A frame of ours to the contact. -/
def envelope (c : Contact) (uid : Bytes 8) (flags : UInt8) (packetId epoch : UInt32)
    (sequence : UInt64) (plaintext : List UInt8) : Envelope where
  key := c.outgoingKey C epoch
  header :=
    { version := versionSecure
      flags := flags
      dst := ofBe32 (c.peerAlias C epoch).1
      src := ofBe32 (c.ownAlias C uid epoch).1
      packetId := packetId
      hops := 1
      epoch := epoch
      sequence := sequence }
  plaintext := plaintext

/-- The DATA frame of a send. -/
def dataEnvelope (c : Contact) (uid : Bytes 8) (ps : PendingSend) (text : List UInt8) : Envelope :=
  c.envelope C uid flagWantAck ps.packetId ps.epoch ps.sequence (bodyData :: text)

/-- The plaintext of an ACK: the epoch, sequence and packet of the DATA it answers. -/
def ackBody (h : Header) : List UInt8 := bodyAck :: (be32 h.epoch ++ (be64 h.sequence ++ be32 h.packetId))

/-- The ACK of a DATA frame, under our own epoch and next sequence. -/
def ackEnvelope (c : Contact) (uid : Bytes 8) (dataH : Header) (packetId epoch : UInt32) : Envelope :=
  c.envelope C uid 0 packetId epoch c.txNext (ackBody dataH)

/-- The sequence consumed and the epoch recorded. -/
def consume (c : Contact) (epoch : UInt32) : Contact :=
  { c with txNext := c.txNext + 1, txEpochMax := max c.txEpochMax epoch }

end Contact

namespace Engine

/-- What to stage before the slot's next sequence is used: a new block when the reserved one is
spent, unless no block is left. -/
def reservation (e : Engine) (slot : Slot) (spare : StagedCommit) : Option StagedCommit :=
  let c := e.contacts slot
  if c.txReserved ≤ c.txNext then
    (checkedAdd64 c.txNext seqReserveBlock).map fun newReserved => .txReserve slot newReserved
  else some spare

/-- Reserve the next transmit sequence for a text. -/
def sendBegin (e : Engine) (id : UInt8) (text : List UInt8) (packetId : UInt32) :
    Except EngineError (Engine × PendingSend) := do
  e.checkUsable
  require e.timeValid .timeUnset
  let slot ← e.slotOf id
  require (!(e.contacts slot).blocked) .contactBlocked
  require e.pendingSend.isNone .busy
  require (!(text == [] || maxTextLen < text.length || !fromUtf8 text)) .badRequest
  require (!decide (e.epoch < (e.contacts slot).txEpochMax)) .timeRollback
  let op ← okOr (e.reservation slot .none) .storageFault
  let ps : PendingSend :=
    { contactId := id, epoch := e.epoch, sequence := (e.contacts slot).txNext, packetId }
  return ({ e.stagePersist op with pendingText := text, pendingSend := some ps }, ps)

section

variable (C : Crypto)

def refreshAliases (e : Engine) (slot : Slot) : Engine :=
  let c := e.contacts slot
  if c.present = false ∨ (e.aliases slot).cachedEpoch = e.epoch then e
  else
    let a : AliasSlot :=
      { cache := .refresh C c.addrSecret e.uid c.peerIdentity e.epoch, cachedEpoch := e.epoch }
    { e with aliases := Function.update e.aliases slot a }

/-- The send that may be emitted: nothing unsaved, its sequence the next one and reserved. -/
def sendReady (e : Engine) : Except EngineError (PendingSend × Slot) := do
  require (!e.persistDirty) .busy
  let ps ← okOr e.pendingSend .badRequest
  let slot ← e.slotOf ps.contactId
  let c := e.contacts slot
  require (!(c.txNext != ps.sequence || c.txReserved ≤ ps.sequence)) .storageFault
  require (!decide (ps.epoch < c.txEpochMax)) .timeRollback
  return (ps, slot)

/-- Encrypt the staged send after the reservation commit, and consume the reservation. -/
def sendEmit (e : Engine) : Engine × Except EngineError OutgoingFrame :=
  match e.sendReady with
  | .error x => (e, .error x)
  | .ok (ps, slot) =>
    let e := e.refreshAliases C slot
    let c := e.contacts slot
    let v := c.dataEnvelope C e.uid ps e.pendingText
    match sealFrame C v (1 + maxTextLen + tagLen) with
    | .error x => (e, .error x)
    | .ok bytes =>
      let e := { e.setContact slot (c.consume ps.epoch) with
        persistedTxEpoch := max e.persistedTxEpoch ps.epoch }
      (e.stagePersist .none,
        .ok { bytes, contactId := some ps.contactId, isAck := false, isRetryEcho := false
              envelope := some v })

/-- The bytes of the send in flight once more. -/
def sendRetryEcho (e : Engine) : Except EngineError OutgoingFrame := do
  let ps ← okOr e.pendingSend .badRequest
  let slot ← e.slotOf ps.contactId
  let v := (e.contacts slot).dataEnvelope C e.uid ps e.pendingText
  let bytes ← sealFrame C v (1 + maxTextLen + tagLen)
  return { bytes, contactId := some ps.contactId, isAck := false, isRetryEcho := true
           envelope := some v }

end

def sendComplete (e : Engine) : Engine := { e with pendingSend := none }

end Engine

end LoraMesh
