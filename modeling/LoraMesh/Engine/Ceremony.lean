import LoraMesh.Engine.State

/-!
# Engine — Ceremony

The pairing ceremony of the engine: exporting and importing an offer, a proof and a
confirmation each way, and the activation of a contact by the last import.
-/

namespace LoraMesh

def domainProof : List UInt8 := ascii "LMESH-proof-v1"
def domainConfirmMsg : List UInt8 := ascii "LMESH-confirm-v1"

inductive PairStep where
  | needProof
  | needConfirm
  | active
  deriving DecidableEq

structure PairImportOutcome where
  step : PairStep
  fingerprint : List UInt8
  contactId : Option UInt8
  deriving DecidableEq

/-- The `contact_id` of a slot. -/
def contactId (i : Slot) : UInt8 := UInt8.ofNat (i.1 + 1)

namespace Engine

def freeSlot (e : Engine) : Option Slot :=
  (List.finRange maxContacts).find? fun i => !(e.contacts i).present

/-- An offer record around its payload. -/
def offerRecord (payload : Bytes offerLen) : List UInt8 := recordOffer :: payload.1

section Ceremony

variable (C : Crypto)

/-- A new attempt with this offer. -/
def freshOffer (e : Engine) (ephPriv ephPub challenge : Bytes 32) :
    Except EngineError (Engine × List UInt8) := do
  require e.signSet .unprovisioned
  let ed ← e.edPubkey C
  require (ephPub != .zero 32) .badRequest
  let payload := encodeOfferPayload { edPub := ed, ephPub, challenge }
  let slot ← okOr e.freeSlot .noSlot
  let p : PendingPair :=
    { ownOffer := payload, ownEphPriv := ephPriv, peerOffer := none, peerIdentity := none
      transcript := none, ownRole := roleL, ownProof := none, peerProof := none, ownConfirm := none
      startMonoS := e.monoS, slot, replace := false }
  return ({ e with pending := some p }, offerRecord payload)

/-- Start, or re-emit, our offer. -/
def pairOffer (e : Engine) (ephPriv ephPub challenge : Bytes 32) :
    Except EngineError (Engine × List UInt8) := do
  e.checkUsable
  e.requireRadioOff
  match e.pending with
  | some p =>
    if isExpired p.startMonoS e.monoS then e.freshOffer C ephPriv ephPub challenge
    else return (e, offerRecord p.ownOffer)
  | none => e.freshOffer C ephPriv ephPub challenge

def pairCancel (e : Engine) : Engine := { e with pending := none, pendingSend := none }

/-- The pending attempt, unless it has expired. -/
def livePending (e : Engine) : Except EngineError PendingPair := do
  let p ← okOr e.pending .pairingAbsent
  require (!isExpired p.startMonoS e.monoS) .pairingExpired
  return p

/-- The `L` and `R` payloads of two offers. -/
def orderPayloads (own peer : Bytes offerLen) : Bytes offerLen × Bytes offerLen :=
  if (own.1.drop 1).take 32 ≤ (peer.1.drop 1).take 32 then (own, peer) else (peer, own)

/-- The slot an offer is paired into; `replace` keeps that of the attempt. -/
def importSlot (e : Engine) (p : PendingPair) (replace : Bool) : Except EngineError Slot :=
  if replace then .ok p.slot else okOr e.freeSlot .noSlot

def importOffer (e : Engine) (p : PendingPair) (record : List UInt8) (replace : Bool) :
    Except EngineError (Engine × PairImportOutcome) := do
  let offer ← mapErr (decodeOfferRecord record) .badRequest
  let own ← mapErr (decodeOfferPayload p.ownOffer.1) .storageFault
  mapErr (checkNotSelf own.edPub offer.edPub) .badRequest
  require (!decide (∃ i, (e.contacts i).present ∧ (e.contacts i).edPeer = offer.edPub)) .badRequest
  let peerPayload := encodeOfferPayload offer
  let lr := orderPayloads p.ownOffer peerPayload
  let t := transcriptT C lr.1 lr.2
  let role := roleFor own.edPub offer.edPub
  let slot ← e.importSlot p replace
  let p := { p with
    peerOffer := some peerPayload, transcript := some t, ownRole := role, slot, replace }
  return ({ e with pending := some p },
    { step := .needProof, fingerprint := transcriptFingerprint t, contactId := none })

/-- The pair root of the attempt; a zero shared secret is refused. -/
def pairRoot (p : PendingPair) (t : Bytes 32) : Except EngineError (Bytes 32) := do
  let peerPayload ← okOr p.peerOffer .badRequest
  let peerOffer ← mapErr (decodeOfferPayload peerPayload.1) .badRequest
  let dh := C.x25519 p.ownEphPriv peerOffer.ephPub
  require (dh != .zero 32) .badRequest
  return deriveRoot C dh t

/-- The two directional setup keys of the attempt. -/
def setupKeys (p : PendingPair) (t : Bytes 32) : Except EngineError (Bytes 32 × Bytes 32) := do
  let root ← pairRoot C p t
  return (deriveLabel C root labelSetupLR, deriveLabel C root labelSetupRL)

/-- The setup key under which role `role` encrypts its proof. -/
def setupKey (keys : Bytes 32 × Bytes 32) (role : UInt8) : Bytes 32 :=
  if role = roleL then keys.1 else keys.2

/-- What a proof's ciphertext is bound to. -/
def proofAad (t : Bytes 32) (role : UInt8) : List UInt8 := t.1 ++ [role]

/-- What a proof signs. -/
def proofMessage (t : Bytes 32) (role : UInt8) (ct : List UInt8) : List UInt8 :=
  domainProof ++ (t.1 ++ (role :: ct))

/-- The nonce of the setup keys, which encrypt once. -/
def setupNonce : Bytes 12 := .zero 12

/-- A fresh proof of ours. -/
def freshProof (e : Engine) (p : PendingPair) (t : Bytes 32) :
    Except EngineError (Engine × List UInt8) := do
  let role := p.ownRole
  let keys ← setupKeys C p t
  require e.uidSet .unprovisioned
  let ct ← mapErr (encryptData C (setupKey keys role) setupNonce (proofAad t role) e.uid.1 proofCtLen)
    .storageFault
  if hct : ct.length = proofCtLen then
    let sig := C.edSign e.signPriv (proofMessage t role ct)
    let rec' ← mapErr (encodeProof { t, role, ct := ⟨ct, hct⟩, sig }) .badRequest
    return ({ e with pending := some { p with ownProof := some rec' } }, rec'.1)
  else throw .storageFault

/-- Export our proof; repeats return the same bytes. -/
def pairProof (e : Engine) : Except EngineError (Engine × List UInt8) := do
  e.checkUsable
  e.requireRadioOff
  let p ← e.livePending
  let t ← okOr p.transcript .badRequest
  match p.ownProof with
  | some saved => return (e, saved.1)
  | none => e.freshProof C p t

def importProof (e : Engine) (p : PendingPair) (record : List UInt8) :
    Except EngineError (Engine × PairImportOutcome) := do
  let proof ← mapErr (decodeProof record) .badRequest
  let t ← okOr p.transcript .badRequest
  require (proof.t == t) .badRequest
  require (proof.role != p.ownRole) .badRequest
  -- a transcript is only ever set together with the peer offer
  let peerPayload ← okOr p.peerOffer .badRequest
  let peer ← mapErr (decodeOfferPayload peerPayload.1) .badRequest
  require (C.edVerify peer.edPub (proofMessage proof.t proof.role proof.ct.1) proof.sig) .badRequest
  let keys ← setupKeys C p t
  let pt ← mapErr (decryptData C (setupKey keys proof.role) setupNonce (proofAad t proof.role)
    proof.ct.1 8) .badRequest
  if h : record.length = proofRecordLen ∧ pt.length = 8 then
    let p := { p with peerProof := some ⟨record, h.1⟩, peerIdentity := some ⟨pt, h.2⟩ }
    return ({ e with pending := some p },
      { step := .needConfirm, fingerprint := transcriptFingerprint t, contactId := none })
  else throw .badRequest

/-- The digest of the two proofs, that of `L` first. -/
def proofDigest (role : UInt8) (ownProof peerProof : Bytes proofRecordLen) : Bytes 32 :=
  if role = roleL then C.sha256 (ownProof.1 ++ peerProof.1) else C.sha256 (peerProof.1 ++ ownProof.1)

/-- The confirmation code of role `role`. -/
def confirmMac (root t : Bytes 32) (role : UInt8) (digest : Bytes 32) : Bytes 32 :=
  C.hmac (deriveLabel C root labelConfirm).1 (domainConfirmMsg ++ (t.1 ++ (role :: digest.1)))

/-- A fresh confirmation of ours. -/
def freshConfirm (e : Engine) (p : PendingPair) (t : Bytes 32) :
    Except EngineError (Engine × List UInt8) := do
  let ownProof ← okOr p.ownProof .badRequest
  let peerProof ← okOr p.peerProof .badRequest
  let digest := proofDigest C p.ownRole ownProof peerProof
  let root ← pairRoot C p t
  let mac := confirmMac C root t p.ownRole digest
  let rec' ← mapErr (encodeConfirmation { t, role := p.ownRole, mac }) .badRequest
  return ({ e with pending := some { p with ownConfirm := some rec' } }, rec'.1)

/-- Export our confirmation; repeats return the same bytes. -/
def pairConfirm (e : Engine) : Except EngineError (Engine × List UInt8) := do
  e.checkUsable
  e.requireRadioOff
  let p ← e.livePending
  let t ← okOr p.transcript .badRequest
  require p.peerProof.isSome .badRequest
  match p.ownConfirm with
  | some saved => return (e, saved.1)
  | none => e.freshConfirm C p t

/-- The contact an activation installs. -/
def activatedContact (peerEd : Bytes 32) (peerId : Bytes 8) (root : Bytes 32) (role : UInt8)
    (epoch : UInt32) : Contact :=
  { Contact.empty with
    present := true
    edPeer := peerEd
    peerIdentity := peerId
    root := root
    trafficLr := deriveLabel C root labelTrafficLR
    trafficRl := deriveLabel C root labelTrafficRL
    addrSecret := deriveLabel C root labelAddress
    role := role
    anchor := ⟨epoch⟩
    winEpochs := slots epoch }

def activateContact (e : Engine) (slot : Slot) (peerEd : Bytes 32) (peerId : Bytes 8)
    (root : Bytes 32) (role : UInt8) : Engine :=
  (e.clearContact slot).setContact slot (activatedContact C peerEd peerId root role e.epoch)

/-- What a confirmation is checked against: the peer's signing key and identity, and the root. -/
structure Confirmed where
  peerEd : Bytes 32
  peerId : Bytes 8
  root : Bytes 32
  t : Bytes 32

/-- Check a confirmation against the pending attempt. -/
def checkConfirm (p : PendingPair) (record : List UInt8) : Except EngineError Confirmed := do
  let conf ← mapErr (decodeConfirmation record) .badRequest
  let t ← okOr p.transcript .badRequest
  require (conf.t == t && conf.role != p.ownRole) .badRequest
  let ownProof ← okOr p.ownProof .badRequest
  let peerProof ← okOr p.peerProof .badRequest
  let digest := proofDigest C p.ownRole ownProof peerProof
  let root ← pairRoot C p t
  require (confirmMac C root t conf.role digest == conf.mac) .badRequest
  -- the identity cached at proof import must match a fresh decryption of the stored proof
  let cached ← okOr p.peerIdentity .badRequest
  let peerProofD ← mapErr (decodeProof peerProof.1) .badRequest
  let keys ← setupKeys C p t
  let peerId ← mapErr (decryptData C (setupKey keys conf.role) setupNonce (proofAad t conf.role)
    peerProofD.ct.1 8) .badRequest
  require (peerId == cached.1) .badRequest
  let peerPayload ← okOr p.peerOffer .badRequest
  let peer ← mapErr (decodeOfferPayload peerPayload.1) .badRequest
  return { peerEd := peer.edPub, peerId := cached, root, t }

def importConfirm (e : Engine) (p : PendingPair) (record : List UInt8) :
    Except EngineError (Engine × PairImportOutcome) := do
  let c ← checkConfirm C p record
  let e := e.activateContact C p.slot c.peerEd c.peerId c.root p.ownRole
  return (e.stagePersist (.pairActivate p.slot),
    { step := .active, fingerprint := transcriptFingerprint c.t, contactId := some (contactId p.slot) })

/-- Import a peer record; a confirmation needs the operator's comparison of the transcripts. -/
def pairImportSas (e : Engine) (record : List UInt8) (replace sasMatch : Bool) :
    Except EngineError (Engine × PairImportOutcome) := do
  e.checkUsable
  e.requireRadioOff
  let p ← e.livePending
  match record with
  | [] => throw .badRequest
  | type :: _ =>
    require (!(type == recordConfirm && !sasMatch)) .sasMismatch
    if type = recordOffer then e.importOffer C p record replace
    else if type = recordProof then e.importProof C p record
    else if type = recordConfirm then e.importConfirm C p record
    else throw .badRequest

def pairImport (e : Engine) (record : List UInt8) (replace : Bool) :
    Except EngineError (Engine × PairImportOutcome) :=
  e.pairImportSas C record replace false

end Ceremony

end Engine

end LoraMesh
