import LoraMesh.Lib.Runs
import LoraMesh.Core.Honest
import LoraMesh.Engine.Op

/-!
# Engine — Agreement

Two boards pair with each other.  Each exports an offer, a proof and a confirmation and imports the
other's, in any order in which a record is made and taken after what it depends on, any of it
more than once, until its own contact is active.

* `Board`: a board as it goes into the ceremony, and the values it comes to against its peer.
* `Progress`: how far a board has come; `Progress.ready` says which exports and imports are in order.
* `Board.export_ready`, `Board.import_ready`: what is in order is answered, and leaves the board where
  it should be.
* `pairing_agrees`: both boards compute one transcript, and the two contacts are mates.
-/

namespace LoraMesh

/-! ### What a board comes to -/

/-- A board as it goes into the ceremony: its engine, and the key and challenge it draws. -/
structure Board where
  engine : Engine
  ephPriv : Bytes 32
  challenge : Bytes 32
  slot : Slot

namespace Board

variable (C : Crypto) (base : Bytes 32)

def edPub (b : Board) : Bytes 32 := C.edPublic b.engine.signPriv

def ephPub (b : Board) : Bytes 32 := C.x25519 b.ephPriv base

def offer (b : Board) : Offer := ⟨b.edPub C, b.ephPub C base, b.challenge⟩

def payload (b : Board) : Bytes offerLen := encodeOfferPayload (b.offer C base)

variable (own peer : Board)

def transcript : Bytes 32 :=
  let lr := Engine.orderPayloads (own.payload C base) (peer.payload C base)
  transcriptT C lr.1 lr.2

def role : UInt8 := roleFor (own.edPub C) (peer.edPub C)

def root : Bytes 32 := deriveRoot C (C.x25519 own.ephPriv (peer.ephPub C base)) (own.transcript C base peer)

def keys : Bytes 32 × Bytes 32 :=
  (deriveLabel C (own.root C base peer) labelSetupLR, deriveLabel C (own.root C base peer) labelSetupRL)

/-- The encrypted identity. -/
def sealed : Bytes proofCtLen :=
  let r := C.encryptInPlace (Engine.setupKey (own.keys C base peer) (own.role C peer)) Engine.setupNonce
    (Engine.proofAad (own.transcript C base peer) (own.role C peer)) own.engine.uid.1
  ⟨r.1 ++ r.2.1, by rw [List.length_append, C.length_encryptInPlace, Bytes.length_val, Bytes.length_val]⟩

def proof : Proof where
  t := own.transcript C base peer
  role := own.role C peer
  ct := own.sealed C base peer
  sig := C.edSign own.engine.signPriv
    (Engine.proofMessage (own.transcript C base peer) (own.role C peer) (own.sealed C base peer).1)

theorem length_proofBytes (p : Proof) :
    (recordProof :: (p.t.1 ++ p.role :: (p.ct.1 ++ p.sig.1))).length = proofRecordLen := by
  simp [proofCtLen]

/-- A proof's bytes. -/
def proofBytes (p : Proof) : Bytes proofRecordLen :=
  ⟨recordProof :: (p.t.1 ++ p.role :: (p.ct.1 ++ p.sig.1)), length_proofBytes p⟩

def proofRecord : Bytes proofRecordLen := proofBytes (own.proof C base peer)

def confirmation : Confirmation where
  t := own.transcript C base peer
  role := own.role C peer
  mac := Engine.confirmMac C (own.root C base peer) (own.transcript C base peer) (own.role C peer)
    (Engine.proofDigest C (own.role C peer) (own.proofRecord C base peer) (peer.proofRecord C base own))

def confirmRecord : Bytes confirmRecordLen :=
  let c := own.confirmation C base peer
  ⟨recordConfirm :: (c.t.1 ++ c.role :: c.mac.1), by simp⟩

/-- The contact it ends with. -/
def contact (epoch : UInt32) : Contact :=
  Engine.activatedContact C (peer.edPub C) peer.engine.uid (own.root C base peer) (own.role C peer) epoch

end Board

/-- Two boards that can pair: each could start an attempt, neither is the other's contact. -/
structure Board.Ready (C : Crypto) (base : Bytes 32) (own peer : Board) : Prop where
  usable : own.engine.checkUsable = .ok ()
  radioOff : own.engine.radioOn = false
  uidSet : own.engine.uidSet = true
  signSet : own.engine.signSet = true
  idle : own.engine.pending = none
  slot : own.engine.freeSlot = some own.slot
  ephPub : own.ephPub C base ≠ .zero 32
  stranger : ∀ i, (own.engine.contacts i).present = true → (own.engine.contacts i).edPeer ≠ peer.edPub C
  apart : own.edPub C ≠ peer.edPub C
  secret : C.x25519 own.ephPriv (peer.ephPub C base) ≠ .zero 32

namespace Board

variable {C : Crypto} {base : Bytes 32} {own peer : Board}

theorem payload_edPub (b : Board) : ((b.payload C base).1.drop 1).take 32 = (b.edPub C).1 := by
  rw [payload, encodeOfferPayload]
  exact List.take_left' (b.edPub C).2

/-- The two order their offers alike. -/
theorem transcript_comm (h : own.edPub C ≠ peer.edPub C) :
    peer.transcript C base own = own.transcript C base peer := by
  have horder : Engine.orderPayloads (peer.payload C base) (own.payload C base) =
      Engine.orderPayloads (own.payload C base) (peer.payload C base) := by
    rw [Engine.orderPayloads, Engine.orderPayloads, payload_edPub, payload_edPub]
    by_cases hle : (own.edPub C).1 ≤ (peer.edPub C).1
    · rw [if_pos hle, if_neg fun hge => h (Subtype.ext (List.le_antisymm hle hge))]
    · rw [if_neg hle, if_pos ((List.le_total _ _).resolve_left hle)]
  rw [transcript, transcript, horder]

theorem root_comm (hc : Honest C base) (h : own.edPub C ≠ peer.edPub C) :
    peer.root C base own = own.root C base peer := by
  rw [root, root, transcript_comm h, ephPub, ephPub, hc.agrees]

theorem keys_comm (hc : Honest C base) (h : own.edPub C ≠ peer.edPub C) :
    peer.keys C base own = own.keys C base peer := by
  rw [keys, keys, root_comm hc h]

theorem role_cases (h : own.edPub C ≠ peer.edPub C) :
    own.role C peer = roleL ∧ peer.role C own = roleR ∨ own.role C peer = roleR ∧ peer.role C own = roleL :=
  (roleFor_swap h).imp (fun h => ⟨h.1, h.2.1⟩) fun h => ⟨h.1, h.2.1⟩

theorem role_ne (h : own.edPub C ≠ peer.edPub C) : peer.role C own ≠ own.role C peer := by
  rcases role_cases h with ⟨h, h'⟩ | ⟨h, h'⟩
  · rw [h, h']
    decide
  · rw [h, h']
    decide

theorem role_valid (own peer : Board) : ¬ (own.role C peer ≠ roleL ∧ own.role C peer ≠ roleR) := by
  rintro ⟨hl, hr⟩
  rw [role, roleFor] at hl hr
  split at hl
  · exact hl rfl
  · rename_i hn
    rw [if_neg hn] at hr
    exact hr rfl

/-- Both put the proof of `L` first. -/
theorem digest_comm (h : own.edPub C ≠ peer.edPub C) :
    Engine.proofDigest C (peer.role C own) (peer.proofRecord C base own) (own.proofRecord C base peer) =
      Engine.proofDigest C (own.role C peer) (own.proofRecord C base peer) (peer.proofRecord C base own) := by
  rw [Engine.proofDigest, Engine.proofDigest]
  rcases role_cases h with ⟨h, h'⟩ | ⟨h, h'⟩
  · rw [h, h', if_pos rfl, if_neg (by decide)]
  · rw [h, h', if_pos rfl, if_neg (by decide)]

theorem encodeProof_proof (own peer : Board) :
    encodeProof (own.proof C base peer) = .ok (own.proofRecord C base peer) := if_neg (role_valid own peer)

theorem encodeConfirmation_confirmation (own peer : Board) :
    encodeConfirmation (own.confirmation C base peer) = .ok (own.confirmRecord C base peer) :=
  if_neg (role_valid own peer)

theorem decodeOffer_payload (b : Board) : decodeOfferPayload (b.payload C base).1 = .ok (b.offer C base) :=
  decodeOfferPayload_encode _

theorem encryptData_sealed (own peer : Board) :
    encryptData C (Engine.setupKey (own.keys C base peer) (own.role C peer)) Engine.setupNonce
      (Engine.proofAad (own.transcript C base peer) (own.role C peer)) own.engine.uid.1 proofCtLen =
        .ok (own.sealed C base peer).1 := by
  refine if_neg ?_
  rw [own.engine.uid.2]
  decide

/-- The peer reads the identity that was sealed. -/
theorem decrypt_sealed (hc : Honest C base) (own peer : Board) :
    decryptData C (Engine.setupKey (own.keys C base peer) (own.role C peer)) Engine.setupNonce
      (Engine.proofAad (own.transcript C base peer) (own.role C peer)) (own.sealed C base peer).1 8 =
        .ok own.engine.uid.1 :=
  hc.decryptData_encryptData (encryptData_sealed own peer) (le_of_eq own.engine.uid.2)

end Board

/-! ### How far a board has come -/

/-- The kinds of record. -/
inductive PairKind where
  | offer
  | proof
  | confirmation
  deriving DecidableEq

/-- What a board does at the table. -/
inductive PairMove where
  | give (k : PairKind)
  /-- The offer once more, with a key and a challenge drawn anew. -/
  | redraw (ephPriv ephPub challenge : Bytes 32)
  | take (k : PairKind) (replace sasMatch : Bool)
  | wait (now : UInt64)

/-- The records a board has exported, and those of its peer that it has imported; its clock, when
its attempt started, and whether it is to replace a contact. -/
structure Progress where
  gave : PairKind → Bool
  took : PairKind → Bool
  now : UInt64
  start : UInt64
  replace : Bool

namespace Progress

def init (now : UInt64) : Progress := ⟨fun _ => false, fun _ => false, now, now, false⟩

/-- The progress after a move. -/
def note (d : Progress) : PairMove → Progress
  | .give k =>
    { d with
      gave := Function.update d.gave k true
      start := if k = .offer ∧ d.gave .offer = false then d.now else d.start
      replace := if k = .offer ∧ d.gave .offer = false then false else d.replace }
  | .redraw _ _ _ => d
  | .take k replace _ =>
    { d with
      took := Function.update d.took k true
      replace := if k = .offer then replace else d.replace }
  | .wait now => { d with now }

/-- What the move depends on has been made and taken, and the attempt does not expire. -/
def due (d peer : Progress) : PairMove → Bool
  | .give .offer => true
  | .give .proof => d.took .offer
  | .give .confirmation => d.gave .proof && d.took .proof
  | .redraw _ _ _ => d.gave .offer
  | .take .offer _ _ => d.gave .offer && peer.gave .offer
  | .take .proof _ _ => d.took .offer && peer.gave .proof
  | .take .confirmation _ sasMatch => sasMatch && d.gave .confirmation && peer.gave .confirmation
  | .wait now => !(d.gave .offer && isExpired d.start now)

/-- The move is in order: it is due, and the board's own contact is not active yet. -/
def ready (d peer : Progress) (m : PairMove) : Bool := !d.took .confirmation && d.due peer m

/-- What the order of the moves leaves behind. -/
structure Ordered (d : Progress) : Prop where
  offered : d.took .offer = true → d.gave .offer = true
  proved : d.gave .proof = true → d.took .offer = true
  learned : d.took .proof = true → d.took .offer = true
  confirmed : d.gave .confirmation = true → d.gave .proof = true ∧ d.took .proof = true
  closed : d.took .confirmation = true → d.gave .confirmation = true
  live : d.gave .offer = true → isExpired d.start d.now = false

theorem ordered_init (now : UInt64) : (init now).Ordered :=
  ⟨fun h => (by cases h), fun h => (by cases h), fun h => (by cases h), fun h => (by cases h), fun h => (by cases h),
    fun h => (by cases h)⟩

theorem isExpired_self (now : UInt64) : isExpired now now = false := by
  rw [isExpired, if_pos (UInt64.le_refl now), UInt64.sub_self]
  rfl

variable {d peer : Progress} {m : PairMove}

theorem note_given {k : PairKind} (h : d.gave k = true) : d.note (.give k) = d := by
  have hn : ¬ (k = .offer ∧ d.gave .offer = false) := by
    rintro ⟨rfl, hf⟩
    cases h.symm.trans hf
  rw [note, if_neg hn, if_neg hn, ← h, Function.update_eq_self]

theorem Ordered.note (h : d.Ordered) (hr : d.ready peer m = true) : (d.note m).Ordered := by
  rw [ready, Bool.and_eq_true, Bool.not_eq_true'] at hr
  obtain ⟨hgoing, hr⟩ := hr
  cases m with
  | give k =>
      by_cases hk : d.gave k = true
      · rw [note_given hk]
        exact h
      cases k with
      | offer =>
          have hno : d.gave .offer = false := Bool.eq_false_of_not_eq_true hk
          refine ⟨fun _ => rfl, h.proved, h.learned, h.confirmed, h.closed, fun _ => ?_⟩
          show isExpired (if PairKind.offer = .offer ∧ d.gave .offer = false then d.now else d.start) d.now = false
          rw [if_pos ⟨rfl, hno⟩]
          exact isExpired_self d.now
      | proof => exact ⟨h.offered, fun _ => hr, h.learned, fun hc => ⟨rfl, (h.confirmed hc).2⟩, h.closed, h.live⟩
      | confirmation =>
          exact ⟨h.offered, h.proved, h.learned, fun _ => (Bool.and_eq_true _ _).mp hr, fun _ => rfl, h.live⟩
  | redraw ephPriv ephPub challenge => exact h
  | take k replace sasMatch =>
      cases k with
      | offer =>
          have hg : d.gave .offer = true := ((Bool.and_eq_true _ _).mp hr).1
          exact ⟨fun _ => hg, fun _ => rfl, fun _ => rfl, h.confirmed, h.closed, h.live⟩
      | proof =>
          have ho : d.took .offer = true := ((Bool.and_eq_true _ _).mp hr).1
          exact ⟨h.offered, h.proved, fun _ => ho, fun hc => ⟨(h.confirmed hc).1, rfl⟩, h.closed, h.live⟩
      | confirmation =>
          rw [due, Bool.and_eq_true, Bool.and_eq_true] at hr
          exact ⟨h.offered, h.proved, h.learned, h.confirmed, fun _ => hr.1.2, h.live⟩
  | wait now =>
      refine ⟨h.offered, h.proved, h.learned, h.confirmed, h.closed, fun hg => ?_⟩
      rw [due, Bool.not_eq_true', Bool.and_eq_false_iff] at hr
      exact hr.resolve_left fun hf => by cases hg.symm.trans hf

/-- A board that has exported no offer has done nothing. -/
theorem Ordered.fresh (h : d.Ordered) (hg : d.gave .offer = false) :
    d.gave = (fun _ => false) ∧ d.took = fun _ => false := by
  have hto : d.took .offer = false := Bool.eq_false_of_not_eq_true fun ht => by cases hg.symm.trans (h.offered ht)
  have hgp : d.gave .proof = false := Bool.eq_false_of_not_eq_true fun ht => by cases hto.symm.trans (h.proved ht)
  have htp : d.took .proof = false := Bool.eq_false_of_not_eq_true fun ht => by cases hto.symm.trans (h.learned ht)
  have hgc : d.gave .confirmation = false :=
    Bool.eq_false_of_not_eq_true fun ht => by cases hgp.symm.trans (h.confirmed ht).1
  have htc : d.took .confirmation = false :=
    Bool.eq_false_of_not_eq_true fun ht => by cases hgc.symm.trans (h.closed ht)
  constructor
  · ext k
    cases k with
    | offer => rw [hg]
    | proof => rw [hgp]
    | confirmation => rw [hgc]
  · ext k
    cases k with
    | offer => rw [hto]
    | proof => rw [htp]
    | confirmation => rw [htc]

end Progress

/-! ### Where the engine of a board stands -/

namespace Board

section

variable (C : Crypto) (base : Bytes 32) (own peer : Board)

/-- The record of each kind. -/
def record : PairKind → List UInt8
  | .offer => Engine.offerRecord (own.payload C base)
  | .proof => (own.proofRecord C base peer).1
  | .confirmation => (own.confirmRecord C base peer).1

/-- The attempt of a board that has come so far. -/
def attempt (d : Progress) : PendingPair where
  ownOffer := own.payload C base
  ownEphPriv := own.ephPriv
  peerOffer := if d.took .offer then some (peer.payload C base) else none
  peerIdentity := if d.took .proof then some peer.engine.uid else none
  transcript := if d.took .offer then some (own.transcript C base peer) else none
  ownRole := if d.took .offer then own.role C peer else roleL
  ownProof := if d.gave .proof then some (own.proofRecord C base peer) else none
  peerProof := if d.took .proof then some (peer.proofRecord C base own) else none
  ownConfirm := if d.gave .confirmation then some (own.confirmRecord C base peer) else none
  startMonoS := d.start
  slot := own.slot
  replace := d.replace

/-- The engine in the ceremony: as it went in, but for the clock and the attempt. -/
def engineAt (now : UInt64) (p : Option PendingPair) : Engine := { own.engine with monoS := now, pending := p }

/-- The engine of a board that has come so far, but for its contact. -/
def engineGoing (d : Progress) : Engine :=
  own.engineAt d.now (if d.gave .offer then some (own.attempt C base peer d) else none)

/-- The engine of a board that has come so far. -/
def engineAfter (d : Progress) : Engine :=
  if d.took .confirmation then
    ((own.engineGoing C base peer d).activateContact C own.slot (peer.edPub C) peer.engine.uid
      (own.root C base peer) (own.role C peer)).stagePersist (.pairActivate own.slot)
  else own.engineGoing C base peer d

/-- What an import answers. -/
def outcome : PairKind → PairImportOutcome
  | .offer => ⟨.needProof, transcriptFingerprint (own.transcript C base peer), none⟩
  | .proof => ⟨.needConfirm, transcriptFingerprint (own.transcript C base peer), none⟩
  | .confirmation =>
    ⟨.active, transcriptFingerprint (own.transcript C base peer), some (contactId own.slot)⟩

/-- Export a record. -/
def exports (b : Board) (e : Engine) : PairKind → Except EngineError (Engine × List UInt8)
  | .offer => e.pairOffer C b.ephPriv (b.ephPub C base) b.challenge
  | .proof => e.pairProof C
  | .confirmation => e.pairConfirm C

end

section Moves

variable {C : Crypto} {base : Bytes 32} {own peer : Board} {d dp : Progress} {replace sas : Bool}

theorem engineAfter_going (hd : d.took .confirmation = false) (hg : d.gave .offer = true) :
    own.engineAfter C base peer d = own.engineAt d.now (some (own.attempt C base peer d)) := by
  rw [engineAfter, if_neg (by rw [hd]; decide), engineGoing, if_pos hg]

theorem livePending_at {now : UInt64} {p : PendingPair} (hx : isExpired p.startMonoS now = false) :
    (own.engineAt now (some p)).livePending = .ok p := by
  simp only [Engine.livePending, bind_eq_ok, okOr_eq_ok, require_eq_ok, pure_eq_ok]
  exact ⟨p, rfl, (), by rw [Bool.not_eq_true']; exact hx, rfl⟩

theorem requireRadioOff_at (h : own.Ready C base peer) (now : UInt64) (p : Option PendingPair) :
    (own.engineAt now p).requireRadioOff = .ok () := by
  rw [Engine.requireRadioOff, require_eq_ok, Bool.not_eq_true']
  exact h.radioOff

/-! ### Exports -/

/-- The first offer. -/
theorem pairOffer_first (h : own.Ready C base peer) (hg : d.gave = fun _ => false) (ht : d.took = fun _ => false) :
    (own.engineAt d.now none).pairOffer C own.ephPriv (own.ephPub C base) own.challenge =
      .ok (own.engineAt d.now (some (own.attempt C base peer (d.note (.give .offer)))),
        own.record C base peer .offer) := by
  obtain ⟨gave, took, now, start, replace⟩ := d
  cases hg
  cases ht
  simp only [Engine.pairOffer, bind_eq_ok]
  refine ⟨(), h.usable, (), requireRadioOff_at h _ _, ?_⟩
  show (own.engineAt now none).freshOffer C _ _ _ = _
  simp only [Engine.freshOffer, Engine.edPubkey, bind_eq_ok, require_eq_ok, okOr_eq_ok, pure_eq_ok]
  exact ⟨(), h.signSet, own.edPub C, ⟨(), h.signSet, rfl⟩, (), bne_iff_ne.mpr h.ephPub, own.slot, h.slot, rfl⟩

/-- The offer once more, whatever is drawn. -/
theorem pairOffer_again (h : own.Ready C base peer) {now : UInt64} {p : PendingPair}
    (hx : isExpired p.startMonoS now = false) (ephPriv ephPub challenge : Bytes 32) :
    (own.engineAt now (some p)).pairOffer C ephPriv ephPub challenge =
      .ok (own.engineAt now (some p), Engine.offerRecord p.ownOffer) := by
  simp only [Engine.pairOffer, bind_eq_ok]
  refine ⟨(), h.usable, (), requireRadioOff_at h _ _, ?_⟩
  show (if isExpired p.startMonoS now then _ else _) = _
  rw [hx]
  rfl

/-- The secret of the attempt once the peer's offer is taken. -/
theorem pairRoot_attempt (h : own.Ready C base peer) (ht : d.took .offer = true) :
    Engine.pairRoot C (own.attempt C base peer d) (own.transcript C base peer) = .ok (own.root C base peer) := by
  simp only [Engine.pairRoot, bind_eq_ok, okOr_eq_ok, mapErr_eq_ok, require_eq_ok, pure_eq_ok]
  exact ⟨peer.payload C base, if_pos ht, peer.offer C base, decodeOffer_payload peer, (), bne_iff_ne.mpr h.secret, rfl⟩

theorem setupKeys_attempt (h : own.Ready C base peer) (ht : d.took .offer = true) :
    Engine.setupKeys C (own.attempt C base peer d) (own.transcript C base peer) = .ok (own.keys C base peer) := by
  rw [Engine.setupKeys, pairRoot_attempt h ht]
  rfl

theorem ownRole_attempt (ht : d.took .offer = true) : (own.attempt C base peer d).ownRole = own.role C peer := if_pos ht

theorem transcript_attempt (ht : d.took .offer = true) :
    (own.attempt C base peer d).transcript = some (own.transcript C base peer) := if_pos ht

theorem pairProof_at (h : own.Ready C base peer) (hx : isExpired d.start d.now = false) (ht : d.took .offer = true) :
    (own.engineAt d.now (some (own.attempt C base peer d))).pairProof C =
      .ok (own.engineAt d.now (some (own.attempt C base peer (d.note (.give .proof)))),
        own.record C base peer .proof) := by
  simp only [Engine.pairProof, bind_eq_ok, okOr_eq_ok]
  refine ⟨(), h.usable, (), requireRadioOff_at h _ _, _, livePending_at hx, _, transcript_attempt ht, ?_⟩
  cases hg : d.gave .proof with
  | true =>
      have hown : (own.attempt C base peer d).ownProof = some (own.proofRecord C base peer) := if_pos hg
      rw [hown, Progress.note_given hg]
      rfl
  | false =>
      have hown : (own.attempt C base peer d).ownProof = none := if_neg (by rw [hg]; decide)
      rw [hown]
      have hrole : (own.attempt C base peer d).ownRole = own.role C peer := ownRole_attempt ht
      simp only [Engine.freshProof, bind_eq_ok, mapErr_eq_ok, require_eq_ok]
      refine ⟨own.keys C base peer, setupKeys_attempt h ht, (), h.uidSet, (own.sealed C base peer).1, ?_, ?_⟩
      · rw [hrole]
        exact encryptData_sealed own peer
      · rw [dif_pos (own.sealed C base peer).2]
        simp only [bind_eq_ok, mapErr_eq_ok, pure_eq_ok]
        refine ⟨own.proofRecord C base peer, ?_, rfl⟩
        rw [hrole]
        exact encodeProof_proof own peer

theorem pairConfirm_at (h : own.Ready C base peer) (hx : isExpired d.start d.now = false) (ht : d.took .offer = true)
    (hp : d.gave .proof = true) (hl : d.took .proof = true) :
    (own.engineAt d.now (some (own.attempt C base peer d))).pairConfirm C =
      .ok (own.engineAt d.now (some (own.attempt C base peer (d.note (.give .confirmation)))),
        own.record C base peer .confirmation) := by
  have hpeer : (own.attempt C base peer d).peerProof = some (peer.proofRecord C base own) := if_pos hl
  simp only [Engine.pairConfirm, bind_eq_ok, okOr_eq_ok, require_eq_ok]
  refine ⟨(), h.usable, (), requireRadioOff_at h _ _, _, livePending_at hx, _, transcript_attempt ht, (),
    by rw [hpeer]; rfl, ?_⟩
  cases hg : d.gave .confirmation with
  | true =>
      have hown : (own.attempt C base peer d).ownConfirm = some (own.confirmRecord C base peer) := if_pos hg
      rw [hown, Progress.note_given hg]
      rfl
  | false =>
      have hown : (own.attempt C base peer d).ownConfirm = none := if_neg (by rw [hg]; decide)
      rw [hown]
      simp only [Engine.freshConfirm, bind_eq_ok, okOr_eq_ok, mapErr_eq_ok, pure_eq_ok]
      refine ⟨own.proofRecord C base peer, if_pos hp, peer.proofRecord C base own, hpeer, own.root C base peer,
        pairRoot_attempt h ht, own.confirmRecord C base peer, ?_, rfl⟩
      rw [ownRole_attempt ht]
      exact encodeConfirmation_confirmation own peer

/-- An export in order yields the board's record. -/
theorem exports_ready (h : own.Ready C base peer) (hd : d.Ordered) {k : PairKind}
    (hr : d.ready dp (.give k) = true) :
    own.exports C base (own.engineAfter C base peer d) k =
      .ok (own.engineAfter C base peer (d.note (.give k)), own.record C base peer k) := by
  rw [Progress.ready, Bool.and_eq_true, Bool.not_eq_true'] at hr
  obtain ⟨hgoing, hr⟩ := hr
  cases k with
  | offer =>
      cases hg : d.gave .offer with
      | true =>
          rw [Progress.note_given hg, engineAfter_going hgoing hg]
          exact pairOffer_again h (hd.live hg) _ _ _
      | false =>
          obtain ⟨hgave, htook⟩ := hd.fresh hg
          have hnone : own.engineAfter C base peer d = own.engineAt d.now none := by
            rw [engineAfter, if_neg (by rw [hgoing]; decide), engineGoing, if_neg (by rw [hg]; decide)]
          rw [hnone, engineAfter_going (d := d.note (.give .offer)) hgoing rfl]
          exact pairOffer_first h hgave htook
  | proof =>
      have hg := hd.offered hr
      rw [engineAfter_going hgoing hg, engineAfter_going (d := d.note (.give .proof)) hgoing hg]
      exact pairProof_at h (hd.live hg) hr
  | confirmation =>
      obtain ⟨hp, hl⟩ := (Bool.and_eq_true _ _).mp hr
      have ht := hd.learned hl
      have hg := hd.offered ht
      rw [engineAfter_going hgoing hg, engineAfter_going (d := d.note (.give .confirmation)) hgoing hg]
      exact pairConfirm_at h (hd.live hg) ht hp hl

/-! ### Imports -/

/-- An import goes to what its first byte says. -/
theorem pairImport_at (h : own.Ready C base peer) {now : UInt64} {p : PendingPair}
    (hx : isExpired p.startMonoS now = false) {type : UInt8} {rest : List UInt8} {e' : Engine} {o : PairImportOutcome}
    (hsas : type = recordConfirm → sas = true)
    (himport : (if type = recordOffer then
        (own.engineAt now (some p)).importOffer C p (type :: rest) replace
      else if type = recordProof then (own.engineAt now (some p)).importProof C p (type :: rest)
      else if type = recordConfirm then (own.engineAt now (some p)).importConfirm C p (type :: rest)
      else throw .badRequest) = .ok (e', o)) :
    (own.engineAt now (some p)).pairImportSas C (type :: rest) replace sas = .ok (e', o) := by
  simp only [Engine.pairImportSas, bind_eq_ok, require_eq_ok]
  refine ⟨(), h.usable, (), requireRadioOff_at h _ _, p, livePending_at hx, (), ?_, himport⟩
  cases sas with
  | true => simp
  | false =>
      have hne : type ≠ recordConfirm := fun ht => by cases hsas ht
      simp [hne]

theorem importOffer_at (h : own.Ready C base peer) (hx : isExpired d.start d.now = false) :
    (own.engineAt d.now (some (own.attempt C base peer d))).pairImportSas C (peer.record C base own .offer)
      replace sas =
      .ok (own.engineAt d.now (some (own.attempt C base peer (d.note (.take .offer replace sas)))),
        own.outcome C base peer .offer) := by
  refine pairImport_at h hx (fun ht => by cases ht) ?_
  rw [if_pos rfl]
  simp only [Engine.importOffer, bind_eq_ok, mapErr_eq_ok, require_eq_ok, pure_eq_ok, Prod.mk.injEq]
  refine ⟨peer.offer C base, decodeOfferRecord_encode _, own.offer C base, decodeOffer_payload own, (), if_neg h.apart,
    (), ?_, own.slot, ?_, rfl, rfl⟩
  · rw [Bool.not_eq_true', decide_eq_false_iff_not]
    rintro ⟨i, hp, hk⟩
    exact h.stranger i hp hk
  · cases replace with
    | true => rfl
    | false => exact okOr_eq_ok.mpr h.slot

theorem importProof_at (hc : Honest C base) (h : own.Ready C base peer) (hx : isExpired d.start d.now = false)
    (ht : d.took .offer = true) :
    (own.engineAt d.now (some (own.attempt C base peer d))).pairImportSas C (peer.record C base own .proof)
      replace sas =
      .ok (own.engineAt d.now (some (own.attempt C base peer (d.note (.take .proof replace sas)))),
        own.outcome C base peer .proof) := by
  refine pairImport_at h hx (fun ht => by cases ht) ?_
  rw [if_neg (by decide), if_pos rfl]
  simp only [Engine.importProof, bind_eq_ok, mapErr_eq_ok, okOr_eq_ok, require_eq_ok]
  refine ⟨peer.proof C base own, decodeProof_encode (encodeProof_proof peer own), own.transcript C base peer,
    transcript_attempt ht, (), beq_iff_eq.mpr (transcript_comm h.apart), (), ?_,
    peer.payload C base, if_pos ht, peer.offer C base, decodeOffer_payload peer, (), hc.verifies _ _,
    own.keys C base peer, setupKeys_attempt h ht, peer.engine.uid.1, ?_, ?_⟩
  · rw [ownRole_attempt ht]
    exact bne_iff_ne.mpr (role_ne h.apart)
  · rw [← keys_comm hc h.apart, ← transcript_comm h.apart]
    exact decrypt_sealed hc peer own
  · rw [dif_pos ⟨(peer.proofRecord C base own).2, peer.engine.uid.2⟩]
    rfl

theorem checkConfirm_at (hc : Honest C base) (h : own.Ready C base peer) (ht : d.took .offer = true)
    (hp : d.gave .proof = true) (hl : d.took .proof = true) :
    Engine.checkConfirm C (own.attempt C base peer d) (peer.record C base own .confirmation) =
      .ok ⟨peer.edPub C, peer.engine.uid, own.root C base peer, own.transcript C base peer⟩ := by
  have hmac : (peer.confirmation C base own).mac = Engine.confirmMac C (own.root C base peer)
      (own.transcript C base peer) (peer.role C own)
      (Engine.proofDigest C (own.role C peer) (own.proofRecord C base peer) (peer.proofRecord C base own)) := by
    rw [confirmation, root_comm hc h.apart, transcript_comm h.apart, digest_comm h.apart]
  simp only [Engine.checkConfirm, bind_eq_ok, mapErr_eq_ok, okOr_eq_ok, require_eq_ok, ownRole_attempt ht,
    pure_eq_ok]
  refine ⟨peer.confirmation C base own, decodeConfirmation_encode (encodeConfirmation_confirmation peer own),
    own.transcript C base peer, transcript_attempt ht, (), ?_, own.proofRecord C base peer, if_pos hp,
    peer.proofRecord C base own, if_pos hl, own.root C base peer, pairRoot_attempt h ht, (), beq_iff_eq.mpr hmac.symm,
    peer.engine.uid, if_pos hl, peer.proof C base own, decodeProof_encode (encodeProof_proof peer own),
    own.keys C base peer, setupKeys_attempt h ht, peer.engine.uid.1, ?_, (), beq_self_eq_true _,
    peer.payload C base, if_pos ht, peer.offer C base, decodeOffer_payload peer, rfl⟩
  · rw [Bool.and_eq_true]
    exact ⟨beq_iff_eq.mpr (transcript_comm h.apart), bne_iff_ne.mpr (role_ne h.apart)⟩
  · rw [← keys_comm hc h.apart, ← transcript_comm h.apart]
    exact decrypt_sealed hc peer own

theorem importConfirm_at (hc : Honest C base) (h : own.Ready C base peer) (hx : isExpired d.start d.now = false)
    (ht : d.took .offer = true) (hp : d.gave .proof = true) (hl : d.took .proof = true) :
    (own.engineAt d.now (some (own.attempt C base peer d))).pairImportSas C (peer.record C base own .confirmation)
      replace true =
      .ok (((own.engineAt d.now (some (own.attempt C base peer d))).activateContact C own.slot (peer.edPub C)
        peer.engine.uid (own.root C base peer) (own.role C peer)).stagePersist (.pairActivate own.slot),
        own.outcome C base peer .confirmation) := by
  refine pairImport_at h hx (fun _ => rfl) ?_
  rw [if_neg (by decide), if_neg (by decide), if_pos rfl]
  simp only [Engine.importConfirm, bind_eq_ok]
  refine ⟨_, checkConfirm_at hc h ht hp hl, ?_⟩
  rw [ownRole_attempt ht]
  rfl

/-- An import in order is accepted. -/
theorem imports_ready (hc : Honest C base) (h : own.Ready C base peer) (hd : d.Ordered) {k : PairKind}
    (hr : d.ready dp (.take k replace sas) = true) :
    (own.engineAfter C base peer d).pairImportSas C (peer.record C base own k) replace sas =
      .ok (own.engineAfter C base peer (d.note (.take k replace sas)), own.outcome C base peer k) := by
  rw [Progress.ready, Bool.and_eq_true, Bool.not_eq_true'] at hr
  obtain ⟨hgoing, hr⟩ := hr
  cases k with
  | offer =>
      obtain ⟨hg, -⟩ := (Bool.and_eq_true _ _).mp hr
      rw [engineAfter_going hgoing hg, engineAfter_going (d := d.note (.take .offer replace sas)) hgoing hg]
      exact importOffer_at h (hd.live hg)
  | proof =>
      obtain ⟨ht, -⟩ := (Bool.and_eq_true _ _).mp hr
      have hg := hd.offered ht
      rw [engineAfter_going hgoing hg, engineAfter_going (d := d.note (.take .proof replace sas)) hgoing hg]
      exact importProof_at hc h (hd.live hg) ht
  | confirmation =>
      rw [Progress.due, Bool.and_eq_true, Bool.and_eq_true] at hr
      obtain ⟨⟨rfl, hconf⟩, -⟩ := hr
      obtain ⟨hp, hl⟩ := hd.confirmed hconf
      have ht := hd.learned hl
      have hg := hd.offered ht
      rw [engineAfter_going hgoing hg, importConfirm_at hc h (hd.live hg) ht hp hl]
      have hafter : own.engineAfter C base peer (d.note (.take .confirmation replace true)) =
          ((own.engineAt d.now (some (own.attempt C base peer d))).activateContact C own.slot (peer.edPub C)
            peer.engine.uid (own.root C base peer) (own.role C peer)).stagePersist (.pairActivate own.slot) := by
        have hg' : (d.note (.take .confirmation replace true)).gave .offer = true := hg
        have htook : (d.note (.take .confirmation replace true)).took .confirmation = true := rfl
        rw [engineAfter, if_pos htook, engineGoing, if_pos hg']
        rfl
      rw [hafter]

/-- The offer drawn anew, in order. -/
theorem redraw_ready (h : own.Ready C base peer) (hd : d.Ordered) {ephPriv ephPub challenge : Bytes 32}
    (hr : d.ready dp (.redraw ephPriv ephPub challenge) = true) :
    (own.engineAfter C base peer d).pairOffer C ephPriv ephPub challenge =
      .ok (own.engineAfter C base peer d, own.record C base peer .offer) := by
  rw [Progress.ready, Bool.and_eq_true, Bool.not_eq_true'] at hr
  obtain ⟨hgoing, hg⟩ := hr
  rw [engineAfter_going hgoing hg]
  exact pairOffer_again h (hd.live hg) _ _ _

end Moves

end Board

/-! ### Mates -/

/-- A contact in a slot of each engine, made by one pairing: each holds the other's identity, and
both the same secrets, in opposite roles. -/
structure Mates (e : Engine) (i : Slot) (e' : Engine) (i' : Slot) : Prop where
  present : (e.contacts i).present = true ∧ (e'.contacts i').present = true
  identity : (e.contacts i).peerIdentity = e'.uid ∧ (e'.contacts i').peerIdentity = e.uid
  roles : (e.contacts i).role = roleL ∧ (e'.contacts i').role = roleR ∨
    (e.contacts i).role = roleR ∧ (e'.contacts i').role = roleL
  root : (e.contacts i).root = (e'.contacts i').root
  trafficLr : (e.contacts i).trafficLr = (e'.contacts i').trafficLr
  trafficRl : (e.contacts i).trafficRl = (e'.contacts i').trafficRl
  addrSecret : (e.contacts i).addrSecret = (e'.contacts i').addrSecret

namespace Mates

variable {C : Crypto} {e e' : Engine} {i i' : Slot}

theorem symm (h : Mates e i e' i') : Mates e' i' e i :=
  ⟨h.present.symm, h.identity.symm, h.roles.symm.imp And.symm And.symm, h.root.symm, h.trafficLr.symm,
    h.trafficRl.symm, h.addrSecret.symm⟩

/-- What one seals with, the other opens with. -/
theorem outgoingKey (h : Mates e i e' i') (epoch : UInt32) :
    (e.contacts i).outgoingKey C epoch = (e'.contacts i').incomingKey C epoch := by
  have hne : roleR ≠ roleL := by decide
  rw [Contact.outgoingKey, Contact.incomingKey, h.trafficLr, h.trafficRl]
  rcases h.roles with ⟨hr, hr'⟩ | ⟨hr, hr'⟩
  · rw [hr, hr', if_pos rfl, if_neg hne]
  · rw [hr, hr', if_neg hne, if_pos rfl]

theorem ownAlias (h : Mates e i e' i') (epoch : UInt32) :
    (e.contacts i).ownAlias C e.uid epoch = (e'.contacts i').peerAlias C epoch := by
  rw [Contact.ownAlias, Contact.peerAlias, h.addrSecret, h.identity.2]

end Mates

namespace Board

variable {C : Crypto} {base : Bytes 32} {own peer : Board} {d dp : Progress}

/-- The contact of a board that is done. -/
theorem contact_after (hd : d.took .confirmation = true) :
    (own.engineAfter C base peer d).contacts own.slot =
      Engine.activatedContact C (peer.edPub C) peer.engine.uid (own.root C base peer) (own.role C peer)
        own.engine.epoch := by
  rw [engineAfter, if_pos hd]
  exact Function.update_self _ _ _

/-- What the ceremony leaves alone. -/
theorem identity_after : (own.engineAfter C base peer d).uid = own.engine.uid ∧
    (own.engineAfter C base peer d).signPriv = own.engine.signPriv := by
  have hkeep (e : Engine) (c : Contact) (k : StagedCommit) :
      (((e.clearContact own.slot).setContact own.slot c).stagePersist k).uid = e.uid ∧
        (((e.clearContact own.slot).setContact own.slot c).stagePersist k).signPriv = e.signPriv := ⟨rfl, rfl⟩
  rw [engineAfter]
  split
  · exact hkeep (own.engineGoing C base peer d) _ _
  · exact ⟨rfl, rfl⟩

theorem transcript_after (hd : d.Ordered) (hdone : d.took .confirmation = true) :
    (own.engineAfter C base peer d).pending.bind (·.transcript) = some (own.transcript C base peer) := by
  have hto := hd.learned (hd.confirmed (hd.closed hdone)).2
  rw [engineAfter, if_pos hdone]
  show (if d.gave .offer = true then some (own.attempt C base peer d) else none).bind (·.transcript) = _
  rw [if_pos (hd.offered hto)]
  exact transcript_attempt hto

/-- The contacts of two boards that are done. -/
theorem mates_after (hc : Honest C base) (h : own.Ready C base peer) (hd : d.took .confirmation = true)
    (hdp : dp.took .confirmation = true) :
    Mates (own.engineAfter C base peer d) own.slot (peer.engineAfter C base own dp) peer.slot := by
  have hroot := root_comm hc h.apart
  refine ⟨?_, ?_, ?_, ?_, ?_, ?_, ?_⟩
  all_goals
    rw [contact_after hd, contact_after hdp]
  · exact ⟨rfl, rfl⟩
  · rw [identity_after.1, identity_after.1]
    exact ⟨rfl, rfl⟩
  · exact role_cases h.apart
  · exact hroot.symm
  · exact congrArg (deriveLabel C · labelTrafficLR) hroot.symm
  · exact congrArg (deriveLabel C · labelTrafficRL) hroot.symm
  · exact congrArg (deriveLabel C · labelAddress) hroot.symm

end Board

/-! ### The table -/

/-- The engines of the two boards, and the record of each kind that each shows. -/
structure Table where
  engine : Bool → Engine
  shown : Bool → PairKind → Option (List UInt8)

namespace Table

section

variable (C : Crypto) (base : Bytes 32) (boards : Bool → Board)

def start : Table := ⟨fun i => (boards i).engine, fun _ _ => none⟩

/-- The engine of one board replaced. -/
def seat (t : Table) (i : Bool) (e : Engine) : Table := { t with engine := Function.update t.engine i e }

/-- A record shown in place of the last of its kind. -/
def display (t : Table) (i : Bool) (k : PairKind) (record : List UInt8) : Table :=
  { t with shown := Function.update t.shown i (Function.update (t.shown i) k (some record)) }

/-- A move of one board: what it exports it shows, and what it imports the other shows. -/
def move (t : Table) (i : Bool) : PairMove → Except EngineError Table
  | .give k => do
    let (e, record) ← (boards i).exports C base (t.engine i) k
    return (t.seat i e).display i k record
  | .redraw ephPriv ephPub challenge => do
    let (e, record) ← (t.engine i).pairOffer C ephPriv ephPub challenge
    return (t.seat i e).display i .offer record
  | .take k replace sasMatch => do
    let record ← okOr (t.shown (!i) k) .badRequest
    let (e, _) ← (t.engine i).pairImportSas C record replace sasMatch
    return t.seat i e
  | .wait now => return t.seat i ((t.engine i).setMonoS now)

/-- The moves, until one is refused. -/
def play (t : Table) : List (Bool × PairMove) → Except EngineError Table
  | [] => return t
  | (i, m) :: ms => do (← t.move C base boards i m).play ms

end

@[simp] theorem seat_engine (t : Table) (i : Bool) (e : Engine) :
    (t.seat i e).engine = Function.update t.engine i e := rfl

@[simp] theorem seat_shown (t : Table) (i : Bool) (e : Engine) : (t.seat i e).shown = t.shown := rfl

@[simp] theorem display_shown (t : Table) (i : Bool) (k : PairKind) (record : List UInt8) :
    (t.display i k record).shown = Function.update t.shown i (Function.update (t.shown i) k (some record)) := rfl

/-- The progress of the two boards after a move of one. -/
def noteAt (d : Bool → Progress) (m : Bool × PairMove) : Bool → Progress :=
  Function.update d m.1 ((d m.1).note m.2)

/-- The move is in order. -/
def InOrder (d : Bool → Progress) (m : Bool × PairMove) : Prop := (d m.1).ready (d !m.1) m.2 = true

instance (d : Bool → Progress) (m : Bool × PairMove) : Decidable (InOrder d m) := inferInstanceAs (Decidable (_ = _))

/-- The table of boards that have come so far. -/
structure At (C : Crypto) (base : Bytes 32) (boards : Bool → Board) (t : Table) (d : Bool → Progress) : Prop where
  ordered : ∀ i, (d i).Ordered
  engine : ∀ i, t.engine i = (boards i).engineAfter C base (boards !i) (d i)
  shown : ∀ i k, (d i).gave k = true → t.shown i k = some ((boards i).record C base (boards !i) k)

variable {C : Crypto} {base : Bytes 32} {boards : Bool → Board} {t : Table} {d : Bool → Progress} {i : Bool}

namespace At

/-- One board comes on, showing what it says. -/
theorem seat (h : At C base boards t d) {p : Progress} (ho : p.Ordered)
    (hs : ∀ k, p.gave k = true → t.shown i k = some ((boards i).record C base (boards !i) k)) :
    At C base boards (t.seat i ((boards i).engineAfter C base (boards !i) p)) (Function.update d i p) := by
  refine ⟨fun j => ?_, fun j => ?_, fun j k => ?_⟩
  · by_cases hj : j = i
    · rw [hj, Function.update_self]
      exact ho
    · rw [Function.update_of_ne hj]
      exact h.ordered j
  · rw [seat_engine]
    by_cases hj : j = i
    · rw [hj, Function.update_self, Function.update_self]
    · rw [Function.update_of_ne hj, Function.update_of_ne hj]
      exact h.engine j
  · rw [seat_shown]
    by_cases hj : j = i
    · rw [hj, Function.update_self]
      exact hs k
    · rw [Function.update_of_ne hj]
      exact h.shown j k

/-- A record of its own shown. -/
theorem display (h : At C base boards t d) (k : PairKind) :
    At C base boards (t.display i k ((boards i).record C base (boards !i) k)) d := by
  refine ⟨h.ordered, h.engine, fun j k' hk => ?_⟩
  rw [display_shown]
  by_cases hj : j = i
  · rw [hj, Function.update_self]
    by_cases hk' : k' = k
    · rw [hk', Function.update_self]
    · rw [Function.update_of_ne hk']
      exact h.shown i k' (hj ▸ hk)
  · rw [Function.update_of_ne hj]
    exact h.shown j k' hk

/-- An export. -/
theorem give (h : At C base boards t d) {p : Progress} {k : PairKind} (ho : p.Ordered)
    (hp : ∀ k', p.gave k' = true → k' = k ∨ (d i).gave k' = true) :
    At C base boards ((t.seat i ((boards i).engineAfter C base (boards !i) p)).display i k
      ((boards i).record C base (boards !i) k)) (Function.update d i p) := by
  refine (h.display k).seat ho fun k' hk => ?_
  rw [display_shown, Function.update_self]
  by_cases heq : k' = k
  · rw [heq, Function.update_self]
  · rw [Function.update_of_ne heq]
    exact h.shown i k' ((hp k' hk).resolve_left heq)

/-- A move in order is answered. -/
theorem move (hc : Honest C base) (hb : ∀ i, (boards i).Ready C base (boards !i)) (h : At C base boards t d)
    {m : PairMove} (hr : InOrder d (i, m)) :
    ∃ t', t.move C base boards i m = .ok t' ∧ At C base boards t' (noteAt d (i, m)) := by
  have ho : ((d i).note m).Ordered := (h.ordered i).note hr
  cases m with
  | give k =>
      have hx := Board.exports_ready (hb i) (h.ordered i) hr
      rw [← h.engine i] at hx
      refine ⟨_, by rw [Table.move, hx]; rfl, h.give ho fun k' hk => ?_⟩
      by_cases heq : k' = k
      · exact .inl heq
      · refine .inr ?_
        have hk : Function.update (d i).gave k true k' = true := hk
        rwa [Function.update_of_ne heq] at hk
  | redraw ephPriv ephPub challenge =>
      have hx : (t.engine i).pairOffer C ephPriv ephPub challenge =
          .ok ((boards i).engineAfter C base (boards !i) (d i), (boards i).record C base (boards !i) .offer) := by
        rw [h.engine i]
        exact Board.redraw_ready (hb i) (h.ordered i) hr
      exact ⟨_, by rw [Table.move, hx]; rfl, h.give (k := .offer) ho fun k' hk => .inr hk⟩
  | take k replace sasMatch =>
      have hx := Board.imports_ready hc (hb i) (h.ordered i) hr
      have hshown : t.shown (!i) k = some ((boards !i).record C base (boards i) k) := by
        have hgave : (d !i).gave k = true := by
          rw [InOrder, Progress.ready, Bool.and_eq_true] at hr
          cases k with
          | offer => exact ((Bool.and_eq_true _ _).mp hr.2).2
          | proof => exact ((Bool.and_eq_true _ _).mp hr.2).2
          | confirmation => exact ((Bool.and_eq_true _ _).mp hr.2).2
        have hshown := h.shown (!i) k hgave
        rwa [Bool.not_not] at hshown
      rw [← h.engine i] at hx
      refine ⟨_, by rw [Table.move, hshown, okOr]; dsimp only [bind, Except.bind]; rw [hx]; rfl, ?_⟩
      exact h.seat ho (h.shown i)
  | wait now =>
      have hgoing : (d i).took .confirmation = false := by
        rw [InOrder, Progress.ready, Bool.and_eq_true, Bool.not_eq_true'] at hr
        exact hr.1
      have hx : (t.engine i).setMonoS now = (boards i).engineAfter C base (boards !i) ((d i).note (.wait now)) := by
        have hgoing' : ((d i).note (.wait now)).took .confirmation = false := hgoing
        rw [h.engine i, Board.engineAfter, Board.engineAfter, if_neg (by rw [hgoing]; decide),
          if_neg (by rw [hgoing']; decide)]
        rfl
      refine ⟨_, rfl, ?_⟩
      rw [hx]
      exact h.seat ho (h.shown i)

/-- Moves in order are answered. -/
theorem play (hc : Honest C base) (hb : ∀ i, (boards i).Ready C base (boards !i))
    (moves : List (Bool × PairMove)) : ∀ {t : Table} {d : Bool → Progress}, At C base boards t d →
      Along noteAt InOrder d moves →
        ∃ t', t.play C base boards moves = .ok t' ∧ At C base boards t' (run noteAt d moves) := by
  induction moves with
  | nil => exact fun h _ => ⟨_, rfl, h⟩
  | cons m moves ih =>
      intro t d h hm
      obtain ⟨t', ht', h'⟩ := h.move hc hb hm.1
      obtain ⟨t'', ht'', h''⟩ := ih h' hm.2
      refine ⟨t'', ?_, h''⟩
      rw [Table.play, ht']
      exact ht''

theorem init (C : Crypto) (base : Bytes 32) (boards : Bool → Board) (hb : ∀ i, (boards i).Ready C base (boards !i)) :
    At C base boards (start boards) fun i => .init (boards i).engine.monoS := by
  refine ⟨fun i => Progress.ordered_init _, fun i => ?_, fun i k hk => by cases hk⟩
  show (boards i).engine = { (boards i).engine with monoS := (boards i).engine.monoS, pending := none }
  rw [← (hb i).idle]

end At

end Table

/-- The table where both contacts are active: the attempts had one transcript, the contacts are
mates, and each holds the other's key and receives under what the other sends under. -/
structure Agreed (C : Crypto) (boards : Bool → Board) (t : Table) : Prop where
  transcript : ∃ T, ∀ i, (t.engine i).pending.bind (·.transcript) = some T
  mates : Mates (t.engine false) (boards false).slot (t.engine true) (boards true).slot
  signers : ∀ i, ((t.engine i).contacts (boards i).slot).edPeer = C.edPublic (t.engine !i).signPriv
  keys : ∀ epoch, ((t.engine false).contacts (boards false).slot).outgoingKey C epoch =
      ((t.engine true).contacts (boards true).slot).incomingKey C epoch ∧
    ((t.engine false).contacts (boards false).slot).incomingKey C epoch =
      ((t.engine true).contacts (boards true).slot).outgoingKey C epoch

/-- Every order of the ceremony is answered to its end, and once both boards have taken the
other's confirmation they agree. -/
theorem pairing_agrees (C : Crypto) (base : Bytes 32) (hc : Honest C base) (boards : Bool → Board)
    (hb : ∀ i, (boards i).Ready C base (boards !i)) (moves : List (Bool × PairMove))
    (hm : Along Table.noteAt Table.InOrder (fun i => .init (boards i).engine.monoS) moves) :
    ∃ t, (Table.start boards).play C base boards moves = .ok t ∧
      ((∀ i, (run Table.noteAt (fun i => .init (boards i).engine.monoS) moves i).took .confirmation = true) →
        Agreed C boards t) := by
  obtain ⟨t, ht, h⟩ := (Table.At.init C base boards hb).play hc hb moves hm
  refine ⟨t, ht, fun hdone => ?_⟩
  have hleft := h.engine false
  have hright := h.engine true
  have hmates : Mates (t.engine false) (boards false).slot (t.engine true) (boards true).slot := by
    rw [hleft, hright]
    exact Board.mates_after hc (hb false) (hdone false) (hdone true)
  refine ⟨⟨(boards false).transcript C base (boards true), fun i => ?_⟩, hmates, fun i => ?_, fun epoch => ?_⟩
  · rw [h.engine i, Board.transcript_after (h.ordered i) (hdone i)]
    cases i with
    | false => rfl
    | true => exact congrArg some (Board.transcript_comm (hb false).apart)
  · rw [h.engine i, h.engine !i, Board.contact_after (hdone i), Board.identity_after.2]
    rfl
  · exact ⟨hmates.outgoingKey epoch, (hmates.symm.outgoingKey epoch).symm⟩

namespace Sample

/-- The base point. -/
def basePoint : Bytes 32 := bytes32 9

theorem maxContacts_pos : 0 < maxContacts := by
  decide

/-- Devices 1 and 2 before they pair. -/
def boards (i : Bool) : Board :=
  let n := if i then 2 else 1
  ⟨after (.new true) (setup n), bytes32 (4 + n), bytes32 (70 + n), ⟨0, maxContacts_pos⟩⟩

theorem boards_ready (i : Bool) : (boards i).Ready crypto basePoint (boards !i) := by
  cases i with
  | false =>
      exact ⟨rfl, by decide +kernel, by decide +kernel, by decide +kernel, rfl, by decide +kernel, by decide +kernel,
        by decide +kernel, by decide +kernel, by decide +kernel⟩
  | true =>
      exact ⟨rfl, by decide +kernel, by decide +kernel, by decide +kernel, rfl, by decide +kernel, by decide +kernel,
        by decide +kernel, by decide +kernel, by decide +kernel⟩

/-- A ceremony with an offer drawn anew, a proof exported and imported again, and time passing. -/
def orderly : List (Bool × PairMove) :=
  [(false, .give .offer), (true, .give .offer), (true, .wait 5), (true, .take .offer false false),
    (false, .redraw (bytes32 1) (bytes32 2) (bytes32 3)), (true, .give .proof), (false, .take .offer true false),
    (false, .take .proof false false), (false, .give .proof), (true, .give .proof), (false, .take .proof false true),
    (false, .give .confirmation), (true, .take .proof false false), (true, .give .confirmation),
    (true, .take .confirmation false true), (false, .give .confirmation), (false, .take .confirmation false true)]

end Sample

theorem pairing_agrees_sample : ∃ t, (Table.start Sample.boards).play Sample.crypto Sample.basePoint Sample.boards
    Sample.orderly = .ok t ∧ Agreed Sample.crypto Sample.boards t := by
  obtain ⟨t, ht, h⟩ := pairing_agrees Sample.crypto Sample.basePoint (Sample.honest _) Sample.boards Sample.boards_ready
    Sample.orderly (by decide +kernel)
  exact ⟨t, ht, h (by decide +kernel)⟩

end LoraMesh
