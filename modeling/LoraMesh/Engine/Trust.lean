import LoraMesh.Engine.Activation

/-!
# Engine — Trust

What has to happen before a contact appears.  A run keeps, beside the engine, the proofs it has
imported, the ciphertexts the ceremony has opened and the offers it has hashed.

* `trust_gate`: a contact appears only by a compared confirmation, and only for the peer offer whose
  key verified a proof of the same attempt.

The hypotheses on the primitives are on the run alone: no ciphertext it opens opens under two
associated data, and no two offer pairs it hashes share their transcript.
-/

namespace LoraMesh

/-- A proof imported: in which attempt, into which pending state. -/
structure SeenProof where
  attempt : ℕ
  pending : PendingPair
  record : List UInt8

/-- An opened ciphertext and its associated data. -/
structure Opening where
  aad : List UInt8
  ct : List UInt8
  deriving DecidableEq

namespace PendingPair

/-- The two offers hashed when an offer is imported. -/
def hashedOffers (p : PendingPair) (record : List UInt8) : Option (Bytes offerLen × Bytes offerLen) := do
  let offer ← (decodeOfferRecord record).toOption
  return Engine.orderPayloads p.ownOffer (encodeOfferPayload offer)

/-- What is opened when a proof is imported. -/
def openedProof (p : PendingPair) (record : List UInt8) : Option Opening := do
  let proof ← (decodeProof record).toOption
  let t ← p.transcript
  return ⟨Engine.proofAad t proof.role, proof.ct.1⟩

/-- What is opened when a confirmation is imported: the stored proof, once more. -/
def openedConfirm (p : PendingPair) (record : List UInt8) : Option Opening := do
  let conf ← (decodeConfirmation record).toOption
  let t ← p.transcript
  let peerProof ← p.peerProof
  let proof ← (decodeProof peerProof.1).toOption
  return ⟨Engine.proofAad t conf.role, proof.ct.1⟩

end PendingPair

/-- An engine with its attempts numbered, and what its ceremonies have seen. -/
structure Trust where
  engine : Engine
  attempt : ℕ
  seen : List SeenProof
  opened : List Opening
  hashed : List (Bytes offerLen × Bytes offerLen)

namespace Trust

def init (available : Bool) : Trust := ⟨.new available, 0, [], [], []⟩

/-- An import that has gone through, into `p`. -/
def imported (a : Trust) (p : PendingPair) (record : List UInt8) : PairStep → Trust
  | .needProof => { a with hashed := a.hashed ++ (p.hashedOffers record).toList }
  | .needConfirm =>
    { a with
      seen := a.seen ++ [⟨a.attempt, p, record⟩]
      opened := a.opened ++ (p.openedProof record).toList }
  | .active => { a with opened := a.opened ++ (p.openedConfirm record).toList }

/-- One operation. -/
def next (C : Crypto) (a : Trust) (op : Op) : Trust :=
  let r := step C a.engine op
  let a' := { a with engine := r.1, attempt := attemptAfter a.engine a.attempt op r.2 }
  match op, r.2, a.engine.pending with
  | .pairImport record _ _, .imported (.ok o), some p => a'.imported p record o.step
  | _, _, _ => a'

/-- No ciphertext opens under two associated data, and no transcript has two preimages. -/
structure Ideal (C : Crypto) (a : Trust) : Prop where
  opens : ∀ x ∈ a.opened, ∀ y ∈ a.opened, x.ct = y.ct → x.aad = y.aad
  hashes : ∀ x ∈ a.hashed, ∀ y ∈ a.hashed, transcriptT C x.1 x.2 = transcriptT C y.1 y.2 → x = y

/-- A proof that passed against the pending attempt `p`: its transcript, its role, its signature
under the key of the peer offer `peer`, and its identity `id` under the setup key. -/
structure Verified (C : Crypto) (p : PendingPair) (record : List UInt8) (peer : Offer)
    (proof : Proof) (id : Bytes 8) : Prop where
  decoded : decodeProof record = .ok proof
  transcript : p.transcript = some proof.t
  roles : p.ownRole = roleL ∧ proof.role = roleR ∨ p.ownRole = roleR ∧ proof.role = roleL
  offer : p.peerOffer = some (encodeOfferPayload peer)
  signed : C.edVerify peer.edPub (Engine.proofMessage proof.t proof.role proof.ct.1) proof.sig = true
  identity : ∃ keys, Engine.setupKeys C p proof.t = .ok keys ∧
    decryptData C (Engine.setupKey keys proof.role) Engine.setupNonce
      (Engine.proofAad proof.t proof.role) proof.ct.1 8 = .ok id.1

/-- What it takes for `c` to appear in slot `i`. -/
structure Gate (C : Crypto) (a : Trust) (op : Op) (i : Slot) (c : Contact) : Prop where
  confirms : ∃ rest replace, op = .pairImport (recordConfirm :: rest) replace true
  provisioned : a.engine.provisioned = true
  fault : a.engine.fault = false
  radioOff : a.engine.radioOn = false
  vouched : ∃ p, a.engine.pending = some p ∧ isExpired p.startMonoS a.engine.monoS = false ∧ p.slot = i ∧
    ∃ s ∈ a.seen, s.attempt = a.attempt ∧ s.pending.peerOffer = p.peerOffer ∧
      s.pending.transcript = p.transcript ∧
      ∃ peer proof, Verified C p s.record peer proof c.peerIdentity ∧ c.edPeer = peer.edPub

/-! ### What a run keeps -/

section

variable {C : Crypto} {a a' : Trust} {e e' : Engine} {op : Op} {out : Output} {p : PendingPair}

/-- A transcript of the run is that of the two offers beside it. -/
structure Hashed (C : Crypto) (a : Trust) (p : PendingPair) : Prop where
  role : p.ownRole = roleL ∨ p.ownRole = roleR
  transcript : ∀ q t, p.peerOffer = some q → p.transcript = some t →
    Engine.orderPayloads p.ownOffer q ∈ a.hashed ∧
      t = transcriptT C (Engine.orderPayloads p.ownOffer q).1 (Engine.orderPayloads p.ownOffer q).2

/-- The invariant of a run. -/
structure Inv (C : Crypto) (a : Trust) : Prop where
  hashed : ∀ p, a.engine.pending = some p → a.Hashed C p
  proof : ∀ p r, a.engine.pending = some p → p.peerProof = some r →
    ∃ s ∈ a.seen, s.attempt = a.attempt ∧ s.record = r.1 ∧ s.pending.ownOffer = p.ownOffer
  seen : ∀ s ∈ a.seen, a.Hashed C s.pending ∧ ∃ peer proof id, Verified C s.pending s.record peer proof id ∧
    ⟨Engine.proofAad proof.t proof.role, proof.ct.1⟩ ∈ a.opened

theorem inv_init (available : Bool) : Inv C (init available) where
  hashed := fun _ h => nomatch h
  proof := fun _ _ h => nomatch h
  seen := fun _ h => nomatch h

/-- Two attempts with the same offers. -/
structure SameOffers (p p' : PendingPair) : Prop where
  ownOffer : p'.ownOffer = p.ownOffer
  peerOffer : p'.peerOffer = p.peerOffer
  transcript : p'.transcript = p.transcript
  ownRole : p'.ownRole = p.ownRole

/-- Two attempts that differ in what no import has brought. -/
structure Same (p p' : PendingPair) : Prop extends SameOffers p p' where
  peerProof : p'.peerProof = p.peerProof

theorem Same.refl (p : PendingPair) : Same p p := ⟨⟨rfl, rfl, rfl, rfl⟩, rfl⟩

theorem Hashed.mono {p p' : PendingPair} (h : a.Hashed C p) (hs : SameOffers p p')
    (hsub : a.hashed ⊆ a'.hashed) : a'.Hashed C p' := by
  refine ⟨hs.ownRole ▸ h.role, fun q t hq ht => ?_⟩
  rw [hs.peerOffer] at hq
  rw [hs.transcript] at ht
  rw [hs.ownOffer]
  exact ⟨hsub (h.transcript q t hq ht).1, (h.transcript q t hq ht).2⟩

theorem orderPayloads_injective {own q q' : Bytes offerLen}
    (h : Engine.orderPayloads own q = Engine.orderPayloads own q') : q = q' := by
  unfold Engine.orderPayloads at h
  split at h
  · split at h
    · exact congrArg Prod.snd h
    · exact (congrArg Prod.snd h).trans (congrArg Prod.fst h)
  · split at h
    · exact (congrArg Prod.fst h).trans (congrArg Prod.snd h)
    · exact congrArg Prod.fst h

theorem proofAad_injective {t t' : Bytes 32} {r r' : UInt8}
    (h : Engine.proofAad t r = Engine.proofAad t' r') : t = t' ∧ r = r' := by
  obtain ⟨ht, hr⟩ := List.append_inj h (t.2.trans t'.2.symm)
  exact ⟨Subtype.ext ht, (List.cons.inj hr).1⟩

/-- The operations by which the records of a peer and offers of ours come in. -/
def assembles : Op → Bool
  | .pairOffer .. => true
  | .pairImport .. => true
  | _ => false

/-- Every other operation but a restore leaves of an attempt what was there. -/
theorem same_moves (hm : Moves C e op e' out) (hop : op.keeps = true) (ha : assembles op = false) :
    ∀ p', e'.pending = some p' → ∃ p, e.pending = some p ∧ Same p p' := by
  intro p' hp'
  have keep (h : Kept e e') : ∃ p, e.pending = some p ∧ Same p p' := by
    rcases h.pending with heq | hn
    · exact ⟨p', heq ▸ hp', .refl p'⟩
    · exact nomatch hn.symm.trans hp'
  have self (h : e.pending = some p') : ∃ p, e.pending = some p ∧ Same p p' := ⟨p', h, .refl p'⟩
  cases hm with
  | quiet h _ => exact keep h.toKept
  | pairing h =>
      cases h with
      | offered _ _ => cases ha
      | offer _ _ => cases ha
      | proof _ _ => cases ha
      | ownProof hp _ _ h =>
          obtain ⟨-, keys, ct, hct, record, -, -, -, -, rfl⟩ := freshProof_spec h
          obtain rfl := Option.some.inj hp'
          exact ⟨_, (livePending_ok hp).1, ⟨⟨rfl, rfl, rfl, rfl⟩, rfl⟩⟩
      | ownConfirm hp _ _ h =>
          obtain ⟨ownProof, peerProof, root, record, -, -, -, -, -, rfl⟩ := freshConfirm_spec h
          obtain rfl := Option.some.inj hp'
          exact ⟨_, (livePending_ok hp).1, ⟨⟨rfl, rfl, rfl, rfl⟩, rfl⟩⟩
  | restage _ h _ _ _ _ => exact keep h.toKept
  | setTime _ _ h _ _ _ _ _ => exact keep h
  | sendBegin _ _ _ _ => exact self hp'
  | sendEmit _ _ _ h _ _ _ _ => exact keep h.toKept
  | retry => exact self hp'
  | recvData _ _ _ _ h _ _ => exact keep h.toKept
  | recvAck _ _ _ _ _ h _ _ _ => exact keep h.toKept
  | delete _ _ h _ _ _ => exact keep h.toKept
  | block _ _ h _ _ _ => exact keep h.toKept
  | activate _ _ _ _ _ => cases ha
  | commitOk =>
      unfold Engine.commitOk at hp'
      split at hp'
      · exact self hp'
      · cases hp'
      · exact self hp'
  | discard => exact self hp'
  | restore _ => cases hop

/-- An offer of ours leaves the attempt, or starts the next with nothing of a peer in it. -/
theorem offer_step (x y z : Bytes 32) (n : ℕ) :
    let r := step C e (.pairOffer x y z)
    r.1 = e ∧ attemptAfter e n (.pairOffer x y z) r.2 = n ∨
      ∃ slot, r.1.pending = some (e.startedPair C x y z slot) := by
  dsimp only [step, answer]
  cases h : e.pairOffer C x y z with
  | error err => exact .inl ⟨rfl, rfl⟩
  | ok v =>
      obtain ⟨e', r⟩ := v
      simp only [Engine.pairOffer, bind_eq_ok] at h
      obtain ⟨-, -, -, -, h⟩ := h
      have fresh (h : e.freshOffer C x y z = .ok (e', r)) :
          ∃ slot, e'.pending = some (e.startedPair C x y z slot) := by
        obtain ⟨-, slot, -, rfl, -⟩ := freshOffer_spec h
        exact ⟨slot, rfl⟩
      split at h
      · rename_i p hp
        split at h
        · exact .inr (fresh h)
        · rename_i hx
          simp only [pure_eq_ok, Prod.mk.injEq] at h
          obtain ⟨rfl, -⟩ := h
          refine .inl ⟨rfl, ?_⟩
          have hlive : e.livePending = .ok p := by
            simp only [Engine.livePending, bind_eq_ok, okOr_eq_ok, require_eq_ok, pure_eq_ok]
            exact ⟨p, hp, (), by rw [Bool.eq_false_of_not_eq_true hx]; rfl, rfl⟩
          simp only [settle, attemptAfter, hlive]
      · exact .inr (fresh h)

/-- An import that goes through, and what it puts down. -/
theorem next_import {record : List UInt8} {replace sasMatch : Bool} {o : PairImportOutcome}
    (h : a.engine.pairImportSas C record replace sasMatch = .ok (e', o))
    (hp : a.engine.pending = some p) :
    a.next C (.pairImport record replace sasMatch) =
      imported { a with engine := e' } p record o.step := by
  simp only [next, step, answer, h, hp, settle, attemptAfter]

theorem hashed_withOffer {own offer : Offer} {slot : Slot} {replace : Bool} {record : List UInt8}
    (hd : decodeOfferRecord record = .ok offer)
    (hsub : (p.hashedOffers record).toList ⊆ a'.hashed) :
    a'.Hashed C (p.withOffer C own.edPub offer slot replace) := by
  refine ⟨roleFor_le _ _, fun q t hq ht => ?_⟩
  obtain rfl := Option.some.inj hq
  obtain rfl := Option.some.inj ht
  refine ⟨hsub ?_, rfl⟩
  rw [PendingPair.hashedOffers, hd]
  exact List.mem_singleton.mpr rfl

/-- A decoded proof in another role than ours is in the opposite one. -/
theorem Hashed.roles {record : List UInt8} {proof : Proof} (h : a.Hashed C p)
    (hd : decodeProof record = .ok proof) (hne : proof.role ≠ p.ownRole) :
    p.ownRole = roleL ∧ proof.role = roleR ∨ p.ownRole = roleR ∧ proof.role = roleL := by
  rcases h.role, decodeProof_role hd with ⟨h | h, h' | h'⟩
  · exact absurd (h'.trans h.symm) hne
  · exact .inl ⟨h, h'⟩
  · exact .inr ⟨h, h'⟩
  · exact absurd (h'.trans h.symm) hne

/-- An imported proof, against the attempt it goes into. -/
theorem verified_import {record : List UInt8} {o : PairImportOutcome} (hh : a.Hashed C p)
    (h : e.importProof C p record = .ok (e', o)) :
    ∃ peer proof id, Verified C p record peer proof id ∧
      ⟨Engine.proofAad proof.t proof.role, proof.ct.1⟩ ∈ (p.openedProof record).toList := by
  obtain ⟨proof, t, payload, peer, keys, pt, hd, ht, rfl, hrole, hpay, hpeer, hsig, hkeys, hdec, -, -, -, id,
    -, rfl, -⟩ := importProof_spec h
  refine ⟨peer, proof, id, ⟨hd, ht, hh.roles hd hrole, ?_, hsig, keys, hkeys, hdec⟩, ?_⟩
  · rw [hpay, Option.some.injEq]
    exact Subtype.ext (encodeOfferPayload_decode hpeer).symm
  · rw [PendingPair.openedProof, hd, ht]
    exact List.mem_singleton.mpr rfl

/-- What was seen stays seen as more is put down. -/
theorem Inv.seen_mono (h : Inv C a) (a' : Trust) (hsub : a.hashed ⊆ a'.hashed) (hopen : a.opened ⊆ a'.opened) :
    ∀ s ∈ a.seen, a'.Hashed C s.pending ∧ ∃ peer proof id, Verified C s.pending s.record peer proof id ∧
      ⟨Engine.proofAad proof.t proof.role, proof.ct.1⟩ ∈ a'.opened := by
  intro s hs
  obtain ⟨hh, peer, proof, id, hv, ho⟩ := h.seen s hs
  exact ⟨hh.mono (Same.refl _).toSameOffers hsub, peer, proof, id, hv, hopen ho⟩

/-- A pending attempt that only what `Same` leaves out has changed in, none having started. -/
theorem Inv.same (h : Inv C a) (a' : Trust) (hattempt : a'.attempt = a.attempt) (hseen : a.seen ⊆ a'.seen)
    (hsub : a.hashed ⊆ a'.hashed)
    (hsame : ∀ p', a'.engine.pending = some p' → ∃ p, a.engine.pending = some p ∧ Same p p') :
    (∀ p, a'.engine.pending = some p → a'.Hashed C p) ∧
      ∀ p r, a'.engine.pending = some p → p.peerProof = some r →
        ∃ s ∈ a'.seen, s.attempt = a'.attempt ∧ s.record = r.1 ∧ s.pending.ownOffer = p.ownOffer := by
  refine ⟨fun p' hp' => ?_, fun p' r hp' hr => ?_⟩
  · obtain ⟨p, hp, hs⟩ := hsame p' hp'
    exact (h.hashed p hp).mono hs.toSameOffers hsub
  · obtain ⟨p, hp, hs⟩ := hsame p' hp'
    obtain ⟨s, hmem, hatt, hrec, hown⟩ := h.proof p r hp (hs.peerProof ▸ hr)
    exact ⟨s, hseen hmem, hatt.trans hattempt.symm, hrec, hown.trans hs.ownOffer.symm⟩

/-- An imported offer. -/
theorem Inv.needProof (h : Inv C a) (hp : a.engine.pending = some p) {record : List UInt8}
    {own offer : Offer} {slot : Slot} {replace : Bool} (hd : decodeOfferRecord record = .ok offer)
    (he : e'.pending = some (p.withOffer C own.edPub offer slot replace)) :
    Inv C (imported { a with engine := e' } p record .needProof) := by
  refine ⟨fun p' hp' => ?_, fun p' r hp' hr => ?_,
    h.seen_mono _ (List.subset_append_left _ _) (List.Subset.refl _)⟩
  · obtain rfl := Option.some.inj (he.symm.trans hp')
    exact hashed_withOffer hd (List.subset_append_right _ _)
  · obtain rfl := Option.some.inj (he.symm.trans hp')
    exact h.proof p r hp hr

/-- An imported proof. -/
theorem Inv.needConfirm (h : Inv C a) (hp : a.engine.pending = some p) {r : Bytes proofRecordLen}
    {cached : Bytes 8} {o : PairImportOutcome} (hi : e.importProof C p r.1 = .ok (e', o))
    (he : e'.pending = some { p with peerProof := some r, peerIdentity := some cached }) :
    Inv C (imported { a with engine := e' } p r.1 .needConfirm) := by
  obtain ⟨peer, proof, id, hv, hopen⟩ := verified_import (h.hashed p hp) hi
  have hseen := h.seen_mono (imported { a with engine := e' } p r.1 .needConfirm)
    (List.Subset.refl _) (List.subset_append_left _ _)
  refine ⟨fun p' hp' => ?_, fun p' r' hp' hr => ?_, fun s hs => ?_⟩
  · obtain rfl := Option.some.inj (he.symm.trans hp')
    exact (h.hashed p hp).mono ⟨rfl, rfl, rfl, rfl⟩ (List.Subset.refl _)
  · obtain rfl := Option.some.inj (he.symm.trans hp')
    obtain rfl := Option.some.inj hr
    exact ⟨⟨a.attempt, p, _⟩, List.mem_append_right _ (List.mem_singleton.mpr rfl), rfl, rfl, rfl⟩
  · rcases List.mem_append.mp hs with hs | hs
    · exact hseen s hs
    · obtain rfl := List.mem_singleton.mp hs
      exact ⟨(h.hashed p hp).mono (Same.refl _).toSameOffers (List.Subset.refl _), peer, proof, id, hv,
        List.mem_append_right _ hopen⟩

/-- An imported confirmation. -/
theorem Inv.active (h : Inv C a) (record : List UInt8) (he : e'.pending = a.engine.pending) :
    Inv C (imported { a with engine := e' } p record .active) := by
  obtain ⟨hhash, hproof⟩ := h.same (imported { a with engine := e' } p record .active) rfl
    (List.Subset.refl _) (List.Subset.refl _) fun p' hp' => ⟨p', he.symm.trans hp', .refl p'⟩
  exact ⟨hhash, hproof, h.seen_mono _ (List.Subset.refl _) (List.subset_append_left _ _)⟩

theorem Inv.imported (h : Inv C a) {record : List UInt8} {replace sasMatch : Bool}
    {o : PairImportOutcome}
    (hi : a.engine.pairImportSas C record replace sasMatch = .ok (e', o)) :
    Inv C (a.next C (.pairImport record replace sasMatch)) := by
  obtain ⟨-, -, p, hlive, hcase⟩ := pairImportSas_spec hi
  have hp := (livePending_ok hlive).1
  rw [next_import hi hp]
  rcases hcase with hcase | hcase | ⟨-, hcase⟩
  · obtain ⟨offer, own, slot, hd, -, -, -, -, -, ho, he⟩ := importOffer_spec hcase
    rw [ho]
    exact h.needProof hp hd (congrArg Engine.pending he)
  · obtain ⟨-, -, -, -, -, -, -, -, -, -, -, -, -, -, -, -, ho, r, cached, rfl, -, he⟩ :=
      importProof_spec hcase
    rw [ho]
    exact h.needConfirm hp hcase (congrArg Engine.pending he)
  · obtain ⟨c, -, he, rfl⟩ := importConfirm_spec hcase
    exact h.active record (by rw [he]; rfl)

/-- An operation but a restore keeps the invariant. -/
theorem inv_step (h : Inv C a) (hop : op.keeps = true) : Inv C (a.next C op) := by
  have other (ha : assembles op = false)
      (hn : a.next C op = { a with engine := (step C a.engine op).1 }) : Inv C (a.next C op) := by
    rw [hn]
    obtain ⟨hhash, hproof⟩ := h.same { a with engine := (step C a.engine op).1 } rfl
      (List.Subset.refl _) (List.Subset.refl _) (same_moves (step_moves C a.engine op) hop ha)
    exact ⟨hhash, hproof, h.seen_mono _ (List.Subset.refl _) (List.Subset.refl _)⟩
  cases op with
  | pairImport record replace sasMatch =>
      cases hi : a.engine.pairImportSas C record replace sasMatch with
      | error x =>
          have hn : a.next C (.pairImport record replace sasMatch) = a := by
            simp only [next, step, answer, hi, settle, attemptAfter]
          rw [hn]
          exact h
      | ok v => exact h.imported hi
  | pairOffer x y z =>
      rcases offer_step (C := C) (e := a.engine) x y z a.attempt with ⟨he, ha⟩ | ⟨slot, hp⟩
      · have hn : a.next C (.pairOffer x y z) = a := by
          simp only [next, he, ha]
        rw [hn]
        exact h
      · refine ⟨fun p' hp' => ?_, fun p' r hp' hr => ?_,
          h.seen_mono _ (List.Subset.refl _) (List.Subset.refl _)⟩
        · obtain rfl := Option.some.inj (hp.symm.trans hp')
          exact ⟨.inl rfl, fun _ _ hq => nomatch hq⟩
        · obtain rfl := Option.some.inj (hp.symm.trans hp')
          cases hr
  | _ => exact other rfl rfl

/-- The proof behind an activation is one of the same attempt and of the current peer offer. -/
theorem Inv.vouched (h : Inv C a) (hp : a.engine.pending = some p) {record : List UInt8}
    {c : Engine.Confirmed} (hc : Engine.checkConfirm C p record = .ok c)
    (hi : (a.imported p record .active).Ideal C) :
    ∃ s ∈ a.seen, s.attempt = a.attempt ∧ s.pending.peerOffer = p.peerOffer ∧
      s.pending.transcript = p.transcript ∧
      ∃ peer proof, Verified C p s.record peer proof c.peerId ∧ c.peerEd = peer.edPub := by
  obtain ⟨conf, -, r, proof, keys, payload, peer, hconf, ht, -, hrole, -, hr, -, -, -, hd, hkeys, hdec, hpay,
    hpeer, hed⟩ := checkConfirm_spec hc
  obtain ⟨s, hs, hatt, hrec, hown⟩ := h.proof p r hp hr
  obtain ⟨hh, peer', proof', id, hv, hopen⟩ := h.seen s hs
  obtain rfl : proof' = proof := by
    have := hv.decoded
    rw [hrec, hd] at this
    exact (Except.ok.inj this).symm
  -- the stored proof is opened again, under the current transcript
  have hopen' : ⟨Engine.proofAad c.t conf.role, proof'.ct.1⟩ ∈ (p.openedConfirm record).toList := by
    rw [PendingPair.openedConfirm, hconf, ht, hr]
    simp only [Except.toOption, Option.bind_eq_bind, Option.bind_some, hd]
    exact List.mem_singleton.mpr rfl
  obtain ⟨htt, hroles⟩ := proofAad_injective
    (hi.opens _ (List.mem_append_right _ hopen') _ (List.mem_append_left _ hopen) rfl)
  obtain ⟨hmem, hdig⟩ := (h.hashed p hp).transcript payload c.t hpay ht
  obtain ⟨hmem', hdig'⟩ := hh.transcript _ _ hv.offer hv.transcript
  -- so the offers are the same, and the key that verified the proof is the one installed
  have hlr := hi.hashes _ hmem _ hmem' (by rw [← hdig, ← hdig', htt])
  rw [hown] at hlr
  have hpayload := orderPayloads_injective hlr
  have hoffer : s.pending.peerOffer = p.peerOffer := by rw [hv.offer, hpay, hpayload]
  obtain rfl : peer = peer' := by
    rw [hpayload, decodeOfferPayload_encode] at hpeer
    exact (Except.ok.inj hpeer).symm
  refine ⟨s, hs, hatt, hoffer, by rw [hv.transcript, ht, htt], peer, proof',
    ⟨hv.decoded, by rw [ht, htt], (h.hashed p hp).roles hv.decoded (hroles ▸ hrole), hoffer ▸ hv.offer,
      hv.signed, keys, ?_, ?_⟩, hed⟩
  · rw [← htt]; exact hkeys
  · rw [← htt, ← hroles]; exact hdec

/-- A contact that appears has passed the gate. -/
theorem Inv.gate (h : Inv C a) (hop : op.keeps = true) (hi : (a.next C op).Ideal C) {i : Slot}
    (habs : (a.engine.contacts i).present = false)
    (hpres : ((step C a.engine op).1.contacts i).present = true) :
    a.Gate C op i ((step C a.engine op).1.contacts i) := by
  rcases slot_moves (step_moves C a.engine op) hop i with hcar | ⟨habs', -⟩ | ⟨hact, -⟩
  · cases habs.symm.trans hcar.present
  · cases habs'.symm.trans hpres
  obtain ⟨hconf, -, p, hp, hid⟩ := Attempts.activated_confirm (step_moves C a.engine op) hact
  obtain rfl := Engine.contactId_injective hid
  unfold Attempts.importsConfirm at hconf
  split at hconf
  swap
  · cases hconf
  rename_i type rest replace
  obtain rfl : type = recordConfirm := eq_of_beq hconf
  cases hstep : a.engine.pairImportSas C (recordConfirm :: rest) replace true with
  | error x =>
      rw [step, hstep] at hact
      cases hact
  | ok v =>
      obtain ⟨e', o⟩ := v
      have hs : step C a.engine (.pairImport (recordConfirm :: rest) replace true) =
          (e', .imported (.ok o)) := by
        simp only [step, hstep, settle, answer]
      rw [hs] at hact hpres ⊢
      obtain ⟨hu, hr, q, hlive, hcase⟩ := pairImportSas_spec hstep
      obtain ⟨hq, hx⟩ := livePending_ok hlive
      obtain rfl := Option.some.inj (hp.symm.trans hq)
      rw [next_import hstep hp] at hi
      rcases hcase with hcase | hcase | ⟨-, hcase⟩
      · obtain ⟨-, -, -, -, -, -, -, -, ho, -⟩ := importOffer_spec hcase
        cases ho.symm.trans hact
      · obtain ⟨-, -, -, -, -, -, -, -, -, -, -, -, -, -, -, ho, -⟩ := importProof_spec hcase
        cases ho.symm.trans hact
      · obtain ⟨c, hc, rfl, rfl⟩ := importConfirm_spec hcase
        obtain ⟨hf, hprov⟩ := checkUsable_ok hu
        refine ⟨⟨rest, replace, rfl⟩, hprov, hf, hr, p, hp, hx, rfl, ?_⟩
        have hcontact : (((a.engine.activateContact C p.slot c.peerEd c.peerId c.root
            p.ownRole).stagePersist (.pairActivate p.slot)).contacts p.slot) =
            Engine.activatedContact C c.peerEd c.peerId c.root p.ownRole a.engine.epoch :=
          Function.update_self ..
        rw [hcontact]
        exact h.vouched hp hc ⟨hi.opens, hi.hashes⟩

end

end Trust

/-- Over any operations but a restore a contact appears only by the import of a confirmation the
operator has compared, on a usable engine with the radio off and a live attempt; and only if a proof
imported in that attempt, into the current offer and transcript and in the opposite role, verified
under the key that the contact gets. -/
theorem trust_gate (C : Crypto) (available : Bool) (ops : List Op) (op : Op)
    (hops : ∀ o ∈ ops, o.keeps = true) (hop : op.keeps = true) :
    let a := run (Trust.next C) (.init available) ops
    (a.next C op).Ideal C → ∀ i, (a.engine.contacts i).present = false →
      ((step C a.engine op).1.contacts i).present = true →
      a.Gate C op i ((step C a.engine op).1.contacts i) := by
  have hrun : Along (Trust.next C) (fun _ o => o.keeps = true) (.init available) ops :=
    along_of_forall hops
  have hinv := run_invariant (I := Trust.Inv C) (fun _ _ h ho => Trust.inv_step h ho) ops
    (Trust.inv_init available) hrun
  exact fun hi i habs hpres => hinv.gate hop hi habs hpres

/-- The import of the confirmation of the other device by device `n`. -/
def Sample.confirmation (n : ℕ) : Op :=
  .pairImport (exported (peer n) (proofs (peer n)) .pairConfirm) false true

/-- The sample pairing passes the gate. -/
theorem trust_gate_sample :
    let a := run (Trust.next Sample.crypto) (.init true)
      (Sample.setup 1 ++ Sample.proofs 1 ++ [.pairConfirm])
    a.Gate Sample.crypto (Sample.confirmation 1) 0
      ((step Sample.crypto a.engine (Sample.confirmation 1)).1.contacts 0) :=
  trust_gate Sample.crypto true _ (Sample.confirmation 1) (by decide +kernel) rfl
    ⟨by decide +kernel, by decide +kernel⟩ 0 (by decide +kernel) (by decide +kernel)

end LoraMesh
