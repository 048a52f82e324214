import LoraMesh.Engine.Trust

/-!
# Engine — Coherence

What a pending attempt has cached of its proofs and confirmations, against its current offers.

* `stale_export`: after a second peer offer in one attempt the proof exported is still the one made
  for the first.
* `exports_current`: while no other offer is imported over cached records, everything cached belongs
  to the current transcript, peer offer and role, and so does every record exported.
-/

namespace LoraMesh

/-- An engine, and the transcript that the last offer imported gave. -/
structure Reporting where
  engine : Engine
  transcript : Option (Bytes 32)

namespace Reporting

def init (available : Bool) : Reporting := ⟨.new available, none⟩

/-- The transcript after an answer: an accepted offer reports that of the attempt. -/
def reported (e' : Engine) (last : Option (Bytes 32)) : Op → Output → Option (Bytes 32)
  | .pairImport .., .imported (.ok o) =>
    if o.step = .needProof then e'.pending.bind (·.transcript) else last
  | _, _ => last

/-- One operation. -/
def next (C : Crypto) (a : Reporting) (op : Op) : Reporting :=
  let r := step C a.engine op
  { engine := r.1, transcript := reported r.1 a.transcript op r.2 }

/-- What is cached belongs to the current transcript, peer offer and role. -/
structure Coherent (C : Crypto) (p : PendingPair) : Prop where
  offer : ∀ q, p.peerOffer = some q →
    p.transcript = some (transcriptT C (Engine.orderPayloads p.ownOffer q).1
      (Engine.orderPayloads p.ownOffer q).2) ∧
    ∀ own peer, decodeOfferPayload p.ownOffer.1 = .ok own → decodeOfferPayload q.1 = .ok peer →
      p.ownRole = roleFor own.edPub peer.edPub
  role : p.ownRole = roleL ∨ p.ownRole = roleR
  ownProof : ∀ r, p.ownProof = some r → ∃ t uid priv ct, ∃ keys, ∃ (hct : ct.length = proofCtLen),
    p.transcript = some t ∧ Engine.setupKeys C p t = .ok keys ∧
      encryptData C (Engine.setupKey keys p.ownRole) Engine.setupNonce (Engine.proofAad t p.ownRole)
        uid proofCtLen = .ok ct ∧
      encodeProof ⟨t, p.ownRole, ⟨ct, hct⟩, C.edSign priv (Engine.proofMessage t p.ownRole ct)⟩ = .ok r
  peerProof : ∀ r, p.peerProof = some r →
    ∃ peer proof id, Trust.Verified C p r.1 peer proof id ∧ p.peerIdentity = some id
  peerIdentity : p.peerIdentity.isSome = true → p.peerProof.isSome = true
  ownConfirm : ∀ r, p.ownConfirm = some r → ∃ t root digest, p.transcript = some t ∧
    Engine.pairRoot C p t = .ok root ∧
    encodeConfirmation ⟨t, p.ownRole, Engine.confirmMac C root t p.ownRole digest⟩ = .ok r

/-- The record that an answer exports. -/
def exported : Op → Output → Option (List UInt8)
  | .pairProof, .record (.ok r) => some r
  | .pairConfirm, .record (.ok r) => some r
  | _, _ => none

/-- The transcript that a proof or confirmation record names. -/
def recordTranscript (r : List UInt8) : Option (Bytes 32) :=
  match decodeProof r with
  | .ok proof => some proof.t
  | .error _ =>
    match decodeConfirmation r with
    | .ok conf => some conf.t
    | .error _ => none

/-- An exported record names the last transcript reported. -/
def Exports (a : Reporting) (op : Op) (out : Output) : Prop :=
  ∀ r, exported op out = some r → recordTranscript r = a.transcript ∧ a.transcript.isSome = true

/-- An imported offer is the same once more, or finds nothing cached. -/
def keepsOffer (a : Reporting) (op : Op) : Bool :=
  match op, a.engine.pending with
  | .pairImport record _ _, some p =>
    match decodeOfferRecord record with
    | .ok o =>
      p.peerOffer == some (encodeOfferPayload o) ||
        (p.ownProof.isNone && p.peerProof.isNone && p.peerIdentity.isNone && p.ownConfirm.isNone)
    | .error _ => true
  | _, _ => true

variable {C : Crypto} {a : Reporting} {e e' : Engine} {op : Op} {out : Output} {p : PendingPair}

/-- An attempt with nothing cached is coherent once its offers are. -/
theorem coherent_of_none
    (offer : ∀ q, p.peerOffer = some q →
      p.transcript = some (transcriptT C (Engine.orderPayloads p.ownOffer q).1
        (Engine.orderPayloads p.ownOffer q).2) ∧
      ∀ own peer, decodeOfferPayload p.ownOffer.1 = .ok own → decodeOfferPayload q.1 = .ok peer →
        p.ownRole = roleFor own.edPub peer.edPub)
    (role : p.ownRole = roleL ∨ p.ownRole = roleR) (h₁ : p.ownProof = none) (h₂ : p.peerProof = none)
    (h₃ : p.peerIdentity = none) (h₄ : p.ownConfirm = none) : Coherent C p where
  offer := offer
  role := role
  ownProof := fun r hr => nomatch h₁.symm.trans hr
  peerProof := fun r hr => nomatch h₂.symm.trans hr
  peerIdentity := fun hi => by rw [h₃] at hi; cases hi
  ownConfirm := fun r hr => nomatch h₄.symm.trans hr

/-- An imported offer: the one that was there, or into an attempt with nothing cached. -/
theorem coherent_offer (h : Coherent C p) {own offer : Offer} {slot : Slot} {replace : Bool}
    (hown : decodeOfferPayload p.ownOffer.1 = .ok own)
    (hk : p.peerOffer = some (encodeOfferPayload offer) ∨
      p.ownProof = none ∧ p.peerProof = none ∧ p.peerIdentity = none ∧ p.ownConfirm = none) :
    Coherent C (p.withOffer C own.edPub offer slot replace) := by
  have hoffer : ∀ q, some (encodeOfferPayload offer) = some q →
      (p.withOffer C own.edPub offer slot replace).transcript =
        some (transcriptT C (Engine.orderPayloads p.ownOffer q).1
          (Engine.orderPayloads p.ownOffer q).2) ∧
      ∀ own' peer, decodeOfferPayload p.ownOffer.1 = .ok own' → decodeOfferPayload q.1 = .ok peer →
        (p.withOffer C own.edPub offer slot replace).ownRole = roleFor own'.edPub peer.edPub := by
    intro q hq
    obtain rfl := Option.some.inj hq
    refine ⟨rfl, fun own' peer hown' hpeer => ?_⟩
    obtain rfl := Except.ok.inj (hown.symm.trans hown')
    obtain rfl := Except.ok.inj ((decodeOfferPayload_encode offer).symm.trans hpeer)
    rfl
  rcases hk with hsame | ⟨h₁, h₂, h₃, h₄⟩
  · -- the same offer gives the same transcript and role
    obtain ⟨ht, hroles⟩ := h.offer _ hsame
    have hrole := hroles own offer hown (decodeOfferPayload_encode offer)
    have heq : p.withOffer C own.edPub offer slot replace = { p with slot, replace } := by
      obtain ⟨⟩ := p
      dsimp only at hsame ht hrole
      subst hsame ht hrole
      rfl
    rw [heq]
    exact ⟨h.offer, h.role, h.ownProof, fun r hr => by
      obtain ⟨peer, proof, id, hv, hid⟩ := h.peerProof r hr
      exact ⟨peer, proof, id, ⟨hv.decoded, hv.transcript, hv.roles, hv.offer, hv.signed, hv.identity⟩,
        hid⟩, h.peerIdentity, h.ownConfirm⟩
  · exact coherent_of_none hoffer (roleFor_le _ _) h₁ h₂ h₃ h₄

/-- Our proof, made under the current offers. -/
theorem coherent_ownProof (h : Coherent C p) {t : Bytes 32} (ht : p.transcript = some t)
    {r : List UInt8} (hf : e.freshProof C p t = .ok (e', r)) :
    ∃ p', e' = { e with pending := some p' } ∧ Coherent C p' ∧ p'.transcript = p.transcript ∧
      recordTranscript r = some t := by
  obtain ⟨-, keys, ct, hct, record, hkeys, henc, hrecord, rfl, rfl⟩ := freshProof_spec hf
  refine ⟨_, rfl, ⟨h.offer, h.role, fun r hr => ?_, fun r hr => ?_, h.peerIdentity, h.ownConfirm⟩, rfl, ?_⟩
  · obtain rfl := Option.some.inj hr
    exact ⟨t, _, _, ct, keys, hct, ht, hkeys, henc, hrecord⟩
  · obtain ⟨peer, proof, id, hv, hid⟩ := h.peerProof r hr
    exact ⟨peer, proof, id, ⟨hv.decoded, hv.transcript, hv.roles, hv.offer, hv.signed, hv.identity⟩, hid⟩
  · rw [recordTranscript, decodeProof_encode hrecord]

/-- A confirmation record is no proof. -/
theorem decodeProof_confirmation (r : Bytes confirmRecordLen) : decodeProof r.1 = .error .badLength := by
  have hlen : r.1.length ≠ proofRecordLen := by
    rw [r.2]
    decide
  unfold decodeProof
  rw [dif_pos hlen]

/-- Our confirmation, made under the current offers. -/
theorem coherent_ownConfirm (h : Coherent C p) {t : Bytes 32} (ht : p.transcript = some t)
    {r : List UInt8} (hf : e.freshConfirm C p t = .ok (e', r)) :
    ∃ p', e' = { e with pending := some p' } ∧ Coherent C p' ∧ p'.transcript = p.transcript ∧
      recordTranscript r = some t := by
  obtain ⟨ownProof, peerProof, root, record, -, -, hroot, hrecord, rfl, rfl⟩ := freshConfirm_spec hf
  refine ⟨_, rfl, ⟨h.offer, h.role, h.ownProof, fun r hr => ?_, h.peerIdentity, fun r hr => ?_⟩, rfl, ?_⟩
  · obtain ⟨peer, proof, id, hv, hid⟩ := h.peerProof r hr
    exact ⟨peer, proof, id, ⟨hv.decoded, hv.transcript, hv.roles, hv.offer, hv.signed, hv.identity⟩, hid⟩
  · obtain rfl := Option.some.inj hr
    exact ⟨t, root, _, ht, hroot, hrecord⟩
  · rw [recordTranscript, decodeProof_confirmation, decodeConfirmation_encode hrecord]

/-- The peer's proof, checked against the current offers. -/
theorem coherent_proof (h : Coherent C p) {record : List UInt8} {o : PairImportOutcome}
    (hi : e.importProof C p record = .ok (e', o)) :
    ∃ p', e' = { e with pending := some p' } ∧ Coherent C p' ∧ p'.transcript = p.transcript := by
  obtain ⟨proof, t, payload, peer, keys, pt, hd, ht, rfl, hrole, hpay, hpeer, hsig, hkeys, hdec, -, -, r, id,
    rfl, rfl, rfl⟩ := importProof_spec hi
  refine ⟨_, rfl, ⟨h.offer, h.role, h.ownProof, fun r' hr => ?_, fun _ => rfl, h.ownConfirm⟩, rfl⟩
  obtain rfl := Option.some.inj hr
  have hoffer : p.peerOffer = some (encodeOfferPayload peer) := by
    rw [hpay, Option.some.injEq]
    exact Subtype.ext (encodeOfferPayload_decode hpeer).symm
  have hroles : p.ownRole = roleL ∧ proof.role = roleR ∨ p.ownRole = roleR ∧ proof.role = roleL := by
    rcases h.role, decodeProof_role hd with ⟨h | h, h' | h'⟩
    · exact absurd (h'.trans h.symm) hrole
    · exact .inl ⟨h, h'⟩
    · exact .inr ⟨h, h'⟩
    · exact absurd (h'.trans h.symm) hrole
  exact ⟨peer, proof, id, ⟨hd, ht, hroles, hoffer, hsig, keys, hkeys, hdec⟩, rfl⟩

/-- The invariant of a run. -/
structure Inv (C : Crypto) (a : Reporting) : Prop where
  coherent : ∀ p, a.engine.pending = some p → Coherent C p
  agrees : ∀ p t, a.engine.pending = some p → p.transcript = some t → a.transcript = some t

theorem inv_init (available : Bool) : Inv C (init available) :=
  ⟨fun _ h => (nomatch h), fun _ _ h => nomatch h⟩

/-- An answer reports the transcript of the attempt it leaves, or nothing new. -/
theorem reported_cases (e' : Engine) (last : Option (Bytes 32)) (op : Op) (out : Output) :
    reported e' last op out = last ∨ reported e' last op out = e'.pending.bind (·.transcript) := by
  unfold reported
  split
  · split
    · exact .inr rfl
    · exact .inl rfl
  · exact .inl rfl

/-- A coherent attempt whose transcript was there before, or is reported. -/
theorem inv_of_pending {p' : PendingPair} (hp : e'.pending = some p') (hc : Coherent C p')
    (ht : ∀ t, p'.transcript = some t →
      a.transcript = some t ∨ reported e' a.transcript op out = e'.pending.bind (·.transcript)) :
    Inv C ⟨e', reported e' a.transcript op out⟩ := by
  refine ⟨fun p hp' => Option.some.inj (hp.symm.trans hp') ▸ hc, fun p t hp' htp => ?_⟩
  obtain rfl := Option.some.inj (hp.symm.trans hp')
  have hbind : e'.pending.bind (·.transcript) = some t := by
    rw [hp]
    exact htp
  rcases reported_cases e' a.transcript op out with hr | hr
  · rcases ht t htp with ht | ht
    · exact hr.trans ht
    · exact ht.trans hbind
  · exact hr.trans hbind

/-- What is pending after an answer is coherent, and its transcript the last reported. -/
theorem Inv.moved (h : Inv C a) (hk : a.keepsOffer op = true) (hm : Moves C a.engine op e' out) :
    Inv C ⟨e', reported e' a.transcript op out⟩ := by
  have keep (hn : e'.pending = a.engine.pending ∨ e'.pending = none) :
      Inv C ⟨e', reported e' a.transcript op out⟩ := by
    cases hp : e'.pending with
    | none =>
        exact ⟨fun p hp' => (nomatch hp.symm.trans hp'), fun p _ hp' => nomatch hp.symm.trans hp'⟩
    | some p =>
        have hp₀ : a.engine.pending = some p := by
          rcases hn with hn | hn
          · exact hn ▸ hp
          · exact nomatch hn.symm.trans hp
        exact inv_of_pending hp (h.coherent p hp₀) fun t ht => .inl (h.agrees p t hp₀ ht)
  cases hm with
  | quiet hq _ => exact keep hq.pending
  | pairing hp =>
      cases hp with
      | offered _ hf =>
          obtain ⟨-, slot, -, rfl, -⟩ := freshOffer_spec hf
          refine inv_of_pending rfl (coherent_of_none ?_ (.inl rfl) rfl rfl rfl rfl) fun _ ht => ?_
          · exact fun _ hq => nomatch hq
          · cases ht
      | @offer record replace sasMatch p _ o hlive hi =>
          have hp := (livePending_ok hlive).1
          obtain ⟨offer, own, slot, hd, hown, -, -, -, -, ho, rfl⟩ := importOffer_spec hi
          refine inv_of_pending rfl (coherent_offer (h.coherent p hp) hown ?_) fun _ _ => .inr (if_pos ho)
          simp only [keepsOffer, hp, hd, Bool.or_eq_true, Bool.and_eq_true, beq_iff_eq,
            Option.isNone_iff_eq_none] at hk
          exact hk.imp id fun hk => ⟨hk.1.1.1, hk.1.1.2, hk.1.2, hk.2⟩
      | @proof record replace sasMatch p _ o hlive hi =>
          have hp := (livePending_ok hlive).1
          obtain ⟨p', rfl, hc, ht⟩ := coherent_proof (h.coherent p hp) hi
          exact inv_of_pending rfl hc fun t htp => .inl (h.agrees p t hp (ht ▸ htp))
      | @ownProof p t _ r hlive ht _ hf =>
          have hp := (livePending_ok hlive).1
          obtain ⟨p', rfl, hc, htt, -⟩ := coherent_ownProof (h.coherent p hp) ht hf
          exact inv_of_pending rfl hc fun t htp => .inl (h.agrees p t hp (htt ▸ htp))
      | @ownConfirm p t _ r hlive ht _ hf =>
          have hp := (livePending_ok hlive).1
          obtain ⟨p', rfl, hc, htt, -⟩ := coherent_ownConfirm (h.coherent p hp) ht hf
          exact inv_of_pending rfl hc fun t htp => .inl (h.agrees p t hp (htt ▸ htp))
  | restage _ hs _ _ _ _ => exact keep hs.pending
  | setTime _ _ hs _ _ _ _ _ => exact keep hs.pending
  | sendBegin _ _ _ _ => exact keep (.inl rfl)
  | sendEmit _ _ _ hs _ _ _ _ => exact keep hs.pending
  | retry => exact keep (.inl rfl)
  | recvData _ _ _ _ hs _ _ => exact keep hs.pending
  | recvAck _ _ _ _ _ hs _ _ _ => exact keep hs.pending
  | delete _ _ hs _ _ _ => exact keep hs.pending
  | block _ _ hs _ _ _ => exact keep hs.pending
  | activate _ _ _ _ _ => exact keep (.inl rfl)
  | commitOk =>
      refine keep ?_
      unfold Engine.commitOk
      split
      · exact .inl rfl
      · exact .inr rfl
      · exact .inl rfl
  | discard => exact keep (.inl rfl)
  | restore _ => exact keep (.inr rfl)

/-- The record that a proof or a confirmation of ours is exported as names the current transcript. -/
theorem Inv.exports (h : Inv C a) (op : Op) : a.Exports op (step C a.engine op).2 := by
  have known {p : PendingPair} {t : Bytes 32} (hp : a.engine.pending = some p)
      (ht : p.transcript = some t) : some t = a.transcript ∧ a.transcript.isSome = true := by
    rw [h.agrees p t hp ht]
    exact ⟨rfl, rfl⟩
  intro r hr
  cases op with
  | pairProof =>
      simp only [step, answer] at hr
      cases hx : a.engine.pairProof C with
      | error x => rw [hx] at hr; cases hr
      | ok v =>
          obtain ⟨e', r'⟩ := v
          rw [hx] at hr
          obtain rfl : r' = r := Option.some.inj hr
          simp only [Engine.pairProof, bind_eq_ok, okOr_eq_ok] at hx
          obtain ⟨-, -, -, -, p, hlive, t, ht, hx⟩ := hx
          have hp := (livePending_ok hlive).1
          split at hx
          · rename_i saved hsaved
            simp only [pure_eq_ok, Prod.mk.injEq] at hx
            obtain ⟨-, rfl⟩ := hx
            obtain ⟨t', uid, priv, ct, keys, hct, ht', -, -, hrec⟩ := (h.coherent p hp).ownProof saved hsaved
            rw [recordTranscript, decodeProof_encode hrec]
            exact known hp ht'
          · obtain ⟨-, -, -, -, hrec⟩ := coherent_ownProof (h.coherent p hp) ht hx
            rw [hrec]
            exact known hp ht
  | pairConfirm =>
      simp only [step, answer] at hr
      cases hx : a.engine.pairConfirm C with
      | error x => rw [hx] at hr; cases hr
      | ok v =>
          obtain ⟨e', r'⟩ := v
          rw [hx] at hr
          obtain rfl : r' = r := Option.some.inj hr
          simp only [Engine.pairConfirm, bind_eq_ok, okOr_eq_ok] at hx
          obtain ⟨-, -, -, -, p, hlive, t, ht, -, -, hx⟩ := hx
          have hp := (livePending_ok hlive).1
          split at hx
          · rename_i saved hsaved
            simp only [pure_eq_ok, Prod.mk.injEq] at hx
            obtain ⟨-, rfl⟩ := hx
            obtain ⟨t', root, digest, ht', -, hrec⟩ := (h.coherent p hp).ownConfirm saved hsaved
            rw [recordTranscript, decodeProof_confirmation]
            dsimp only
            rw [decodeConfirmation_encode hrec]
            exact known hp ht'
          · obtain ⟨-, -, -, -, hrec⟩ := coherent_ownConfirm (h.coherent p hp) ht hx
            rw [hrec]
            exact known hp ht
  | _ => cases hr

end Reporting

/-- The offer of a third device, imported over the records cached for the second. -/
def Sample.mixed : List Op :=
  setup 1 ++ offers 1 ++ [.pairProof, .pairImport (offerRecord 3) false false]

/-- The proof made for the first peer offer is exported for the second. -/
theorem stale_export :
    ¬ ∀ ops op, (run (Reporting.next Sample.crypto) (.init true) ops).Exports op
      (step Sample.crypto (run (Reporting.next Sample.crypto) (.init true) ops).engine op).2 := by
  intro h
  obtain ⟨hr, -⟩ := h Sample.mixed .pairProof _ (Option.some_get (by decide +kernel)).symm
  revert hr
  decide +kernel

/-- While an attempt imports another offer only with nothing cached, what it has cached belongs to
its current transcript, peer offer and role, and every proof or confirmation exported names the
transcript last reported. -/
theorem exports_current (C : Crypto) (available : Bool) (ops : List Op)
    (hk : Along (Reporting.next C) (fun a op => a.keepsOffer op = true) (.init available) ops) :
    let a := run (Reporting.next C) (.init available) ops
    (∀ p, a.engine.pending = some p → Reporting.Coherent C p) ∧
      ∀ op, a.Exports op (step C a.engine op).2 := by
  have hinv := run_invariant (I := Reporting.Inv C)
    (fun a op h hk => h.moved hk (step_moves C a.engine op)) ops (Reporting.inv_init available) hk
  exact ⟨hinv.coherent, hinv.exports⟩

/-- A whole ceremony, the peer offer imported twice. -/
theorem exports_current_sample :
    let a := run (Reporting.next Sample.crypto) (.init true)
      (Sample.setup 1 ++ Sample.proofs 1 ++ [.pairImport (Sample.offerRecord 2) false false])
    (∀ p, a.engine.pending = some p → Reporting.Coherent Sample.crypto p) ∧
      ∀ op, a.Exports op (step Sample.crypto a.engine op).2 :=
  exports_current Sample.crypto true _ (by decide +kernel)

end LoraMesh
