import LoraMesh.Core.Security

/-!
# Core — Pairing

The pairing records (`mesh-core/src/pairing.rs`): offers, proofs and confirmations, roles,
expiry and the fingerprint.  A record is a byte string whose first byte is its type.

* `decodeOfferPayload_encode`, `decodeProof_encode`, `decodeConfirmation_encode`: what is
  encoded decodes to itself.
* `encodeOfferPayload_decode`, `encodeProof_decode`, `encodeConfirmation_decode`: a decoded record
  is the encoding of its fields, so no two records share them.
-/

namespace LoraMesh

abbrev offerVersion : UInt8 := 0x01

abbrev recordOffer : UInt8 := 0x01
abbrev recordProof : UInt8 := 0x02
abbrev recordConfirm : UInt8 := 0x03

abbrev offerRecordLen : ℕ := 98
abbrev proofCtLen : ℕ := 24
abbrev proofRecordLen : ℕ := 122
abbrev confirmRecordLen : ℕ := 66

abbrev pairingExpirySecs : UInt64 := 600

abbrev roleL : UInt8 := 0
abbrev roleR : UInt8 := 1

inductive PairError where
  | badType
  | badLength
  | badPrefix
  | badCharset
  | badVersion
  | badRole
  | selfPairing
  | bufferTooSmall
  deriving DecidableEq

/-- Long-term signing key, ephemeral key, challenge. -/
structure Offer where
  edPub : Bytes 32
  ephPub : Bytes 32
  challenge : Bytes 32
  deriving DecidableEq

/-- Transcript, role, encrypted identity, signature. -/
structure Proof where
  t : Bytes 32
  role : UInt8
  ct : Bytes proofCtLen
  sig : Bytes 64
  deriving DecidableEq

/-- Transcript, role, HMAC over the proofs. -/
structure Confirmation where
  t : Bytes 32
  role : UInt8
  mac : Bytes 32
  deriving DecidableEq

def encodeOfferPayload (o : Offer) : Bytes offerLen :=
  ⟨offerVersion :: (o.edPub.1 ++ (o.ephPub.1 ++ o.challenge.1)), by simp⟩

/-- Strictly decode an offer payload. -/
def decodeOfferPayload (bytes : List UInt8) : Except PairError Offer :=
  if h : bytes.length ≠ offerLen then .error .badLength else
  have h : bytes.length = 97 := Decidable.not_not.mp h
  if bytes[0] ≠ offerVersion then .error .badVersion else
  .ok
    { edPub := slice bytes 1 32 (by omega)
      ephPub := slice bytes 33 32 (by omega)
      challenge := slice bytes 65 32 (by omega) }

def encodeOfferRecord (o : Offer) : Bytes offerRecordLen :=
  ⟨recordOffer :: (encodeOfferPayload o).1, by rw [List.length_cons, (encodeOfferPayload o).2]⟩

/-- Strictly decode an offer record: length, type, payload. -/
def decodeOfferRecord (record : List UInt8) : Except PairError Offer :=
  if h : record.length ≠ offerRecordLen then .error .badLength else
  have h : record.length = 98 := Decidable.not_not.mp h
  if record[0] ≠ recordOffer then .error .badType else
  decodeOfferPayload (record.drop 1)

def encodeProof (p : Proof) : Except PairError (Bytes proofRecordLen) :=
  if p.role ≠ roleL ∧ p.role ≠ roleR then .error .badRole
  else .ok ⟨recordProof :: (p.t.1 ++ p.role :: (p.ct.1 ++ p.sig.1)), by simp [proofCtLen]⟩

/-- Strictly decode a proof record. -/
def decodeProof (record : List UInt8) : Except PairError Proof :=
  if h : record.length ≠ proofRecordLen then .error .badLength else
  have h : record.length = 122 := Decidable.not_not.mp h
  if record[0] ≠ recordProof then .error .badType else
  if record[33] ≠ roleL ∧ record[33] ≠ roleR then .error .badRole else
  .ok
    { t := slice record 1 32 (by omega)
      role := record[33]
      ct := slice record 34 24 (by omega)
      sig := slice record 58 64 (by omega) }

def encodeConfirmation (c : Confirmation) : Except PairError (Bytes confirmRecordLen) :=
  if c.role ≠ roleL ∧ c.role ≠ roleR then .error .badRole
  else .ok ⟨recordConfirm :: (c.t.1 ++ c.role :: c.mac.1), by simp⟩

/-- Strictly decode a confirmation record. -/
def decodeConfirmation (record : List UInt8) : Except PairError Confirmation :=
  if h : record.length ≠ confirmRecordLen then .error .badLength else
  have h : record.length = 66 := Decidable.not_not.mp h
  if record[0] ≠ recordConfirm then .error .badType else
  if record[33] ≠ roleL ∧ record[33] ≠ roleR then .error .badRole else
  .ok
    { t := slice record 1 32 (by omega)
      role := record[33]
      mac := slice record 34 32 (by omega) }

/-- The lexicographically smaller key plays `L`. -/
def roleFor (ownEd peerEd : Bytes 32) : UInt8 := if ownEd.1 < peerEd.1 then roleL else roleR

/-- Reject pairing a board with itself. -/
def checkNotSelf (ownEd peerEd : Bytes 32) : Except PairError Unit :=
  if ownEd = peerEd then .error .selfPairing else .ok ()

/-- An attempt expires 600 s after its start; a backwards reading is not expired. -/
def isExpired (startMonoS nowMonoS : UInt64) : Bool :=
  pairingExpirySecs ≤ (if startMonoS ≤ nowMonoS then nowMonoS - startMonoS else 0)

/-- One lowercase hex digit. -/
def hexDigit (n : UInt8) : UInt8 := if n < 10 then 48 + n else 87 + n

/-- The first 16 hex digits of the transcript. -/
def transcriptFingerprint (t : Bytes 32) : List UInt8 :=
  (t.1.take 8).flatMap fun b : UInt8 => [hexDigit (b >>> 4), hexDigit (b &&& 0x0F)]

/-! ### Round trips -/

theorem decodeOfferPayload_encode (o : Offer) :
    decodeOfferPayload (encodeOfferPayload o).1 = .ok o := by
  have hlen : ¬ (encodeOfferPayload o).1.length ≠ offerLen :=
    fun h => h (encodeOfferPayload o).2
  obtain ⟨ed, eph, ch⟩ := o
  rw [decodeOfferPayload, dif_neg hlen, if_neg fun h => h rfl, Except.ok.injEq, Offer.mk.injEq]
  refine ⟨slice_eq (a := [1]) (c := eph.1 ++ ch.1) rfl rfl rfl,
    slice_eq (a := [1] ++ ed.1) (b := eph.1) (c := ch.1) ?_ (by simp) rfl,
    slice_eq (a := [1] ++ ed.1 ++ eph.1) (b := ch.1) (c := []) ?_ (by simp) rfl⟩
  · simp [encodeOfferPayload]
  · simp [encodeOfferPayload]

/-- An accepted payload is the encoding of its offer. -/
theorem encodeOfferPayload_decode {bytes : List UInt8} {o : Offer}
    (h : decodeOfferPayload bytes = .ok o) : (encodeOfferPayload o).1 = bytes := by
  unfold decodeOfferPayload at h
  split at h
  · cases h
  rename_i hlen
  have hlen : bytes.length = 97 := Decidable.not_not.mp hlen
  dsimp only at h
  split at h
  · cases h
  rename_i hv
  have hv : bytes[0] = offerVersion := Decidable.not_not.mp hv
  cases h
  have hend : bytes.drop (65 + 32) = [] := List.drop_eq_nil_of_le (by omega)
  calc (encodeOfferPayload _).1
      = offerVersion :: ((slice bytes 1 32 _).1 ++ ((slice bytes 33 32 _).1
          ++ (slice bytes 65 32 _).1)) := rfl
    _ = bytes[0] :: bytes.drop 1 := by
        rw [hv, drop_eq_slice_append bytes 1 32 (by omega),
          drop_eq_slice_append bytes (1 + 32) 32 (by omega),
          drop_eq_slice_append bytes (1 + 32 + 32) 32 (by omega), hend, List.append_nil]
    _ = bytes := (eq_getElem_cons_drop (by omega)).symm

theorem decodeOfferRecord_encode (o : Offer) : decodeOfferRecord (encodeOfferRecord o).1 = .ok o := by
  have hlen : ¬ (encodeOfferRecord o).1.length ≠ offerRecordLen := fun h => h (encodeOfferRecord o).2
  rw [decodeOfferRecord, dif_neg hlen, if_neg fun h => h rfl]
  exact decodeOfferPayload_encode o

/-- An accepted offer record is the encoding of its offer. -/
theorem encodeOfferRecord_decode {record : List UInt8} {o : Offer}
    (h : decodeOfferRecord record = .ok o) : (encodeOfferRecord o).1 = record := by
  unfold decodeOfferRecord at h
  split at h
  · cases h
  rename_i hlen
  have hlen : record.length = 98 := Decidable.not_not.mp hlen
  dsimp only at h
  split at h
  · cases h
  rename_i ht
  have ht : record[0] = recordOffer := Decidable.not_not.mp ht
  calc (encodeOfferRecord o).1 = recordOffer :: (encodeOfferPayload o).1 := rfl
    _ = record[0] :: record.drop 1 := by rw [encodeOfferPayload_decode h, ht]
    _ = record := (eq_getElem_cons_drop (by omega)).symm

theorem decodeProof_encode {p : Proof} {r : Bytes proofRecordLen} (h : encodeProof p = .ok r) :
    decodeProof r.1 = .ok p := by
  unfold encodeProof at h
  split at h
  · cases h
  rename_i hrole
  cases h
  obtain ⟨t, role, ct, sig⟩ := p
  have hget : ∀ _ : 33 < (recordProof :: (t.1 ++ role :: (ct.1 ++ sig.1))).length,
      (recordProof :: (t.1 ++ role :: (ct.1 ++ sig.1)))[33] = role := fun h => by
    rw [List.getElem_cons_succ, List.getElem_append_right (by simp)]
    simp
  unfold decodeProof
  rw [dif_neg (by simp [proofCtLen]), if_neg fun h => h rfl]
  simp only [hget]
  rw [if_neg hrole, Except.ok.injEq, Proof.mk.injEq]
  refine ⟨slice_eq (a := [2]) (c := role :: (ct.1 ++ sig.1)) rfl rfl rfl, rfl,
    slice_eq (a := [2] ++ t.1 ++ [role]) (b := ct.1) (c := sig.1) ?_ (by simp) rfl,
    slice_eq (a := [2] ++ t.1 ++ [role] ++ ct.1) (b := sig.1) (c := []) ?_ (by simp [proofCtLen]) rfl⟩
  · simp
  · simp

/-- An accepted proof record is the encoding of its proof. -/
theorem encodeProof_decode {record : List UInt8} {p : Proof} (h : decodeProof record = .ok p) :
    ∃ r, encodeProof p = .ok r ∧ r.1 = record := by
  unfold decodeProof at h
  split at h
  · cases h
  rename_i hlen
  have hlen : record.length = 122 := Decidable.not_not.mp hlen
  dsimp only at h
  split at h
  · cases h
  rename_i ht
  have ht : record[0] = recordProof := Decidable.not_not.mp ht
  split at h
  · cases h
  rename_i hrole
  cases h
  have hend : record.drop (58 + 64) = [] := List.drop_eq_nil_of_le (by omega)
  refine ⟨_, if_neg hrole, ?_⟩
  calc recordProof :: ((slice record 1 32 _).1 ++ record[33] :: ((slice record 34 24 _).1 ++
          (slice record 58 64 _).1))
      = record[0] :: record.drop 1 := by
        rw [ht, drop_eq_slice_append record 1 32 (by omega), List.drop_eq_getElem_cons (by omega),
          drop_eq_slice_append record 34 24 (by omega), drop_eq_slice_append record 58 64 (by omega), hend,
          List.append_nil]
    _ = record := (eq_getElem_cons_drop (by omega)).symm

/-- A decoded proof plays one of the two roles. -/
theorem decodeProof_role {record : List UInt8} {p : Proof} (h : decodeProof record = .ok p) :
    p.role = roleL ∨ p.role = roleR := by
  unfold decodeProof at h
  split at h
  · cases h
  dsimp only at h
  split at h
  · cases h
  split at h
  · cases h
  · rename_i hrole
    cases h
    by_contra hne
    exact hrole (not_or.mp hne)

theorem decodeConfirmation_encode {c : Confirmation} {r : Bytes confirmRecordLen}
    (h : encodeConfirmation c = .ok r) : decodeConfirmation r.1 = .ok c := by
  unfold encodeConfirmation at h
  split at h
  · cases h
  rename_i hrole
  cases h
  obtain ⟨t, role, mac⟩ := c
  have hget : ∀ _ : 33 < (recordConfirm :: (t.1 ++ role :: mac.1)).length,
      (recordConfirm :: (t.1 ++ role :: mac.1))[33] = role := fun h => by
    rw [List.getElem_cons_succ, List.getElem_append_right (by simp)]
    simp
  unfold decodeConfirmation
  rw [dif_neg (by simp), if_neg fun h => h rfl]
  simp only [hget]
  rw [if_neg hrole, Except.ok.injEq, Confirmation.mk.injEq]
  refine ⟨slice_eq (a := [3]) (c := role :: mac.1) rfl rfl rfl, rfl,
    slice_eq (a := [3] ++ t.1 ++ [role]) (b := mac.1) (c := []) ?_ (by simp) rfl⟩
  simp

/-- An accepted confirmation record is the encoding of its confirmation. -/
theorem encodeConfirmation_decode {record : List UInt8} {c : Confirmation}
    (h : decodeConfirmation record = .ok c) : ∃ r, encodeConfirmation c = .ok r ∧ r.1 = record := by
  unfold decodeConfirmation at h
  split at h
  · cases h
  rename_i hlen
  have hlen : record.length = 66 := Decidable.not_not.mp hlen
  dsimp only at h
  split at h
  · cases h
  rename_i ht
  have ht : record[0] = recordConfirm := Decidable.not_not.mp ht
  split at h
  · cases h
  rename_i hrole
  cases h
  have hend : record.drop (34 + 32) = [] := List.drop_eq_nil_of_le (by omega)
  refine ⟨_, if_neg hrole, ?_⟩
  calc recordConfirm :: ((slice record 1 32 _).1 ++ record[33] :: (slice record 34 32 _).1)
      = record[0] :: record.drop 1 := by
        rw [ht, drop_eq_slice_append record 1 32 (by omega), List.drop_eq_getElem_cons (by omega),
          drop_eq_slice_append record 34 32 (by omega), hend, List.append_nil]
    _ = record := (eq_getElem_cons_drop (by omega)).symm

/-! ### Roles -/

theorem roleFor_le (a b : Bytes 32) : roleFor a b = roleL ∨ roleFor a b = roleR := by
  unfold roleFor
  split
  · exact .inl rfl
  · exact .inr rfl

/-- Distinct keys take opposite roles. -/
theorem roleFor_swap {a b : Bytes 32} (h : a ≠ b) :
    (roleFor a b = roleL ∧ roleFor b a = roleR ∧ a.1 < b.1) ∨
      (roleFor a b = roleR ∧ roleFor b a = roleL ∧ b.1 < a.1) := by
  by_cases hab : a.1 < b.1
  · exact .inl ⟨if_pos hab, if_neg (List.lt_asymm hab), hab⟩
  · have hba : b.1 < a.1 := by
      by_contra hba
      exact h (Subtype.ext (List.le_antisymm hba hab))
    exact .inr ⟨if_neg hab, if_pos hba, hba⟩

end LoraMesh
