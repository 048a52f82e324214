import LoraMesh.Core.Transport
import Mathlib.Data.List.DropRight

/-!
# Host — Records

The host's check of a pairing record (`host/meshctl/pairing.py`), beside the decoders of `mesh-core`.
The host decodes with Python's lenient base64 and encodes what it gets once more.

* `a2bBase64`, `b2aBase64`: the library's base64, both ways.
* `decodeRecord`: the host; `importRecord`: the firmware.
* `records_alike`: they accept the same texts, with the same record.
-/

namespace LoraMesh

/-! ### The library -/

/-- `binascii.a2b_base64` from a state: the characters of the last group so far, the padding met in it,
the bits left over, and the bytes so far. -/
def a2bFrom : List UInt8 → ℕ → ℕ → UInt8 → List UInt8 → Option (List UInt8)
  | [], quadPos, _, _, out => if quadPos = 0 then some out else none
  | c :: l, quadPos, pads, left, out =>
    if c = 61 then
      if quadPos ≥ 2 then
        if quadPos + (pads + 1) ≥ 4 then some out else a2bFrom l quadPos (pads + 1) left out
      else a2bFrom l quadPos pads left out
    else
      match (ascii "ABCDEFGHIJKLMNOPQRSTUVWXYZabcdefghijklmnopqrstuvwxyz0123456789+/").idxOf? c with
      -- other characters are skipped
      | none => a2bFrom l quadPos pads left out
      | some i =>
        let v := UInt8.ofNat i
        match quadPos with
        | 0 => a2bFrom l 1 0 v out
        | 1 => a2bFrom l 2 0 (v &&& 0x0f) (out ++ [(left <<< 2) ||| (v >>> 4)])
        | 2 => a2bFrom l 3 0 (v &&& 0x03) (out ++ [(left <<< 4) ||| (v >>> 2)])
        | _ => a2bFrom l 0 0 0 (out ++ [(left <<< 6) ||| v])

def a2bBase64 (l : List UInt8) : Option (List UInt8) := a2bFrom l 0 0 0 []

/-- The character of six bits. -/
def b2aChar (v : ℕ) : UInt8 :=
  (ascii "ABCDEFGHIJKLMNOPQRSTUVWXYZabcdefghijklmnopqrstuvwxyz0123456789+/").getD (v % 64) 0

/-- `binascii.b2a_base64`, with padding. -/
def b2aBase64 : List UInt8 → List UInt8
  | [] => []
  | [a] => [b2aChar (a.toNat / 4), b2aChar (a.toNat * 16), 61, 61]
  | [a, b] => [b2aChar (a.toNat / 4), b2aChar (a.toNat * 16 + b.toNat / 16), b2aChar (b.toNat * 4), 61]
  | a :: b :: c :: l =>
    b2aChar (a.toNat / 4) :: b2aChar (a.toNat * 16 + b.toNat / 16) :: b2aChar (b.toNat * 4 + c.toNat / 64) ::
      b2aChar c.toNat :: b2aBase64 l

/-- The characters of the two alphabets. -/
def fromUrlsafe (c : UInt8) : UInt8 := if c = 45 then 43 else if c = 95 then 47 else c

def toUrlsafe (c : UInt8) : UInt8 := if c = 43 then 45 else if c = 47 then 95 else c

def urlsafeB64decode (s : List UInt8) : Option (List UInt8) := a2bBase64 (s.map fromUrlsafe)

def urlsafeB64encode (s : List UInt8) : List UInt8 := (b2aBase64 s).map toUrlsafe

/-- `str.encode("ascii")`. -/
def encodeAscii (s : List Char) : Option (List UInt8) :=
  s.mapM fun c => if c.toNat < 128 then some (UInt8.ofNat c.toNat) else none

/-- `bytes.decode("ascii")`, of bytes that are. -/
def decodeAscii (l : List UInt8) : List Char := l.map fun b => Char.ofNat b.toNat

/-! ### The host -/

/-- What a `ValueError` says. -/
inductive RecordError where
  | badPrefix
  | emptyBody
  | padded
  | charset (c : Char)
  | impossibleLength
  | malformed
  | trailingBits
  | notCanonical
  | offerVersion
  | proofRole
  | confirmationRole
  | unknownRecord

def recordPrefix : List Char := "LMESH1:".toList

def b64Characters : List Char := "ABCDEFGHIJKLMNOPQRSTUVWXYZabcdefghijklmnopqrstuvwxyz0123456789-_".toList

/-- `_b64_val`. -/
def b64Value (c : Char) : ℕ :=
  if 'A' ≤ c ∧ c ≤ 'Z' then c.toNat - 'A'.toNat
  else if 'a' ≤ c ∧ c ≤ 'z' then c.toNat - 'a'.toNat + 26
  else if '0' ≤ c ∧ c ≤ '9' then c.toNat - '0'.toNat + 52
  else if c = '-' then 62
  else 63

/-- `_canonical_b64url`. -/
def canonicalB64url (body : List Char) : Except RecordError (List UInt8) :=
  if body = [] then .error .emptyBody
  else if '=' ∈ body then .error .padded
  else
    match body.find? (· ∉ b64Characters) with
    | some c => .error (.charset c)
    | none =>
      let tail := body.length % 4
      if tail = 1 then .error .impossibleLength
      else
        match (encodeAscii (body ++ List.replicate ((4 - tail) % 4) '=')).bind urlsafeB64decode with
        | none => .error .malformed
        | some raw =>
          let last := b64Value (body.getLastD 'A')
          if tail = 2 ∧ last &&& 0x0F ≠ 0 then .error .trailingBits
          else if tail = 3 ∧ last &&& 0x03 ≠ 0 then .error .trailingBits
          else if (decodeAscii (urlsafeB64encode raw)).rdropWhile (· = '=') ≠ body then .error .notCanonical
          else .ok raw

inductive RecordKind where
  | offer
  | proof
  | confirmation
  deriving DecidableEq

def RecordKind.expected : RecordKind → ℕ
  | .offer => offerRecordLen
  | .proof => proofRecordLen
  | .confirmation => confirmRecordLen

/-- `inspect_record`. -/
def inspectRecord (raw : List UInt8) : Except RecordError RecordKind :=
  if raw.length = offerRecordLen ∧ raw.getD 0 0 = recordOffer then
    if raw.getD 1 0 ≠ offerVersion then .error .offerVersion else .ok .offer
  else if raw.length = proofRecordLen ∧ raw.getD 0 0 = recordProof then
    if raw.getD 33 0 ∉ [roleL, roleR] then .error .proofRole else .ok .proof
  else if raw.length = confirmRecordLen ∧ raw.getD 0 0 = recordConfirm then
    if raw.getD 33 0 ∉ [roleL, roleR] then .error .confirmationRole else .ok .confirmation
  else .error .unknownRecord

def decodeRecord (text : String) : Except RecordError (List UInt8) :=
  if ¬ recordPrefix <+: text.toList then .error .badPrefix
  else do
    let raw ← canonicalB64url (text.toList.drop recordPrefix.length)
    let kind ← inspectRecord raw
    if raw.length ≠ kind.expected then .error .unknownRecord else .ok raw

/-! ### The firmware -/

/-- A record by its type. -/
inductive TypedRecord where
  | offer (o : Offer)
  | proof (p : Proof)
  | confirmation (c : Confirmation)

/-- The decoder of the type that the first byte names. -/
def decodeTyped (record : List UInt8) : Except PairError TypedRecord :=
  match record with
  | [] => .error .badType
  | b :: _ =>
    if b = recordOffer then (decodeOfferRecord record).map .offer
    else if b = recordProof then (decodeProof record).map .proof
    else if b = recordConfirm then (decodeConfirmation record).map .confirmation
    else .error .badType

/-- A text by way of the buffer of `op_pair_import`: the record, and what it decodes to. -/
def importRecord (text : List UInt8) : Except PairError (List UInt8 × TypedRecord) := do
  let record ← decodeTransport text 160
  let typed ← decodeTyped record
  return (record, typed)

/-- The UTF-8 bytes of a text. -/
def utf8Bytes (text : String) : List UInt8 := text.toList.flatMap String.utf8EncodeChar

/-! ### The library's base64 -/

theorem idxOf_digit (v : ℕ) :
    (ascii "ABCDEFGHIJKLMNOPQRSTUVWXYZabcdefghijklmnopqrstuvwxyz0123456789+/").idxOf? (fromUrlsafe (b64Digit v)) =
      some (v % 64) := by
  have htable : ∀ i : Fin 64, (ascii "ABCDEFGHIJKLMNOPQRSTUVWXYZabcdefghijklmnopqrstuvwxyz0123456789+/").idxOf?
      (fromUrlsafe (b64Digit i.1)) = some i.1 := by decide +kernel
  rw [← b64Digit_mod]
  exact htable ⟨v % 64, Nat.mod_lt v (by decide)⟩

theorem toUrlsafe_char (v : ℕ) : toUrlsafe (b2aChar v) = b64Digit v := by
  have htable : ∀ i : Fin 64, toUrlsafe (b2aChar i.1) = b64Digit i.1 := by decide +kernel
  have hmod : b2aChar (v % 64) = b2aChar v := by rw [b2aChar, b2aChar, Nat.mod_mod]
  rw [← b64Digit_mod, ← hmod]
  exact htable ⟨v % 64, Nat.mod_lt v (by decide)⟩

/-- The characters of the url-safe alphabet are ASCII, and none is the padding. -/
theorem digit_plain (v : ℕ) : (b64Digit v).toNat < 128 ∧ b64Digit v ≠ 61 ∧ fromUrlsafe (b64Digit v) ≠ 61 ∧
    Char.ofNat (b64Digit v).toNat ∈ b64Characters ∧ b64Value (Char.ofNat (b64Digit v).toNat) = v % 64 := by
  have htable : ∀ i : Fin 64, (b64Digit i.1).toNat < 128 ∧ b64Digit i.1 ≠ 61 ∧ fromUrlsafe (b64Digit i.1) ≠ 61 ∧
      Char.ofNat (b64Digit i.1).toNat ∈ b64Characters ∧ b64Value (Char.ofNat (b64Digit i.1).toNat) = i.1 := by
    decide +kernel
  rw [← b64Digit_mod]
  exact htable ⟨v % 64, Nat.mod_lt v (by decide)⟩

/-- The padding of so many bytes. -/
def padding (n : ℕ) : List UInt8 := List.replicate ((3 - n % 3) % 3) 61

theorem urlsafeB64encode_eq : ∀ l : List UInt8, urlsafeB64encode l = b64Encode l ++ padding l.length
  | [] => rfl
  | [a] => by
      rw [urlsafeB64encode, b2aBase64, b64Encode_one]
      simp only [List.map_cons, toUrlsafe_char]
      rfl
  | [a, b] => by
      rw [urlsafeB64encode, b2aBase64, b64Encode_two]
      simp only [List.map_cons, toUrlsafe_char]
      rfl
  | a :: b :: c :: l => by
      have ih := urlsafeB64encode_eq l
      rw [urlsafeB64encode] at ih
      have hpad : padding (a :: b :: c :: l).length = padding l.length := by
        rw [padding, padding, List.length_cons, List.length_cons, List.length_cons, Nat.add_assoc, Nat.add_assoc,
          Nat.add_mod_right]
      rw [urlsafeB64encode, b2aBase64, b64Encode_group, hpad]
      simp only [List.map_cons, toUrlsafe_char, ih, List.cons_append]

example : urlsafeB64encode [1, 2, 3, 4] = ascii "AQIDBA==" := by decide +kernel

/-- The characters of an encoding are those of six bits each. -/
theorem mem_b64Encode : ∀ {l : List UInt8} {c : UInt8}, c ∈ b64Encode l → ∃ v, c = b64Digit v
  | [], _, h => nomatch h
  | [a], c, h => by
      rw [b64Encode_one] at h
      rcases List.mem_cons.mp h with rfl | h
      · exact ⟨_, rfl⟩
      · exact ⟨_, List.mem_singleton.mp h⟩
  | [a, b], c, h => by
      rw [b64Encode_two] at h
      rcases List.mem_cons.mp h with rfl | h
      · exact ⟨_, rfl⟩
      rcases List.mem_cons.mp h with rfl | h
      · exact ⟨_, rfl⟩
      · exact ⟨_, List.mem_singleton.mp h⟩
  | a :: b :: d :: l, c, h => by
      rw [b64Encode_group] at h
      simp only [List.mem_cons] at h
      rcases h with rfl | rfl | rfl | rfl | h
      · exact ⟨_, rfl⟩
      · exact ⟨_, rfl⟩
      · exact ⟨_, rfl⟩
      · exact ⟨_, rfl⟩
      · exact mem_b64Encode h

/-- A character of six bits in a group. -/
theorem a2bFrom_digit (v : ℕ) (l : List UInt8) (quadPos pads : ℕ) (left : UInt8) (out : List UInt8) :
    a2bFrom (fromUrlsafe (b64Digit v) :: l) quadPos pads left out =
      match quadPos with
      | 0 => a2bFrom l 1 0 (UInt8.ofNat (v % 64)) out
      | 1 => a2bFrom l 2 0 (UInt8.ofNat (v % 64) &&& 0x0f) (out ++ [(left <<< 2) ||| (UInt8.ofNat (v % 64) >>> 4)])
      | 2 => a2bFrom l 3 0 (UInt8.ofNat (v % 64) &&& 0x03) (out ++ [(left <<< 4) ||| (UInt8.ofNat (v % 64) >>> 2)])
      | _ => a2bFrom l 0 0 0 (out ++ [(left <<< 6) ||| UInt8.ofNat (v % 64)]) := by
  rw [a2bFrom, if_neg (digit_plain v).2.2.1, idxOf_digit]

theorem a2b_first {x y : ℕ} (hx : x < 64) (hy : y < 64) :
    (UInt8.ofNat x <<< 2) ||| (UInt8.ofNat y >>> 4) = UInt8.ofNat (x * 4 + y / 16) := by
  have htable : ∀ i j : Fin 64, (UInt8.ofNat i.1 <<< 2) ||| (UInt8.ofNat j.1 >>> 4) = UInt8.ofNat (i.1 * 4 + j.1 / 16) := by
    decide +kernel
  exact htable ⟨x, hx⟩ ⟨y, hy⟩

theorem a2b_second {x y : ℕ} (hx : x < 64) (hy : y < 64) :
    ((UInt8.ofNat x &&& 0x0f) <<< 4) ||| (UInt8.ofNat y >>> 2) = UInt8.ofNat (x % 16 * 16 + y / 4) := by
  have htable : ∀ i j : Fin 64, ((UInt8.ofNat i.1 &&& 0x0f) <<< 4) ||| (UInt8.ofNat j.1 >>> 2) =
      UInt8.ofNat (i.1 % 16 * 16 + j.1 / 4) := by decide +kernel
  exact htable ⟨x, hx⟩ ⟨y, hy⟩

theorem a2b_third {x y : ℕ} (hx : x < 64) (hy : y < 64) :
    ((UInt8.ofNat x &&& 0x03) <<< 6) ||| UInt8.ofNat y = UInt8.ofNat (x % 4 * 64 + y) := by
  have htable : ∀ i j : Fin 64, ((UInt8.ofNat i.1 &&& 0x03) <<< 6) ||| UInt8.ofNat j.1 =
      UInt8.ofNat (i.1 % 4 * 64 + j.1) := by decide +kernel
  exact htable ⟨x, hx⟩ ⟨y, hy⟩

/-- An encoding with its padding decodes to its bytes. -/
theorem a2bFrom_encode : ∀ (l : List UInt8) (pads : ℕ) (left : UInt8) (out : List UInt8),
    a2bFrom ((b64Encode l).map fromUrlsafe ++ padding l.length) 0 pads left out = some (out ++ l)
  | [], pads, left, out => by
      show a2bFrom [] 0 pads left out = _
      rw [a2bFrom, if_pos rfl, List.append_nil]
  | [a], pads, left, out => by
      have ha := a.toNat_lt
      have h₁ : UInt8.ofNat (a.toNat / 4 % 64 * 4 + a.toNat * 16 % 64 / 16) = a := ofNat_eq (by omega)
      rw [b64Encode_one]
      simp only [List.map_cons, List.cons_append, a2bFrom_digit]
      rw [a2b_first (Nat.mod_lt _ (by decide)) (Nat.mod_lt _ (by decide)), h₁]
      rfl
  | [a, b], pads, left, out => by
      have ha := a.toNat_lt
      have hb := b.toNat_lt
      have h₁ : UInt8.ofNat (a.toNat / 4 % 64 * 4 + (a.toNat * 16 + b.toNat / 16) % 64 / 16) = a :=
        ofNat_eq (by omega)
      have h₂ : UInt8.ofNat ((a.toNat * 16 + b.toNat / 16) % 64 % 16 * 16 + b.toNat * 4 % 64 / 4) = b :=
        ofNat_eq (by omega)
      rw [b64Encode_two]
      simp only [List.map_cons, List.cons_append, a2bFrom_digit]
      rw [a2b_first (Nat.mod_lt _ (by decide)) (Nat.mod_lt _ (by decide)), h₁,
        a2b_second (Nat.mod_lt _ (by decide)) (Nat.mod_lt _ (by decide)), h₂, List.append_assoc]
      rfl
  | a :: b :: c :: l, pads, left, out => by
      have ha := a.toNat_lt
      have hb := b.toNat_lt
      have hc := c.toNat_lt
      have h₁ : UInt8.ofNat (a.toNat / 4 % 64 * 4 + (a.toNat * 16 + b.toNat / 16) % 64 / 16) = a :=
        ofNat_eq (by omega)
      have h₂ : UInt8.ofNat ((a.toNat * 16 + b.toNat / 16) % 64 % 16 * 16 + (b.toNat * 4 + c.toNat / 64) % 64 / 4) = b :=
        ofNat_eq (by omega)
      have h₃ : UInt8.ofNat ((b.toNat * 4 + c.toNat / 64) % 64 % 4 * 64 + c.toNat % 64) = c := ofNat_eq (by omega)
      have hpad : padding (a :: b :: c :: l).length = padding l.length := by
        rw [padding, padding, List.length_cons, List.length_cons, List.length_cons, Nat.add_assoc, Nat.add_assoc,
          Nat.add_mod_right]
      rw [b64Encode_group, hpad]
      simp only [List.map_cons, List.cons_append, a2bFrom_digit]
      rw [a2bFrom_encode l, a2b_first (Nat.mod_lt _ (by decide)) (Nat.mod_lt _ (by decide)), h₁,
        a2b_second (Nat.mod_lt _ (by decide)) (Nat.mod_lt _ (by decide)), h₂,
        a2b_third (Nat.mod_lt _ (by decide)) (Nat.mod_lt _ (by decide)), h₃]
      simp only [List.append_assoc, List.cons_append, List.nil_append]

theorem padding_encoded (n : ℕ) : padding n = List.replicate ((4 - b64EncodedLen n % 4) % 4) 61 := by
  have hlen : (3 - n % 3) % 3 = (4 - (n * 4 + 2) / 3 % 4) % 4 := by
    obtain h | h | h : n % 3 = 0 ∨ n % 3 = 1 ∨ n % 3 = 2 := by omega
    · have : (n * 4 + 2) / 3 % 4 = 0 := by omega
      omega
    · have : (n * 4 + 2) / 3 % 4 = 2 := by omega
      omega
    · have : (n * 4 + 2) / 3 % 4 = 3 := by omega
      omega
  rw [padding, b64EncodedLen, hlen]

theorem urlsafeB64decode_encode (l : List UInt8) :
    urlsafeB64decode (b64Encode l ++ padding l.length) = some l := by
  have hpad : (padding l.length).map fromUrlsafe = padding l.length := by
    rw [padding, List.map_replicate]
    rfl
  rw [urlsafeB64decode, List.map_append, hpad, a2bBase64, a2bFrom_encode, List.nil_append]

example : urlsafeB64decode (ascii "AQIDBA==") = some [1, 2, 3, 4] := by decide +kernel

/-- The last character of an encoding with a short group has no bits to spare. -/
theorem last_b64Encode : ∀ {l : List UInt8}, l ≠ [] →
    ∃ v, (b64Encode l).getLast? = some (b64Digit v) ∧
      ((b64Encode l).length % 4 = 2 → v % 16 = 0) ∧ ((b64Encode l).length % 4 = 3 → v % 4 = 0)
  | [], h => absurd rfl h
  | [a], _ => by
      rw [b64Encode_one]
      exact ⟨a.toNat * 16, rfl, fun _ => Nat.mul_mod_left _ _, fun h => absurd (show 2 % 4 = 3 from h) (by decide)⟩
  | [a, b], _ => by
      rw [b64Encode_two]
      exact ⟨b.toNat * 4, rfl, fun h => absurd (show 3 % 4 = 2 from h) (by decide), fun _ => Nat.mul_mod_left _ _⟩
  | [a, b, c], _ => by
      rw [b64Encode_group]
      exact ⟨c.toNat, rfl, fun h => absurd (show 4 % 4 = 2 from h) (by decide),
        fun h => absurd (show 4 % 4 = 3 from h) (by decide)⟩
  | a :: b :: c :: d :: l, _ => by
      obtain ⟨v, hlast, h₂, h₃⟩ := last_b64Encode (List.cons_ne_nil d l)
      rw [b64Encode_group]
      refine ⟨v, ?_, ?_, ?_⟩
      · simp only [List.getLast?_cons, hlast, Option.getD_some]
      · simpa only [List.length_cons, Nat.add_assoc, Nat.add_mod_right] using h₂
      · simpa only [List.length_cons, Nat.add_assoc, Nat.add_mod_right] using h₃

/-! ### Texts of bytes -/

theorem toNat_decodeAscii {b : UInt8} (hb : b.toNat < 128) : (Char.ofNat b.toNat).toNat = b.toNat := by
  have htable : ∀ i : Fin 128, (Char.ofNat i.1).toNat = i.1 := by decide
  exact htable ⟨b.toNat, hb⟩

theorem encodeAscii_decode {l : List UInt8} (h : ∀ b ∈ l, b.toNat < 128) : encodeAscii (decodeAscii l) = some l := by
  induction l with
  | nil => rfl
  | cons b l ih =>
      obtain ⟨hb, hl⟩ := List.forall_mem_cons.mp h
      have ih := ih hl
      rw [encodeAscii] at ih ⊢
      rw [decodeAscii, List.map_cons, List.mapM_cons, toNat_decodeAscii hb, if_pos hb, UInt8.ofNat_toNat]
      rw [decodeAscii] at ih
      rw [ih]
      rfl

theorem decodeAscii_append (l m : List UInt8) : decodeAscii (l ++ m) = decodeAscii l ++ decodeAscii m :=
  List.map_append

theorem decodeAscii_padding (n : ℕ) :
    decodeAscii (padding n) = List.replicate ((4 - b64EncodedLen n % 4) % 4) '=' := by
  rw [padding_encoded, decodeAscii, List.map_replicate]
  rfl

/-- The characters of an encoding, as a text. -/
theorem mem_decodeAscii {l : List UInt8} {c : Char} (h : c ∈ decodeAscii (b64Encode l)) : c ∈ b64Characters ∧ c ≠ '=' := by
  obtain ⟨b, hb, rfl⟩ := List.mem_map.mp h
  obtain ⟨v, rfl⟩ := mem_b64Encode hb
  obtain ⟨hlt, hpad, -, hmem, -⟩ := digit_plain v
  refine ⟨hmem, fun heq => hpad ?_⟩
  have hnat := congrArg Char.toNat heq
  rw [toNat_decodeAscii hlt] at hnat
  exact UInt8.toNat_inj.mp hnat

/-- The padding is stripped again. -/
theorem rstrip_encode (l : List UInt8) :
    (decodeAscii (urlsafeB64encode l)).rdropWhile (· = '=') = decodeAscii (b64Encode l) := by
  rw [urlsafeB64encode_eq, decodeAscii_append, decodeAscii_padding]
  generalize (4 - b64EncodedLen l.length % 4) % 4 = k
  induction k with
  | zero =>
      rw [List.replicate_zero, List.append_nil, List.rdropWhile_eq_self_iff]
      intro hne h
      exact (mem_decodeAscii (List.getLast_mem hne)).2 (of_decide_eq_true h)
  | succ k ih =>
      rw [List.replicate_succ', ← List.append_assoc, List.rdropWhile_concat_pos _ _ _ (by decide)]
      exact ih

/-! ### The two checks of the text -/

theorem canonicalB64url_encode {r : List UInt8} (hr : r ≠ []) : canonicalB64url (decodeAscii (b64Encode r)) = .ok r := by
  have hlen : (decodeAscii (b64Encode r)).length = b64EncodedLen r.length := by
    rw [decodeAscii, List.length_map, length_b64Encode]
  have hne : decodeAscii (b64Encode r) ≠ [] := by
    intro h
    rw [h] at hlen
    have hpos := List.length_pos_iff.mpr hr
    simp only [List.length_nil, b64EncodedLen] at hlen
    omega
  have hpad : '=' ∉ decodeAscii (b64Encode r) := fun h => (mem_decodeAscii h).2 rfl
  have hfind : (decodeAscii (b64Encode r)).find? (· ∉ b64Characters) = none := by
    rw [List.find?_eq_none]
    intro c hc
    simpa using (mem_decodeAscii hc).1
  have htail : b64EncodedLen r.length % 4 ≠ 1 := by
    rw [b64EncodedLen]
    omega
  have hbytes : encodeAscii (decodeAscii (b64Encode r) ++ List.replicate ((4 - b64EncodedLen r.length % 4) % 4) '=') =
      some (b64Encode r ++ padding r.length) := by
    rw [← decodeAscii_padding, ← decodeAscii_append]
    refine encodeAscii_decode fun b hb => ?_
    rcases List.mem_append.mp hb with hb | hb
    · obtain ⟨v, rfl⟩ := mem_b64Encode hb
      exact (digit_plain v).1
    · rw [List.eq_of_mem_replicate hb]
      decide
  obtain ⟨v, hlast, htwo, hthree⟩ := last_b64Encode hr
  have hvalue : b64Value ((decodeAscii (b64Encode r)).getLastD 'A') = v % 64 := by
    rw [List.getLastD_eq_getLast?, decodeAscii, List.getLast?_map, hlast]
    exact (digit_plain v).2.2.2.2
  rw [length_b64Encode] at htwo hthree
  rw [canonicalB64url, if_neg hne, if_neg hpad, hfind]
  dsimp only
  rw [hlen, if_neg htail, hbytes, Option.bind_some, urlsafeB64decode_encode]
  dsimp only
  rw [hvalue, if_neg, if_neg, if_neg (not_not_intro (rstrip_encode r))]
  · rintro ⟨h, hbits⟩
    have hv := hthree h
    rw [Nat.and_two_pow_sub_one_eq_mod _ 2] at hbits
    omega
  · rintro ⟨h, hbits⟩
    have hv := htwo h
    rw [Nat.and_two_pow_sub_one_eq_mod _ 4] at hbits
    omega

/-- A body that the host takes is the encoding of its record. -/
theorem canonicalB64url_ok {body : List Char} {r : List UInt8} :
    canonicalB64url body = .ok r ↔ r ≠ [] ∧ body = decodeAscii (b64Encode r) := by
  constructor
  · intro h
    have hbody : body ≠ [] ∧ (decodeAscii (urlsafeB64encode r)).rdropWhile (· = '=') = body := by
      unfold canonicalB64url at h
      split at h
      · cases h
      rename_i hne
      split at h
      · cases h
      split at h
      · cases h
      dsimp only at h
      split at h
      · cases h
      split at h
      · cases h
      split at h
      · cases h
      split at h
      · cases h
      split at h
      · cases h
      rename_i hround
      cases h
      exact ⟨hne, Decidable.not_not.mp hround⟩
    obtain ⟨hne, hround⟩ := hbody
    rw [rstrip_encode] at hround
    refine ⟨?_, hround.symm⟩
    rintro rfl
    exact hne hround.symm
  · rintro ⟨hr, rfl⟩
    exact canonicalB64url_encode hr

/-! ### Types -/

theorem getD_eq {l : List UInt8} {i : ℕ} (h : i < l.length) : l.getD i 0 = l[i] := by
  rw [List.getD_eq_getElem?_getD, List.getElem?_eq_getElem h, Option.getD_some]

theorem decodeOfferRecord_accepts (r : List UInt8) :
    (∃ o, decodeOfferRecord r = .ok o) ↔ r.length = offerRecordLen ∧ r.getD 0 0 = recordOffer ∧ r.getD 1 0 = offerVersion := by
  unfold decodeOfferRecord
  by_cases hlen : r.length = offerRecordLen
  · have h98 : r.length = 98 := hlen
    have hdrop : (r.drop 1).length = 97 := by rw [List.length_drop, h98]
    rw [dif_neg (not_not_intro hlen), getD_eq (by omega), getD_eq (by omega), and_iff_right hlen]
    by_cases htype : r[0] = recordOffer
    · rw [if_neg (not_not_intro htype), and_iff_right htype, decodeOfferPayload, dif_neg (not_not_intro hdrop)]
      have hver : (r.drop 1)[0] = r[1] := List.getElem_drop
      dsimp only
      rw [hver]
      by_cases hversion : r[1] = offerVersion
      · rw [if_neg (not_not_intro hversion)]
        exact ⟨fun _ => hversion, fun _ => ⟨_, rfl⟩⟩
      · rw [if_pos hversion]
        exact ⟨fun h => (by obtain ⟨_, h⟩ := h; cases h), fun h => absurd h hversion⟩
    · rw [if_pos htype]
      exact ⟨fun h => (by obtain ⟨_, h⟩ := h; cases h), fun h => absurd h.1 htype⟩
  · rw [dif_pos hlen]
    exact ⟨fun h => (by obtain ⟨_, h⟩ := h; cases h), fun h => absurd h.1 hlen⟩

theorem mem_roles {b : UInt8} : b ∈ [roleL, roleR] ↔ ¬ (b ≠ roleL ∧ b ≠ roleR) := by
  rw [List.mem_cons, List.mem_singleton, not_and_or, Decidable.not_not, Decidable.not_not]

theorem decodeProof_accepts (r : List UInt8) :
    (∃ p, decodeProof r = .ok p) ↔ r.length = proofRecordLen ∧ r.getD 0 0 = recordProof ∧ r.getD 33 0 ∈ [roleL, roleR] := by
  unfold decodeProof
  by_cases hlen : r.length = proofRecordLen
  · have h122 : r.length = 122 := hlen
    rw [dif_neg (not_not_intro hlen), getD_eq (by omega), getD_eq (by omega), and_iff_right hlen, mem_roles]
    by_cases htype : r[0] = recordProof
    · rw [if_neg (not_not_intro htype), and_iff_right htype]
      by_cases hrole : r[33] ≠ roleL ∧ r[33] ≠ roleR
      · rw [if_pos hrole]
        exact ⟨fun ⟨_, h⟩ => (nomatch h), fun h => absurd hrole h⟩
      · rw [if_neg hrole]
        exact ⟨fun _ => hrole, fun _ => ⟨_, rfl⟩⟩
    · rw [if_pos htype]
      exact ⟨fun ⟨_, h⟩ => (nomatch h), fun h => absurd h.1 htype⟩
  · rw [dif_pos hlen]
    exact ⟨fun ⟨_, h⟩ => (nomatch h), fun h => absurd h.1 hlen⟩

theorem decodeConfirmation_accepts (r : List UInt8) :
    (∃ c, decodeConfirmation r = .ok c) ↔
      r.length = confirmRecordLen ∧ r.getD 0 0 = recordConfirm ∧ r.getD 33 0 ∈ [roleL, roleR] := by
  unfold decodeConfirmation
  by_cases hlen : r.length = confirmRecordLen
  · have h66 : r.length = 66 := hlen
    rw [dif_neg (not_not_intro hlen), getD_eq (by omega), getD_eq (by omega), and_iff_right hlen, mem_roles]
    by_cases htype : r[0] = recordConfirm
    · rw [if_neg (not_not_intro htype), and_iff_right htype]
      by_cases hrole : r[33] ≠ roleL ∧ r[33] ≠ roleR
      · rw [if_pos hrole]
        exact ⟨fun ⟨_, h⟩ => (nomatch h), fun h => absurd hrole h⟩
      · rw [if_neg hrole]
        exact ⟨fun _ => hrole, fun _ => ⟨_, rfl⟩⟩
    · rw [if_pos htype]
      exact ⟨fun ⟨_, h⟩ => (nomatch h), fun h => absurd h.1 htype⟩
  · rw [dif_pos hlen]
    exact ⟨fun ⟨_, h⟩ => (nomatch h), fun h => absurd h.1 hlen⟩

/-- The record is of a known type, in the length and with the version or role of that type. -/
def WellTyped (r : List UInt8) : Prop :=
  (r.length = offerRecordLen ∧ r.getD 0 0 = recordOffer ∧ r.getD 1 0 = offerVersion) ∨
    (r.length = proofRecordLen ∧ r.getD 0 0 = recordProof ∧ r.getD 33 0 ∈ [roleL, roleR]) ∨
    (r.length = confirmRecordLen ∧ r.getD 0 0 = recordConfirm ∧ r.getD 33 0 ∈ [roleL, roleR])

theorem inspectRecord_accepts (r : List UInt8) : (∃ k, inspectRecord r = .ok k) ↔ WellTyped r := by
  unfold inspectRecord
  by_cases hoffer : r.length = offerRecordLen ∧ r.getD 0 0 = recordOffer
  · rw [if_pos hoffer]
    by_cases hversion : r.getD 1 0 = offerVersion
    · rw [if_neg (not_not_intro hversion)]
      exact ⟨fun _ => .inl ⟨hoffer.1, hoffer.2, hversion⟩, fun _ => ⟨_, rfl⟩⟩
    · rw [if_pos hversion]
      refine ⟨fun ⟨_, h⟩ => (nomatch h), ?_⟩
      rintro (h | h | h)
      · exact absurd h.2.2 hversion
      · exact absurd (hoffer.1.symm.trans h.1) (by decide)
      · exact absurd (hoffer.1.symm.trans h.1) (by decide)
  rw [if_neg hoffer]
  by_cases hproof : r.length = proofRecordLen ∧ r.getD 0 0 = recordProof
  · rw [if_pos hproof]
    by_cases hrole : r.getD 33 0 ∈ [roleL, roleR]
    · rw [if_neg (not_not_intro hrole)]
      exact ⟨fun _ => .inr (.inl ⟨hproof.1, hproof.2, hrole⟩), fun _ => ⟨_, rfl⟩⟩
    · rw [if_pos hrole]
      refine ⟨fun ⟨_, h⟩ => (nomatch h), ?_⟩
      rintro (h | h | h)
      · exact absurd ⟨h.1, h.2.1⟩ hoffer
      · exact absurd h.2.2 hrole
      · exact absurd (hproof.1.symm.trans h.1) (by decide)
  rw [if_neg hproof]
  by_cases hconfirm : r.length = confirmRecordLen ∧ r.getD 0 0 = recordConfirm
  · rw [if_pos hconfirm]
    by_cases hrole : r.getD 33 0 ∈ [roleL, roleR]
    · rw [if_neg (not_not_intro hrole)]
      exact ⟨fun _ => .inr (.inr ⟨hconfirm.1, hconfirm.2, hrole⟩), fun _ => ⟨_, rfl⟩⟩
    · rw [if_pos hrole]
      refine ⟨fun ⟨_, h⟩ => (nomatch h), ?_⟩
      rintro (h | h | h)
      · exact absurd ⟨h.1, h.2.1⟩ hoffer
      · exact absurd ⟨h.1, h.2.1⟩ hproof
      · exact absurd h.2.2 hrole
  · rw [if_neg hconfirm]
    refine ⟨fun ⟨_, h⟩ => (nomatch h), ?_⟩
    rintro (h | h | h)
    · exact absurd ⟨h.1, h.2.1⟩ hoffer
    · exact absurd ⟨h.1, h.2.1⟩ hproof
    · exact absurd ⟨h.1, h.2.1⟩ hconfirm

theorem map_accepts {ε α β : Type} {x : Except ε α} {f : α → β} : (∃ b, x.map f = .ok b) ↔ ∃ a, x = .ok a := by
  cases x with
  | error e => exact ⟨fun ⟨_, h⟩ => (nomatch h), fun ⟨_, h⟩ => (nomatch h)⟩
  | ok a => exact ⟨fun _ => ⟨a, rfl⟩, fun _ => ⟨f a, rfl⟩⟩

theorem decodeTyped_accepts (r : List UInt8) : (∃ t, decodeTyped r = .ok t) ↔ WellTyped r := by
  unfold decodeTyped
  cases r with
  | nil =>
      refine ⟨fun ⟨_, h⟩ => (nomatch h), ?_⟩
      rintro (h | h | h)
      · cases h.1
      · cases h.1
      · cases h.1
  | cons b l =>
      dsimp only
      by_cases hoffer : b = recordOffer
      · rw [if_pos hoffer, map_accepts, decodeOfferRecord_accepts]
        refine ⟨.inl, ?_⟩
        rintro (h | h | h)
        · exact h
        · exact absurd (hoffer.symm.trans h.2.1) (by decide)
        · exact absurd (hoffer.symm.trans h.2.1) (by decide)
      rw [if_neg hoffer]
      by_cases hproof : b = recordProof
      · rw [if_pos hproof, map_accepts, decodeProof_accepts]
        refine ⟨fun h => .inr (.inl h), ?_⟩
        rintro (h | h | h)
        · exact absurd h.2.1 hoffer
        · exact h
        · exact absurd (hproof.symm.trans h.2.1) (by decide)
      rw [if_neg hproof]
      by_cases hconfirm : b = recordConfirm
      · rw [if_pos hconfirm, map_accepts, decodeConfirmation_accepts]
        refine ⟨fun h => .inr (.inr h), ?_⟩
        rintro (h | h | h)
        · exact absurd h.2.1 hoffer
        · exact absurd h.2.1 hproof
        · exact h
      · rw [if_neg hconfirm]
        refine ⟨fun ⟨_, h⟩ => (nomatch h), ?_⟩
        rintro (h | h | h)
        · exact absurd h.2.1 hoffer
        · exact absurd h.2.1 hproof
        · exact absurd h.2.1 hconfirm

/-! ### UTF-8 -/

/-- A character that is not ASCII has a high byte first. -/
theorem utf8EncodeChar_cases (c : Char) :
    (c.toNat < 128 ∧ String.utf8EncodeChar c = [UInt8.ofNat c.toNat]) ∨
      ∃ b ∈ String.utf8EncodeChar c, 128 ≤ b.toNat := by
  by_cases hc : c.toNat < 128
  · left
    refine ⟨hc, ?_⟩
    rw [String.utf8EncodeChar]
    exact if_pos (Nat.le_of_lt_succ hc)
  · right
    have hv : ¬ c.val.toNat ≤ 0x7f := fun h => hc (Nat.lt_succ_of_le h)
    unfold String.utf8EncodeChar
    dsimp only
    rw [if_neg hv]
    -- the first byte of two, three or four
    split
    · refine ⟨_, List.mem_cons_self, ?_⟩
      rw [UInt8.toNat_ofNat']
      omega
    · split
      · refine ⟨_, List.mem_cons_self, ?_⟩
        rw [UInt8.toNat_ofNat']
        omega
      · refine ⟨_, List.mem_cons_self, ?_⟩
        rw [UInt8.toNat_ofNat']
        omega

/-- A text of ASCII bytes is made of their characters. -/
theorem utf8_ascii {s : List Char} {l : List UInt8} (hl : ∀ b ∈ l, b.toNat < 128) :
    s.flatMap String.utf8EncodeChar = l ↔ s = decodeAscii l := by
  constructor
  · rintro rfl
    induction s with
    | nil => rfl
    | cons c s ih =>
        rw [List.flatMap_cons] at hl ⊢
        obtain ⟨hc, hs⟩ := List.forall_mem_append.mp hl
        rcases utf8EncodeChar_cases c with ⟨hlt, henc⟩ | ⟨b, hb, hge⟩
        · have hchar : Char.ofNat (UInt8.ofNat c.toNat).toNat = c := by
            rw [UInt8.toNat_ofNat', Nat.mod_eq_of_lt (by omega), Char.ofNat_toNat]
          rw [henc, decodeAscii_append, ← ih hs]
          exact congrArg (· :: s) hchar.symm
        · exact absurd (hc b hb) (Nat.not_lt.mpr hge)
  · rintro rfl
    induction l with
    | nil => rfl
    | cons b l ih =>
        obtain ⟨hb, hl⟩ := List.forall_mem_cons.mp hl
        have henc : String.utf8EncodeChar (Char.ofNat b.toNat) = [b] := by
          rw [String.utf8EncodeChar]
          have hv : (Char.ofNat b.toNat).val.toNat = b.toNat := toNat_decodeAscii hb
          rw [hv, if_pos (Nat.le_of_lt_succ hb), UInt8.ofNat_toNat]
        rw [decodeAscii, List.map_cons, List.flatMap_cons, henc]
        exact congrArg (b :: ·) (ih hl)

theorem WellTyped.length_le {r : List UInt8} (h : WellTyped r) : r.length ≤ 160 := by
  rcases h with h | h | h
  · rw [h.1]
    decide
  · rw [h.1]
    decide
  · rw [h.1]
    decide

/-- The firmware takes the text of a record that is well typed. -/
theorem importRecord_ok {text r : List UInt8} :
    (∃ t, importRecord text = .ok (r, t)) ↔ WellTyped r ∧ r ≠ [] ∧ text = transportPrefix ++ b64Encode r := by
  constructor
  · rintro ⟨t, h⟩
    unfold importRecord at h
    cases hdecode : decodeTransport text 160 with
    | error e =>
        rw [hdecode] at h
        cases h
    | ok record =>
        rw [hdecode] at h
        change (decodeTyped record >>= fun typed => .ok (record, typed)) = .ok (r, t) at h
        cases htyped : decodeTyped record with
        | error e =>
            rw [htyped] at h
            cases h
        | ok typed =>
            rw [htyped] at h
            cases h
            obtain ⟨hne, -, htext⟩ := decodeTransport_ok hdecode
            exact ⟨(decodeTyped_accepts r).mp ⟨t, htyped⟩, hne, htext⟩
  · rintro ⟨hr, hne, rfl⟩
    obtain ⟨t, ht⟩ := (decodeTyped_accepts r).mpr hr
    refine ⟨t, ?_⟩
    rw [importRecord, decodeTransport_eq hne hr.length_le]
    show (decodeTyped r >>= fun typed => .ok (r, typed)) = .ok (r, t)
    rw [ht]
    rfl

theorem inspectRecord_length {r : List UInt8} {k : RecordKind} (h : inspectRecord r = .ok k) :
    r.length = k.expected := by
  unfold inspectRecord at h
  split at h
  · rename_i hkind
    split at h
    · cases h
    · cases h
      exact hkind.1
  · split at h
    · rename_i hkind
      split at h
      · cases h
      · cases h
        exact hkind.1
    · split at h
      · rename_i hkind
        split at h
        · cases h
        · cases h
          exact hkind.1
      · cases h

theorem decodeRecord_ok {text : String} {r : List UInt8} :
    decodeRecord text = .ok r ↔ WellTyped r ∧ r ≠ [] ∧ text.toList = recordPrefix ++ decodeAscii (b64Encode r) := by
  unfold decodeRecord
  by_cases hrecord : recordPrefix <+: text.toList
  · obtain ⟨body, hbody⟩ := hrecord
    have hstart : recordPrefix <+: text.toList := ⟨body, hbody⟩
    rw [if_neg (not_not_intro hstart), ← hbody, List.drop_left]
    cases hcanonical : canonicalB64url body with
    | error e =>
        refine ⟨nofun, fun h => ?_⟩
        rw [canonicalB64url_ok.mpr ⟨h.2.1, List.append_cancel_left h.2.2⟩] at hcanonical
        cases hcanonical
    | ok raw =>
        obtain ⟨hne, rfl⟩ := canonicalB64url_ok.mp hcanonical
        have hsame : r ≠ [] ∧ recordPrefix ++ decodeAscii (b64Encode raw) = recordPrefix ++ decodeAscii (b64Encode r) →
            r = raw := by
          rintro ⟨hr, heq⟩
          have hagain := canonicalB64url_ok.mpr ⟨hr, List.append_cancel_left heq⟩
          rw [hcanonical] at hagain
          exact (Except.ok.inj hagain).symm
        show (inspectRecord raw >>= fun kind =>
          if raw.length ≠ kind.expected then .error .unknownRecord else .ok raw) = .ok r ↔ _
        cases hinspect : inspectRecord raw with
        | error e =>
            refine ⟨nofun, fun h => ?_⟩
            obtain rfl := hsame h.2
            obtain ⟨k, hk⟩ := (inspectRecord_accepts r).mpr h.1
            exact nomatch hinspect.symm.trans hk
        | ok kind =>
            show (if raw.length ≠ kind.expected then .error .unknownRecord
              else .ok raw : Except RecordError (List UInt8)) = .ok r ↔ _
            rw [if_neg (not_not_intro (inspectRecord_length hinspect))]
            constructor
            · intro h
              cases h
              exact ⟨(inspectRecord_accepts r).mp ⟨kind, hinspect⟩, hne, rfl⟩
            · intro h
              rw [hsame h.2]
  · rw [if_pos hrecord]
    exact ⟨nofun, fun h => absurd ⟨_, h.2.2.symm⟩ hrecord⟩

/-- **Records.**  The host takes a text for a record exactly when the firmware takes its UTF-8 bytes, and
for the same one. -/
theorem records_alike (text : String) (r : List UInt8) :
    decodeRecord text = .ok r ↔ ∃ t, importRecord (utf8Bytes text) = .ok (r, t) := by
  have hascii : ∀ b ∈ transportPrefix ++ b64Encode r, b.toNat < 128 := by
    intro b hb
    rcases List.mem_append.mp hb with hb | hb
    · have htable : ∀ b ∈ transportPrefix, b.toNat < 128 := by decide +kernel
      exact htable b hb
    · obtain ⟨v, rfl⟩ := mem_b64Encode hb
      exact (digit_plain v).1
  have hrecord : recordPrefix = decodeAscii transportPrefix := by decide +kernel
  rw [decodeRecord_ok, importRecord_ok, utf8Bytes, utf8_ascii hascii, decodeAscii_append, hrecord]

end LoraMesh