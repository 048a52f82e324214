import LoraMesh.Core.Pairing

/-!
# Core — Transport

The text form of a pairing record (`mesh-core/src/pairing.rs`): a prefix and base64url without
padding.

* `b64Decode_encode`, `b64Encode_decode`: the two are inverse, tails of one and two bytes included.
* `pairing_codec`: one text for each record, and one record for each offer, proof and confirmation.
-/

namespace LoraMesh

def transportPrefix : List UInt8 := ascii "LMESH1:"

def b64Alphabet : List UInt8 :=
  ascii "ABCDEFGHIJKLMNOPQRSTUVWXYZabcdefghijklmnopqrstuvwxyz0123456789-_"

theorem length_b64Alphabet : b64Alphabet.length = 64 := by decide +kernel

/-- Exact base64url length of `n` bytes. -/
def b64EncodedLen (n : ℕ) : ℕ := (n * 4 + 2) / 3

/-- Exact text length of a record. -/
def transportEncodedLen (recordLen : ℕ) : ℕ := transportPrefix.length + b64EncodedLen recordLen

theorem and63_lt (n : UInt32) : (n &&& 63).toNat < b64Alphabet.length := by
  rw [length_b64Alphabet, UInt32.toNat_and]
  exact Nat.lt_succ_of_le Nat.and_le_right

/-- The character of the low six bits. -/
def b64Char (n : UInt32) : UInt8 := b64Alphabet.get ⟨(n &&& 63).toNat, and63_lt n⟩

def b64Val (c : UInt8) : Except PairError UInt8 :=
  if 65 ≤ c ∧ c ≤ 90 then .ok (c - 65)
  else if 97 ≤ c ∧ c ≤ 122 then .ok (c - 97 + 26)
  else if 48 ≤ c ∧ c ≤ 57 then .ok (c - 48 + 52)
  else if c = 45 then .ok 62
  else if c = 95 then .ok 63
  else .error .badCharset

/-- Four characters for three bytes, three for two, two for one. -/
def b64Encode : List UInt8 → List UInt8
  | [] => []
  | [a] =>
    let n := a.toUInt32 <<< 16
    [b64Char (n >>> 18), b64Char (n >>> 12)]
  | [a, b] =>
    let n := (a.toUInt32 <<< 16) ||| (b.toUInt32 <<< 8)
    [b64Char (n >>> 18), b64Char (n >>> 12), b64Char (n >>> 6)]
  | a :: b :: c :: l =>
    let n := (a.toUInt32 <<< 16) ||| (b.toUInt32 <<< 8) ||| c.toUInt32
    b64Char (n >>> 18) :: b64Char (n >>> 12) :: b64Char (n >>> 6) :: b64Char n :: b64Encode l

/-- The bytes of the characters; the unused bits of the last one are zero. -/
def b64Decode : List UInt8 → Except PairError (List UInt8)
  | [] => .ok []
  | [_] => .error .badLength
  | [a, b] => do
    let a ← b64Val a
    let b ← b64Val b
    if b &&& 0x0f ≠ 0 then .error .badCharset
    else .ok [(a <<< 2) ||| (b >>> 4)]
  | [a, b, c] => do
    let a ← b64Val a
    let b ← b64Val b
    let c ← b64Val c
    if c &&& 0x03 ≠ 0 then .error .badCharset
    else .ok [(a <<< 2) ||| (b >>> 4), ((b &&& 0x0f) <<< 4) ||| ((c >>> 2) &&& 0x0f)]
  | a :: b :: c :: d :: l => do
    let a ← b64Val a
    let b ← b64Val b
    let c ← b64Val c
    let d ← b64Val d
    let n := (a.toUInt32 <<< 18) ||| (b.toUInt32 <<< 12) ||| (c.toUInt32 <<< 6) ||| d.toUInt32
    let l ← b64Decode l
    return (n >>> 16).toUInt8 :: (n >>> 8).toUInt8 :: n.toUInt8 :: l

def b64EncodeInto (input : List UInt8) (outLen : ℕ) : Except PairError (List UInt8) :=
  if outLen < b64EncodedLen input.length then .error .bufferTooSmall else .ok (b64Encode input)

/-- The bytes that `n` characters need. -/
def b64Need (n : ℕ) : ℕ :=
  let tail := n % 4
  let mainLen := n - tail
  (mainLen / 4) * 3 + (if tail = 2 then 1 else if tail = 3 then 2 else 0)

/-- Without padding a length of `4 k + 1` stands for nothing. -/
def b64DecodeInto (input : List UInt8) (outLen : ℕ) : Except PairError (List UInt8) :=
  if input.length % 4 = 1 then .error .badLength
  else if outLen < b64Need input.length then .error .bufferTooSmall
  else b64Decode input

/-- A record as text, into a buffer of `outLen` bytes. -/
def transportEncode (record : List UInt8) (outLen : ℕ) : Except PairError (List UInt8) :=
  if record = [] then .error .badLength
  else if outLen < transportEncodedLen record.length then .error .bufferTooSmall
  else do
    let text ← b64EncodeInto record (outLen - transportPrefix.length)
    return transportPrefix ++ text

/-- The record of a text, into a buffer of `outLen` bytes. -/
def decodeTransport (text : List UInt8) (outLen : ℕ) : Except PairError (List UInt8) :=
  if text.length < transportPrefix.length ∨ text.take transportPrefix.length ≠ transportPrefix then
    .error .badPrefix
  else
    let body := text.drop transportPrefix.length
    if body = [] then .error .badLength else b64DecodeInto body outLen

example : b64Encode [] = [] := by rw [b64Encode]

example (c : UInt8) : b64Decode [c] = .error .badLength := by rw [b64Decode]

example : transportEncode [1, 2, 3] 11 = .ok (ascii "LMESH1:AQID") := by decide +kernel

/-! ### Characters -/

/-- The character of `v` modulo 64. -/
def b64Digit (v : ℕ) : UInt8 :=
  b64Alphabet.get ⟨v % 64, by rw [length_b64Alphabet]; exact Nat.mod_lt v (by decide)⟩

theorem b64Char_eq (n : UInt32) : b64Char n = b64Digit n.toNat := by
  have hmask : (n &&& 63).toNat = n.toNat % 64 := by
    rw [UInt32.toNat_and]
    exact Nat.and_two_pow_sub_one_eq_mod _ 6
  unfold b64Char b64Digit
  simp only [hmask]

theorem b64Digit_mod (v : ℕ) : b64Digit (v % 64) = b64Digit v := by
  unfold b64Digit
  simp only [Nat.mod_mod]

theorem b64Digit_congr {u v : ℕ} (h : u % 64 = v % 64) : b64Digit u = b64Digit v := by
  rw [← b64Digit_mod u, h, b64Digit_mod]

theorem b64Val_digit (v : ℕ) : b64Val (b64Digit v) = .ok (UInt8.ofNat (v % 64)) := by
  have htable : ∀ i : Fin 64, (b64Val (b64Digit i.1)).toOption = some (UInt8.ofNat i.1) := by decide +kernel
  have hv := htable ⟨v % 64, Nat.mod_lt v (by decide)⟩
  rw [b64Digit_mod] at hv
  cases hval : b64Val (b64Digit v) with
  | error e =>
      rw [hval] at hv
      cases hv
  | ok x =>
      rw [hval] at hv
      exact congrArg Except.ok (Option.some.inj hv)

theorem b64Digit_val {c v : UInt8} (h : b64Val c = .ok v) : v.toNat < 64 ∧ b64Digit v.toNat = c := by
  have htable : ∀ i : Fin 256, (b64Val (UInt8.ofNat i.1)).toOption.all
      (fun v => decide (v.toNat < 64 ∧ b64Digit v.toNat = UInt8.ofNat i.1)) = true := by decide +kernel
  have hc := htable ⟨c.toNat, c.toNat_lt⟩
  rw [UInt8.ofNat_toNat, h] at hc
  exact of_decide_eq_true hc

/-! ### Groups of bits -/

/-- Bits that do not overlap add up. -/
theorem or_eq_add {x y : ℕ} (k : ℕ) (hx : 2 ^ k ∣ x) (hy : y < 2 ^ k) : x ||| y = x + y := by
  obtain ⟨a, rfl⟩ := hx
  exact (Nat.two_pow_add_eq_or_of_lt hy a).symm

theorem toNat_shiftLeft {a : UInt8} {k : UInt32} (hk : k.toNat < 24 := by decide) :
    (a.toUInt32 <<< k).toNat = a.toNat * 2 ^ k.toNat := by
  have ha : a.toNat < 2 ^ 8 := a.toNat_lt
  have hlt : a.toNat * 2 ^ k.toNat < 2 ^ 32 := by
    calc a.toNat * 2 ^ k.toNat < 2 ^ 8 * 2 ^ k.toNat := Nat.mul_lt_mul_of_pos_right ha (Nat.two_pow_pos _)
      _ = 2 ^ (8 + k.toNat) := (Nat.pow_add 2 8 k.toNat).symm
      _ ≤ 2 ^ 32 := Nat.pow_le_pow_right (by decide) (by omega)
  rw [UInt32.toNat_shiftLeft, Nat.mod_eq_of_lt (by omega : k.toNat < 32), Nat.shiftLeft_eq]
  exact Nat.mod_eq_of_lt hlt

/-- Two bytes as the top of a word, and a third. -/
theorem toNat_word2 (a b : UInt8) :
    ((a.toUInt32 <<< 16) ||| (b.toUInt32 <<< 8)).toNat = a.toNat * 65536 + b.toNat * 256 := by
  have hb := b.toNat_lt
  rw [UInt32.toNat_or, toNat_shiftLeft, toNat_shiftLeft]
  exact or_eq_add 16 (Nat.dvd_mul_left _ _) (by show b.toNat * 256 < 65536; omega)

theorem toNat_word3 (a b c : UInt8) :
    ((a.toUInt32 <<< 16) ||| (b.toUInt32 <<< 8) ||| c.toUInt32).toNat =
      a.toNat * 65536 + b.toNat * 256 + c.toNat := by
  rw [UInt32.toNat_or, toNat_word2]
  exact or_eq_add 8 (by omega) c.toNat_lt

/-- Four values of six bits as a word. -/
theorem toNat_word4 {a b c d : UInt8} (hb : b.toNat < 64) (hc : c.toNat < 64) (hd : d.toNat < 64) :
    ((a.toUInt32 <<< 18) ||| (b.toUInt32 <<< 12) ||| (c.toUInt32 <<< 6) ||| d.toUInt32).toNat =
      a.toNat * 262144 + b.toNat * 4096 + c.toNat * 64 + d.toNat := by
  rw [UInt32.toNat_or, UInt32.toNat_or, UInt32.toNat_or, toNat_shiftLeft, toNat_shiftLeft, toNat_shiftLeft]
  show a.toNat * 262144 ||| b.toNat * 4096 ||| c.toNat * 64 ||| d.toNat = _
  rw [or_eq_add (x := a.toNat * 262144) 18 (by omega) (by omega),
    or_eq_add (x := a.toNat * 262144 + b.toNat * 4096) 12 (by omega) (by omega),
    or_eq_add 6 (by omega) (by omega)]

/-- A character of a word, by the six bits that it shows. -/
theorem b64Char_word {n k : UInt32} {v : ℕ} (hk : k.toNat < 32)
    (h : n.toNat / 2 ^ k.toNat % 64 = v % 64) : b64Char (n >>> k) = b64Digit v := by
  rw [b64Char_eq, UInt32.toNat_shiftRight, Nat.mod_eq_of_lt hk, Nat.shiftRight_eq_div_pow]
  exact b64Digit_congr h

/-- A group of three bytes in digits. -/
theorem b64Encode_group (a b c : UInt8) (l : List UInt8) :
    b64Encode (a :: b :: c :: l) = b64Digit (a.toNat / 4) :: b64Digit (a.toNat * 16 + b.toNat / 16) ::
      b64Digit (b.toNat * 4 + c.toNat / 64) :: b64Digit c.toNat :: b64Encode l := by
  have hn := toNat_word3 a b c
  have hb := b.toNat_lt
  have hc := c.toNat_lt
  rw [b64Encode]
  generalize (a.toUInt32 <<< 16) ||| (b.toUInt32 <<< 8) ||| c.toUInt32 = n at hn
  have h₁ : b64Char (n >>> 18) = b64Digit (a.toNat / 4) :=
    b64Char_word (by decide) (by show n.toNat / 262144 % 64 = _; omega)
  have h₂ : b64Char (n >>> 12) = b64Digit (a.toNat * 16 + b.toNat / 16) :=
    b64Char_word (by decide) (by show n.toNat / 4096 % 64 = _; omega)
  have h₃ : b64Char (n >>> 6) = b64Digit (b.toNat * 4 + c.toNat / 64) :=
    b64Char_word (by decide) (by show n.toNat / 64 % 64 = _; omega)
  have h₄ : b64Char n = b64Digit c.toNat := (b64Char_eq n).trans (b64Digit_congr (by omega))
  rw [h₁, h₂, h₃, h₄]

theorem b64Encode_two (a b : UInt8) :
    b64Encode [a, b] = [b64Digit (a.toNat / 4), b64Digit (a.toNat * 16 + b.toNat / 16), b64Digit (b.toNat * 4)] := by
  have hn := toNat_word2 a b
  have hb := b.toNat_lt
  rw [b64Encode]
  generalize (a.toUInt32 <<< 16) ||| (b.toUInt32 <<< 8) = n at hn
  have h₁ : b64Char (n >>> 18) = b64Digit (a.toNat / 4) :=
    b64Char_word (by decide) (by show n.toNat / 262144 % 64 = _; omega)
  have h₂ : b64Char (n >>> 12) = b64Digit (a.toNat * 16 + b.toNat / 16) :=
    b64Char_word (by decide) (by show n.toNat / 4096 % 64 = _; omega)
  have h₃ : b64Char (n >>> 6) = b64Digit (b.toNat * 4) :=
    b64Char_word (by decide) (by show n.toNat / 64 % 64 = _; omega)
  rw [h₁, h₂, h₃]

theorem b64Encode_one (a : UInt8) : b64Encode [a] = [b64Digit (a.toNat / 4), b64Digit (a.toNat * 16)] := by
  have hn : (a.toUInt32 <<< 16).toNat = a.toNat * 65536 := toNat_shiftLeft
  rw [b64Encode]
  generalize a.toUInt32 <<< 16 = n at hn
  have h₁ : b64Char (n >>> 18) = b64Digit (a.toNat / 4) :=
    b64Char_word (by decide) (by show n.toNat / 262144 % 64 = _; omega)
  have h₂ : b64Char (n >>> 12) = b64Digit (a.toNat * 16) :=
    b64Char_word (by decide) (by show n.toNat / 4096 % 64 = _; omega)
  rw [h₁, h₂]

/-! ### Decoding -/

/-- The byte across the first two characters of a group, and that across the next two. -/
theorem first_byte {x y : UInt8} (hx : x.toNat < 64) (hy : y.toNat < 64) :
    (x <<< 2) ||| (y >>> 4) = UInt8.ofNat (x.toNat * 4 + y.toNat / 16) := by
  apply UInt8.toNat_inj.mp
  have hshl : (x <<< 2).toNat = x.toNat * 4 := by
    rw [UInt8.toNat_shiftLeft, Nat.shiftLeft_eq]
    exact Nat.mod_eq_of_lt (by show x.toNat * 4 < 256; omega)
  have hshr : (y >>> 4).toNat = y.toNat / 16 := by
    rw [UInt8.toNat_shiftRight, Nat.shiftRight_eq_div_pow]
    rfl
  rw [UInt8.toNat_or, hshl, hshr, or_eq_add 2 (by omega) (by omega), UInt8.toNat_ofNat',
    Nat.mod_eq_of_lt (by omega)]

theorem and_low {x : UInt8} {k : ℕ} {m : UInt8} (hm : m.toNat = 2 ^ k - 1) :
    (x &&& m).toNat = x.toNat % 2 ^ k := by
  rw [UInt8.toNat_and, hm, Nat.and_two_pow_sub_one_eq_mod]

theorem second_byte {y z : UInt8} (hz : z.toNat < 64) :
    ((y &&& 0x0f) <<< 4) ||| ((z >>> 2) &&& 0x0f) = UInt8.ofNat (y.toNat % 16 * 16 + z.toNat / 4) := by
  apply UInt8.toNat_inj.mp
  have hshl : ((y &&& 0x0f) <<< 4).toNat = y.toNat % 16 * 16 := by
    rw [UInt8.toNat_shiftLeft, Nat.shiftLeft_eq, and_low (k := 4) rfl]
    exact Nat.mod_eq_of_lt (by show y.toNat % 16 * 16 < 256; omega)
  have hshr : ((z >>> 2) &&& 0x0f).toNat = z.toNat / 4 := by
    rw [and_low (k := 4) rfl, UInt8.toNat_shiftRight, Nat.shiftRight_eq_div_pow]
    show z.toNat / 4 % 16 = _
    omega
  rw [UInt8.toNat_or, hshl, hshr, or_eq_add 4 (by omega) (by omega), UInt8.toNat_ofNat']
  exact (Nat.mod_eq_of_lt (by omega)).symm

theorem b64Decode_group {a b c d x y z w : UInt8} {l r : List UInt8} (ha : b64Val a = .ok x)
    (hb : b64Val b = .ok y) (hc : b64Val c = .ok z) (hd : b64Val d = .ok w) (hl : b64Decode l = .ok r) :
    b64Decode (a :: b :: c :: d :: l) = .ok (UInt8.ofNat (x.toNat * 4 + y.toNat / 16) ::
      UInt8.ofNat (y.toNat * 16 + z.toNat / 4) :: UInt8.ofNat (z.toNat * 64 + w.toNat) :: r) := by
  have hn := toNat_word4 (a := x) (b64Digit_val hb).1 (b64Digit_val hc).1 (b64Digit_val hd).1
  have hz := (b64Digit_val hc).1
  have hw := (b64Digit_val hd).1
  have hrun : b64Decode (a :: b :: c :: d :: l) =
      .ok ((((x.toUInt32 <<< 18) ||| (y.toUInt32 <<< 12) ||| (z.toUInt32 <<< 6) ||| w.toUInt32) >>> 16).toUInt8 ::
        (((x.toUInt32 <<< 18) ||| (y.toUInt32 <<< 12) ||| (z.toUInt32 <<< 6) ||| w.toUInt32) >>> 8).toUInt8 ::
        ((x.toUInt32 <<< 18) ||| (y.toUInt32 <<< 12) ||| (z.toUInt32 <<< 6) ||| w.toUInt32).toUInt8 :: r) := by
    rw [b64Decode, ha, hb, hc, hd, hl]
    rfl
  rw [hrun]
  generalize (x.toUInt32 <<< 18) ||| (y.toUInt32 <<< 12) ||| (z.toUInt32 <<< 6) ||| w.toUInt32 = n at hn
  have h₁ : (n >>> 16).toUInt8 = UInt8.ofNat (x.toNat * 4 + y.toNat / 16) := by
    apply UInt8.toNat_inj.mp
    rw [UInt32.toNat_toUInt8, UInt32.toNat_shiftRight, Nat.shiftRight_eq_div_pow, UInt8.toNat_ofNat']
    show n.toNat / 65536 % 256 = _
    omega
  have h₂ : (n >>> 8).toUInt8 = UInt8.ofNat (y.toNat * 16 + z.toNat / 4) := by
    apply UInt8.toNat_inj.mp
    rw [UInt32.toNat_toUInt8, UInt32.toNat_shiftRight, Nat.shiftRight_eq_div_pow, UInt8.toNat_ofNat']
    show n.toNat / 256 % 256 = _
    omega
  have h₃ : n.toUInt8 = UInt8.ofNat (z.toNat * 64 + w.toNat) := by
    apply UInt8.toNat_inj.mp
    rw [UInt32.toNat_toUInt8, UInt8.toNat_ofNat']
    omega
  rw [h₁, h₂, h₃]

theorem and_low_ne_zero {x m : UInt8} {k : ℕ} (hm : m.toNat = 2 ^ k - 1) : x &&& m ≠ 0 ↔ x.toNat % 2 ^ k ≠ 0 := by
  rw [Ne, ← UInt8.toNat_inj, and_low hm]
  rfl

theorem b64Decode_two {a b x y : UInt8} (ha : b64Val a = .ok x) (hb : b64Val b = .ok y) :
    b64Decode [a, b] =
      if y.toNat % 16 ≠ 0 then .error .badCharset else .ok [UInt8.ofNat (x.toNat * 4 + y.toNat / 16)] := by
  have hrun : b64Decode [a, b] = if y &&& 0x0f ≠ 0 then .error .badCharset else .ok [(x <<< 2) ||| (y >>> 4)] := by
    rw [b64Decode, ha, hb]
    rfl
  rw [hrun, first_byte (b64Digit_val ha).1 (b64Digit_val hb).1]
  simp only [and_low_ne_zero (k := 4) (m := 0x0f) rfl]
  rfl

theorem b64Decode_three {a b c x y z : UInt8} (ha : b64Val a = .ok x) (hb : b64Val b = .ok y)
    (hc : b64Val c = .ok z) :
    b64Decode [a, b, c] =
      if z.toNat % 4 ≠ 0 then .error .badCharset
      else .ok [UInt8.ofNat (x.toNat * 4 + y.toNat / 16), UInt8.ofNat (y.toNat % 16 * 16 + z.toNat / 4)] := by
  have hrun : b64Decode [a, b, c] = if z &&& 0x03 ≠ 0 then .error .badCharset
      else .ok [(x <<< 2) ||| (y >>> 4), ((y &&& 0x0f) <<< 4) ||| ((z >>> 2) &&& 0x0f)] := by
    rw [b64Decode, ha, hb, hc]
    rfl
  rw [hrun, first_byte (b64Digit_val ha).1 (b64Digit_val hb).1, second_byte (b64Digit_val hc).1]
  simp only [and_low_ne_zero (k := 2) (m := 0x03) rfl]
  rfl

/-! ### Round trips -/

theorem ofNat_eq {b : UInt8} {v : ℕ} (h : v % 256 = b.toNat) : UInt8.ofNat v = b := by
  apply UInt8.toNat_inj.mp
  rw [UInt8.toNat_ofNat']
  exact h

theorem toNat_sextet (v : ℕ) : (UInt8.ofNat (v % 64)).toNat = v % 64 := by
  rw [UInt8.toNat_ofNat']
  omega

/-- What is encoded decodes to itself. -/
theorem b64Decode_encode : ∀ l : List UInt8, b64Decode (b64Encode l) = .ok l
  | [] => rfl
  | [a] => by
      have ha := a.toNat_lt
      rw [b64Encode_one, b64Decode_two (b64Val_digit _) (b64Val_digit _), toNat_sextet, toNat_sextet,
        if_neg (by omega), ofNat_eq (b := a) (by omega)]
  | [a, b] => by
      have ha := a.toNat_lt
      have hb := b.toNat_lt
      rw [b64Encode_two, b64Decode_three (b64Val_digit _) (b64Val_digit _) (b64Val_digit _), toNat_sextet,
        toNat_sextet, toNat_sextet, if_neg (by omega), ofNat_eq (b := a) (by omega), ofNat_eq (b := b) (by omega)]
  | a :: b :: c :: l => by
      have ha := a.toNat_lt
      have hb := b.toNat_lt
      have hc := c.toNat_lt
      rw [b64Encode_group, b64Decode_group (b64Val_digit _) (b64Val_digit _) (b64Val_digit _) (b64Val_digit _)
        (b64Decode_encode l), toNat_sextet, toNat_sextet, toNat_sextet, toNat_sextet,
        ofNat_eq (b := a) (by omega), ofNat_eq (b := b) (by omega), ofNat_eq (b := c) (by omega)]

theorem b64Val_bind {c : UInt8} {f : UInt8 → Except PairError (List UInt8)} {l : List UInt8}
    (h : (b64Val c >>= f) = .ok l) : ∃ v, b64Val c = .ok v ∧ f v = .ok l := by
  cases hv : b64Val c with
  | error e =>
      rw [hv] at h
      cases h
  | ok v =>
      rw [hv] at h
      exact ⟨v, rfl, h⟩

/-- What decodes is the encoding of what it decodes to. -/
theorem b64Encode_decode : ∀ {t l : List UInt8}, b64Decode t = .ok l → b64Encode l = t
  | [], l, h => by
      cases h
      rfl
  | [_], l, h => nomatch h
  | [a, b], l, h => by
      have hrun := h
      rw [b64Decode] at h
      obtain ⟨x, hx, h⟩ := b64Val_bind h
      obtain ⟨y, hy, -⟩ := b64Val_bind h
      rw [b64Decode_two hx hy] at hrun
      obtain ⟨hxlt, rfl⟩ := b64Digit_val hx
      obtain ⟨hylt, rfl⟩ := b64Digit_val hy
      split at hrun
      · cases hrun
      rename_i hlow
      cases hrun
      have h₁ : (UInt8.ofNat (x.toNat * 4 + y.toNat / 16)).toNat = x.toNat * 4 + y.toNat / 16 := by
        rw [UInt8.toNat_ofNat', Nat.mod_eq_of_lt (by omega)]
      rw [b64Encode_one, h₁, b64Digit_congr (v := x.toNat) (by omega),
        b64Digit_congr (u := (x.toNat * 4 + y.toNat / 16) * 16) (v := y.toNat) (by omega)]
  | [a, b, c], l, h => by
      have hrun := h
      rw [b64Decode] at h
      obtain ⟨x, hx, h⟩ := b64Val_bind h
      obtain ⟨y, hy, h⟩ := b64Val_bind h
      obtain ⟨z, hz, -⟩ := b64Val_bind h
      rw [b64Decode_three hx hy hz] at hrun
      obtain ⟨hxlt, rfl⟩ := b64Digit_val hx
      obtain ⟨hylt, rfl⟩ := b64Digit_val hy
      obtain ⟨hzlt, rfl⟩ := b64Digit_val hz
      split at hrun
      · cases hrun
      rename_i hlow
      cases hrun
      have h₁ : (UInt8.ofNat (x.toNat * 4 + y.toNat / 16)).toNat = x.toNat * 4 + y.toNat / 16 := by
        rw [UInt8.toNat_ofNat', Nat.mod_eq_of_lt (by omega)]
      have h₂ : (UInt8.ofNat (y.toNat % 16 * 16 + z.toNat / 4)).toNat = y.toNat % 16 * 16 + z.toNat / 4 := by
        rw [UInt8.toNat_ofNat']
        exact Nat.mod_eq_of_lt (by omega)
      have d₁ : b64Digit ((x.toNat * 4 + y.toNat / 16) / 4) = b64Digit x.toNat := b64Digit_congr (by omega)
      have d₂ : b64Digit ((x.toNat * 4 + y.toNat / 16) * 16 + (y.toNat % 16 * 16 + z.toNat / 4) / 16) =
          b64Digit y.toNat := b64Digit_congr (by omega)
      have d₃ : b64Digit ((y.toNat % 16 * 16 + z.toNat / 4) * 4) = b64Digit z.toNat := b64Digit_congr (by omega)
      rw [b64Encode_two, h₁, h₂, d₁, d₂, d₃]
  | a :: b :: c :: d :: t, l, h => by
      have hrun := h
      rw [b64Decode] at h
      obtain ⟨x, hx, h⟩ := b64Val_bind h
      obtain ⟨y, hy, h⟩ := b64Val_bind h
      obtain ⟨z, hz, h⟩ := b64Val_bind h
      obtain ⟨w, hw, h⟩ := b64Val_bind h
      cases hr : b64Decode t with
      | error e =>
          rw [hr] at h
          cases h
      | ok r =>
          rw [b64Decode_group hx hy hz hw hr] at hrun
          cases hrun
          obtain ⟨hxlt, rfl⟩ := b64Digit_val hx
          obtain ⟨hylt, rfl⟩ := b64Digit_val hy
          obtain ⟨hzlt, rfl⟩ := b64Digit_val hz
          obtain ⟨hwlt, rfl⟩ := b64Digit_val hw
          have h₁ : (UInt8.ofNat (x.toNat * 4 + y.toNat / 16)).toNat = x.toNat * 4 + y.toNat / 16 := by
            rw [UInt8.toNat_ofNat', Nat.mod_eq_of_lt (by omega)]
          have h₂ : (UInt8.ofNat (y.toNat * 16 + z.toNat / 4)).toNat = (y.toNat * 16 + z.toNat / 4) % 256 :=
            UInt8.toNat_ofNat'
          have h₃ : (UInt8.ofNat (z.toNat * 64 + w.toNat)).toNat = (z.toNat * 64 + w.toNat) % 256 :=
            UInt8.toNat_ofNat'
          rw [b64Encode_group, h₁, h₂, h₃, b64Encode_decode hr, b64Digit_congr (v := x.toNat) (by omega),
            b64Digit_congr (u := _ * 16 + _) (v := y.toNat) (by omega),
            b64Digit_congr (u := _ * 4 + _) (v := z.toNat) (by omega),
            b64Digit_congr (u := _ % 256) (v := w.toNat) (by omega)]

/-! ### Lengths -/

theorem length_b64Encode : ∀ l : List UInt8, (b64Encode l).length = b64EncodedLen l.length
  | [] => rfl
  | [a] => by simp [b64Encode_one, b64EncodedLen]
  | [a, b] => by simp [b64Encode_two, b64EncodedLen]
  | a :: b :: c :: l => by
      have ih := length_b64Encode l
      rw [b64Encode_group]
      simp only [List.length_cons, ih, b64EncodedLen]
      omega

/-- The room that the decoder asks for is that of what it decodes. -/
theorem b64DecodeInto_eq {t l : List UInt8} (h : b64Decode t = .ok l) (n : ℕ) :
    b64DecodeInto t n = if n < l.length then .error .bufferTooSmall else .ok l := by
  obtain rfl := b64Encode_decode h
  have hlen := length_b64Encode l
  simp only [b64EncodedLen] at hlen
  have hneed : b64Need (b64Encode l).length = l.length := by
    unfold b64Need
    dsimp only
    split
    · omega
    · split
      · omega
      · omega
  rw [b64DecodeInto, if_neg (by omega), h, hneed]

/-- What the decoder returns fits the buffer. -/
theorem b64DecodeInto_ok {t l : List UInt8} {n : ℕ} (h : b64DecodeInto t n = .ok l) :
    b64Decode t = .ok l ∧ l.length ≤ n := by
  have hd : b64Decode t = .ok l := by
    unfold b64DecodeInto at h
    split at h
    · cases h
    · split at h
      · cases h
      · exact h
  refine ⟨hd, ?_⟩
  rw [b64DecodeInto_eq hd] at h
  split at h
  · cases h
  · omega

/-! ### Texts -/

theorem transportEncode_eq {record : List UInt8} {n : ℕ} (hne : record ≠ [])
    (hn : transportEncodedLen record.length ≤ n) :
    transportEncode record n = .ok (transportPrefix ++ b64Encode record) := by
  have hfit : ¬ n - transportPrefix.length < b64EncodedLen record.length := by
    unfold transportEncodedLen at hn
    omega
  rw [transportEncode, if_neg hne, if_neg (Nat.not_lt.mpr hn), b64EncodeInto, if_neg hfit]
  rfl

theorem length_transport (record : List UInt8) :
    (transportPrefix ++ b64Encode record).length = transportEncodedLen record.length := by
  rw [List.length_append, length_b64Encode, transportEncodedLen]

theorem decodeTransport_eq {record : List UInt8} {n : ℕ} (hne : record ≠ []) (hn : record.length ≤ n) :
    decodeTransport (transportPrefix ++ b64Encode record) n = .ok record := by
  have hbody : (b64Encode record) ≠ [] := by
    intro h
    have hd := b64Decode_encode record
    rw [h] at hd
    cases hd
    exact hne rfl
  rw [decodeTransport, if_neg, List.drop_left' rfl]
  · dsimp only
    rw [if_neg hbody, b64DecodeInto_eq (b64Decode_encode record), if_neg (Nat.not_lt.mpr hn)]
  · rw [List.length_append, List.take_left' rfl]
    exact fun h => h.elim (by omega) fun h => h rfl

/-- A text that is accepted is that of the record. -/
theorem decodeTransport_ok {text record : List UInt8} {n : ℕ} (h : decodeTransport text n = .ok record) :
    record ≠ [] ∧ record.length ≤ n ∧ text = transportPrefix ++ b64Encode record := by
  unfold decodeTransport at h
  split at h
  · cases h
  rename_i hprefix
  rw [not_or, Decidable.not_not] at hprefix
  dsimp only at h
  split at h
  · cases h
  rename_i hbody
  obtain ⟨hd, hlen⟩ := b64DecodeInto_ok h
  have henc := b64Encode_decode hd
  refine ⟨?_, hlen, ?_⟩
  · rintro rfl
    exact hbody henc.symm
  · rw [henc]
    conv_lhs => rw [← List.take_append_drop transportPrefix.length text, hprefix.2]

/-- **Canonical records.**  A record and its text determine each other, at the announced lengths; so do
an offer, a proof or a confirmation and its record, which the decoder accepts and no other. -/
theorem pairing_codec :
    (∀ (record : List UInt8) (n m : ℕ), record ≠ [] → transportEncodedLen record.length ≤ n →
      record.length ≤ m →
      ∃ text, transportEncode record n = .ok text ∧ text.length = transportEncodedLen record.length ∧
        decodeTransport text m = .ok record) ∧
    (∀ (text record : List UInt8) (m : ℕ), decodeTransport text m = .ok record →
      record.length ≤ m ∧ text.length = transportEncodedLen record.length ∧
        transportEncode record text.length = .ok text) ∧
    (∀ o : Offer, decodeOfferPayload (encodeOfferPayload o).1 = .ok o ∧
      decodeOfferRecord (encodeOfferRecord o).1 = .ok o) ∧
    (∀ bytes o, decodeOfferPayload bytes = .ok o → (encodeOfferPayload o).1 = bytes) ∧
    (∀ bytes o, decodeOfferRecord bytes = .ok o → (encodeOfferRecord o).1 = bytes) ∧
    (∀ p : Proof, p.role = roleL ∨ p.role = roleR → ∃ r, encodeProof p = .ok r ∧ decodeProof r.1 = .ok p) ∧
    (∀ bytes p, decodeProof bytes = .ok p → ∃ r, encodeProof p = .ok r ∧ r.1 = bytes) ∧
    (∀ c : Confirmation, c.role = roleL ∨ c.role = roleR →
      ∃ r, encodeConfirmation c = .ok r ∧ decodeConfirmation r.1 = .ok c) ∧
    ∀ bytes c, decodeConfirmation bytes = .ok c → ∃ r, encodeConfirmation c = .ok r ∧ r.1 = bytes := by
  refine ⟨fun record n m hne hn hm => ?_, fun text record m h => ?_, fun o => ?_,
    fun _ _ => encodeOfferPayload_decode, fun _ _ => encodeOfferRecord_decode, fun p hrole => ?_,
    fun _ _ => encodeProof_decode, fun c hrole => ?_, fun _ _ => encodeConfirmation_decode⟩
  · exact ⟨_, transportEncode_eq hne hn, length_transport record, decodeTransport_eq hne hm⟩
  · obtain ⟨hne, hm, rfl⟩ := decodeTransport_ok h
    exact ⟨hm, length_transport record, transportEncode_eq hne (Nat.le_of_eq (length_transport record).symm)⟩
  · exact ⟨decodeOfferPayload_encode o, decodeOfferRecord_encode o⟩
  · have henc : ∃ r, encodeProof p = .ok r := ⟨_, if_neg fun h => hrole.elim h.1 h.2⟩
    obtain ⟨r, hr⟩ := henc
    exact ⟨r, hr, decodeProof_encode hr⟩
  · have henc : ∃ r, encodeConfirmation c = .ok r := ⟨_, if_neg fun h => hrole.elim h.1 h.2⟩
    obtain ⟨r, hr⟩ := henc
    exact ⟨r, hr, decodeConfirmation_encode hr⟩

theorem pairing_codec_sample :
    ∃ text, transportEncode [1, 2, 3] 16 = .ok text ∧ text.length = transportEncodedLen 3 ∧
      decodeTransport text 3 = .ok [1, 2, 3] :=
  pairing_codec.1 [1, 2, 3] 16 3 nofun (by decide) (Nat.le_refl 3)

end LoraMesh
