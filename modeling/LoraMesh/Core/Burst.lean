import Mathlib.Data.List.GetD
import LoraMesh.Core.Codec
import LoraMesh.Lib.Crc

/-!
# Core — Burst

What the CRC of a frame catches: every error within sixteen bits in a row.  The bits of a frame are
counted in the order in which the CRC takes them, the most significant of each byte first.

* `crc16_run`: the CRC is a run of the register over those bits.
* `accepted_residue`: an accepted frame clears the register.
-/

namespace LoraMesh

/-- The bits of a byte, the most significant first. -/
def byteBits (b : UInt8) : List Bool := List.ofFn fun i : Fin 8 => b.toNat.testBit (7 - i)

/-- The bits of a byte string. -/
def bitsOf (l : List UInt8) : List Bool := l.flatMap byteBits

/-- The polynomial of the frame CRC. -/
abbrev crcPoly : BitVec 16 := 0x1021

/-! ### The register -/

theorem crcShift_toBitVec (c : UInt16) : (crcShift c).toBitVec = Crc.step crcPoly c.toBitVec false := by
  have htop : (c &&& 0x8000 != 0) = c.toBitVec.msb := by
    have hmask : (c &&& 0x8000).toBitVec = if c.toBitVec.msb then BitVec.twoPow 16 15 else 0#16 := by
      rw [BitVec.msb_eq_getLsbD_last]
      exact BitVec.and_twoPow c.toBitVec 15
    rw [Bool.eq_iff_iff, bne_iff_ne, Ne, ← UInt16.toBitVec_inj, hmask]
    cases c.toBitVec.msb <;> decide
  rw [crcShift, Crc.step, htop, Bool.xor_false]
  cases c.toBitVec.msb with
  | true => simp
  | false => simp

theorem repeat_toBitVec (c : UInt16) : ∀ n : ℕ,
    (Nat.repeat crcShift n c).toBitVec = Crc.run crcPoly c.toBitVec (List.replicate n false)
  | 0 => rfl
  | n + 1 => by
      rw [List.replicate_succ', Crc.run_append, ← repeat_toBitVec c n]
      exact crcShift_toBitVec _

theorem getD_byteBits (b : UInt8) (i : ℕ) :
    (byteBits b).getD i false = (decide (i < 8) && b.toNat.testBit (7 - i)) := by
  rw [List.getD_eq_getElem?_getD, byteBits, List.getElem?_ofFn]
  by_cases hi : i < 8
  · simp [hi]
  · simp [hi]

theorem getMsbD_toBitVec (c : UInt16) (i : ℕ) :
    c.toBitVec.getMsbD i = (decide (i < 16) && c.toNat.testBit (15 - i)) :=
  BitVec.getMsbD_eq_getLsbD _ _

/-- The bits of a byte are those of the register that holds it at the top. -/
theorem getMsbD_top (b : UInt8) (i : ℕ) :
    (b.toUInt16 <<< 8 : UInt16).toBitVec.getMsbD i = (byteBits b).getD i false := by
  rw [getMsbD_toBitVec, getD_byteBits, UInt16.toNat_shiftLeft, Nat.testBit_mod_two_pow]
  show (_ && (_ && (b.toNat <<< 8).testBit (15 - i))) = _
  rw [Nat.testBit_shiftLeft]
  by_cases hi : i < 8
  · have hsub : 15 - i - 8 = 7 - i := by omega
    simp [hi, hsub, show i < 16 by omega, show 15 - i < 16 by omega, show 8 ≤ 15 - i by omega]
  · by_cases h16 : i < 16
    · simp [hi, show ¬ 8 ≤ 15 - i by omega]
    · simp [hi, h16]

theorem crcByte_toBitVec (c : UInt16) (b : UInt8) :
    (crcByte c b).toBitVec = Crc.run crcPoly c.toBitVec (byteBits b) := by
  have hzeros : List.replicate 8 false = List.zipWith xor (byteBits b) (byteBits b) := by
    simp [byteBits, List.zipWith_self]
  have htop : Crc.run crcPoly (b.toUInt16 <<< 8 : UInt16).toBitVec (byteBits b) = 0 :=
    (Crc.run_eq_zero rfl (by simp [byteBits])).mpr (getMsbD_top b)
  rw [crcByte, repeat_toBitVec, UInt16.toBitVec_xor, hzeros, Crc.run_xor crcPoly _ _ rfl, htop]
  exact BitVec.xor_zero

theorem foldl_crcByte : ∀ (l : List UInt8) (c : UInt16),
    (l.foldl crcByte c).toBitVec = Crc.run crcPoly c.toBitVec (bitsOf l)
  | [], _ => rfl
  | b :: l, c => by
      show _ = Crc.run crcPoly c.toBitVec (byteBits b ++ bitsOf l)
      rw [List.foldl_cons, foldl_crcByte l, crcByte_toBitVec, Crc.run_append]

/-- The CRC is a run of the register over the bits. -/
theorem crc16_run (l : List UInt8) : (crc16 l).toBitVec = Crc.run crcPoly 0xFFFF (bitsOf l) :=
  foldl_crcByte l 0xFFFF

/-- The bits of a checksum are those of the register. -/
theorem getMsbD_be16 (c : UInt16) (i : ℕ) : c.toBitVec.getMsbD i = (bitsOf (be16 c)).getD i false := by
  have hbytes : bitsOf (be16 c) =
      byteBits (UInt8.ofNat (c.toNat / 2 ^ 8)) ++ byteBits (UInt8.ofNat c.toNat) := by
    show _ ++ (_ ++ []) = _
    rw [List.append_nil]
    rfl
  have hlen : (byteBits (UInt8.ofNat (c.toNat / 2 ^ 8))).length = 8 := List.length_ofFn
  have hbit (x j : ℕ) (hj : j < 8) : (UInt8.ofNat x).toNat.testBit j = x.testBit j := by
    rw [UInt8.toNat_ofNat', Nat.testBit_mod_two_pow, decide_eq_true hj, Bool.true_and]
  rw [hbytes, getMsbD_toBitVec]
  by_cases hi : i < 8
  · rw [List.getD_append _ _ _ _ (by omega), getD_byteBits, hbit _ _ (by omega), Nat.testBit_div_two_pow,
      decide_eq_true hi, decide_eq_true (by omega : i < 16)]
    congr 2
    omega
  · rw [List.getD_append_right _ _ _ _ (by omega), hlen, getD_byteBits, hbit _ _ (by omega)]
    by_cases h16 : i < 16
    · rw [decide_eq_true h16, decide_eq_true (by omega : i - 8 < 8)]
      congr 2
      omega
    · rw [decide_eq_false h16, decide_eq_false (by omega : ¬ i - 8 < 8)]
      rfl

/-! ### Frames -/

/-- An accepted frame clears the register. -/
theorem accepted_residue {f body : List UInt8} {h : Header} (hd : decodeFrame f = .ok (h, body)) :
    Crc.run crcPoly 0xFFFF (bitsOf f) = 0 := by
  obtain ⟨-, rfl⟩ := decodeFrame_iff.mp hd
  rw [frameBytes, bitsOf, List.flatMap_append]
  show Crc.run crcPoly 0xFFFF (bitsOf _ ++ bitsOf _) = 0
  rw [Crc.run_append, ← crc16_run]
  have hlen : (bitsOf (be16 (crc16 (layout h body)))).length ≤ 16 := Nat.le_refl 16
  exact (Crc.run_eq_zero rfl hlen).mpr (getMsbD_be16 _)

theorem byteBits_xor (a b : UInt8) : byteBits (a ^^^ b) = List.zipWith xor (byteBits a) (byteBits b) :=
  List.ext_getElem (by simp [byteBits]) fun i _ _ => by simp [byteBits]

theorem bitsOf_xor : ∀ {f e : List UInt8}, e.length = f.length →
    bitsOf (List.zipWith (· ^^^ ·) f e) = List.zipWith xor (bitsOf f) (bitsOf e)
  | [], [], _ => rfl
  | a :: f, b :: e, h => by
      show byteBits (a ^^^ b) ++ bitsOf (List.zipWith (· ^^^ ·) f e) =
        List.zipWith xor (byteBits a ++ bitsOf f) (byteBits b ++ bitsOf e)
      have hab : (byteBits a).length = (byteBits b).length := by rw [byteBits, byteBits, List.length_ofFn, List.length_ofFn]
      rw [List.zipWith_append hab, byteBits_xor, bitsOf_xor (Nat.succ.inj h)]

theorem length_bitsOf (l : List UInt8) : (bitsOf l).length = 8 * l.length := by
  simp [bitsOf, byteBits, List.length_flatMap, Nat.mul_comm]

/-- A byte is zero when its bits are. -/
theorem eq_zero_of_byteBits {b : UInt8} (h : ∀ x ∈ byteBits b, x = false) : b = 0 := by
  apply UInt8.toNat_inj.mp
  refine Nat.eq_of_testBit_eq fun i => ?_
  by_cases hi : i < 8
  · have hmem : b.toNat.testBit (7 - (7 - i)) ∈ byteBits b := List.mem_ofFn.mpr ⟨⟨7 - i, by omega⟩, rfl⟩
    have hbit := h _ hmem
    rw [show 7 - (7 - i) = i by omega] at hbit
    rw [hbit]
    exact (Nat.zero_testBit i).symm
  · rw [Nat.testBit_lt_two_pow (Nat.lt_of_lt_of_le b.toNat_lt (Nat.pow_le_pow_right (by decide) (by omega)))]
    exact (Nat.zero_testBit i).symm

/-- **Burst errors.**  A frame that is hit by an error of at most sixteen bits in a row is rejected. -/
theorem decodeFrame_burst {f e body : List UInt8} {h : Header} {i : ℕ}
    (hd : decodeFrame f = .ok (h, body)) (hlen : e.length = f.length) (hne : ∃ b ∈ e, b ≠ 0)
    (hin : ∀ j, (bitsOf e)[j]? = some true → i ≤ j ∧ j < i + 16) :
    ∃ r, decodeFrame (List.zipWith (· ^^^ ·) f e) = .error r := by
  cases hd' : decodeFrame (List.zipWith (· ^^^ ·) f e) with
  | error r => exact ⟨r, rfl⟩
  | ok p =>
      exfalso
      -- both frames clear the register, so the error does
      have hbits : (bitsOf f).length = (bitsOf e).length := by rw [length_bitsOf, length_bitsOf, hlen]
      have herror : Crc.run crcPoly 0 (bitsOf e) = 0 := by
        have hboth := Crc.run_xor crcPoly 0xFFFF 0 hbits
        rw [← bitsOf_xor hlen, accepted_residue hd] at hboth
        have hres : Crc.run crcPoly (0xFFFF ^^^ 0) (bitsOf (List.zipWith (· ^^^ ·) f e)) = 0 := accepted_residue hd'
        rw [hres] at hboth
        exact (BitVec.zero_xor.symm.trans hboth.symm)
      have hzero := Crc.burst rfl hin herror
      obtain ⟨b, hb, hb0⟩ := hne
      exact hb0 (eq_zero_of_byteBits fun x hx => hzero x (List.mem_flatMap.mpr ⟨b, hb, hx⟩))

namespace Sample

/-- Two bits that are fifteen apart, in the CRC and the byte before it. -/
def burst : List UInt8 := List.replicate 29 0 ++ [1, 0, 2]

theorem burst_within : ∀ j, (bitsOf burst)[j]? = some true → 239 ≤ j ∧ j < 239 + 16 := by
  have hbits : ∀ j < (bitsOf burst).length, (bitsOf burst)[j]? = some true → 239 ≤ j ∧ j < 239 + 16 := by
    decide +kernel
  intro j hj
  exact hbits j (List.getElem?_eq_some_iff.mp hj).1 hj

end Sample

/-- The text of a byte, hit in its last byte and its CRC. -/
theorem decodeFrame_burst_sample :
    ∃ r, decodeFrame (List.zipWith (· ^^^ ·) (frameBytes Sample.labHeader Sample.labBody) Sample.burst) =
      .error r :=
  decodeFrame_burst (decodeFrame_iff.mpr ⟨Sample.lab_encodable, rfl⟩)
    (by rw [length_frameBytes]; rfl) ⟨1, by decide, by decide⟩ Sample.burst_within

end LoraMesh
