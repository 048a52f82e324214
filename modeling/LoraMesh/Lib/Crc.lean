import Mathlib.Data.Nat.Notation
import Mathlib.Data.List.Basic

/-!
# Lib — cyclic redundancy codes, a bit at a time

A register of `w` bits that takes a string of bits, the most significant of a word first.

* `Crc.run_xor`: what a run leaves is linear in the register and the bits.
* `Crc.run_eq_zero`: at most `w` bits clear the register just when they are its top bits.
* `Crc.burst`: for a polynomial with a constant term, a string that is zero but for `w` places in a
  row clears an empty register only when it is zero.
-/

namespace LoraMesh

namespace Crc

variable {w : ℕ} {p s t : BitVec w} {b c : Bool} {bs cs : List Bool}

/-- One bit in, the top bit out: the polynomial is folded back in when they differ. -/
def step (p s : BitVec w) (b : Bool) : BitVec w :=
  (s <<< 1) ^^^ (if s.msb ^^ b then p else 0)

/-- What a string of bits leaves of the register. -/
def run (p s : BitVec w) (bs : List Bool) : BitVec w := bs.foldl (step p) s

theorem run_append (p s : BitVec w) (bs cs : List Bool) : run p s (bs ++ cs) = run p (run p s bs) cs :=
  List.foldl_append

/-! ### Linearity -/

theorem step_xor (p s t : BitVec w) (b c : Bool) :
    step p (s ^^^ t) (b ^^ c) = step p s b ^^^ step p t c := by
  have hfeed : ((s ^^^ t).msb ^^ (b ^^ c)) = ((s.msb ^^ b) ^^ (t.msb ^^ c)) := by
    rw [BitVec.msb_xor]
    cases s.msb <;> cases t.msb <;> cases b <;> cases c <;> rfl
  unfold step
  rw [hfeed, BitVec.shiftLeft_xor_distrib]
  generalize (s.msb ^^ b) = x
  generalize (t.msb ^^ c) = y
  refine BitVec.eq_of_getLsbD_eq fun i _ => ?_
  cases x <;> cases y <;> simp only [BitVec.getLsbD_xor, Bool.xor_true, Bool.xor_false, Bool.not_true,
    Bool.not_false, Bool.false_eq_true, if_true, if_false, BitVec.ofNat_eq_ofNat, BitVec.getLsbD_zero]
  all_goals
    cases (s <<< 1).getLsbD i <;> cases (t <<< 1).getLsbD i <;> cases p.getLsbD i <;> rfl

theorem run_xor (p : BitVec w) : ∀ (s t : BitVec w) {bs cs : List Bool}, bs.length = cs.length →
    run p (s ^^^ t) (List.zipWith xor bs cs) = run p s bs ^^^ run p t cs
  | s, t, [], [], _ => rfl
  | s, t, b :: bs, c :: cs, h => by
      show run p (step p (s ^^^ t) (b ^^ c)) (List.zipWith xor bs cs) = _
      rw [step_xor, run_xor p _ _ (Nat.succ.inj h)]
      rfl

/-! ### Clearing the register -/

/-- Where nothing is folded back the register moves up. -/
theorem getMsbD_step (h : s.msb = b) (i : ℕ) : (step p s b).getMsbD i = s.getMsbD (i + 1) := by
  subst h
  rw [step, Bool.xor_self, if_neg Bool.false_ne_true, BitVec.getMsbD_xor, BitVec.getMsbD_shiftLeft,
    BitVec.ofNat_eq_ofNat, BitVec.getMsbD_zero, Bool.xor_false]

/-- A polynomial with a constant term shows in the lowest bit of the register. -/
theorem getLsbD_step (hp : p.getLsbD 0 = true) (s : BitVec w) (b : Bool) :
    (step p s b).getLsbD 0 = (s.msb ^^ b) := by
  rw [step, BitVec.getLsbD_xor, BitVec.getLsbD_shiftLeft]
  cases s.msb ^^ b with
  | true => simp [hp]
  | false => simp

/-- At most `w` bits clear the register just when they are its top bits and the rest is clear. -/
theorem run_eq_zero (hp : p.getLsbD 0 = true) : ∀ {s : BitVec w} {bs : List Bool}, bs.length ≤ w →
    (run p s bs = 0 ↔ ∀ i, s.getMsbD i = bs.getD i false)
  | s, [], _ => by
      refine ⟨fun h i => ?_, fun h => BitVec.eq_of_getMsbD_eq fun i _ => (h i).trans ?_⟩
      · obtain rfl : s = 0 := h
        exact BitVec.getMsbD_zero
      · exact BitVec.getMsbD_zero.symm
  | s, b :: bs, hlen => by
      rw [List.length_cons] at hlen
      show run p (step p s b) bs = 0 ↔ _
      rw [run_eq_zero hp (by omega)]
      constructor
      · intro h
        -- the lowest bit is clear, so the bit was the top one
        have hlow : (step p s b).getLsbD 0 = false := by
          have hlast := h (w - 1)
          rw [BitVec.getMsbD_eq_getLsbD, List.getD_eq_getElem?_getD,
            List.getElem?_eq_none (by omega)] at hlast
          rwa [decide_eq_true (by omega), Bool.true_and, Nat.sub_self] at hlast
        have hmsb : s.msb = b := by
          rw [getLsbD_step hp] at hlow
          exact bne_eq_false_iff_eq.mp hlow
        intro i
        cases i with
        | zero => exact (BitVec.msb_eq_getMsbD_zero s).symm.trans hmsb
        | succ i => exact (getMsbD_step hmsb i).symm.trans (h i)
      · intro h i
        have hmsb : s.msb = b := (BitVec.msb_eq_getMsbD_zero s).trans (h 0)
        exact (getMsbD_step hmsb i).trans (h (i + 1))

/-- Zeros clear only an empty register. -/
theorem run_zeros (hp : p.getLsbD 0 = true) : ∀ {n : ℕ} {s : BitVec w},
    run p s (List.replicate n false) = 0 ↔ s = 0
  | 0, s => Iff.rfl
  | n + 1, s => by
      have hw : [false].length ≤ w := by
        rcases w.eq_zero_or_pos with rfl | hw
        · rw [BitVec.getLsbD_of_ge p 0 (Nat.le_refl 0)] at hp
          cases hp
        · exact hw
      show run p (run p s [false]) (List.replicate n false) = 0 ↔ _
      rw [run_zeros hp, run_eq_zero hp hw]
      constructor
      · intro h
        refine BitVec.eq_of_getMsbD_eq fun i _ => (h i).trans ?_
        cases i <;> exact BitVec.getMsbD_zero.symm
      · rintro rfl i
        cases i <;> exact BitVec.getMsbD_zero

/-- **Burst.**  Bits that are zero but for `w` places in a row clear the empty register only when they
are all zero. -/
theorem burst (hp : p.getLsbD 0 = true) {bs : List Bool} {i : ℕ}
    (hin : ∀ j, bs[j]? = some true → i ≤ j ∧ j < i + w) (h : run p 0 bs = 0) : ∀ b ∈ bs, b = false := by
  have hbefore : bs.take i = List.replicate (bs.take i).length false := by
    refine List.eq_replicate_iff.mpr ⟨rfl, fun b hb => ?_⟩
    obtain ⟨j, hj⟩ := List.mem_iff_getElem?.mp hb
    rw [List.getElem?_take] at hj
    split at hj
    · rename_i hlt
      cases b with
      | false => rfl
      | true => exact absurd (hin j hj).1 (Nat.not_le.mpr hlt)
    · cases hj
  have hafter : bs.drop (i + w) = List.replicate (bs.drop (i + w)).length false := by
    refine List.eq_replicate_iff.mpr ⟨rfl, fun b hb => ?_⟩
    obtain ⟨j, hj⟩ := List.mem_iff_getElem?.mp hb
    rw [List.getElem?_drop] at hj
    cases b with
    | false => rfl
    | true => exact absurd (hin _ hj).2 (Nat.not_lt.mpr (Nat.le_add_right _ j))
  have hsplit : bs = bs.take i ++ ((bs.drop i).take w ++ bs.drop (i + w)) := by
    rw [← List.drop_drop, List.take_append_drop, List.take_append_drop]
  rw [hsplit, run_append, run_append, hbefore, run_zeros hp |>.mpr rfl, hafter, run_zeros hp] at h
  have hmiddle : ∀ b ∈ (bs.drop i).take w, b = false := by
    intro b hb
    obtain ⟨j, hj⟩ := List.mem_iff_getElem?.mp hb
    have hbit := (run_eq_zero hp (List.length_take_le w _)).mp h j
    rw [List.getD_eq_getElem?_getD, hj] at hbit
    exact hbit.symm.trans BitVec.getMsbD_zero
  intro b hb
  rw [hsplit, hbefore, hafter] at hb
  rcases List.mem_append.mp hb with hb | hb
  · exact List.eq_of_mem_replicate hb
  rcases List.mem_append.mp hb with hb | hb
  · exact hmiddle b hb
  · exact List.eq_of_mem_replicate hb

end Crc

end LoraMesh
