import Mathlib.Algebra.Group.Nat.Defs
import Mathlib.Data.Nat.Basic
import LoraMesh.Lib.Runs

/-!
# Lib — values under a change counter

A machine whose every step moves a 32-bit counter by one if it changes a value, and leaves the
counter alone if not.  Whoever remembers the counter can tell from it, without a history, that
the value has not changed since: fewer than `2 ^ 32` changes that leave the counter where it was
are none.

* `Counts step f g`: `g` counts the changes of `f`.
* `Counts.held`: a counter found where it was has stood still, and so has the value.
-/

namespace LoraMesh

variable {σ ι : Type*} {α : Type*} [DecidableEq α] (step : σ → ι → σ) (f : σ → α) (g : σ → UInt32)

/-- Every step moves `g` by one exactly if it changes `f`. -/
def Counts : Prop := ∀ s i, g (step s i) = if f (step s i) = f s then g s else g s + 1

/-- The steps of a run that change `f`. -/
def changes (s : σ) : List ι → ℕ
  | [] => 0
  | i :: is => (if f (step s i) = f s then 0 else 1) + changes (step s i) is

variable {step f g}

theorem changes_eq_zero (is : List ι) :
    ∀ {s : σ}, changes step f s is = 0 → ∀ q ∈ visited step s is, f q = f s := by
  induction is with
  | nil =>
      intro s _ q hq
      rw [List.mem_singleton.mp hq]
  | cons i is ih =>
      intro s h q hq
      obtain ⟨h₁, h₂⟩ := Nat.add_eq_zero_iff.mp h
      have hf : f (step s i) = f s := by
        by_contra hne
        rw [if_neg hne] at h₁
        cases h₁
      rcases List.mem_cons.mp hq with rfl | hq
      · rfl
      · exact (ih h₂ q hq).trans hf

theorem Counts.run_eq (hc : Counts step f g) (is : List ι) :
    ∀ s : σ, g (run step s is) = g s + UInt32.ofNat (changes step f s is) := by
  induction is with
  | nil => exact fun s => by simp [changes]
  | cons i is ih =>
      intro s
      rw [run_cons, ih, hc s i, changes]
      by_cases hf : f (step s i) = f s
      · rw [if_pos hf, if_pos hf, Nat.zero_add]
      · rw [if_neg hf, if_neg hf, UInt32.add_assoc, UInt32.ofNat_add]
        rfl

/-- A counter found where it was has stood still. -/
theorem Counts.held (hc : Counts step f g) {s : σ} {is : List ι}
    (hn : changes step f s is < 2 ^ 32) (hg : g (run step s is) = g s) :
    ∀ q ∈ visited step s is, f q = f s := by
  refine changes_eq_zero is ?_
  rw [hc.run_eq] at hg
  have h := congrArg UInt32.toNat hg
  have hlt := (g s).toNat_lt
  rw [UInt32.toNat_add, UInt32.toNat_ofNat'] at h
  omega

end LoraMesh
