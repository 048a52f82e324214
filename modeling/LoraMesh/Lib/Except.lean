import Mathlib.Tactic.TypeStar

/-!
# Lib — results that may be an error

* `bind_eq_ok`, `mapError_eq_ok`: a computation that goes well, step by step.
* `Avoids`: a computation gives no error of one kind; of a sequence, each step that is reached.
-/

namespace LoraMesh

section

variable {α β ε ε' : Type}

@[simp] theorem bind_eq_ok {r : Except ε α} {f : α → Except ε β} {b : β} :
    (r >>= f) = .ok b ↔ ∃ a, r = .ok a ∧ f a = .ok b := by
  cases r with
  | error x => exact ⟨fun h => (by cases h), fun ⟨_, h, _⟩ => (by cases h)⟩
  | ok a => exact ⟨fun h => ⟨a, rfl, h⟩, fun ⟨_, h, hf⟩ => by cases h; exact hf⟩

@[simp] theorem pure_eq_ok {a b : α} : (pure a : Except ε α) = .ok b ↔ a = b :=
  Except.ok.injEq a b ▸ Iff.rfl

theorem mapError_eq_ok {r : Except ε α} {g : ε → ε'} {a : α} : r.mapError g = .ok a ↔ r = .ok a := by
  cases r with
  | error x => exact ⟨fun h => (by cases h), fun h => (by cases h)⟩
  | ok b => exact ⟨fun h => (by cases h; rfl), fun h => (by cases h; rfl)⟩

/-- No error of this kind. -/
def Avoids (bad : ε → Prop) (r : Except ε α) : Prop := ∀ e, r = .error e → ¬ bad e

variable {bad : ε → Prop}

theorem avoids_ok {a : α} : Avoids bad (.ok a) := by
  intro e he
  cases he

theorem avoids_error {e : ε} : Avoids bad (.error e : Except ε α) ↔ ¬ bad e := by
  constructor
  · intro h
    exact h e rfl
  · intro h e' he
    cases he
    exact h

theorem avoids_bind {r : Except ε α} {f : α → Except ε β} :
    Avoids bad (r >>= f) ↔ Avoids bad r ∧ ∀ a, r = .ok a → Avoids bad (f a) := by
  cases r with
  | error e =>
      refine Iff.trans ?_ (and_iff_left (fun _ ha => by cases ha)).symm
      exact avoids_error.trans avoids_error.symm
  | ok a =>
      constructor
      · intro h
        exact ⟨avoids_ok, fun _ ha => by cases ha; exact h⟩
      · intro h
        exact h.2 a rfl

theorem avoids_mapError {bad : ε' → Prop} {r : Except ε α} {g : ε → ε'} :
    Avoids bad (r.mapError g) ↔ Avoids (fun e => bad (g e)) r := by
  cases r with
  | error e =>
      rw [avoids_error]
      exact avoids_error
  | ok a => exact ⟨fun _ => avoids_ok, fun _ => avoids_ok⟩

theorem avoids_of_none (h : ∀ e, ¬ bad e) (r : Except ε α) : Avoids bad r := fun e _ => h e

/-- Where every error is of the kind, only a value avoids it. -/
theorem avoids_of_all (h : ∀ e, bad e) {r : Except ε α} : Avoids bad r ↔ ∃ a, r = .ok a := by
  cases r with
  | error e =>
      refine avoids_error.trans ⟨fun he => absurd (h e) he, ?_⟩
      rintro ⟨a, ha⟩
      cases ha
  | ok a => exact ⟨fun _ => ⟨a, rfl⟩, fun _ => avoids_ok⟩

end

end LoraMesh
