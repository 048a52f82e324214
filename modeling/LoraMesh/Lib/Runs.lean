import Mathlib.Logic.Basic

/-!
# Lib — runs of a deterministic machine

A machine is a step function `σ → ι → σ`.  A run feeds it a list of inputs; every choice of the
environment is part of an input, so a theorem over every run is one over every behaviour of the
environment.

* `Along step ok s is`: every input of the run is `ok` in the state that takes it.
* `run_invariant`: what one permitted step preserves, a permitted run preserves.
-/

namespace LoraMesh

variable {σ ι : Type*} (step : σ → ι → σ)

/-- The state after the inputs. -/
def run (s : σ) : List ι → σ
  | [] => s
  | i :: is => run (step s i) is

/-- Every state of the run, the first and the last included. -/
def visited (s : σ) : List ι → List σ
  | [] => [s]
  | i :: is => s :: visited (step s i) is

/-- Every input meets `ok` in the state that takes it. -/
def Along (ok : σ → ι → Prop) (s : σ) : List ι → Prop
  | [] => True
  | i :: is => ok s i ∧ Along ok (step s i) is

instance Along.decidable (ok : σ → ι → Prop) [∀ s i, Decidable (ok s i)] :
    ∀ (s : σ) (is : List ι), Decidable (Along step ok s is)
  | _, [] => .isTrue trivial
  | s, i :: is =>
    have := Along.decidable ok (step s i) is
    inferInstanceAs (Decidable (ok s i ∧ Along step ok (step s i) is))

@[simp] theorem run_nil (s : σ) : run step s [] = s := rfl

@[simp] theorem run_cons (s : σ) (i : ι) (is : List ι) :
    run step s (i :: is) = run step (step s i) is := rfl

theorem run_append (is js : List ι) : ∀ s : σ, run step s (is ++ js) = run step (run step s is) js := by
  induction is with
  | nil => exact fun _ => rfl
  | cons i is ih => exact fun s => ih (step s i)

variable {step}

theorem first_mem_visited (is : List ι) (s : σ) : s ∈ visited step s is := by
  cases is with
  | nil => exact List.mem_cons_self
  | cons i is => exact List.mem_cons_self

theorem run_mem_visited (is : List ι) : ∀ s : σ, run step s is ∈ visited step s is := by
  induction is with
  | nil => exact fun s => List.mem_singleton.mpr rfl
  | cons i is ih => exact fun s => List.mem_cons_of_mem s (ih (step s i))

/-- What every permitted step preserves, every permitted run preserves. -/
theorem run_invariant {ok : σ → ι → Prop} {I : σ → Prop}
    (keep : ∀ s i, I s → ok s i → I (step s i)) (is : List ι) :
    ∀ {s : σ}, I s → Along step ok s is → I (run step s is) := by
  induction is with
  | nil => exact fun h _ => h
  | cons i is ih => exact fun h ha => ih (keep _ i h ha.1) ha.2

/-- `run_invariant` where every input is permitted. -/
theorem run_invariant_of_all {I : σ → Prop} (keep : ∀ s i, I s → I (step s i)) (is : List ι) :
    ∀ {s : σ}, I s → I (run step s is) := by
  induction is with
  | nil => exact id
  | cons i is ih => exact fun h => ih (keep _ i h)

/-- A condition on the inputs alone. -/
theorem along_of_forall {ok : ι → Prop} : ∀ {is : List ι} {s : σ}, (∀ i ∈ is, ok i) →
    Along step (fun _ i => ok i) s is
  | [], _, _ => trivial
  | i :: _, _, h => ⟨h i List.mem_cons_self, along_of_forall fun j hj => h j (List.mem_cons_of_mem i hj)⟩

theorem Along.mono {ok ok' : σ → ι → Prop} (h : ∀ s i, ok s i → ok' s i) (is : List ι) :
    ∀ {s : σ}, Along step ok s is → Along step ok' s is := by
  induction is with
  | nil => exact id
  | cons i is ih => exact fun ha => ⟨h _ i ha.1, ih ha.2⟩

/-- What an invariant of all inputs gives holds along every run. -/
theorem along_invariant {I : σ → Prop} {ok : σ → ι → Prop} (keep : ∀ s i, I s → I (step s i))
    (h : ∀ s i, I s → ok s i) (is : List ι) : ∀ {s : σ}, I s → Along step ok s is := by
  induction is with
  | nil => exact fun _ => trivial
  | cons i is ih => exact fun hs => ⟨h _ i hs, ih (keep _ i hs)⟩

/-- What an invariant of the permitted inputs gives holds along every permitted run. -/
theorem Along.of_invariant {I : σ → Prop} {ok ok' : σ → ι → Prop} (keep : ∀ s i, I s → ok s i → I (step s i))
    (h : ∀ s i, I s → ok s i → ok' s i) (is : List ι) :
    ∀ {s : σ}, I s → Along step ok s is → Along step ok' s is := by
  induction is with
  | nil => exact fun _ _ => trivial
  | cons i is ih => exact fun hs ha => ⟨h _ i hs ha.1, ih (keep _ i hs ha.1) ha.2⟩

/-- Two conditions that are one wherever an invariant of all inputs holds. -/
theorem along_congr {I : σ → Prop} {ok ok' : σ → ι → Prop} (keep : ∀ s i, I s → I (step s i))
    (h : ∀ s i, I s → (ok s i ↔ ok' s i)) (is : List ι) :
    ∀ {s : σ}, I s → (Along step ok s is ↔ Along step ok' s is) := by
  induction is with
  | nil => exact fun _ => Iff.rfl
  | cons i is ih => exact fun hs => and_congr (h _ i hs) (ih (keep _ i hs))

end LoraMesh
