import Mathlib

/-!
# Lib — programs that run from one wait to the next

A program over a shared state runs to an answer or stops at a wait, the rest of it still to come.
Its triples have two postconditions: one for the answer, and one for every wait it may be found
standing at.

* `triple_iff`: what a triple says of a run.
-/

namespace LoraMesh

open Std.Do

variable {σ α : Type} {P I : σ → Prop} {Q : α → σ → Prop} {m : OptionT (StateM σ) α}

/-- What holds of a program's run, at its answer and at its waits. -/
theorem triple_iff :
    ⦃fun s => ⌜P s⌝⦄ m ⦃post⟨fun a s => ⌜Q a s⌝, fun _ s => ⌜I s⌝⟩⦄ ↔
      ∀ s, P s →
        match m.run s with
        | (some a, s') => Q a s'
        | (none, s') => I s' := by
  have key (s : σ) :
      (wp⟦m⟧ (post⟨fun a s => ⌜Q a s⌝, fun _ s => ⌜I s⌝⟩) s).down ↔
        match m.run s with
        | (some a, s') => Q a s'
        | (none, s') => I s' := by
    simp only [WP.wp, PredTrans.apply_pushOption, PredTrans.apply_pushArg]
    simp only [pure, StateT.run, OptionT.run, PredTrans.pure, PredTrans.apply, Id.run]
    rcases m s with ⟨_ | a, s'⟩
    · exact Iff.rfl
    · exact Iff.rfl
  exact ⟨fun h s hs => (key s).mp (h s hs), fun h s hs => (key s).mpr (h s hs)⟩

/-- The rule of consequence. -/
theorem triple_mono {P' I' : σ → Prop} {Q' : α → σ → Prop}
    (h : ⦃fun s => ⌜P s⌝⦄ m ⦃post⟨fun a s => ⌜Q a s⌝, fun _ s => ⌜I s⌝⟩⦄) (hp : ∀ s, P' s → P s)
    (hq : ∀ a s, Q a s → Q' a s) (hi : ∀ s, I s → I' s) :
    ⦃fun s => ⌜P' s⌝⦄ m ⦃post⟨fun a s => ⌜Q' a s⌝, fun _ s => ⌜I' s⌝⟩⦄ := by
  refine triple_iff.mpr fun s hs => ?_
  have h := triple_iff.mp h s (hp s hs)
  generalize m.run s = r at h ⊢
  obtain ⟨_ | a, s'⟩ := r
  · exact hi s' h
  · exact hq a s' h

/-- What a program keeps, it keeps to its end or to the wait it stops at. -/
theorem run_of_triple (h : ⦃fun s => ⌜P s⌝⦄ m ⦃post⟨fun _ s => ⌜I s⌝, fun _ s => ⌜I s⌝⟩⦄) {s : σ}
    (hs : P s) : I (m.run s).2 := by
  have h := triple_iff.mp h s hs
  generalize m.run s = r at h ⊢
  obtain ⟨_ | a, s'⟩ := r
  · exact h
  · exact h

/-- A program that first looks at the state. -/
theorem triple_get {Q : α → σ → Prop} {k : σ → OptionT (StateM σ) α}
    (h : ∀ s, P s → ⦃fun s => ⌜P s⌝⦄ k s ⦃post⟨fun a s => ⌜Q a s⌝, fun _ s => ⌜I s⌝⟩⦄) :
    ⦃fun s => ⌜P s⌝⦄ (do let s ← get; k s) ⦃post⟨fun a s => ⌜Q a s⌝, fun _ s => ⌜I s⌝⟩⦄ :=
  triple_iff.mpr fun s hs => triple_iff.mp (h s hs) s hs

/-- A program after another. -/
theorem bind_run {β : Type} (m : OptionT (StateM σ) α) (f : α → OptionT (StateM σ) β) (s : σ) :
    (m >>= f).run s =
      match m.run s with
      | (some a, s) => (f a).run s
      | (none, s) => (none, s) := by
  have h : (m >>= f).run s = match m.run s with
      | (a, s) => (match a with | some a => f a | none => pure none : StateM σ (Option β)) s := rfl
  rw [h]
  rcases m.run s with ⟨_ | a, s⟩
  · rfl
  · rfl

end LoraMesh
