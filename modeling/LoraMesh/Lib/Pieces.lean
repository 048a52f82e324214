import Mathlib.Logic.Basic

/-!
# Lib — pieces of a stream

A stream cut at a delimiter: the pieces that the delimiter ends, and what is left after the last.

* `terminated d xs`: the pieces of `xs` that end with `d`, without it.
* `pieces_induction`: induction on a stream, a piece at a time.
-/

namespace LoraMesh

variable {α : Type*} [DecidableEq α] {d : α}

/-- The pieces that the delimiter ends. -/
def terminated (d : α) (xs : List α) : List (List α) := (xs.splitOn d).dropLast

theorem terminated_of_not_mem {xs : List α} (h : d ∉ xs) : terminated d xs = [] := by
  rw [terminated, List.splitOn_eq_singleton h]
  rfl

@[simp] theorem terminated_nil : terminated d [] = [] := terminated_of_not_mem List.not_mem_nil

/-- The first piece. -/
theorem terminated_append {p : List α} (h : d ∉ p) (xs : List α) :
    terminated d (p ++ d :: xs) = p :: terminated d xs := by
  rw [terminated, List.splitOn_append_cons_self_of_not_mem h]
  exact List.dropLast_cons_of_ne_nil (List.splitOn_ne_nil d xs)

/-- A stream with a delimiter has a first piece. -/
theorem exists_piece {xs : List α} (h : d ∈ xs) : ∃ p rest, xs = p ++ d :: rest ∧ d ∉ p := by
  induction xs with
  | nil => cases h
  | cons x xs ih =>
      by_cases hx : x = d
      · exact ⟨[], xs, by rw [hx, List.nil_append], List.not_mem_nil⟩
      · obtain ⟨p, rest, rfl, hp⟩ := ih ((List.mem_cons.mp h).resolve_left (Ne.symm hx))
        refine ⟨x :: p, rest, rfl, fun hmem => ?_⟩
        rcases List.mem_cons.mp hmem with rfl | hmem
        · exact hx rfl
        · exact hp hmem

theorem takeWhile_piece {p : List α} (h : d ∉ p) (rest : List α) :
    (p ++ d :: rest).takeWhile (· ≠ d) = p := by
  have hne : ∀ x ∈ p, decide (x ≠ d) = true := fun x hx => decide_eq_true fun hd => h (hd ▸ hx)
  rw [List.takeWhile_append_of_pos hne, List.takeWhile_cons_of_neg (by simp), List.append_nil]

theorem dropWhile_piece {p : List α} (h : d ∉ p) (rest : List α) :
    (p ++ d :: rest).dropWhile (· ≠ d) = d :: rest := by
  have hne : ∀ x ∈ p, decide (x ≠ d) = true := fun x hx => decide_eq_true fun hd => h (hd ▸ hx)
  rw [List.dropWhile_append_of_pos hne, List.dropWhile_cons_of_neg (by simp)]

/-- What follows the first piece is shorter. -/
theorem length_rest_lt {xs : List α} (h : d ∈ xs) : (xs.dropWhile (· ≠ d)).tail.length < xs.length := by
  obtain ⟨p, rest, rfl, hp⟩ := exists_piece h
  rw [dropWhile_piece hp, List.tail_cons, List.length_append, List.length_cons]
  omega

/-- A stream is a tail without delimiters, or a piece before a stream. -/
theorem pieces_induction {P : List α → Prop} (tail : ∀ p, d ∉ p → P p)
    (piece : ∀ p rest, d ∉ p → P rest → P (p ++ d :: rest)) (xs : List α) : P xs := by
  induction hn : xs.length using Nat.strongRecOn generalizing xs with
  | ind n ih =>
      by_cases h : d ∈ xs
      · obtain ⟨p, rest, rfl, hp⟩ := exists_piece h
        refine piece p rest hp (ih rest.length ?_ rest rfl)
        rw [← hn, List.length_append, List.length_cons]
        omega
      · exact tail xs h

end LoraMesh
