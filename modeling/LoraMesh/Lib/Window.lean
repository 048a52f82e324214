import Mathlib.Data.Set.Insert

/-!
# Lib — the sliding window over the natural numbers

A window of width `W` remembers the greatest number accepted and, of the numbers accepted
within `W` of it, exactly which.  A number is accepted at most once (`refuses_offer`,
`Refuses.offer`), and what the window remembers was accepted (`seen_offer`).  It answers as the set
of all numbers accepted would (`Tracks.answer`, `Tracks.offer`).
-/

namespace LoraMesh

/-- The answer to a number offered to a window. -/
inductive Verdict where
  | accepted
  | duplicate
  | stale
  deriving DecidableEq, Repr

/-- Nothing accepted yet, or the greatest number accepted with the recent ones. -/
inductive Window where
  | fresh
  | upto (top : ℕ) (seen : Set ℕ)

namespace Window

open Classical in
/-- Offer `n` to a window of width `W`. -/
noncomputable def offer (W : ℕ) : Window → ℕ → Verdict × Window
  | fresh, n => (.accepted, upto n {n})
  | upto top seen, n =>
    if top < n then (.accepted, upto n (insert n {m | m ∈ seen ∧ n < m + W}))
    else if n + W ≤ top then (.stale, upto top seen)
    else if n ∈ seen then (.duplicate, upto top seen)
    else (.accepted, upto top (insert n seen))

/-- The window remembers accepting `n`. -/
def Seen : Window → ℕ → Prop
  | fresh, _ => False
  | upto _ seen, n => n ∈ seen

/-- The window will not accept `n`. -/
def Refuses (W : ℕ) : Window → ℕ → Prop
  | fresh, _ => False
  | upto top seen, n => n ≤ top ∧ (n + W ≤ top ∨ n ∈ seen)

theorem refuses_iff {W : ℕ} {w : Window} {n : ℕ} :
    w.Refuses W n ↔ (w.offer W n).1 ≠ .accepted := by
  cases w with
  | fresh => simp [Refuses, offer]
  | upto top seen =>
      rcases Nat.lt_or_ge top n with h | h
      · simp [Refuses, offer, h]
      · by_cases hs : n + W ≤ top
        · simp [Refuses, offer, Nat.not_lt.mpr h, hs, h]
        · by_cases hn : n ∈ seen <;> simp [Refuses, offer, Nat.not_lt.mpr h, hs, h, hn]

/-- After an offer the number is refused. -/
theorem refuses_offer {W : ℕ} (w : Window) (n : ℕ) : (w.offer W n).2.Refuses W n := by
  cases w with
  | fresh => exact ⟨le_rfl, .inr rfl⟩
  | upto top seen =>
      rw [offer]
      split
      · exact ⟨le_rfl, .inr (Set.mem_insert _ _)⟩
      · rename_i h
        split
        · rename_i hs; exact ⟨by omega, .inl hs⟩
        · split
          · rename_i hn; exact ⟨by omega, .inr hn⟩
          · exact ⟨by omega, .inr (Set.mem_insert _ _)⟩

/-- A refused number stays refused, whatever is offered next. -/
theorem Refuses.offer {W : ℕ} {w : Window} {n : ℕ} (h : w.Refuses W n) (m : ℕ) :
    (w.offer W m).2.Refuses W n := by
  cases w with
  | fresh => exact h.elim
  | upto top seen =>
      obtain ⟨hle, hn⟩ := h
      rw [Window.offer]
      split
      · rename_i hm
        by_cases hw : n + W ≤ m
        · exact ⟨by omega, .inl hw⟩
        · exact ⟨by omega, .inr (.inr ⟨hn.resolve_left (by omega), by omega⟩)⟩
      · split
        · exact ⟨hle, hn⟩
        · split
          · exact ⟨hle, hn⟩
          · exact ⟨hle, hn.imp id .inr⟩

/-- An offer adds at most the offered number, and that only when it accepts it. -/
theorem seen_offer {W : ℕ} {w : Window} {n m : ℕ} (h : (w.offer W m).2.Seen n) :
    w.Seen n ∨ (n = m ∧ (w.offer W m).1 = .accepted) := by
  cases w with
  | fresh => exact .inr ⟨h, rfl⟩
  | upto top seen =>
      rw [offer] at h ⊢
      split at h
      · rename_i hm
        rw [if_pos hm]
        exact h.elim (fun e => .inr ⟨e, rfl⟩) fun hn => .inl hn.1
      · rename_i hm
        rw [if_neg hm]
        split at h
        · exact .inl h
        · rename_i hs
          rw [if_neg hs]
          split at h
          · exact .inl h
          · rename_i hmn
            rw [if_neg hmn]
            exact h.elim (fun e => .inr ⟨e, rfl⟩) .inl

/-! ### The numbers accepted so far -/

open Classical in
/-- The answer to `n` where the numbers of `A` have been accepted. -/
noncomputable def answer (W : ℕ) (A : Set ℕ) (n : ℕ) : Verdict :=
  if ∃ m ∈ A, n + W ≤ m then .stale else if n ∈ A then .duplicate else .accepted

theorem answer_stale {W : ℕ} {A : Set ℕ} {n : ℕ} : answer W A n = .stale ↔ ∃ m ∈ A, n + W ≤ m := by
  unfold answer
  split
  · rename_i h
    exact ⟨fun _ => h, fun _ => rfl⟩
  · rename_i h
    refine ⟨fun ha => ?_, fun ha => absurd ha h⟩
    split at ha
    · cases ha
    · cases ha

theorem answer_duplicate {W : ℕ} {A : Set ℕ} {n : ℕ} :
    answer W A n = .duplicate ↔ n ∈ A ∧ ¬ ∃ m ∈ A, n + W ≤ m := by
  unfold answer
  split
  · rename_i h
    exact ⟨nofun, fun ha => absurd h ha.2⟩
  · rename_i h
    split
    · rename_i hn
      exact ⟨fun _ => ⟨hn, h⟩, fun _ => rfl⟩
    · rename_i hn
      exact ⟨nofun, fun ha => absurd ha.1 hn⟩

theorem answer_accepted {W : ℕ} {A : Set ℕ} {n : ℕ} :
    answer W A n = .accepted ↔ n ∉ A ∧ ¬ ∃ m ∈ A, n + W ≤ m := by
  unfold answer
  split
  · rename_i h
    exact ⟨nofun, fun ha => absurd h ha.2⟩
  · rename_i h
    split
    · rename_i hn
      exact ⟨nofun, fun ha => absurd hn ha.1⟩
    · rename_i hn
      exact ⟨fun _ => ⟨hn, h⟩, fun _ => rfl⟩

/-- The window has the greatest number of `A`, and of the numbers within `W` of it those of `A`. -/
def Tracks (W : ℕ) (A : Set ℕ) : Window → Prop
  | fresh => A = ∅
  | upto top seen => top ∈ A ∧ (∀ n ∈ A, n ≤ top) ∧ (∀ n ∈ seen, n ∈ A) ∧ ∀ n ∈ A, top < n + W → n ∈ seen

/-- A window answers as the set does. -/
theorem Tracks.answer {W : ℕ} {A : Set ℕ} {w : Window} (h : w.Tracks W A) (n : ℕ) :
    (w.offer W n).1 = Window.answer W A n := by
  cases w with
  | fresh =>
      obtain rfl : A = ∅ := h
      simp [offer, Window.answer]
  | upto top seen =>
      obtain ⟨htop, hle, hseen, hrecent⟩ := h
      rw [offer, Window.answer]
      by_cases hlt : top < n
      · have hstale : ¬ ∃ m ∈ A, n + W ≤ m := fun ⟨m, hm, hnm⟩ => by
          have := hle m hm
          omega
        rw [if_pos hlt, if_neg hstale, if_neg fun hn => Nat.not_lt.mpr (hle n hn) hlt]
      · rw [if_neg hlt]
        by_cases hold : n + W ≤ top
        · rw [if_pos hold, if_pos ⟨top, htop, hold⟩]
        · have hstale : ¬ ∃ m ∈ A, n + W ≤ m := fun ⟨m, hm, hnm⟩ => hold (Nat.le_trans hnm (hle m hm))
          rw [if_neg hold, if_neg hstale]
          by_cases hn : n ∈ A
          · rw [if_pos hn, if_pos (hrecent n hn (Nat.lt_of_not_le hold))]
          · rw [if_neg hn, if_neg fun hs => hn (hseen n hs)]

/-- And it keeps up with the set. -/
theorem Tracks.offer {W : ℕ} {A : Set ℕ} {w : Window} (h : w.Tracks W A) (n : ℕ) :
    (w.offer W n).2.Tracks W {m | m ∈ A ∨ m = n ∧ (w.offer W n).1 = .accepted} := by
  cases w with
  | fresh =>
      obtain rfl : A = ∅ := h
      refine ⟨.inr ⟨rfl, rfl⟩, ?_, ?_, ?_⟩
      · rintro m (hm | ⟨rfl, -⟩)
        · exact hm.elim
        · exact Nat.le_refl m
      · rintro m rfl
        exact .inr ⟨rfl, rfl⟩
      · rintro m (hm | ⟨rfl, -⟩) -
        · exact hm.elim
        · exact rfl
  | upto top seen =>
      obtain ⟨htop, hle, hseen, hrecent⟩ := h
      rw [Window.offer]
      by_cases hlt : top < n
      · rw [if_pos hlt]
        refine ⟨.inr ⟨rfl, rfl⟩, ?_, ?_, ?_⟩
        · rintro m (hm | ⟨rfl, -⟩)
          · exact Nat.le_of_lt (Nat.lt_of_le_of_lt (hle m hm) hlt)
          · exact Nat.le_refl m
        · rintro m (rfl | ⟨hm, -⟩)
          · exact .inr ⟨rfl, rfl⟩
          · exact .inl (hseen m hm)
        · rintro m (hm | ⟨rfl, -⟩) hW
          · exact .inr ⟨hrecent m hm (Nat.lt_trans hlt hW), hW⟩
          · exact .inl rfl
      · rw [if_neg hlt]
        have same {v : Verdict} (hv : v ≠ .accepted) :
            (upto top seen).Tracks W {m | m ∈ A ∨ m = n ∧ v = .accepted} := by
          have hA : {m | m ∈ A ∨ m = n ∧ v = .accepted} = A := by
            ext m
            exact ⟨fun hm => hm.resolve_right fun hm => hv hm.2, .inl⟩
          rw [hA]
          exact ⟨htop, hle, hseen, hrecent⟩
        split
        · exact same nofun
        · split
          · exact same nofun
          · refine ⟨.inl htop, ?_, ?_, ?_⟩
            · rintro m (hm | ⟨rfl, -⟩)
              · exact hle m hm
              · exact Nat.le_of_not_lt hlt
            · rintro m (rfl | hm)
              · exact .inr ⟨rfl, rfl⟩
              · exact .inl (hseen m hm)
            · rintro m (hm | ⟨rfl, -⟩) hW
              · exact .inr (hrecent m hm hW)
              · exact .inl rfl

end Window

end LoraMesh
