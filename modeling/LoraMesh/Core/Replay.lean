import LoraMesh.Core.Security
import LoraMesh.Lib.Runs

/-!
# Core — Replay

What a replay window answers, over every history of numbers offered to it and of restarts that export
and restore it: the answers of the set of all the numbers accepted.

* `replay_tracks`: the window tracks that set.
* `replay_spec`: its answers, and that no number is accepted twice.
-/

namespace LoraMesh

/-- A number offered, or a restart from what the window exports. -/
inductive ReplayStep where
  | accept (seq : UInt64)
  | restart

namespace ReplayWindow

/-- A window, and the numbers it has accepted. -/
def replayStep (r : ReplayWindow × List UInt64) : ReplayStep → ReplayWindow × List UInt64
  | .accept seq =>
    let v := r.1.accept seq
    (v.2, if v.1 = .accepted then r.2 ++ [seq] else r.2)
  | .restart => (restore (r.1.highest?.getD 0) r.1.bitmap r.1.empty, r.2)

/-- A fresh window after `steps`. -/
def replay (steps : List ReplayStep) : ReplayWindow × List UInt64 := run replayStep (new, []) steps

/-- The numbers of a list. -/
def numbers (l : List UInt64) : Set ℕ := {n | ∃ seq ∈ l, seq.toNat = n}

theorem mem_numbers {l : List UInt64} {seq : UInt64} : seq.toNat ∈ numbers l ↔ seq ∈ l :=
  ⟨fun ⟨_, hmem, heq⟩ => UInt64.toNat_inj.mp heq ▸ hmem, fun hmem => ⟨seq, hmem, rfl⟩⟩

/-- What holds of a window and the numbers it has accepted. -/
structure Replays (r : ReplayWindow × List UInt64) : Prop where
  wf : r.1.WF
  tracks : r.1.toWindow.Tracks 64 (numbers r.2)
  once : r.2.Nodup

theorem replays_step {r : ReplayWindow × List UInt64} (h : Replays r) (step : ReplayStep) :
    Replays (replayStep r step) := by
  obtain ⟨w, l⟩ := r
  cases step with
  | restart =>
      have hsame : restore (w.highest?.getD 0) w.bitmap w.empty = w := restore_export h.wf
      show Replays (restore _ _ _, l)
      rw [hsame]
      exact h
  | accept seq =>
      have hoffer := h.tracks.offer seq.toNat
      have hanswer := h.tracks.answer seq.toNat
      rw [accept_toWindow] at hoffer hanswer
      refine ⟨accept_wf h.wf seq, ?_, ?_⟩
      · have hset : numbers (if (w.accept seq).1 = .accepted then l ++ [seq] else l) =
            {m | m ∈ numbers l ∨ m = seq.toNat ∧ (w.accept seq).1 = .accepted} := by
          ext m
          split
          · rename_i hv
            simp [numbers, hv, or_and_right, exists_or, eq_comm]
          · rename_i hv
            simp [numbers, hv]
        show Window.Tracks 64 (numbers (if _ then _ else _)) _
        rw [hset]
        exact hoffer
      · show (if (w.accept seq).1 = .accepted then l ++ [seq] else l).Nodup
        split
        · rename_i hv
          -- a number accepted before is refused
          have hnew : seq ∉ l := fun hmem => by
            have hanswered := Window.answer_accepted.mp (hanswer.symm.trans hv)
            exact hanswered.1 (mem_numbers.mpr hmem)
          refine List.nodup_append.mpr ⟨h.once, by simp, fun a ha b hb hab => ?_⟩
          rw [List.mem_singleton.mp hb] at hab
          exact hnew (hab ▸ ha)
        · exact h.once

theorem replays_new : Replays (new, []) := by
  refine ⟨wf_new, ?_, List.nodup_nil⟩
  show numbers [] = ∅
  simp [numbers]

/-- After every history the window tracks the numbers it has accepted. -/
theorem replay_tracks (steps : List ReplayStep) : Replays (replay steps) :=
  run_invariant_of_all (I := Replays) (fun _ step h => replays_step h step) steps replays_new

/-- The greatest number accepted. -/
theorem highest_of_tracks {w : ReplayWindow} {A : Set ℕ} (h : w.toWindow.Tracks 64 A) :
    (w.highest? = none ↔ A = ∅) ∧ ∀ top, w.highest? = some top → top.toNat ∈ A ∧ ∀ n ∈ A, n ≤ top.toNat := by
  obtain ⟨top, bits, e⟩ := w
  cases e with
  | true =>
      have h : A = ∅ := h
      exact ⟨⟨fun _ => h, fun _ => rfl⟩, nofun⟩
  | false =>
      obtain ⟨htop, hle, -⟩ := h
      refine ⟨⟨nofun, fun hA => absurd (hA ▸ htop) (Set.notMem_empty _)⟩, fun t ht => ?_⟩
      obtain rfl : top = t := Option.some.inj ht
      exact ⟨htop, hle⟩

/-- **Replay.**  After every history of offers and restarts, a number is accepted just when it was not
accepted before and lies above the window, a duplicate when it was and lies in the window, and stale
below it; the window ends at the greatest number accepted, and none is accepted twice. -/
theorem replay_spec (steps : List ReplayStep) (seq : UInt64) :
    let w := (replay steps).1
    let accepted := (replay steps).2
    ((w.accept seq).1 = .accepted ↔
      seq ∉ accepted ∧ ∀ top, w.highest? = some top → top.toNat < seq.toNat + 64) ∧
    ((w.accept seq).1 = .duplicate ↔
      seq ∈ accepted ∧ ∀ top, w.highest? = some top → top.toNat < seq.toNat + 64) ∧
    ((w.accept seq).1 = .stale ↔ ∃ top, w.highest? = some top ∧ seq.toNat + 64 ≤ top.toNat) ∧
    (w.highest? = none ↔ accepted = []) ∧
    (∀ top, w.highest? = some top → top ∈ accepted ∧ ∀ s ∈ accepted, s ≤ top) ∧
    accepted.Nodup := by
  obtain ⟨-, htracks, honce⟩ := replay_tracks steps
  generalize (replay steps).1 = w at htracks ⊢
  generalize (replay steps).2 = accepted at htracks honce ⊢
  dsimp only
  obtain ⟨hnone, hsome⟩ := highest_of_tracks htracks
  have hempty : numbers accepted = ∅ ↔ accepted = [] := by
    constructor
    · intro h
      refine List.eq_nil_iff_forall_not_mem.mpr fun s hs => ?_
      exact absurd (h ▸ mem_numbers.mpr hs) (Set.notMem_empty s.toNat)
    · rintro rfl
      simp [numbers]
  have hanswer : (w.accept seq).1 = Window.answer 64 (numbers accepted) seq.toNat := by
    rw [← htracks.answer, accept_toWindow]
  -- a number lies below the window of all when it lies below that of the greatest
  have hbelow : (∃ m ∈ numbers accepted, seq.toNat + 64 ≤ m) ↔
      ∃ top, w.highest? = some top ∧ seq.toNat + 64 ≤ top.toNat := by
    constructor
    · rintro ⟨m, hm, hle⟩
      cases htop : w.highest? with
      | none => exact absurd (hnone.mp htop ▸ hm) (Set.notMem_empty m)
      | some top => exact ⟨top, rfl, Nat.le_trans hle ((hsome top htop).2 m hm)⟩
    · rintro ⟨top, htop, hle⟩
      exact ⟨top.toNat, (hsome top htop).1, hle⟩
  have habove : (¬ ∃ m ∈ numbers accepted, seq.toNat + 64 ≤ m) ↔
      ∀ top, w.highest? = some top → top.toNat < seq.toNat + 64 := by
    rw [hbelow, not_exists]
    exact forall_congr' fun top => by rw [not_and, Nat.not_le]
  refine ⟨?_, ?_, ?_, hnone.trans hempty, fun top htop => ?_, honce⟩
  · rw [hanswer, Window.answer_accepted, habove, mem_numbers]
  · rw [hanswer, Window.answer_duplicate, habove, mem_numbers]
  · rw [hanswer, Window.answer_stale, hbelow]
  · obtain ⟨hmem, hle⟩ := hsome top htop
    exact ⟨mem_numbers.mp hmem, fun s hs => UInt64.le_iff_toNat_le.mpr (hle _ (mem_numbers.mpr hs))⟩

end ReplayWindow

end LoraMesh
