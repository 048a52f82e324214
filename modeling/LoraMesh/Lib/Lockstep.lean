import LoraMesh.Lib.Runs

/-!
# Lib — runs with inputs put in

A run with inputs put in anywhere, beside the run of its own inputs alone.  The two are followed
together: an own input steps both machines, an input put in steps the first one only.

* `Lockstep step R alike s t calls`: the states stay in `R`, and every own input is `alike` in the
  two states that take it.
* `lockstep_of_permitted`, `lockstep_of_unwinding`: three conditions on single steps are enough.
-/

namespace LoraMesh

/-- An input of a run: its own, or put in. -/
inductive Call (ι : Type*) where
  | own (i : ι)
  | extra (i : ι)

/-- The input itself. -/
def Call.input {ι : Type*} : Call ι → ι
  | own i => i
  | extra i => i

variable {σ ι : Type*} (step : σ → ι → σ)

/-- One call of the run with the inputs put in. -/
def onInput (s : σ) (c : Call ι) : σ := step s c.input

/-- The run with the inputs put in, from `s`, beside the one without, from `t`. -/
def Lockstep (R : σ → σ → Prop) (alike : σ → σ → ι → Prop) (s t : σ) : List (Call ι) → Prop
  | [] => R s t
  | .own i :: cs => R s t ∧ alike s t i ∧ Lockstep R alike (step s i) (step t i) cs
  | .extra i :: cs => R s t ∧ Lockstep R alike (step s i) t cs

/-- The inputs put in meet `ok` in the state that takes them. -/
def OnExtra (ok : σ → ι → Prop) (s : σ) : Call ι → Prop
  | .own _ => True
  | .extra i => ok s i

instance (ok : σ → ι → Prop) [∀ s i, Decidable (ok s i)] (s : σ) : (c : Call ι) → Decidable (OnExtra ok s c)
  | .own _ => .isTrue trivial
  | .extra i => inferInstanceAs (Decidable (ok s i))

variable {step}

/-- Related states stay so when both take an own input, which is alike there, and when the first
alone takes one that is put in; each where it is permitted. -/
theorem lockstep_of_permitted {R : σ → σ → Prop} {alike : σ → σ → ι → Prop} {ok : σ → Call ι → Prop}
    (both : ∀ s t i, R s t → ok s (.own i) → R (step s i) (step t i))
    (same : ∀ s t i, R s t → ok s (.own i) → alike s t i)
    (put : ∀ s t i, R s t → ok s (.extra i) → R (step s i) t) (calls : List (Call ι)) :
    ∀ {s t : σ}, R s t → Along (onInput step) ok s calls → Lockstep step R alike s t calls := by
  induction calls with
  | nil => exact fun h _ => h
  | cons c calls ih =>
      intro s t h hc
      cases c with
      | own i => exact ⟨h, same s t i h hc.1, ih (both s t i h hc.1) hc.2⟩
      | extra i => exact ⟨h, ih (put s t i h hc.1) hc.2⟩

/-- `lockstep_of_permitted` where every own input is permitted. -/
theorem lockstep_of_unwinding {R : σ → σ → Prop} {alike : σ → σ → ι → Prop} {ok : σ → ι → Prop}
    (both : ∀ s t i, R s t → R (step s i) (step t i)) (same : ∀ s t i, R s t → alike s t i)
    (put : ∀ s t i, R s t → ok s i → R (step s i) t) (calls : List (Call ι)) {s t : σ} (h : R s t)
    (hc : Along (onInput step) (OnExtra ok) s calls) : Lockstep step R alike s t calls :=
  lockstep_of_permitted (fun s t i h _ => both s t i h) (fun s t i h _ => same s t i h) put calls h hc

/-- A weaker relation of the states. -/
theorem Lockstep.mono {R R' : σ → σ → Prop} {alike : σ → σ → ι → Prop} (h : ∀ s t, R s t → R' s t)
    (calls : List (Call ι)) : ∀ {s t : σ}, Lockstep step R alike s t calls → Lockstep step R' alike s t calls := by
  induction calls with
  | nil => exact fun hl => h _ _ hl
  | cons c calls ih =>
      intro s t hl
      cases c with
      | own i => exact ⟨h s t hl.1, hl.2.1, ih hl.2.2⟩
      | extra i => exact ⟨h s t hl.1, ih hl.2⟩

end LoraMesh
