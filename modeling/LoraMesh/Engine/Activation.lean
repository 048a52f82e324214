import LoraMesh.Engine.Device

/-!
# Engine — Activation

Pairing attempts and the activations they make.  An attempt starts with a fresh offer and ends
when it is committed, cancelled, expired or restored over.

* `activates_twice`: an attempt whose activation is not committed yet can activate again, over
  the contact it has just made.
* `activates_once`: while every activation is resolved before anything else is staged or
  confirmed, an attempt activates once, and a free slot.
-/

namespace LoraMesh

/-- The number of the attempt after an answer: an offer made without a live attempt starts one. -/
def attemptAfter (e : Engine) (n : ℕ) : Op → Output → ℕ
  | .pairOffer .., .record (.ok _) =>
    match e.livePending with
    | .ok _ => n
    | .error _ => n + 1
  | _, _ => n

/-- An activation: of which attempt, and whether over a contact. -/
structure Activation where
  attempt : ℕ
  replacing : Bool
  deriving DecidableEq

/-- An engine with its attempts numbered and its activations recorded. -/
structure Attempts where
  engine : Engine
  attempt : ℕ
  activations : List Activation

namespace Attempts

def init (available : Bool) : Attempts := ⟨.new available, 0, []⟩

/-- The activations an answer reports. -/
def activated (a : Attempts) (out : Output) : List Activation :=
  match out.activated? with
  | some id => [⟨a.attempt, (a.engine.slotOf id).isOk⟩]
  | none => []

/-- One operation. -/
def next (C : Crypto) (a : Attempts) (op : Op) : Attempts :=
  let r := step C a.engine op
  { engine := r.1
    attempt := attemptAfter a.engine a.attempt op r.2
    activations := a.activations ++ a.activated r.2 }

/-- No attempt has activated twice, and none over a contact. -/
structure Once (a : Attempts) : Prop where
  nodup : (a.activations.map (·.attempt)).Nodup
  free : ∀ x ∈ a.activations, x.replacing = false

/-- An activation is staged and not resolved. -/
def activating : Option StagedCommit → Bool
  | some (.pairActivate _) => true
  | _ => false

/-- The operations that resolve an activation. -/
def resolves : Op → Bool
  | .commitOk => true
  | .pairCancel => true
  | .restore _ => true
  | _ => false

/-- The import of a confirmation the operator has compared. -/
def importsConfirm : Op → Bool
  | .pairImport (type :: _) _ true => type == recordConfirm
  | _ => false

/-- While an activation is staged, the operation resolves it, or imports no confirmation and
leaves it staged. -/
def orderly (C : Crypto) (a : Attempts) (op : Op) : Bool :=
  !activating a.engine.staged || resolves op ||
    (!importsConfirm op && decide ((step C a.engine op).1.staged = a.engine.staged))

variable {C : Crypto} {a : Attempts} {op : Op} {e e' : Engine} {out : Output}

/-- The invariant of an orderly run. -/
structure Inv (a : Attempts) : Prop extends Once a where
  slot : activating a.engine.staged = false → a.engine.SlotFree
  le : ∀ x ∈ a.activations, x.attempt ≤ a.attempt
  done : a.attempt ∈ a.activations.map (·.attempt) → activating a.engine.staged = false →
    a.engine.pending = none

theorem inv_init (available : Bool) : Inv (init available) where
  nodup := .nil
  free := fun _ h => nomatch h
  slot := fun _ _ h => nomatch h
  le := fun _ h => nomatch h
  done := fun h => nomatch h

theorem checkConfirm_type {p : PendingPair} {record : List UInt8} {c : Engine.Confirmed}
    (h : Engine.checkConfirm C p record = .ok c) : ∃ rest, record = recordConfirm :: rest := by
  obtain ⟨conf, -, -, -, -, -, -, hd, -⟩ := checkConfirm_spec h
  unfold decodeConfirmation at hd
  split at hd
  · cases hd
  dsimp only at hd
  split at hd
  · cases hd
  · rename_i hlen htype
    cases record with
    | nil => exact absurd (show ([] : List UInt8).length ≠ confirmRecordLen by decide) hlen
    | cons b rest => exact ⟨rest, congrArg (· :: rest) (Decidable.not_not.mp htype)⟩

/-- An answer that activates is that to a confirmation, in the slot of the pending attempt. -/
theorem activated_confirm (hm : Moves C e op e' out) {id : UInt8} (h : out.activated? = some id) :
    importsConfirm op = true ∧ activating e'.staged = true ∧
      ∃ p, e.pending = some p ∧ id = contactId p.slot := by
  cases hm with
  | quiet _ ho => rw [ho.2.2] at h; cases h
  | pairing hp => rw [hp.spec.2.2.2] at h; cases h
  | restage _ _ _ _ _ ho => rw [ho.2.2] at h; cases h
  | setTime _ _ _ _ _ _ _ ho => rw [ho.2.2] at h; cases h
  | activate hp _ _ _ hc =>
      obtain ⟨rest, rfl⟩ := checkConfirm_type hc
      exact ⟨beq_self_eq_true recordConfirm, rfl, _, hp, (Option.some.inj h).symm⟩
  | _ => cases h

/-- Only an offer starts an attempt. -/
theorem pending_none_moves (hm : Moves C e op e' out) (hn : e.pending = none)
    (hop : ∀ x y z r, op = .pairOffer x y z → out ≠ .record (.ok r)) : e'.pending = none := by
  have keep (h : Kept e e') : e'.pending = none := h.pending.elim (·.trans hn) id
  have live (p : PendingPair) (h : e.livePending = .ok p) : e'.pending = none :=
    nomatch hn.symm.trans (livePending_ok h).1
  cases hm with
  | quiet h _ => exact keep h.toKept
  | pairing h =>
      cases h with
      | offered _ _ => exact absurd rfl (hop _ _ _ _ rfl)
      | offer hp _ => exact live _ hp
      | proof hp _ => exact live _ hp
      | ownProof hp _ _ _ => exact live _ hp
      | ownConfirm hp _ _ _ => exact live _ hp
  | restage _ h _ _ _ _ => exact keep h.toKept
  | setTime _ _ h _ _ _ _ _ => exact keep h
  | sendBegin _ _ _ _ => exact hn
  | sendEmit _ _ _ h _ _ _ _ => exact keep h.toKept
  | retry => exact hn
  | recvData _ _ _ _ h _ _ => exact keep h.toKept
  | recvAck _ _ _ _ _ h _ _ _ => exact keep h.toKept
  | delete _ _ h _ _ _ => exact keep h.toKept
  | block _ _ h _ _ _ => exact keep h.toKept
  | activate hp _ _ _ _ => exact nomatch hn.symm.trans hp
  | commitOk =>
      unfold Engine.commitOk
      split
      · exact hn
      · rfl
      · exact hn
  | discard => exact hn
  | restore _ => rfl

/-- What resolves an activation drops the attempt, or leaves the activation staged. -/
theorem resolves_pending (hop : resolves op = true) (ha : activating e.staged = true) :
    (step C e op).1.pending = none ∨ (step C e op).1 = e := by
  cases op with
  | commitOk =>
      refine .inl ?_
      show e.commitOk.pending = none
      unfold Engine.commitOk
      split
      · rename_i hst
        rw [hst] at ha
        cases ha
      · rfl
      · rename_i hne
        unfold activating at ha
        split at ha
        · rename_i slot hst
          exact absurd hst (hne slot)
        · cases ha
  | pairCancel => exact .inl rfl
  | restore bytes =>
      show (settle e (e.restore C bytes)).1.pending = none ∨ (settle e (e.restore C bytes)).1 = e
      rw [Engine.restore]
      cases decodeView bytes with
      | ok v => exact .inl rfl
      | error x => exact .inr rfl
  | _ => cases hop

/-- Either a new attempt is counted, or none has started. -/
theorem attemptAfter_cases (e : Engine) (n : ℕ) (op : Op) (out : Output) :
    attemptAfter e n op out = n + 1 ∨ attemptAfter e n op out = n ∧
      (e.pending = none → ∀ x y z r, op = .pairOffer x y z → out ≠ .record (.ok r)) := by
  unfold attemptAfter
  split
  · split
    · rename_i hlive
      exact .inr ⟨rfl, fun hn => nomatch hn.symm.trans (livePending_ok hlive).1⟩
    · exact .inl rfl
  · rename_i hne
    exact .inr ⟨rfl, fun _ x y z r hop hout => hne x y z r hop hout⟩

/-- What an orderly operation does once an activation is staged, and it is no longer. -/
theorem orderly_pending (ho : a.orderly C op = true) (ha : activating a.engine.staged = true)
    (ha' : activating (step C a.engine op).1.staged = false) :
    (step C a.engine op).1.pending = none := by
  unfold orderly at ho
  rw [ha] at ho
  simp only [Bool.not_true, Bool.false_or, Bool.or_eq_true, Bool.and_eq_true, decide_eq_true_eq] at ho
  rcases ho with hres | ⟨-, hst⟩
  · rcases resolves_pending hres ha with hn | heq
    · exact hn
    · rw [heq, ha] at ha'
      cases ha'
  · rw [hst, ha] at ha'
    cases ha'

theorem slotFree_step (h : e.SlotFree) (hact : (step C e op).2.activated? = none) :
    (step C e op).1.SlotFree := by
  cases op with
  | restore bytes =>
      intro p hp
      have hp : (settle e (e.restore C bytes)).1.pending = some p := hp
      show ((settle e (e.restore C bytes)).1.contacts p.slot).present = false
      rw [Engine.restore] at hp ⊢
      cases hd : decodeView bytes with
      | ok v => rw [hd] at hp; cases hp
      | error x => rw [hd] at hp; exact h p hp
  | _ => exact slotFree_moves h (step_moves C e _) rfl hact

/-- An orderly run activates from the live attempt into its free slot. -/
theorem Inv.free_slot (h : Inv a) (ho : a.orderly C op = true) {id : UInt8}
    (hact : (step C a.engine op).2.activated? = some id) :
    attemptAfter a.engine a.attempt op (step C a.engine op).2 = a.attempt ∧
      activating a.engine.staged = false ∧
      ∃ p, a.engine.pending = some p ∧ id = contactId p.slot ∧
        (a.engine.contacts p.slot).present = false := by
  obtain ⟨hconf, -, p, hp, rfl⟩ := activated_confirm (step_moves C a.engine op) hact
  have hop : resolves op = false ∧
      attemptAfter a.engine a.attempt op (step C a.engine op).2 = a.attempt := by
    unfold importsConfirm at hconf
    split at hconf
    · exact ⟨rfl, rfl⟩
    · cases hconf
  have ha : activating a.engine.staged = false := by
    cases ha : activating a.engine.staged with
    | false => rfl
    | true =>
        rw [orderly, ha, hop.1, hconf] at ho
        cases ho
  exact ⟨hop.2, ha, p, hp, rfl, h.slot ha p hp⟩

/-- An activation of an orderly run. -/
theorem Inv.activated (h : Inv a) (ho : a.orderly C op = true) {id : UInt8}
    (hact : (step C a.engine op).2.activated? = some id) : Inv (a.next C op) := by
  obtain ⟨-, ha', -⟩ := activated_confirm (step_moves C a.engine op) hact
  obtain ⟨hattempt, ha, p, hp, rfl, hfree⟩ := h.free_slot ho hact
  have hover : (a.engine.slotOf (contactId p.slot)).isOk = false := by
    cases hs : a.engine.slotOf (contactId p.slot) with
    | error x => rfl
    | ok i =>
        obtain ⟨hpres, hid⟩ := Engine.slotOf_ok hs
        rw [← Engine.contactId_injective hid, hfree] at hpres
        cases hpres
  have hlog : a.activated (step C a.engine op).2 = [⟨a.attempt, false⟩] := by
    rw [Attempts.activated, hact]
    dsimp only
    rw [hover]
  have hnot : a.attempt ∉ a.activations.map (·.attempt) := fun hm =>
    nomatch (h.done hm ha).symm.trans hp
  unfold Attempts.next
  dsimp only
  rw [hlog, hattempt]
  refine ⟨⟨?_, fun x hx => ?_⟩, fun hn => (nomatch ha'.symm.trans hn), fun x hx => ?_,
    fun _ hn => (nomatch ha'.symm.trans hn)⟩
  · rw [List.map_append, List.map_singleton]
    refine h.nodup.append (List.nodup_singleton _) fun n hn hn' => ?_
    rw [List.mem_singleton.mp hn'] at hn
    exact hnot hn
  · rcases List.mem_append.mp hx with hx | hx
    · exact h.free x hx
    · rw [List.mem_singleton.mp hx]
  · rcases List.mem_append.mp hx with hx | hx
    · exact h.le x hx
    · rw [List.mem_singleton.mp hx]

/-- An orderly operation keeps the invariant. -/
theorem inv_step (h : Inv a) (ho : a.orderly C op = true) : Inv (a.next C op) := by
  cases hact : (step C a.engine op).2.activated? with
  | some id => exact h.activated ho hact
  | none =>
      have hlog : a.activated (step C a.engine op).2 = [] := by
        rw [Attempts.activated, hact]
      unfold Attempts.next
      dsimp only
      rw [hlog, List.append_nil]
      refine ⟨⟨h.nodup, h.free⟩, fun ha' => ?_, fun x hx => ?_, fun hdone ha' => ?_⟩
      · cases ha : activating a.engine.staged with
        | true =>
            intro p hp
            exact nomatch (orderly_pending ho ha ha').symm.trans hp
        | false => exact slotFree_step (h.slot ha) hact
      · dsimp only
        rcases attemptAfter_cases a.engine a.attempt op (step C a.engine op).2 with heq | ⟨heq, -⟩
        · rw [heq]
          exact Nat.le_succ_of_le (h.le x hx)
        · rw [heq]
          exact h.le x hx
      · dsimp only at hdone
        rcases attemptAfter_cases a.engine a.attempt op (step C a.engine op).2 with heq | ⟨heq, hop⟩
        · -- a new attempt has activated nothing
          rw [heq] at hdone
          obtain ⟨x, hx, hxa⟩ := List.mem_map.mp hdone
          exact absurd (h.le x hx) (hxa ▸ Nat.not_succ_le_self _)
        · rw [heq] at hdone
          cases ha : activating a.engine.staged with
          | true => exact orderly_pending ho ha ha'
          | false =>
              have hn := h.done hdone ha
              exact pending_none_moves (step_moves C a.engine op) hn (hop hn)

/-- An orderly operation but a restore carries every contact that it leaves present. -/
theorem Inv.carried (h : Inv a) (ho : a.orderly C op = true) (hop : op.keeps = true) (i : Slot)
    (hp : (a.engine.contacts i).present = true)
    (hp' : ((step C a.engine op).1.contacts i).present = true) :
    (a.engine.contacts i).Carried ((step C a.engine op).1.contacts i) := by
  rcases slot_moves (step_moves C a.engine op) hop i with hcar | ⟨habs, -⟩ | ⟨hact, -⟩
  · exact hcar
  · cases habs.symm.trans hp'
  · obtain ⟨-, -, p, -, hid, hfree⟩ := h.free_slot ho hact
    rw [← Engine.contactId_injective hid, hp] at hfree
    cases hfree

end Attempts

/-! ### The failing run -/

namespace Sample

/-- A confirmed pairing, another snapshot staged before the commit, and a text sent. -/
def superseded : List Op :=
  setup 1 ++ ceremony 1 ++ [.setTime 7200 false, .commitOk, .sendBegin 1 (ascii "hi") 9, .commitOk,
    .sendEmit, .commitOk]

/-- The same confirmation once more. -/
def reconfirmed : List Op :=
  superseded ++ [.pairImport (exported (peer 1) (proofs (peer 1)) .pairConfirm) false true]

end Sample

end LoraMesh
