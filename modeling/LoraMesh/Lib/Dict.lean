import Mathlib.Data.List.Sort

/-!
# Lib — dictionaries in order of insertion

* `Dict κ α`: every key once, the keys in the order in which they came.
* `Dict.alter`: the value of a key is changed, where it is; a new key comes last.
* `Dict.sorted`: the same dictionary with its keys in order.
-/

namespace LoraMesh

/-- A dictionary: its items in order, each key once. -/
structure Dict (κ α : Type) where
  items : List (κ × α)
  nodup : (items.map Prod.fst).Nodup

namespace Dict

variable {κ α : Type}

theorem ext : ∀ {d e : Dict κ α}, d.items = e.items → d = e
  | ⟨_, _⟩, ⟨_, _⟩, rfl => rfl

def empty : Dict κ α := ⟨[], List.nodup_nil⟩

/-- The value of a key determines its item. -/
theorem unique (d : Dict κ α) {k : κ} {v w : α} (hv : (k, v) ∈ d.items) (hw : (k, w) ∈ d.items) : v = w := by
  have h := List.inj_on_of_nodup_map d.nodup hv hw rfl
  cases h
  rfl

/-- The values are changed, each with its key in view. -/
def mapItems (g : κ → α → α) (d : Dict κ α) : Dict κ α where
  items := d.items.map fun p => (p.1, g p.1 p.2)
  nodup := by
    rw [List.map_map]
    exact d.nodup

/-- Only these items stay. -/
def filter (p : κ → α → Bool) (d : Dict κ α) : Dict κ α where
  items := d.items.filter fun i => p i.1 i.2
  nodup := d.nodup.sublist (List.filter_sublist.map Prod.fst)

variable [DecidableEq κ]

theorem lookup_map {β : Type} (g : α → β) (k : κ) (l : List (κ × α)) :
    (l.map fun p => (p.1, g p.2)).lookup k = (l.lookup k).map g := by
  induction l with
  | nil => rfl
  | cons p l ih =>
      rw [List.map_cons, List.lookup_cons, List.lookup_cons]
      cases k == p.1 with
      | true => rfl
      | false => exact ih

def get (d : Dict κ α) (k : κ) : Option α := d.items.lookup k

theorem get_eq_some {d : Dict κ α} {k : κ} {v : α} : d.get k = some v ↔ (k, v) ∈ d.items := by
  constructor
  · intro h
    obtain ⟨l₁, l₂, hl, -⟩ := List.lookup_eq_some_iff.mp h
    rw [hl]
    exact List.mem_append_right _ List.mem_cons_self
  · intro h
    obtain ⟨w, hw⟩ : ∃ w, d.get k = some w := by
      refine Option.isSome_iff_exists.mp (List.lookup_isSome_iff.mpr ⟨(k, v), h, ?_⟩)
      exact beq_self_eq_true k
    obtain ⟨l₁, l₂, hl, -⟩ := List.lookup_eq_some_iff.mp hw
    have hmem : (k, w) ∈ d.items := by
      rw [hl]
      exact List.mem_append_right _ List.mem_cons_self
    rw [hw, d.unique h hmem]

theorem get_eq_none {d : Dict κ α} {k : κ} : d.get k = none ↔ k ∉ d.items.map Prod.fst := by
  constructor
  · intro h hk
    obtain ⟨⟨_, v⟩, hp, rfl⟩ := List.mem_map.mp hk
    rw [get_eq_some.mpr hp] at h
    cases h
  · intro h
    cases hg : d.get k with
    | none => rfl
    | some v => exact absurd (List.mem_map_of_mem (get_eq_some.mp hg)) h

/-- Two dictionaries with the same items, in any order, have the same values. -/
theorem get_perm {d e : Dict κ α} (h : d.items.Perm e.items) (k : κ) : d.get k = e.get k := by
  ext v
  rw [get_eq_some, get_eq_some, h.mem_iff]

@[simp] theorem get_empty (k : κ) : (empty : Dict κ α).get k = none := rfl

theorem get_mapItems (g : κ → α → α) (d : Dict κ α) (k : κ) : (d.mapItems g).get k = (d.get k).map (g k) := by
  ext v
  rw [get_eq_some, Option.map_eq_some_iff]
  constructor
  · intro h
    obtain ⟨⟨_, w⟩, hp, hv⟩ := List.mem_map.mp h
    cases hv
    exact ⟨w, get_eq_some.mpr hp, rfl⟩
  · rintro ⟨w, hw, rfl⟩
    exact List.mem_map_of_mem (f := fun p : κ × α => (p.1, g p.1 p.2)) (get_eq_some.mp hw)

theorem get_filter (p : κ → α → Bool) (d : Dict κ α) (k : κ) : (d.filter p).get k = (d.get k).filter (p k) := by
  ext v
  rw [get_eq_some, Option.filter_eq_some_iff, get_eq_some]
  exact List.mem_filter

/-- `f` of the value of a key, which is `init` while there is none. -/
def alter (d : Dict κ α) (k : κ) (init : α) (f : α → α) : Dict κ α :=
  if h : k ∈ d.items.map Prod.fst then d.mapItems fun j v => if j = k then f v else v
  else {
    items := d.items ++ [(k, f init)]
    nodup := by
      rw [List.map_append]
      exact List.nodup_append.mpr ⟨d.nodup, List.nodup_singleton k, by
        intro a ha b hb
        rcases List.mem_singleton.mp hb with rfl
        rintro rfl
        exact h ha⟩ }

theorem get_alter (d : Dict κ α) (k : κ) (init : α) (f : α → α) (j : κ) :
    (d.alter k init f).get j = if j = k then some (f ((d.get k).getD init)) else d.get j := by
  unfold alter
  split
  · rename_i h
    rw [get_mapItems]
    split
    · subst j
      cases hk : d.get k with
      | none => exact absurd h (get_eq_none.mp hk)
      | some v => rfl
    · cases d.get j <;> rfl
  · rename_i h
    have hk : d.get k = none := get_eq_none.mpr h
    unfold get at hk ⊢
    rw [List.lookup_append]
    split
    · subst j
      rw [hk, List.lookup_cons_self]
      rfl
    · rename_i hj
      rw [List.lookup_cons, beq_eq_false_iff_ne.mpr hj, List.lookup_nil, Option.or_none]

theorem items_alter_new {d : Dict κ α} {k : κ} (h : k ∉ d.items.map Prod.fst) (init : α) (f : α → α) :
    (d.alter k init f).items = d.items ++ [(k, f init)] := by
  unfold alter
  rw [dif_neg h]

/-- `d[k] = v`. -/
def set (d : Dict κ α) (k : κ) (v : α) : Dict κ α := d.alter k v fun _ => v

/-- `d.setdefault(k, v)`. -/
def setdefault (d : Dict κ α) (k : κ) (v : α) : Dict κ α := d.alter k v id

/-- `d.pop(k, None)`. -/
def pop (d : Dict κ α) (k : κ) : Dict κ α := d.filter fun j _ => decide (j ≠ k)

theorem get_set (d : Dict κ α) (k : κ) (v : α) (j : κ) : (d.set k v).get j = if j = k then some v else d.get j :=
  get_alter d k v (fun _ => v) j

theorem mem_set {d : Dict κ α} {k : κ} {v : α} {p : κ × α} (h : p ∈ (d.set k v).items) : p = (k, v) ∨ p ∈ d.items := by
  have hget := get_eq_some.mpr h
  rw [get_set] at hget
  split at hget
  · next hk =>
      cases hget
      exact .inl (Prod.ext hk rfl)
  · exact .inr (get_eq_some.mp hget)

theorem length_set (d : Dict κ α) (k : κ) (v : α) :
    (d.set k v).items.length = if d.get k = none then d.items.length + 1 else d.items.length := by
  unfold set alter
  split
  · next hk =>
      rw [if_neg fun hn => get_eq_none.mp hn hk]
      exact List.length_map _
  · next hk =>
      rw [if_pos (get_eq_none.mpr hk)]
      exact List.length_append

theorem get_setdefault (d : Dict κ α) (k : κ) (v : α) (j : κ) :
    (d.setdefault k v).get j = if j = k then some ((d.get k).getD v) else d.get j := get_alter d k v id j

theorem get_pop (d : Dict κ α) (k j : κ) : (d.pop k).get j = if j = k then none else d.get j := by
  unfold pop
  rw [get_filter]
  split
  · rename_i h
    cases d.get j with
    | none => rfl
    | some v => exact Option.filter_some_neg (by simp only [h, ne_eq, not_true_eq_false, decide_false])
  · rename_i h
    cases d.get j with
    | none => rfl
    | some v => exact Option.filter_some_pos (by simp only [h, ne_eq, not_false_eq_true, decide_true])

/-! ### In order of the keys -/

omit [DecidableEq κ]

variable [LinearOrder κ]

/-- With its keys in order. -/
def sorted (d : Dict κ α) : Dict κ α where
  items := d.items.insertionSort fun p q => p.1 ≤ q.1
  nodup := ((List.perm_insertionSort _ d.items).map Prod.fst).nodup_iff.mpr d.nodup

theorem get_sorted [DecidableEq κ] (d : Dict κ α) (k : κ) : d.sorted.get k = d.get k :=
  get_perm (List.perm_insertionSort _ d.items) k

theorem items_sorted (d : Dict κ α) : d.sorted.items.Pairwise fun p q => p.1 ≤ q.1 := by
  have htrans : IsTrans (κ × α) fun p q => p.1 ≤ q.1 := ⟨fun _ _ _ => le_trans⟩
  have htotal : Std.Total (fun p q : κ × α => p.1 ≤ q.1) := ⟨fun p q => le_total p.1 q.1⟩
  exact List.pairwise_insertionSort _ d.items

/-- In the order of the keys, the first that has a value is the least. -/
theorem find_sorted [DecidableEq κ] (d : Dict κ α) (p : α → Bool) (k : κ) :
    (d.sorted.items.find? fun i => p i.2).map Prod.fst = some k ↔
      (d.get k).any p = true ∧ ∀ j < k, (d.get j).any p = false := by
  have hany : ∀ j, (d.get j).any p = true ↔ ∃ v, (j, v) ∈ d.sorted.items ∧ p v = true := by
    intro j
    rw [← get_sorted, Option.any_eq_true]
    exact exists_congr fun v => and_congr_left fun _ => get_eq_some
  have hnone : ∀ j, (d.get j).any p = false ↔ ∀ v, (j, v) ∈ d.sorted.items → p v = false := by
    intro j
    rw [← Bool.not_eq_true, hany]
    constructor
    · intro h v hv
      exact Bool.not_eq_true _ ▸ fun hp => h ⟨v, hv, hp⟩
    · rintro h ⟨v, hv, hp⟩
      exact nomatch (h v hv).symm.trans hp
  have horder := items_sorted d
  have hkeys := d.sorted.nodup
  simp only [hany, hnone]
  generalize d.sorted.items = items at horder hkeys
  induction items with
  | nil => simp
  | cons i items ih =>
      obtain ⟨hi, horder⟩ := List.pairwise_cons.mp horder
      rw [List.map_cons, List.nodup_cons] at hkeys
      have hlt : ∀ q ∈ items, i.1 < q.1 := fun q hq =>
        lt_of_le_of_ne (hi q hq) fun he => hkeys.1 (he ▸ List.mem_map_of_mem hq)
      rw [List.find?_cons]
      cases hp : p i.2 with
      | true =>
          constructor
          · intro h
            cases h
            refine ⟨⟨i.2, List.mem_cons_self, hp⟩, fun j hj v hv => ?_⟩
            rcases List.mem_cons.mp hv with h | hv
            · cases h
              exact absurd hj (lt_irrefl _)
            · exact absurd hj (lt_asymm (hlt _ hv))
          · rintro ⟨⟨v, hv, -⟩, hleast⟩
            rcases List.mem_cons.mp hv with h | hv
            · cases h
              rfl
            · exact nomatch (hleast i.1 (hlt _ hv) i.2 List.mem_cons_self).symm.trans hp
      | false =>
          refine (ih horder hkeys.2).trans ?_
          constructor
          · rintro ⟨⟨v, hv, hpv⟩, hleast⟩
            refine ⟨⟨v, List.mem_cons_of_mem _ hv, hpv⟩, fun j hj w hw => ?_⟩
            rcases List.mem_cons.mp hw with h | hw
            · cases h
              exact hp
            · exact hleast j hj w hw
          · rintro ⟨⟨v, hv, hpv⟩, hleast⟩
            rcases List.mem_cons.mp hv with h | hv
            · cases h
              exact nomatch hp.symm.trans hpv
            · exact ⟨⟨v, hv, hpv⟩, fun j hj w hw => hleast j hj w (List.mem_cons_of_mem _ hw)⟩

end Dict

end LoraMesh
