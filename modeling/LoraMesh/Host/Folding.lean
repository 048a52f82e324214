import LoraMesh.Host.Contacts

/-!
# Host — Folding

Which of the keys of one serial wins, as `load_mappings` folds a file of serials and legacy keys.

* `SerialWins`: the serial itself, and a legacy key only where the serial says nothing.
* `OrderFree`: so in any order of the keys.
* `folding_order`: when each holds; the first key of a serial that gives a name is the one that is heard.
-/

namespace LoraMesh

/-! ### What the keys say -/

/-- The contact that an item of the file gives a name. -/
def itemId (item : String × PyVal) (name : Label) : Option ContactId :=
  match item.2 with
  | .dict entry => entryId entry name
  | _ => none

section

variable (raw : Dict String PyVal) (serial : Serial) (name : Label)

/-- What the key that is the serial itself says. -/
def bareId : Option ContactId := (raw.get serial.1).bind fun v => itemId (serial.1, v) name

/-- What the legacy keys of the serial say. -/
def legacyIds : List ContactId :=
  raw.items.filterMap fun item => if serialFromKey item.1 = some serial.1 then itemId item name else none

/-- What `load_mappings` gives. -/
def loadedId : Option ContactId := ((fold raw).get serial).bind fun entry => entry.get name

/-- What the legacy keys of the serial say that come before the serial itself. -/
def legacyBefore : List ContactId :=
  (raw.items.takeWhile fun item => item.1 != serial.1).filterMap fun item =>
    if serialFromKey item.1 = some serial.1 then itemId item name else none

end

/-- The serial wins: what it says is what is loaded, and a legacy key is heard only where it says nothing. -/
def SerialWins (raw : Dict String PyVal) : Prop :=
  ∀ serial name,
    match bareId raw serial name with
    | some cid => loadedId raw serial name = some cid
    | none =>
      match legacyIds raw serial name with
      | [] => loadedId raw serial name = none
      | cids => ∃ cid ∈ cids, loadedId raw serial name = some cid

/-- In any order of the keys the serial wins, and the same value of the two. -/
def OrderFree (raw : Dict String PyVal) : Prop :=
  ∀ raw' : Dict String PyVal, raw'.items.Perm raw.items →
    SerialWins raw' ∧ ∀ serial name cid, bareId raw serial name = some cid →
      (loadedId raw' serial name = some cid ↔ loadedId raw serial name = some cid)

/-- No legacy key contradicts the serial before the file comes to it. -/
def KeysAgreeBefore (raw : Dict String PyVal) : Prop :=
  ∀ serial name, ∀ cid ∈ bareId raw serial name, ∀ first ∈ (legacyBefore raw serial name).head?, first = cid

/-- No legacy key contradicts the serial. -/
def KeysAgree (raw : Dict String PyVal) : Prop :=
  ∀ serial name, ∀ cid ∈ bareId raw serial name, ∀ other ∈ legacyIds raw serial name, other = cid

section

variable {raw : Dict String PyVal} {serial : Serial} {name : Label}

/-- What an item says, if its key is of the serial. -/
def saidBy (serial : Serial) (name : Label) (item : String × PyVal) : Option ContactId :=
  if serialOf item.1 = some serial then itemId item name else none

/-- And if it is a legacy key. -/
def saidByLegacy (serial : Serial) (name : Label) (item : String × PyVal) : Option ContactId :=
  if serialFromKey item.1 = some serial.1 then itemId item name else none

theorem loadedId_eq (raw : Dict String PyVal) (serial : Serial) (name : Label) :
    loadedId raw serial name = (raw.items.filterMap (saidBy serial name)).head? := by
  unfold loadedId
  rw [get_fold, ← List.head?_filterMap]
  unfold entriesOf
  rw [List.filterMap_filterMap]
  refine congrArg List.head? (List.filterMap_congr fun item _ => ?_)
  unfold saidBy itemId
  obtain ⟨key, v⟩ := item
  cases v with
  | dict entry =>
      dsimp only
      split
      · rw [Option.bind_some]
      · rw [Option.bind_none]
  | _ => simp only [Option.bind_none, ite_self]

/-- A legacy key is not the serial itself. -/
theorem legacy_ne {key : String} (h : serialFromKey key = some serial.1) : key ≠ serial.1 := by
  rintro rfl
  exact nomatch serial.2.1.symm.trans h

theorem saidBy_legacy {item : String × PyVal} (h : item.1 ≠ serial.1) :
    saidBy serial name item = saidByLegacy serial name item := by
  unfold saidBy saidByLegacy
  by_cases hlegacy : serialFromKey item.1 = some serial.1
  · rw [if_pos hlegacy, if_pos (serialOf_eq_some.mpr (.inr hlegacy))]
  · rw [if_neg hlegacy, if_neg]
    intro hserial
    rcases serialOf_eq_some.mp hserial with he | he
    · exact h he
    · exact hlegacy he

/-- Where the serial itself gives a name, the legacy keys before it are heard first. -/
theorem loadedId_bare {cid : ContactId} (h : bareId raw serial name = some cid) :
    loadedId raw serial name = (legacyBefore raw serial name).head?.or (some cid) := by
  obtain ⟨v, hv, hcid⟩ := Option.bind_eq_some_iff.mp h
  obtain ⟨before, after, hitems, hbefore⟩ := List.lookup_eq_some_iff.mp hv
  have hne : ∀ item ∈ before, item.1 ≠ serial.1 := fun item hi => Ne.symm (bne_iff_ne.mp (hbefore item hi))
  have hsaid : saidBy serial name (serial.1, v) = some cid := by
    unfold saidBy
    rw [if_pos (serialOf_serial serial), hcid]
  have htake : raw.items.takeWhile (fun item => item.1 != serial.1) = before := by
    rw [hitems, List.takeWhile_append_of_pos fun item hi => bne_iff_ne.mpr (hne item hi)]
    simp only [List.takeWhile_cons, bne_self_eq_false, Bool.false_eq_true, if_false, List.append_nil]
  rw [loadedId_eq, legacyBefore, htake, hitems, List.filterMap_append, List.filterMap_cons, hsaid, List.head?_append,
    List.head?_cons]
  exact congrArg (fun l => (List.head? l).or (some cid))
    (List.filterMap_congr fun item hi => saidBy_legacy (hne item hi))

theorem loadedId_legacy (h : bareId raw serial name = none) :
    loadedId raw serial name = (legacyIds raw serial name).head? := by
  rw [loadedId_eq]
  refine congrArg List.head? (List.filterMap_congr fun item hi => ?_)
  by_cases hne : item.1 = serial.1
  · obtain ⟨key, v⟩ := item
    dsimp only at hne
    subst hne
    have hv : raw.get serial.1 = some v := Dict.get_eq_some.mpr hi
    have hnone : itemId (serial.1, v) name = none := by
      unfold bareId at h
      rw [hv] at h
      exact h
    unfold saidBy
    rw [hnone, ite_self, ite_self]
  · exact saidBy_legacy hne

theorem serialWins_iff (raw : Dict String PyVal) : SerialWins raw ↔ KeysAgreeBefore raw := by
  refine forall_congr' fun serial => forall_congr' fun name => ?_
  cases hbare : bareId raw serial name with
  | none =>
      refine iff_of_true ?_ nofun
      dsimp only
      rw [loadedId_legacy hbare]
      cases legacyIds raw serial name with
      | nil => rfl
      | cons cid cids => exact ⟨cid, List.mem_cons_self, rfl⟩
  | some cid =>
      dsimp only
      rw [loadedId_bare hbare]
      cases (legacyBefore raw serial name).head? with
      | none => exact iff_of_true rfl (by rintro _ ⟨⟩; nofun)
      | some first =>
          constructor
          · rintro h _ ⟨⟩ _ ⟨⟩
            exact Option.some.inj h
          · intro h
            exact congrArg some (h cid rfl first rfl)

theorem legacyBefore_subset : legacyBefore raw serial name ⊆ legacyIds raw serial name :=
  ((List.takeWhile_sublist _).filterMap _).subset

theorem KeysAgree.before (h : KeysAgree raw) : KeysAgreeBefore raw := fun serial name cid hcid first hfirst =>
  h serial name cid hcid first (legacyBefore_subset (List.mem_of_mem_head? hfirst))

theorem bareId_perm {raw' : Dict String PyVal} (h : raw'.items.Perm raw.items) (serial : Serial) (name : Label) :
    bareId raw' serial name = bareId raw serial name := by
  unfold bareId
  rw [Dict.get_perm h]

theorem KeysAgree.perm {raw' : Dict String PyVal} (h : KeysAgree raw) (hp : raw'.items.Perm raw.items) : KeysAgree raw' := by
  intro serial name cid hcid other hother
  rw [bareId_perm hp] at hcid
  exact h serial name cid hcid other ((hp.filterMap _).mem_iff.mp hother)

/-- The dictionary with one of its items first. -/
theorem exists_first (raw : Dict String PyVal) {item : String × PyVal} (h : item ∈ raw.items) :
    ∃ (raw' : Dict String PyVal) (items : List (String × PyVal)), raw'.items = item :: items ∧
      raw'.items.Perm raw.items := by
  obtain ⟨before, after, hitems⟩ := List.append_of_mem h
  have hperm : (item :: (before ++ after)).Perm raw.items := by
    rw [hitems]
    exact List.perm_middle.symm
  exact ⟨⟨item :: (before ++ after), ((hperm.map Prod.fst).nodup_iff).mpr raw.nodup⟩, before ++ after, rfl, hperm⟩

theorem orderFree_iff (raw : Dict String PyVal) : OrderFree raw ↔ KeysAgree raw := by
  constructor
  · intro h serial name cid hcid other hother
    obtain ⟨item, hitem, hsaid⟩ := List.mem_filterMap.mp hother
    have hlegacy : serialFromKey item.1 = some serial.1 := by
      by_contra hne
      rw [if_neg hne] at hsaid
      cases hsaid
    obtain ⟨raw', items, hitems, hp⟩ := exists_first raw hitem
    have hfirst : (legacyBefore raw' serial name).head? = some other := by
      have hkey : (item.1 != serial.1) = true := bne_iff_ne.mpr (legacy_ne hlegacy)
      unfold legacyBefore
      rw [hitems, List.takeWhile_cons, hkey, if_pos rfl, List.filterMap_cons, hsaid]
      rfl
    exact (serialWins_iff raw').mp (h raw' hp).1 serial name cid ((bareId_perm hp serial name).trans hcid) other hfirst
  · intro h raw' hp
    have hwins := (serialWins_iff raw').mpr (h.perm hp).before
    refine ⟨hwins, fun serial name cid hcid => ?_⟩
    have hnow := (serialWins_iff raw).mpr h.before serial name
    have hthen := hwins serial name
    rw [hcid] at hnow
    rw [bareId_perm hp, hcid] at hthen
    exact iff_of_true hthen hnow

end

/-- **Folding.**  The serial wins exactly where no legacy key contradicts it before the file comes to it, and in
any order of the keys exactly where none contradicts it. -/
theorem folding_order (raw : Dict String PyVal) :
    (SerialWins raw ↔ KeysAgreeBefore raw) ∧ (OrderFree raw ↔ KeysAgree raw) :=
  ⟨serialWins_iff raw, orderFree_iff raw⟩

/-- A legacy key, and after it the serial, with another contact for the name. -/
def legacyFirst : Dict String PyVal where
  items := [("/dev/serial/by-id/usb-Raspberry_Pi_Pico_e66044-if00", .dict [("alice", .int 3)]),
    ("e66044", .dict [("alice", .int 5)])]
  nodup := by decide +kernel

theorem legacy_wins : ¬ SerialWins legacyFirst ∧ ¬ OrderFree legacyFirst := by
  have hbare : bareId legacyFirst board alice = some ⟨5, by decide⟩ := by decide +kernel
  have hbefore : (legacyBefore legacyFirst board alice).head? = some ⟨3, by decide⟩ := by decide +kernel
  have hloses : ¬ SerialWins legacyFirst := fun h =>
    absurd ((serialWins_iff _).mp h board alice _ hbare _ hbefore) (by decide)
  exact ⟨hloses, fun h => hloses (h legacyFirst (List.Perm.refl _)).1⟩

end LoraMesh
