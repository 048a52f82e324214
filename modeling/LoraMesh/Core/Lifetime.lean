import Mathlib.Data.Finset.Card
import LoraMesh.Core.Relay

/-!
# Core — Lifetime

How long an entry of the relay cache lives: until it expires, unless 64 other keys are observed that
expire no earlier.

* `observe_distinct`, `observe_sourced`: the entries have different keys, each observed once.
* `observe_lives`: a live entry stays while few other keys are observed.
* `observe_live`: and its key is then a duplicate.
-/

namespace LoraMesh

namespace RelayCache

/-- A key has one entry at most. -/
def Distinct (es : List Entry) : Prop :=
  ∀ (i j : ℕ) (a b : Entry), es[i]? = some a → es[j]? = some b → a.occupied = true → b.occupied = true →
    a.key = b.key → i = j

/-- A live entry for `key`. -/
def Lives (key : Bytes 32) (expires : UInt64) (es : List Entry) : Prop :=
  ∃ e ∈ es, e.occupied = true ∧ e.key = key ∧ e.expiresMs = expires

/-- Every entry comes of an observation of its key at a time that satisfies `P`. -/
def Sourced (P : Bytes 32 → UInt64 → Prop) (es : List Entry) : Prop :=
  ∀ e ∈ es, e.occupied = true → ∃ now, P e.key now ∧ e.expiresMs = satAdd64 now relayCacheTtlMs

theorem new_free {e : Entry} (h : e ∈ RelayCache.new.toList) : e.occupied = false := by
  rw [RelayCache.new, Vector.toList_replicate] at h
  rw [List.eq_of_mem_replicate h]

theorem distinct_new : Distinct RelayCache.new.toList := by
  intro i j a b hi _ ha
  rw [new_free (List.mem_of_getElem? hi)] at ha
  cases ha

theorem sourced_new (P : Bytes 32 → UInt64 → Prop) : Sourced P RelayCache.new.toList := by
  intro e he hocc
  rw [new_free he] at hocc
  cases hocc

/-! ### The scan -/

/-- What a scan makes of an entry: it stays, or has expired and is free. -/
def Swept (now : UInt64) (e e' : Entry) : Prop :=
  e' = e ∨ e.expiresMs ≤ now ∧ e' = { e with occupied := false }

section

variable {key : Bytes 32} {now : UInt64}

theorem scan_swept (key : Bytes 32) (now : UInt64) :
    ∀ es : List Entry, List.Forall₂ (Swept now) es (scan key now es).1
  | [] => .nil
  | e :: es => by
      have ih := scan_swept key now es
      have hself : List.Forall₂ (Swept now) es es := List.forall₂_same.mpr fun e _ => .inl rfl
      rw [scan]
      split
      · exact .cons (.inl rfl) ih
      · split
        · rename_i hexp
          exact .cons (.inr ⟨hexp, rfl⟩) ih
        · split
          · exact .cons (.inl rfl) hself
          · exact .cons (.inl rfl) ih

/-- A scan that does not find the key has freed what expired, and left no entry of the key. -/
theorem scan_miss : ∀ {es : List Entry}, (scan key now es).2 = false →
    ∀ e ∈ (scan key now es).1, e.occupied = true → now < e.expiresMs ∧ e.key ≠ key
  | [], _, e, he, _ => nomatch he
  | a :: es, h, e, he, hocc => by
      rw [scan] at h he
      split at h
      · rename_i ha
        rw [if_pos ha] at he
        rcases List.mem_cons.mp he with rfl | he
        · rw [ha] at hocc
          cases hocc
        · exact scan_miss h e he hocc
      · rename_i ha
        rw [if_neg ha] at he
        split at h
        · rename_i hexp
          rw [if_pos hexp] at he
          rcases List.mem_cons.mp he with rfl | he
          · cases hocc
          · exact scan_miss h e he hocc
        · rename_i hexp
          rw [if_neg hexp] at he
          split at h
          · cases h
          · rename_i hkey
            rw [if_neg hkey] at he
            rcases List.mem_cons.mp he with rfl | he
            · exact ⟨UInt64.not_le.mp hexp, hkey⟩
            · exact scan_miss h e he hocc

end

/-! ### The place -/

/-- The place of a new entry is free, or there is none and it is the first to expire. -/
theorem place_spec {full : List Entry} : ∀ (es pre : List Entry) (victim : ℕ) (expires : UInt64),
    full = pre ++ es → (∀ e ∈ pre, e.occupied = true ∧ expires ≤ e.expiresMs) →
    (pre = [] ∧ victim = 0 ∧ expires = 0xFFFFFFFFFFFFFFFF ∨
      ∃ e, full[victim]? = some e ∧ e.expiresMs = expires) →
    ∀ e, full[place es pre.length victim expires]? = some e →
      e.occupied = false ∨ ∀ a ∈ full, a.occupied = true ∧ e.expiresMs ≤ a.expiresMs
  | [], pre, victim, expires, hfull, hpre, hv, e, he => by
      rw [place] at he
      rw [List.append_nil] at hfull
      rcases hv with ⟨rfl, -, -⟩ | ⟨v, hvic, rfl⟩
      · rw [hfull] at he
        cases he
      · obtain rfl : v = e := Option.some.inj (hvic.symm.trans he)
        exact .inr fun a ha => hpre a (hfull ▸ ha)
  | a :: es, pre, victim, expires, hfull, hpre, hv, e, he => by
      have hat : full[pre.length]? = some a := by
        rw [hfull, List.getElem?_append_right (Nat.le_refl _), Nat.sub_self]
        rfl
      have hsplit : full = (pre ++ [a]) ++ es := by
        rw [hfull, List.append_assoc]
        rfl
      have hlen : (pre ++ [a]).length = pre.length + 1 := by simp
      rw [place] at he
      split at he
      · rename_i hfree
        obtain rfl : a = e := Option.some.inj (hat.symm.trans he)
        exact .inl hfree
      rename_i hocc
      rw [Bool.not_eq_false] at hocc
      split at he
      · -- the entry expires before all so far
        rename_i hlt
        refine place_spec es (pre ++ [a]) pre.length a.expiresMs hsplit ?_ (.inr ⟨a, hat, rfl⟩) e
          (hlen ▸ he)
        intro b hb
        rcases List.mem_append.mp hb with hb | hb
        · exact ⟨(hpre b hb).1, UInt64.le_trans (UInt64.le_of_lt hlt) (hpre b hb).2⟩
        · obtain rfl := List.mem_singleton.mp hb
          exact ⟨hocc, UInt64.le_refl _⟩
      · rename_i hge
        have hle : expires ≤ a.expiresMs := UInt64.not_lt.mp hge
        refine place_spec es (pre ++ [a]) victim expires hsplit ?_ (.inr ?_) e (hlen ▸ he)
        · intro b hb
          rcases List.mem_append.mp hb with hb | hb
          · exact hpre b hb
          · obtain rfl := List.mem_singleton.mp hb
            exact ⟨hocc, hle⟩
        · rcases hv with ⟨rfl, rfl, rfl⟩ | hv
          · -- nothing expires later than the first bound
            refine ⟨a, hat, ?_⟩
            have hmax : a.expiresMs ≤ 0xFFFFFFFFFFFFFFFF := by
              rw [UInt64.le_iff_toNat_le]
              exact Nat.le_of_lt_succ a.expiresMs.toNat_lt
            exact UInt64.le_antisymm hmax hle
          · exact hv

theorem place_lt {n : ℕ} : ∀ (es : List Entry) (i victim : ℕ) (expires : UInt64), victim < n →
    i + es.length ≤ n → place es i victim expires < n
  | [], i, victim, expires, hv, hi => hv
  | e :: es, i, victim, expires, hv, hi => by
      rw [List.length_cons] at hi
      rw [place]
      split
      · omega
      · split
        · exact place_lt es (i + 1) i e.expiresMs (by omega) (by omega)
        · exact place_lt es (i + 1) victim expires hv (by omega)

/-! ### An observation -/

section

variable {c : RelayCache} {key : Bytes 32} {now : UInt64}

/-- The entries after an observation: the scan, or the scan with a new entry where none was live. -/
theorem observe_toList (c : RelayCache) (key : Bytes 32) (now : UInt64) :
    ((c.observe key now).1 = .duplicate ∧ (scan key now c.toList).2 = true ∧
        (c.observe key now).2.toList = (scan key now c.toList).1) ∨
      ((c.observe key now).1 = .new ∧ (scan key now c.toList).2 = false ∧
        (c.observe key now).2.toList =
          (scan key now c.toList).1.set (place (scan key now c.toList).1 0 0 0xFFFFFFFFFFFFFFFF)
            { key, expiresMs := satAdd64 now relayCacheTtlMs, occupied := true }) := by
  unfold observe
  dsimp only
  split
  · rename_i hit
    exact .inl ⟨rfl, hit, rfl⟩
  · rename_i miss
    rw [Bool.not_eq_true] at miss
    refine .inr ⟨rfl, miss, ?_⟩
    simp

/-- An entry after a scan was there before. -/
theorem swept_entry {es es' : List Entry} (h : List.Forall₂ (Swept now) es es') {i : ℕ} {a : Entry}
    (ha : es'[i]? = some a) (hocc : a.occupied = true) : es[i]? = some a := by
  induction h generalizing i with
  | nil => cases ha
  | cons hab _ ih =>
      cases i with
      | zero =>
          rcases hab with rfl | ⟨-, rfl⟩
          · exact ha
          · cases ha
            cases hocc
      | succ i => exact ih ha

/-- And one that has not expired stays. -/
theorem swept_live {es es' : List Entry} (h : List.Forall₂ (Swept now) es es') {i : ℕ} {a : Entry}
    (ha : es[i]? = some a) (hnow : now < a.expiresMs) : es'[i]? = some a := by
  induction h generalizing i with
  | nil => cases ha
  | cons hab _ ih =>
      cases i with
      | zero =>
          cases ha
          rcases hab with rfl | ⟨hexp, -⟩
          · rfl
          · exact absurd hnow (UInt64.not_lt.mpr hexp)
      | succ i => exact ih ha

theorem distinct_swept {es es' : List Entry} (hd : Distinct es) (h : List.Forall₂ (Swept now) es es') :
    Distinct es' := fun i j a b hi hj ha hb hk =>
  hd i j a b (swept_entry h hi ha) (swept_entry h hj hb) ha hb hk

theorem observe_distinct (hd : Distinct c.toList) (key : Bytes 32) (now : UInt64) :
    Distinct (c.observe key now).2.toList := by
  have hs := distinct_swept hd (scan_swept key now c.toList)
  rcases observe_toList c key now with ⟨-, -, hlist⟩ | ⟨-, hmiss, hlist⟩
  · rw [hlist]
    exact hs
  · rw [hlist]
    -- the new entry has a key that no other has
    have hnew (i : ℕ) (a : Entry) (hi : (scan key now c.toList).1[i]? = some a) (ha : a.occupied = true) :
        a.key ≠ key := (scan_miss hmiss a (List.mem_of_getElem? hi) ha).2
    intro i j a b hi hj ha hb hk
    rw [List.getElem?_set] at hi hj
    split at hi
    · rename_i hpi
      split at hj
      · rename_i hpj
        exact hpi.symm.trans hpj
      · split at hi
        · cases hi
          exact absurd hk.symm (hnew j b hj hb)
        · cases hi
    · split at hj
      · split at hj
        · cases hj
          exact absurd hk (hnew i a hi ha)
        · cases hj
      · exact hs i j a b hi hj ha hb hk

theorem observe_sourced {P P' : Bytes 32 → UInt64 → Prop} (hs : Sourced P c.toList)
    (hP : ∀ k t, P k t → P' k t) (hnew : (c.observe key now).1 = .new → P' key now) :
    Sourced P' (c.observe key now).2.toList := by
  have hold (e : Entry) (he : e ∈ (scan key now c.toList).1) (hocc : e.occupied = true) :
      ∃ t, P' e.key t ∧ e.expiresMs = satAdd64 t relayCacheTtlMs := by
    obtain ⟨i, hi⟩ := List.mem_iff_getElem?.mp he
    obtain ⟨t, ht, hexp⟩ := hs e (List.mem_of_getElem? (swept_entry (scan_swept key now c.toList) hi hocc)) hocc
    exact ⟨t, hP _ _ ht, hexp⟩
  rcases observe_toList c key now with ⟨-, -, hlist⟩ | ⟨hverdict, -, hlist⟩
  · rw [hlist]
    exact hold
  · rw [hlist]
    intro e he hocc
    rcases List.mem_or_eq_of_mem_set he with he | rfl
    · exact hold e he hocc
    · refine ⟨now, hnew hverdict, ?_⟩
      dsimp only

/-- A new key lives for the whole of its lifetime. -/
theorem observe_new (h : (c.observe key now).1 = .new) :
    Lives key (satAdd64 now relayCacheTtlMs) (c.observe key now).2.toList := by
  rcases observe_toList c key now with ⟨hdup, -, -⟩ | ⟨-, -, hlist⟩
  · rw [h] at hdup
    cases hdup
  · rw [hlist]
    have hlen : (scan key now c.toList).1.length = relayCacheSize := by
      rw [length_scan, Vector.length_toList]
    have hplace : place (scan key now c.toList).1 0 0 0xFFFFFFFFFFFFFFFF < (scan key now c.toList).1.length :=
      place_lt _ 0 0 _ (by rw [hlen]; exact Nat.succ_pos 63) (by rw [Nat.zero_add])
    refine ⟨_, List.mem_set hplace _, rfl, rfl, ?_⟩
    dsimp only

/-- A live key is a duplicate. -/
theorem observe_live {expires : UInt64} (hl : Lives key expires c.toList) (hnow : now < expires) :
    (c.observe key now).1 = .duplicate := by
  rcases observe_toList c key now with ⟨hdup, -, -⟩ | ⟨-, hmiss, -⟩
  · exact hdup
  · obtain ⟨e, he, hocc, hkey, rfl⟩ := hl
    obtain ⟨i, hi⟩ := List.mem_iff_getElem?.mp he
    have hstay := swept_live (scan_swept key now c.toList) hi hnow
    exact absurd hkey (scan_miss hmiss e (List.mem_of_getElem? hstay) hocc).2

/-- **Lifetime.**  A live entry stays, while it has not expired and at most 64 keys, its own among
them, have entries that expire no earlier or are observed. -/
theorem observe_lives {own : Bytes 32} {expires : UInt64} {H : Finset (Bytes 32)}
    (hd : Distinct c.toList) (hl : Lives own expires c.toList) (hnow : now < expires)
    (hH : ∀ e ∈ c.toList, e.occupied = true → expires ≤ e.expiresMs → e.key ∈ H) (hkey : key ∈ H)
    (hcard : H.card ≤ relayCacheSize) : Lives own expires (c.observe key now).2.toList := by
  obtain ⟨e, he, hocc, hown, rfl⟩ := hl
  obtain ⟨i, hi⟩ := List.mem_iff_getElem?.mp he
  have hswept := scan_swept key now c.toList
  have hstay := swept_live hswept hi hnow
  rcases observe_toList c key now with ⟨-, -, hlist⟩ | ⟨-, hmiss, hlist⟩
  · rw [hlist]
    exact ⟨e, List.mem_of_getElem? hstay, hocc, hown, rfl⟩
  rw [hlist]
  generalize hes : (scan key now c.toList).1 = es at hswept hstay
  by_cases hplace : place es 0 0 0xFFFFFFFFFFFFFFFF = i
  · -- the entry would be the one to go: then all places are taken, by keys of `H` other than the new
    exfalso
    have hspec := place_spec es [] 0 0xFFFFFFFFFFFFFFFF rfl nofun (.inl ⟨rfl, rfl, rfl⟩) e
      (by rw [List.length_nil, hplace]; exact hstay)
    rcases hspec with hfree | hfull
    · rw [hocc] at hfree
      cases hfree
    have hkeys : (es.map Entry.key).Nodup := by
      rw [List.Nodup, List.pairwise_map, List.pairwise_iff_getElem]
      intro i j hi hj hij hk
      have hsame := distinct_swept hd hswept i j es[i] es[j] (List.getElem?_eq_getElem hi)
        (List.getElem?_eq_getElem hj) (hfull _ (List.getElem_mem hi)).1 (hfull _ (List.getElem_mem hj)).1 hk
      exact Nat.ne_of_lt hij hsame
    have hlen : es.length = relayCacheSize := by
      rw [← hswept.length_eq, Vector.length_toList]
    have hsub : insert key (es.map Entry.key).toFinset ⊆ H := by
      refine Finset.insert_subset hkey fun k hk => ?_
      obtain ⟨a, ha, rfl⟩ := List.mem_map.mp (List.mem_toFinset.mp hk)
      obtain ⟨j, hj⟩ := List.mem_iff_getElem?.mp ha
      have hbefore := List.mem_of_getElem? (swept_entry hswept hj (hfull a ha).1)
      exact hH a hbefore (hfull a ha).1 (hfull a ha).2
    have hnew : key ∉ (es.map Entry.key).toFinset := by
      intro hk
      obtain ⟨a, ha, hak⟩ := List.mem_map.mp (List.mem_toFinset.mp hk)
      exact (scan_miss hmiss a (hes ▸ ha) (hfull a ha).1).2 hak
    have h := Finset.card_le_card hsub
    rw [Finset.card_insert_of_notMem hnew, List.toFinset_card_of_nodup hkeys, List.length_map, hlen] at h
    exact absurd (Nat.le_trans h hcard) (Nat.not_succ_le_self _)
  · exact ⟨e, List.mem_of_getElem? ((List.getElem?_set_ne hplace).trans hstay), hocc, hown, rfl⟩

end

end RelayCache

end LoraMesh
