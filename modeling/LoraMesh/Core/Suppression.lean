import LoraMesh.Core.Lifetime
import LoraMesh.Lib.Runs

/-!
# Core — Suppression

The relay cache as a set of keys, each live for a time: what is in it after any history of
observations.

* `observed_inv`: a key has one entry, which lives for 8000 ms from when the key was last new.
* `observe_keeps`: a live entry stays, or is the first to expire of 64 when a new key comes.
* `suppression_spec`: the two over every history.
-/

namespace LoraMesh

namespace RelayCache

/-- The live entries. -/
def live (c : RelayCache) (nowMs : UInt64) : List Entry :=
  c.toList.filter fun e => e.occupied && decide (nowMs < e.expiresMs)

/-- How many are live. -/
def liveCount (c : RelayCache) (nowMs : UInt64) : ℕ := (c.live nowMs).length

/-- `key` is live at `now`, until `expires`. -/
def Live (c : RelayCache) (now : UInt64) (key : Bytes 32) (expires : UInt64) : Prop :=
  now < expires ∧ Lives key expires c.toList

/-- The observation of `k` at `t` takes the place of `key`: 64 keys are live, and `key`, which would
have lived until `expires`, is one that expires first; the others stay. -/
structure Evicts (c : RelayCache) (k : Bytes 32) (t : UInt64) (key : Bytes 32) (expires : UInt64) :
    Prop where
  new : (c.observe k t).1 = .new
  live : c.Live t key expires
  full : c.liveCount t = relayCacheSize
  first : ∀ k' x, c.Live t k' x → expires ≤ x
  others : ∀ k' x, c.Live t k' x → k' ≠ key → (c.observe k t).2.Live t k' x

section

variable {c : RelayCache} {key k : Bytes 32} {now t expires : UInt64}

theorem mem_live {e : Entry} :
    e ∈ c.live now ↔ e ∈ c.toList ∧ e.occupied = true ∧ now < e.expiresMs := by
  rw [live, List.mem_filter, Bool.and_eq_true, decide_eq_true_eq]

/-- Live keys are different. -/
theorem nodup_live (hd : Distinct c.toList) (now : UInt64) : ((c.live now).map Entry.key).Nodup := by
  have hpair : c.toList.Pairwise fun a b => a.occupied = true → b.occupied = true → a.key ≠ b.key := by
    rw [List.pairwise_iff_getElem]
    intro i j hi hj hij ha hb hk
    have hsame := hd i j _ _ (List.getElem?_eq_getElem hi) (List.getElem?_eq_getElem hj) ha hb hk
    exact Nat.ne_of_lt hij hsame
  rw [List.Nodup, List.pairwise_map]
  refine (hpair.filter _).imp_of_mem fun ha hb h => ?_
  exact h (mem_live.mp ha).2.1 (mem_live.mp hb).2.1

/-- A scan that finds the key has found it live. -/
theorem scan_hit : ∀ {es : List Entry}, (scan key now es).2 = true →
    ∃ e ∈ es, e.occupied = true ∧ now < e.expiresMs ∧ e.key = key
  | [], h => nomatch h
  | a :: es, h => by
      rw [scan] at h
      split at h
      · obtain ⟨e, he, hlive⟩ := scan_hit h
        exact ⟨e, List.mem_cons_of_mem a he, hlive⟩
      rename_i hocc
      split at h
      · obtain ⟨e, he, hlive⟩ := scan_hit h
        exact ⟨e, List.mem_cons_of_mem a he, hlive⟩
      rename_i hexp
      split at h
      · rename_i hkey
        exact ⟨a, List.mem_cons_self, (Bool.not_eq_false _).mp hocc, UInt64.not_le.mp hexp, hkey⟩
      · obtain ⟨e, he, hlive⟩ := scan_hit h
        exact ⟨e, List.mem_cons_of_mem a he, hlive⟩

/-- An observation is a duplicate just when its key is live. -/
theorem observe_duplicate_iff : (c.observe key now).1 = .duplicate ↔ ∃ x, c.Live now key x := by
  constructor
  · intro h
    rcases observe_toList c key now with ⟨-, hhit, -⟩ | ⟨hnew, -, -⟩
    · obtain ⟨e, he, hocc, hnow, hkey⟩ := scan_hit hhit
      exact ⟨e.expiresMs, hnow, e, he, hocc, hkey, rfl⟩
    · rw [h] at hnew
      cases hnew
  · rintro ⟨x, hnow, hl⟩
    exact observe_live hl hnow

/-- What is live and not in the place of the new entry stays. -/
theorem live_swept {es : List Entry} (hs : List.Forall₂ (Swept t) c.toList es) (hle : t ≤ now) :
    (now < expires ∧ Lives key expires es) ↔ c.Live now key expires := by
  constructor
  · rintro ⟨hnow, e, he, hocc, hkey, rfl⟩
    obtain ⟨i, hi⟩ := List.mem_iff_getElem?.mp he
    exact ⟨hnow, e, List.mem_of_getElem? (swept_entry hs hi hocc), hocc, hkey, rfl⟩
  · rintro ⟨hnow, e, he, hocc, hkey, rfl⟩
    obtain ⟨i, hi⟩ := List.mem_iff_getElem?.mp he
    exact ⟨hnow, e, List.mem_of_getElem? (swept_live hs hi (UInt64.lt_of_le_of_lt hle hnow)), hocc, hkey, rfl⟩

/-- A duplicate changes nothing that is live. -/
theorem live_observe_duplicate (h : (c.observe k t).1 = .duplicate) (hle : t ≤ now) :
    (c.observe k t).2.Live now key expires ↔ c.Live now key expires := by
  rcases observe_toList c k t with ⟨-, -, hlist⟩ | ⟨hnew, -, -⟩
  · rw [Live, hlist]
    exact live_swept (scan_swept k t c.toList) hle
  · rw [h] at hnew
    cases hnew

/-- Where the scan leaves no place free, all 64 entries are live. -/
theorem full_of_occupied {es : List Entry} (hs : List.Forall₂ (Swept t) c.toList es)
    (hall : ∀ e ∈ es, e.occupied = true ∧ t < e.expiresMs) : c.liveCount t = relayCacheSize := by
  have hsame : es = c.toList := by
    refine List.ext_getElem? fun i => ?_
    cases hi : es[i]? with
    | some e => exact (swept_entry hs hi (hall e (List.mem_of_getElem? hi)).1).symm
    | none =>
        rw [List.getElem?_eq_none_iff] at hi
        exact (List.getElem?_eq_none (hs.length_eq ▸ hi)).symm
  have hfilter : c.live t = c.toList := by
    refine List.filter_eq_self.mpr fun e he => ?_
    obtain ⟨hocc, hnow⟩ := hall e (hsame ▸ he)
    rw [hocc, decide_eq_true hnow]
    rfl
  rw [liveCount, hfilter, Vector.length_toList]

/-- A live entry stays, or is the one whose place is taken. -/
theorem observe_keeps (hl : c.Live t key expires) :
    (c.observe k t).2.Live t key expires ∨ Evicts c k t key expires := by
  have hs := scan_swept k t c.toList
  rcases observe_toList c k t with ⟨hdup, -, -⟩ | ⟨hnew, hmiss, hlist⟩
  · exact .inl ((live_observe_duplicate hdup (UInt64.le_refl t)).mpr hl)
  obtain ⟨hnow, e, he, hocc, rfl, rfl⟩ := hl
  obtain ⟨i, hi⟩ := List.mem_iff_getElem?.mp he
  have hstay := swept_live hs hi hnow
  -- an entry other than the one at the place of the new stays
  have hother {j : ℕ} {a : Entry} (hj : c.toList[j]? = some a) (ha : a.occupied = true)
      (hlt : t < a.expiresMs) (hne : place (scan k t c.toList).1 0 0 0xFFFFFFFFFFFFFFFF ≠ j) :
      (c.observe k t).2.Live t a.key a.expiresMs := by
    refine ⟨hlt, a, ?_, ha, rfl, rfl⟩
    rw [hlist]
    exact List.mem_of_getElem? ((List.getElem?_set_ne hne).trans (swept_live hs hj hlt))
  by_cases hplace : place (scan k t c.toList).1 0 0 0xFFFFFFFFFFFFFFFF = i
  · refine .inr ?_
    have hspec := place_spec (scan k t c.toList).1 [] 0 0xFFFFFFFFFFFFFFFF rfl nofun (.inl ⟨rfl, rfl, rfl⟩) e
      (by rw [List.length_nil, hplace]; exact hstay)
    rcases hspec with hfree | hfull
    · rw [hocc] at hfree
      cases hfree
    refine ⟨hnew, ⟨hnow, e, he, hocc, rfl, rfl⟩, ?_, ?_, ?_⟩
    · exact full_of_occupied hs fun a ha => ⟨(hfull a ha).1, (scan_miss hmiss a ha (hfull a ha).1).1⟩
    · rintro k' x hl
      obtain ⟨-, a, ha, -, -, rfl⟩ := (live_swept hs (UInt64.le_refl t)).mpr hl
      exact (hfull a ha).2
    · rintro k' x ⟨hlt, a, ha, hocc', rfl, rfl⟩ hne
      obtain ⟨j, hj⟩ := List.mem_iff_getElem?.mp ha
      refine hother hj hocc' hlt fun hpj => hne ?_
      obtain rfl : i = j := hplace.symm.trans hpj
      rw [hi] at hj
      cases hj
      rfl
  · exact .inl (hother hi hocc hnow hplace)

/-- What is live after an observation was live before, or is its key. -/
theorem live_of_observe (hle : t ≤ now) (h : (c.observe k t).2.Live now key expires) :
    c.Live now key expires ∨ key = k ∧ expires = satAdd64 t relayCacheTtlMs ∧ (c.observe k t).1 = .new := by
  have hs := scan_swept k t c.toList
  rcases observe_toList c k t with ⟨hdup, -, -⟩ | ⟨hnew, -, hlist⟩
  · exact .inl ((live_observe_duplicate hdup hle).mp h)
  · rw [Live, hlist] at h
    obtain ⟨hnow, e, he, hocc, rfl, rfl⟩ := h
    rcases List.mem_or_eq_of_mem_set he with he | rfl
    · exact .inl ((live_swept hs hle).mp ⟨hnow, e, he, hocc, rfl, rfl⟩)
    · refine .inr ⟨rfl, ?_, hnew⟩
      dsimp only

end

/-! ### Histories -/

/-- A cache, and what was new to it, the latest first. -/
def observeStep (r : RelayCache × List (Bytes 32 × UInt64)) (o : Bytes 32 × UInt64) :
    RelayCache × List (Bytes 32 × UInt64) :=
  let v := r.1.observe o.1 o.2
  (v.2, if v.1 = .new then o :: r.2 else r.2)

/-- An empty cache after the observations `obs`. -/
def observed (obs : List (Bytes 32 × UInt64)) : RelayCache × List (Bytes 32 × UInt64) :=
  run observeStep (new, []) obs

/-- When `key` was last new. -/
def lastNew (key : Bytes 32) (news : List (Bytes 32 × UInt64)) : Option UInt64 :=
  (news.find? fun o => o.1 = key).map Prod.snd

/-- What holds of a cache and what was new to it. -/
structure Dated (r : RelayCache × List (Bytes 32 × UInt64)) : Prop where
  distinct : Distinct r.1.toList
  dated : ∀ e ∈ r.1.toList, e.occupied = true →
    ∃ t, lastNew e.key r.2 = some t ∧ e.expiresMs.toNat = t.toNat + 8000

theorem satAdd64_ttl {t : UInt64} (h : t.toNat + 8000 < 2 ^ 64) :
    (satAdd64 t relayCacheTtlMs).toNat = t.toNat + 8000 := by
  have hsum : t.toNat + relayCacheTtlMs.toNat < 2 ^ 64 := h
  rw [satAdd64, if_pos hsum, UInt64.toNat_add, Nat.mod_eq_of_lt hsum]
  rfl

theorem dated_step {r : RelayCache × List (Bytes 32 × UInt64)} {o : Bytes 32 × UInt64} (h : Dated r)
    (hsmall : o.2.toNat + 8000 < 2 ^ 64) : Dated (observeStep r o) := by
  obtain ⟨c, news⟩ := r
  obtain ⟨k, t⟩ := o
  refine ⟨observe_distinct h.distinct k t, ?_⟩
  have hs := scan_swept k t c.toList
  have hold {e : Entry} (he : e ∈ (scan k t c.toList).1) (hocc : e.occupied = true) :
      ∃ t, lastNew e.key news = some t ∧ e.expiresMs.toNat = t.toNat + 8000 := by
    obtain ⟨i, hi⟩ := List.mem_iff_getElem?.mp he
    exact h.dated e (List.mem_of_getElem? (swept_entry hs hi hocc)) hocc
  show ∀ e ∈ (c.observe k t).2.toList, e.occupied = true →
    ∃ t', lastNew e.key (if (c.observe k t).1 = .new then (k, t) :: news else news) = some t' ∧
      e.expiresMs.toNat = t'.toNat + 8000
  rcases observe_toList c k t with ⟨hdup, -, hlist⟩ | ⟨hnew, hmiss, hlist⟩
  · rw [hdup, hlist, if_neg nofun]
    exact fun e he hocc => hold he hocc
  · rw [hnew, hlist, if_pos rfl]
    intro e he hocc
    rcases List.mem_or_eq_of_mem_set he with he | rfl
    · -- an entry that stays has another key
      have hne : k ≠ e.key := fun hk => (scan_miss hmiss e he hocc).2 hk.symm
      obtain ⟨t', ht', hexp⟩ := hold he hocc
      refine ⟨t', ?_, hexp⟩
      rw [lastNew, List.find?_cons_of_neg (by simpa using hne)]
      exact ht'
    · refine ⟨t, ?_, ?_⟩
      · rw [lastNew, List.find?_cons_of_pos (by simp)]
        rfl
      · dsimp only
        exact satAdd64_ttl hsmall

theorem observed_inv {obs : List (Bytes 32 × UInt64)} (hsmall : ∀ o ∈ obs, o.2.toNat + 8000 < 2 ^ 64) :
    Dated (observed obs) :=
  run_invariant (I := Dated) (fun _ _ h ho => dated_step h ho) obs
    ⟨distinct_new, fun e he hocc => by rw [new_free he] at hocc; cases hocc⟩ (along_of_forall hsmall)

/-- A live entry stays through observations made before it expires, unless one of them takes its place. -/
theorem run_keeps {key : Bytes 32} {expires : UInt64} : ∀ {post : List (Bytes 32 × UInt64)}
    {r : RelayCache × List (Bytes 32 × UInt64)}, (∀ o ∈ post, o.2 < expires) →
    Lives key expires r.1.toList →
    Lives key expires (run observeStep r post).1.toList ∨
      ∃ a o b, post = a ++ o :: b ∧ Evicts (run observeStep r a).1 o.1 o.2 key expires
  | [], _, _, hl => .inl hl
  | o :: post, r, hlt, hl => by
      rcases observe_keeps (k := o.1) (t := o.2) ⟨hlt o List.mem_cons_self, hl⟩ with hkeep | hev
      · have hrest : ∀ o ∈ post, o.2 < expires := fun o ho => hlt o (List.mem_cons_of_mem _ ho)
        rcases run_keeps (r := observeStep r o) hrest hkeep.2 with hlive | ⟨a, o', b, rfl, hev⟩
        · exact .inl hlive
        · exact .inr ⟨o :: a, o', b, rfl, hev⟩
      · exact .inr ⟨[], o, post, rfl, hev⟩

/-- **Suppression.**  After every history of observations: live keys are different; an observation is
a duplicate just when its key is live; a live key expires 8000 ms after it was last new, whatever
duplicates come; a new key is live and nothing else becomes so; and a live key is gone before it
expires only where a new key came while 64 were live of which it was one that expires first. -/
theorem suppression_spec (obs : List (Bytes 32 × UInt64)) (hsmall : ∀ o ∈ obs, o.2.toNat + 8000 < 2 ^ 64) :
    let c := (observed obs).1
    (∀ now, ((c.live now).map Entry.key).Nodup) ∧
    (∀ key now, (c.observe key now).1 = .duplicate ↔ ∃ x, c.Live now key x) ∧
    (∀ key now x, c.Live now key x →
      ∃ t, lastNew key (observed obs).2 = some t ∧ x.toNat = t.toNat + 8000) ∧
    (∀ k t, (c.observe k t).1 = .duplicate → ∀ key x now, t ≤ now →
      ((c.observe k t).2.Live now key x ↔ c.Live now key x)) ∧
    (∀ k t, (c.observe k t).1 = .new → t.toNat + 8000 < 2 ^ 64 →
      ∃ x, x.toNat = t.toNat + 8000 ∧ (c.observe k t).2.Live t k x) ∧
    (∀ k t key x now, t ≤ now → (c.observe k t).2.Live now key x →
      c.Live now key x ∨ key = k ∧ (c.observe k t).1 = .new) ∧
    ∀ pre post key x t now, obs = pre ++ post → (observed pre).1.Live t key x →
      (∀ o ∈ post, o.2 ≤ now) → now < x →
      c.Live now key x ∨ ∃ a o b, post = a ++ o :: b ∧ Evicts (observed (pre ++ a)).1 o.1 o.2 key x := by
  have hinv := observed_inv hsmall
  refine ⟨fun now => nodup_live hinv.distinct now, fun key now => observe_duplicate_iff,
    fun key now x hl => ?_, fun k t hdup key x now hle => live_observe_duplicate hdup hle,
    fun k t hnew ht => ⟨_, satAdd64_ttl ht, ?_, observe_new hnew⟩, fun k t key x now hle hl => ?_, fun pre post key x t now hobs hl hpost hnow => ?_⟩
  · obtain ⟨-, e, he, hocc, rfl, rfl⟩ := hl
    exact hinv.dated e he hocc
  · rw [UInt64.lt_iff_toNat_lt, satAdd64_ttl ht]
    omega
  · rcases live_of_observe hle hl with hl | ⟨hkey, -, hnew⟩
    · exact .inl hl
    · exact .inr ⟨hkey, hnew⟩
  · subst hobs
    have hbefore : ∀ o ∈ post, o.2 < x := fun o ho => UInt64.lt_of_le_of_lt (hpost o ho) hnow
    rcases run_keeps hbefore hl.2 with hlive | ⟨a, o, b, rfl, hev⟩
    · refine .inl ⟨hnow, ?_⟩
      rw [observed, run_append]
      exact hlive
    · refine .inr ⟨a, o, b, rfl, ?_⟩
      rw [observed, run_append]
      exact hev

/-- A key is seen twice, and a third time as it expires. -/
theorem suppression_spec_sample :
    ((observed [(Sample.bytes32 1, 0), (Sample.bytes32 1, 5)]).1.observe (Sample.bytes32 1) 8000).1 = .duplicate ↔
      ∃ x, (observed [(Sample.bytes32 1, 0), (Sample.bytes32 1, 5)]).1.Live 8000 (Sample.bytes32 1) x :=
  (suppression_spec [(Sample.bytes32 1, 0), (Sample.bytes32 1, 5)] (by decide)).2.1 _ _

end RelayCache

end LoraMesh
