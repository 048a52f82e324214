import LoraMesh.Engine.Hours

/-!
# Engine — Timekeeping

What the trusted clock does to the replay windows when it is set, and how it advances between two
settings.

* `windows_retained`: a set time keeps the windows of every hour it keeps, and starts the others
  empty.
* `polls_exact`: exactly when polling the monotonic clock carries the trusted time along.
-/

namespace LoraMesh

open Engine (position)

/-! ### The windows of the hours kept -/

/-- The ACK window of an hour. -/
def Contact.ackWindow? (c : Contact) (epoch : UInt32) : Option ReplayWindow :=
  (position c.winEpochs epoch).map c.winAck

theorem position_isSome {a : Fin 3 → UInt32} {x : UInt32} :
    (∃ i, position a x = some i) ↔ x ∈ Set.range a := by
  constructor
  · rintro ⟨i, hi⟩
    exact ⟨i, position_eq_some hi⟩
  · rintro ⟨i, hi⟩
    cases hp : position a x with
    | some j => exact ⟨j, rfl⟩
    | none => exact absurd hi (position_eq_none hp i)

/-- Every slot of a rotated table holds the window its hour had, or an empty one. -/
theorem rotateWindows_slot (es : Fin 3 → UInt32) (init : List UInt32) (n : UInt32)
    (win : Fin 3 → ReplayWindow) (j : Fin 3) :
    Engine.rotateWindows es init n win j = ((position es (slots n j)).map win).getD .new := by
  unfold Engine.rotateWindows
  cases hp : position es (slots n j) with
  | some k => rfl
  | none => exact if_pos (.inr (position_eq_none hp))

/-- A slot of a rotated table holds what its hour is looked up as: two slots of one hour, at the
saturated ends, hold the same. -/
theorem rotateWindows_lookup (es : Fin 3 → UInt32) (init : List UInt32) (n : UInt32)
    (win : Fin 3 → ReplayWindow) (j : Fin 3) :
    (position (slots n) (slots n j)).map (Engine.rotateWindows es init n win) =
      some (Engine.rotateWindows es init n win j) := by
  obtain ⟨k, hk⟩ := position_isSome.mpr ⟨j, rfl⟩
  rw [hk, Option.map_some, rotateWindows_slot, rotateWindows_slot, position_eq_some hk]

/-- A set time that is permitted succeeds; it rotates the present contacts and moves nothing else
but the clock. -/
theorem setTimeConfirmed_permitted {e : Engine} {s : UInt64} {confirmed : Bool} {n : UInt32}
    (hfault : e.fault = false) (hn : epochOfUnix s = some n) (hfloor : ¬ n < e.timeFloor)
    (hjump : confirmed = false → e.timeValid = true → ¬ satAdd32 e.epoch 1 < n) :
    ∃ cs as, e.setTimeConfirmed s confirmed =
        (Engine.stagePersist
          { e with
            contacts := cs, aliases := as, unixSeconds := s, timeValid := true
            utcMonoS := e.monoS } (.time s), .ok n) ∧
      ∀ i, cs i = e.contacts i ∧ (e.contacts i).present = false ∨
        (e.contacts i).present = true ∧
          ∃ init, cs i = Engine.rotateContact (e.contacts i) ⟨n⟩ init n := by
  obtain ⟨cs, as, hrun, -, hin⟩ := Engine.advanceAll_spec _ e (List.nodup_finRange maxContacts)
    fun i _ => Engine.not_lt_timeFloor hfloor i
  refine ⟨cs, as, ?_, fun i => hin i (List.mem_finRange i)⟩
  have hj : ¬ (!confirmed && e.timeValid && decide (satAdd32 e.epoch 1 < n)) = true := by
    simp only [Bool.and_eq_true, Bool.not_eq_true', decide_eq_true_eq]
    exact fun h => hjump h.1.1 h.1.2 h.2
  unfold Engine.setTimeConfirmed
  rw [if_neg (Bool.eq_false_iff.mp hfault), hn]
  dsimp only
  rw [if_neg hfloor, if_neg hj, hrun]

/-- Only a permitted set time succeeds. -/
theorem permitted_of_ok {e : Engine} {s : UInt64} {confirmed : Bool} {n : UInt32}
    (h : (e.setTimeConfirmed s confirmed).2 = .ok n) :
    e.fault = false ∧ epochOfUnix s = some n ∧ ¬ n < e.timeFloor ∧
      (confirmed = false → e.timeValid = true → ¬ satAdd32 e.epoch 1 < n) := by
  unfold Engine.setTimeConfirmed at h
  split at h
  · cases h
  rename_i hfault
  split at h
  · cases h
  rename_i n' hn
  split at h
  · cases h
  rename_i hfloor
  split at h
  · cases h
  rename_i hjump
  have hok : n' = n := by
    split at h
    · cases h
    · exact Except.ok.inj h
  subst hok
  refine ⟨Bool.eq_false_iff.mpr hfault, hn, hfloor, ?_⟩
  rintro rfl hv hlt
  exact hjump (by simp [hv, hlt])

/-- What a successful set time does to a present contact. -/
theorem setTimeConfirmed_rotates {e : Engine} {s : UInt64} {confirmed : Bool} {n : UInt32}
    (h : (e.setTimeConfirmed s confirmed).2 = .ok n) (i : Slot) (hp : (e.contacts i).present = true) :
    ∃ init, (e.setTimeConfirmed s confirmed).1.contacts i =
      Engine.rotateContact (e.contacts i) ⟨n⟩ init n := by
  obtain ⟨hfault, hn, hfloor, hjump⟩ := permitted_of_ok h
  obtain ⟨cs, as, hrun, hin⟩ := setTimeConfirmed_permitted hfault hn hfloor hjump
  rw [hrun]
  rcases hin i with ⟨-, habs⟩ | ⟨-, init, hc⟩
  · rw [hp] at habs
    cases habs
  · exact ⟨init, hc⟩

/-- **Window retention on hour change.**  After a successful set time every slot of a present
contact's table holds the windows its hour is looked up under: those the hour had, if the old table
held it, and empty ones if not. -/
theorem windows_retained (e : Engine) (s : UInt64) (confirmed : Bool) {n : UInt32}
    (h : (e.setTimeConfirmed s confirmed).2 = .ok n) (i : Slot)
    (hp : (e.contacts i).present = true) :
    let c := e.contacts i
    let c' := (e.setTimeConfirmed s confirmed).1.contacts i
    epochOfUnix s = some n ∧ c'.winEpochs = slots n ∧ ∀ j x, c'.winEpochs j = x →
      c'.window? x = some (c'.winData j) ∧ c'.ackWindow? x = some (c'.winAck j) ∧
      (x ∈ Set.range c.winEpochs → c'.window? x = c.window? x ∧ c'.ackWindow? x = c.ackWindow? x) ∧
      (x ∉ Set.range c.winEpochs → c'.winData j = .new ∧ c'.winAck j = .new) := by
  intro c c'
  obtain ⟨-, hn, -⟩ := permitted_of_ok h
  obtain ⟨init, hc⟩ := setTimeConfirmed_rotates h i hp
  have hepochs : c'.winEpochs = slots n := congrArg Contact.winEpochs hc
  have hdata : c'.winData = Engine.rotateWindows c.winEpochs init n c.winData :=
    congrArg Contact.winData hc
  have hack : c'.winAck = Engine.rotateWindows c.winEpochs init n c.winAck :=
    congrArg Contact.winAck hc
  refine ⟨hn, hepochs, ?_⟩
  rintro j _ rfl
  have hwin : c'.window? (c'.winEpochs j) = some (c'.winData j) := by
    rw [Contact.window?, hepochs, hdata]
    exact rotateWindows_lookup ..
  have hwinAck : c'.ackWindow? (c'.winEpochs j) = some (c'.winAck j) := by
    rw [Contact.ackWindow?, hepochs, hack]
    exact rotateWindows_lookup ..
  refine ⟨hwin, hwinAck, fun hold => ?_, fun hnew => ?_⟩
  · obtain ⟨k, hk⟩ := position_isSome.mpr hold
    rw [hepochs] at hk
    rw [hwin, hwinAck, hdata, hack, hepochs, rotateWindows_slot, rotateWindows_slot, Contact.window?,
      Contact.ackWindow?, hk]
    exact ⟨rfl, rfl⟩
  · cases hk : position c.winEpochs (slots n j) with
    | some k =>
        rw [hepochs] at hnew
        exact absurd (position_isSome.mp ⟨k, hk⟩) hnew
    | none =>
        rw [hdata, hack, rotateWindows_slot, rotateWindows_slot, hk]
        exact ⟨rfl, rfl⟩

namespace Sample

/-- A node with one contact, its windows around hour zero. -/
def paired : Engine := (Engine.new true).setContact 0 { Contact.empty with present := true }

end Sample

/-- The second hour set from the start. -/
theorem windows_retained_sample :
    let c := Sample.paired.contacts 0
    let c' := (Sample.paired.setTimeConfirmed 7200 false).1.contacts 0
    epochOfUnix 7200 = some 2 ∧ c'.winEpochs = slots 2 ∧ ∀ j x, c'.winEpochs j = x →
      c'.window? x = some (c'.winData j) ∧ c'.ackWindow? x = some (c'.winAck j) ∧
      (x ∈ Set.range c.winEpochs → c'.window? x = c.window? x ∧ c'.ackWindow? x = c.ackWindow? x) ∧
      (x ∉ Set.range c.winEpochs → c'.winData j = .new ∧ c'.winAck j = .new) :=
  windows_retained Sample.paired 7200 false rfl 0 rfl

/-! ### Polling -/

namespace Engine

/-- A reading of the monotonic clock, and the commit of what it staged. -/
def poll (e : Engine) (now : UInt64) : Engine × Except EngineError Unit :=
  let (e, r) := e.advanceTime now
  (if e.pendingPersist.isSome then e.commitOk else e, r)

/-- Readings in turn, and whether all succeeded. -/
def polls (e : Engine) : List UInt64 → Engine × Bool
  | [] => (e, true)
  | now :: nows =>
    let (e, r) := e.poll now
    let (e, ok) := e.polls nows
    (e, r.isOk && ok)

/-- The trusted time at a reading of the monotonic clock, unbounded. -/
def timeAt (e : Engine) (now : UInt64) : ℕ := e.unixSeconds.toNat + (now.toNat - e.utcMonoS.toNat)

/-- Its hour. -/
def hourAt (e : Engine) (now : UInt64) : ℕ := e.timeAt now / 3600

/-- From one reading to the next the hour stays, or moves on by one to an hour the floor permits. -/
def Gradual (e : Engine) (from' now : UInt64) : Prop :=
  e.hourAt now = e.hourAt from' ∨
    e.hourAt now = e.hourAt from' + 1 ∧ e.timeFloor.toNat ≤ e.hourAt now

/-- No reading skips an hour. -/
def Gradually (e : Engine) : UInt64 → List UInt64 → Prop
  | _, [] => True
  | from', now :: nows => e.Gradual from' now ∧ e.Gradually now nows

end Engine

theorem epochOfUnix_of_lt {s : UInt64} (h : s.toNat / 3600 < 2 ^ 32) :
    ∃ n, epochOfUnix s = some n ∧ n.toNat = s.toNat / 3600 := by
  have hdiv : (s / secsPerHour).toNat = s.toNat / 3600 := UInt64.toNat_div ..
  refine ⟨(s / secsPerHour).toUInt32, if_pos (hdiv ▸ h), ?_⟩
  rw [UInt64.toNat_toUInt32, hdiv, Nat.mod_eq_of_lt h]

theorem toNat_epoch {e : Engine} (hv : e.timeValid = true) (h : e.unixSeconds.toNat / 3600 < 2 ^ 32) :
    e.epoch.toNat = e.unixSeconds.toNat / 3600 := by
  obtain ⟨n, hn, hnat⟩ := epochOfUnix_of_lt h
  rw [epoch_of_valid hv hn, hnat]

/-- The floor is no higher than all it is made of. -/
theorem timeFloor_le {e : Engine} {n : UInt32} (hp : e.persistedTxEpoch ≤ n)
    (h : ∀ i, (e.contacts i).present = true → (e.contacts i).anchor.anchor ≤ n) : e.timeFloor ≤ n := by
  have key : ∀ (is : List Slot) (acc : UInt32), acc ≤ n →
      is.foldl (fun floor i =>
        if (e.contacts i).present then max floor (e.contacts i).anchor.anchor else floor) acc ≤ n := by
    intro is
    induction is with
    | nil => exact fun _ hacc => hacc
    | cons j is ih =>
        intro acc hacc
        refine ih _ ?_
        dsimp only
        split
        · rename_i hj
          exact max32_le hacc (h j hj)
        · exact hacc
  exact key _ _ (max32_le (UInt32.le_iff_toNat_le.mpr (Nat.zero_le _)) hp)

/-- The floor is read off the saved epoch and the anchors alone. -/
theorem timeFloor_congr {e e' : Engine} (hp : e'.persistedTxEpoch = e.persistedTxEpoch)
    (h : ∀ i, (e'.contacts i).present = (e.contacts i).present ∧
      (e'.contacts i).anchor = (e.contacts i).anchor) : e'.timeFloor = e.timeFloor := by
  simp only [Engine.timeFloor, hp, h]

theorem commitOk_timeFloor (e : Engine) : e.commitOk.timeFloor = e.timeFloor := by
  refine timeFloor_congr ?_ fun i => ?_
  · unfold Engine.commitOk
    split <;> rfl
  · unfold Engine.commitOk
    split
    · rename_i j _ _
      dsimp only [Engine.setContact]
      rcases eq_or_ne i j with rfl | hij
      · rw [Function.update_self]
        exact ⟨rfl, rfl⟩
      · rw [Function.update_of_ne hij]
        exact ⟨rfl, rfl⟩
    · exact ⟨rfl, rfl⟩
    · exact ⟨rfl, rfl⟩

theorem satAdd32_one_lt {a n : UInt32} : satAdd32 a 1 < n ↔ a.toNat + 1 < n.toNat := by
  have hn := n.toNat_lt
  rw [UInt32.lt_iff_toNat_lt, satAdd32, UInt32.toNat_one]
  split
  · rename_i h
    rw [UInt32.toNat_add, UInt32.toNat_one, Nat.mod_eq_of_lt h]
  · rename_i h
    have htop : (0xFFFFFFFF : UInt32).toNat = 2 ^ 32 - 1 := rfl
    omega

namespace Engine

/-- `e'` has the trusted time that `e` predicts for a reading, and no floor above it. -/
structure CarriedTo (e : Engine) (now : UInt64) (e' : Engine) : Prop where
  fault : e'.fault = false
  valid : e'.timeValid = true
  time : e'.unixSeconds.toNat = e.timeAt now
  mono : e'.utcMonoS = now
  floor : e'.timeFloor = e.timeFloor ∨
    e'.timeFloor.toNat ≤ e.hourAt now ∧ e.timeFloor.toNat ≤ e.hourAt now

theorem CarriedTo.commitOk {e e' : Engine} {now : UInt64} (h : e.CarriedTo now e') :
    e.CarriedTo now e'.commitOk := by
  have hclock : e'.commitOk.fault = e'.fault ∧ e'.commitOk.timeValid = e'.timeValid ∧
      e'.commitOk.unixSeconds = e'.unixSeconds ∧ e'.commitOk.utcMonoS = e'.utcMonoS := by
    unfold Engine.commitOk
    split <;> exact ⟨rfl, rfl, rfl, rfl⟩
  obtain ⟨hfault, hvalid, htime, hmono⟩ := hclock
  refine ⟨hfault.trans h.fault, hvalid.trans h.valid, ?_, hmono.trans h.mono, ?_⟩
  · rw [htime, h.time]
  · rw [commitOk_timeFloor]
    exact h.floor

/-- What the node predicts is the same after a reading it carried. -/
theorem CarriedTo.timeAt {e e' : Engine} {now later : UInt64} (h : e.CarriedTo now e')
    (hle : e.utcMonoS ≤ now) (hlater : now ≤ later) : e'.timeAt later = e.timeAt later := by
  have htime := h.time
  rw [UInt64.le_iff_toNat_le] at hle hlater
  unfold Engine.timeAt at htime ⊢
  rw [h.mono, htime]
  omega

theorem hourAt_utcMonoS {e : Engine} : e.hourAt e.utcMonoS = e.unixSeconds.toNat / 3600 := by
  rw [hourAt, timeAt, Nat.sub_self, Nat.add_zero]

theorem hourAt_mono {e : Engine} {a b : UInt64} (h : a ≤ b) : e.hourAt a ≤ e.hourAt b := by
  rw [UInt64.le_iff_toNat_le] at h
  unfold hourAt timeAt
  exact Nat.div_le_div_right (by omega)

/-- A reading whose hour is representable: the time it reads, and what becomes of it. -/
theorem advanceTime_eq {e : Engine} {now : UInt64} (hfault : e.fault = false)
    (hv : e.timeValid = true) (hle : e.utcMonoS ≤ now) (hfit : e.hourAt now < 2 ^ 32) :
    ∃ next n, next.toNat = e.timeAt now ∧ epochOfUnix next = some n ∧ n.toNat = e.hourAt now ∧
      e.advanceTime now =
        if n = e.epoch then ({ e with monoS := now, unixSeconds := next, utcMonoS := now }, .ok ())
        else match setTime { e with monoS := now } next with
          | (e, .error x) => (e, .error x)
          | (e, .ok _) => (e, .ok ()) := by
  have hsub : checkedSub64 now e.utcMonoS = some (now - e.utcMonoS) := if_pos hle
  have hdiff : (now - e.utcMonoS).toNat = now.toNat - e.utcMonoS.toNat :=
    UInt64.toNat_sub_of_le _ _ hle
  have htime : e.timeAt now < 2 ^ 64 := by
    unfold hourAt at hfit
    omega
  obtain ⟨next, hadd⟩ : ∃ next, checkedAdd64 e.unixSeconds (now - e.utcMonoS) = some next := by
    refine ⟨_, if_pos ?_⟩
    rw [hdiff]
    exact htime
  have hnext : next.toNat = e.timeAt now := by
    rw [checkedAdd64_eq_some.mp hadd, hdiff, timeAt]
  obtain ⟨n, hn, hnat⟩ := epochOfUnix_of_lt (s := next) (by rw [hnext]; exact hfit)
  refine ⟨next, n, hnext, hn, by rw [hnat, hnext, hourAt], ?_⟩
  unfold advanceTime
  have hvalid : ¬ (!e.timeValid) = true := by rw [hv]; exact Bool.false_ne_true
  rw [if_neg (Bool.eq_false_iff.mp hfault)]
  dsimp only
  rw [if_neg hvalid, hsub]
  simp only [hadd, Option.filter_some, hn, Option.isSome_some, if_true]
  by_cases hsame : n = e.epoch
  · have heq : some n = some (Engine.epoch { e with monoS := now }) := congrArg some hsame
    rw [if_pos hsame]
    exact if_neg (not_not_intro heq)
  · have hne : some n ≠ some (Engine.epoch { e with monoS := now }) :=
      fun heq => hsame (Option.some.inj heq)
    rw [if_neg hsame]
    exact if_pos hne

/-- A reading across an hour, or across none, carries the time. -/
theorem advanceTime_carried {e : Engine} {now : UInt64} (hfault : e.fault = false)
    (hv : e.timeValid = true) (hle : e.utcMonoS ≤ now) (hfit : e.hourAt now < 2 ^ 32)
    (hg : e.Gradual e.utcMonoS now) :
    ∃ e', e.advanceTime now = (e', .ok ()) ∧ e.CarriedTo now e' := by
  obtain ⟨next, n, hnext, hn, hnat, hrun⟩ := advanceTime_eq hfault hv hle hfit
  have hepoch := toNat_epoch hv (hourAt_utcMonoS ▸ (hourAt_mono hle).trans_lt hfit)
  rw [← hourAt_utcMonoS] at hepoch
  rw [hrun]
  rcases hg with hsame | ⟨hstep, hfloor⟩
  · have heq : n = e.epoch := UInt32.toNat_inj.mp (by rw [hnat, hepoch, hsame])
    exact ⟨_, if_pos heq, hfault, hv, hnext, rfl, .inl rfl⟩
  · have hne : n ≠ e.epoch := by
      rintro rfl
      omega
    have hle32 : e.timeFloor ≤ n := UInt32.le_iff_toNat_le.mpr (hnat ▸ hfloor)
    have hjump : ¬ satAdd32 e.epoch 1 < n := by
      rw [satAdd32_one_lt]
      omega
    have hfree : (false : Bool) = false → e.timeValid = true → ¬ satAdd32 e.epoch 1 < n :=
      fun _ _ => hjump
    obtain ⟨cs, as, hset, hin⟩ := setTimeConfirmed_permitted (e := { e with monoS := now })
      hfault hn (UInt32.not_lt.mpr hle32) hfree
    rw [if_neg hne, setTime, hset]
    refine ⟨_, rfl, hfault, rfl, hnext, rfl, .inr ⟨?_, hfloor⟩⟩
    rw [← hnat, ← UInt32.le_iff_toNat_le]
    refine timeFloor_le (UInt32.not_lt.mp (not_lt_persisted (e := e) (UInt32.not_lt.mpr hle32))) ?_
    intro i hp
    rcases hin i with ⟨hcs, habs⟩ | ⟨-, init, hcs⟩
    · have hp : (cs i).present = true := hp
      rw [hcs, habs] at hp
      cases hp
    · have hanchor : (cs i).anchor.anchor = n := by rw [hcs]; rfl
      exact UInt32.le_of_eq hanchor

/-- A reading that skips an hour fails, and so does one into an hour below the floor. -/
theorem advanceTime_fails {e : Engine} {now : UInt64} (hfault : e.fault = false)
    (hv : e.timeValid = true) (hle : e.utcMonoS ≤ now) (hfit : e.hourAt now < 2 ^ 32)
    (hg : ¬ e.Gradual e.utcMonoS now) : (e.advanceTime now).2.isOk = false := by
  obtain ⟨next, n, hnext, hn, hnat, hrun⟩ := advanceTime_eq hfault hv hle hfit
  have hmono := hourAt_mono (e := e) hle
  have hepoch := toNat_epoch hv (hourAt_utcMonoS ▸ hmono.trans_lt hfit)
  rw [← hourAt_utcMonoS] at hepoch
  have hne : n ≠ e.epoch := by
    rintro rfl
    exact hg (.inl (hnat.symm.trans hepoch))
  rw [hrun, if_neg hne]
  cases hset : setTime { e with monoS := now } next with
  | mk e' r =>
      cases r with
      | error x => rfl
      | ok m =>
          obtain ⟨-, hm, hfloor, hjump⟩ := permitted_of_ok (congrArg Prod.snd hset)
          obtain rfl : n = m := Option.some.inj (hn.symm.trans hm)
          have hjump : ¬ satAdd32 e.epoch 1 < n := hjump rfl hv
          have hfloor : e.timeFloor ≤ n := UInt32.not_lt.mp hfloor
          rw [satAdd32_one_lt] at hjump
          refine absurd (.inr ⟨?_, hnat ▸ UInt32.le_iff_toNat_le.mp hfloor⟩) hg
          have hneNat : n.toNat ≠ e.epoch.toNat := fun h => hne (UInt32.toNat_inj.mp h)
          omega

theorem poll_carried {e : Engine} {now : UInt64} (hfault : e.fault = false)
    (hv : e.timeValid = true) (hle : e.utcMonoS ≤ now) (hfit : e.hourAt now < 2 ^ 32)
    (hg : e.Gradual e.utcMonoS now) : ∃ e', e.poll now = (e', .ok ()) ∧ e.CarriedTo now e' := by
  obtain ⟨e', hrun, hc⟩ := advanceTime_carried hfault hv hle hfit hg
  unfold poll
  rw [hrun]
  dsimp only
  split
  · exact ⟨_, rfl, hc.commitOk⟩
  · exact ⟨_, rfl, hc⟩

/-- From the node a reading has carried, the same readings are gradual. -/
theorem CarriedTo.gradually {e e' : Engine} {now : UInt64} (h : e.CarriedTo now e')
    (hle : e.utcMonoS ≤ now) (nows : List UInt64) (hmono : (now :: nows).Pairwise (· ≤ ·)) :
    e'.Gradually now nows ↔ e.Gradually now nows := by
  have key : ∀ (nows : List UInt64) (from' : UInt64), now ≤ from' →
      (from' :: nows).Pairwise (· ≤ ·) → (e'.Gradually from' nows ↔ e.Gradually from' nows) := by
    intro nows
    induction nows with
    | nil => exact fun _ _ _ => Iff.rfl
    | cons later nows ih =>
        intro from' hfrom hmono
        obtain ⟨hfirst, hrest⟩ := List.pairwise_cons.mp hmono
        have hlater : now ≤ later :=
          UInt64.le_trans hfrom (hfirst later (List.mem_cons_self ..))
        have hhour : ∀ t, now ≤ t → e'.hourAt t = e.hourAt t := fun t ht => by
          rw [hourAt, hourAt, h.timeAt hle ht]
        have hnow := hourAt_mono (e := e) hlater
        refine and_congr ?_ (ih later hlater hrest)
        unfold Gradual
        rw [hhour _ hlater, hhour _ hfrom]
        refine or_congr_right (and_congr_right fun _ => ?_)
        -- once the time has been carried to an hour, the floor is below the later ones
        rcases h.floor with hsame | ⟨hlow', hlow⟩
        · rw [hsame]
        · exact ⟨fun _ => hlow.trans hnow, fun _ => hlow'.trans hnow⟩
  exact key nows now (UInt64.le_refl now) hmono

/-- Readings succeed exactly when none skips an hour, and leave the time they read. -/
theorem polls_spec : ∀ (ts : List UInt64) (e : Engine), e.fault = false → e.timeValid = true →
    (e.utcMonoS :: ts).Pairwise (· ≤ ·) → e.hourAt (ts.getLastD e.utcMonoS) < 2 ^ 32 →
    ((e.polls ts).2 = true ↔ e.Gradually e.utcMonoS ts) ∧
      (e.Gradually e.utcMonoS ts →
        (e.polls ts).1.unixSeconds.toNat = e.timeAt (ts.getLastD e.utcMonoS)) := by
  intro ts
  induction ts with
  | nil =>
      intro e _ _ _ _
      refine ⟨iff_of_true rfl trivial, fun _ => ?_⟩
      rw [List.getLastD_nil, timeAt, Nat.sub_self, Nat.add_zero, polls]
  | cons now nows ih =>
      intro e hfault hv hmono hfit
      obtain ⟨hfirst, hrest⟩ := List.pairwise_cons.mp hmono
      rw [List.getLastD_cons] at hfit ⊢
      have hle : e.utcMonoS ≤ now := hfirst now (List.mem_cons_self ..)
      have hlast : now ≤ nows.getLastD now := by
        have hmem : nows.getLastD now ∈ now :: nows := List.getLastD_mem_cons
        rcases List.mem_cons.mp hmem with heq | hmem
        · rw [heq]
          exact UInt64.le_refl now
        · exact (List.pairwise_cons.mp hrest).1 _ hmem
      have hnow : e.hourAt now < 2 ^ 32 := (hourAt_mono hlast).trans_lt hfit
      by_cases hg : e.Gradual e.utcMonoS now
      · obtain ⟨e', hpoll, hc⟩ := poll_carried hfault hv hle hnow hg
        have hpred := hc.timeAt hle hlast
        obtain ⟨hok, htime⟩ := ih e' hc.fault hc.valid (hc.mono ▸ hrest)
          (by rw [hc.mono, hourAt, hpred]; exact hfit)
        have hgrad := hc.gradually hle nows hrest
        rw [hc.mono, hgrad] at hok htime
        rw [polls, hpoll]
        refine ⟨?_, fun h => ?_⟩
        · exact hok.trans (and_iff_right hg).symm
        · exact (htime h.2).trans hpred
      · have hbad := advanceTime_fails hfault hv hle hnow hg
        refine ⟨iff_of_false ?_ fun h => hg h.1, fun h => absurd h.1 hg⟩
        have hpoll : (e.poll now).2 = (e.advanceTime now).2 := rfl
        rw [polls]
        dsimp only
        rw [hpoll, hbad, Bool.false_and]
        exact Bool.false_ne_true

/-- A node with a storage fault reads no time. -/
theorem polls_fault {e : Engine} (hfault : e.fault = true) :
    ∀ {ts : List UInt64}, ts ≠ [] → (e.polls ts).2 = false
  | [], hne => absurd rfl hne
  | now :: nows, _ => by
      have hrun : (e.poll now).2 = .error .storageFault := by
        unfold poll advanceTime
        rw [if_pos hfault]
      rw [polls]
      dsimp only
      rw [hrun]
      rfl

end Engine

/-- **The clock between polls.**  Of a node whose time is valid, all readings of the monotonic clock
up to a representable hour succeed and leave the time elapsed exactly when the node has no fault
and no reading skips an hour. -/
theorem polls_exact (e : Engine) (ts : List UInt64) (hne : ts ≠ []) (hv : e.timeValid = true)
    (hmono : (e.utcMonoS :: ts).Pairwise (· ≤ ·))
    (hfit : e.hourAt (ts.getLastD e.utcMonoS) < 2 ^ 32) :
    (e.polls ts).2 = true ∧
        (e.polls ts).1.unixSeconds.toNat = e.timeAt (ts.getLastD e.utcMonoS) ↔
      e.fault = false ∧ e.Gradually e.utcMonoS ts := by
  cases hfault : e.fault with
  | true =>
      refine iff_of_false (fun h => ?_) fun h => Bool.noConfusion h.1
      rw [Engine.polls_fault hfault hne] at h
      exact Bool.false_ne_true h.1
  | false =>
      obtain ⟨hok, htime⟩ := Engine.polls_spec ts e hfault hv hmono hfit
      refine ⟨fun h => ⟨rfl, hok.mp h.1⟩, fun h => ⟨hok.mpr h.2, htime h.2⟩⟩

namespace Sample

/-- A node whose time has been set to the start of hour zero. -/
def clocked : Engine := ((Engine.new true).setTime 0).1.commitOk

end Sample

/-- Two hours on in two readings. -/
theorem polls_exact_sample :
    (Sample.clocked.polls [3600, 7200]).2 = true ∧
        (Sample.clocked.polls [3600, 7200]).1.unixSeconds.toNat = Sample.clocked.timeAt 7200 ↔
      Sample.clocked.fault = false ∧ Sample.clocked.Gradually 0 [3600, 7200] :=
  polls_exact Sample.clocked [3600, 7200] (by decide) rfl (by decide) (by decide)

/-- The same two hours in two readings, and in one: the one fails, and the time stands still. -/
theorem polls_differ :
    Sample.clocked.timeValid = true ∧ Sample.clocked.fault = false ∧
      Sample.clocked.timeAt 7200 = 7200 ∧
      (Sample.clocked.polls [3600, 7200]).2 = true ∧
      (Sample.clocked.polls [3600, 7200]).1.unixSeconds = 7200 ∧
      (Sample.clocked.poll 7200).2 = .error .timeJumpNeedsConfirm ∧
      (Sample.clocked.polls [7200]).2 = false ∧
      (Sample.clocked.polls [7200]).1.unixSeconds = 0 := by
  refine ⟨rfl, rfl, rfl, rfl, rfl, rfl, rfl, rfl⟩

end LoraMesh
