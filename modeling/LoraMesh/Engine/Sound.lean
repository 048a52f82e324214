import LoraMesh.Engine.Op

/-!
# Engine — Sound

What every operation preserves of the engine, whatever order they come in.

* `Sound`: the label and roles in range, absent slots empty, and of every contact the keys its
  root derives and well-formed windows.
* `sound_moves`: every move keeps an engine sound.
* `Reserved`: no slot has used a sequence that its snapshot would not have reserved;
  `reserved_moves` keeps it while no new block is staged and uncommitted.
-/

namespace LoraMesh

/-- A live contact: derived keys, a role in range, well-formed windows. -/
structure Contact.Live (C : Crypto) (c : Contact) : Prop where
  present : c.present = true
  role : c.role ≤ 1
  trafficLr : c.trafficLr = deriveLabel C c.root labelTrafficLR
  trafficRl : c.trafficRl = deriveLabel C c.root labelTrafficRL
  addrSecret : c.addrSecret = deriveLabel C c.root labelAddress
  winData : ∀ i, (c.winData i).WF
  winAck : ∀ i, (c.winAck i).WF

/-- Empty or live. -/
def Contact.WF (C : Crypto) (c : Contact) : Prop := c = .empty ∨ c.Live C

/-- What every operation preserves. -/
structure Engine.Sound (C : Crypto) (e : Engine) : Prop where
  label : e.label ≤ 3
  role : ∀ p, e.pending = some p → p.ownRole ≤ 1
  contacts : ∀ i, (e.contacts i).WF C
  staged : ∀ i n, e.staged = some (.txReserve i n) → (e.contacts i).present = true

theorem Contact.WF.empty (C : Crypto) : Contact.empty.WF C := .inl rfl

theorem Contact.WF.live {C : Crypto} {c : Contact} (h : c.WF C) (hp : c.present = true) :
    c.Live C := by
  rcases h with rfl | h
  · cases hp
  · exact h

theorem Contact.WF.eq_empty {C : Crypto} {c : Contact} (h : c.WF C) (hp : c.present = false) :
    c = .empty := by
  rcases h with rfl | h
  · rfl
  · rw [h.present] at hp; cases hp

namespace Contact.Live

variable {C : Crypto} {c : Contact} (h : c.Live C)
include h

theorem setData {w : ReplayWindow} (hw : w.WF) (win : Fin 3) : (c.setData win w).Live C where
  present := h.present
  role := h.role
  trafficLr := h.trafficLr
  trafficRl := h.trafficRl
  addrSecret := h.addrSecret
  winData := fun i => by
    show (Function.update c.winData win w i).WF
    by_cases hi : i = win
    · subst hi; rw [Function.update_self]; exact hw
    · rw [Function.update_of_ne hi]; exact h.winData i
  winAck := h.winAck

theorem setAck {w : ReplayWindow} (hw : w.WF) (win : Fin 3) : (c.setAck win w).Live C where
  present := h.present
  role := h.role
  trafficLr := h.trafficLr
  trafficRl := h.trafficRl
  addrSecret := h.addrSecret
  winData := h.winData
  winAck := fun i => by
    show (Function.update c.winAck win w i).WF
    by_cases hi : i = win
    · subst hi; rw [Function.update_self]; exact hw
    · rw [Function.update_of_ne hi]; exact h.winAck i

theorem consume (epoch : UInt32) : (c.consume epoch).Live C :=
  ⟨h.present, h.role, h.trafficLr, h.trafficRl, h.addrSecret, h.winData, h.winAck⟩

theorem setBlocked (blocked : Bool) : Contact.Live C { c with blocked } :=
  ⟨h.present, h.role, h.trafficLr, h.trafficRl, h.addrSecret, h.winData, h.winAck⟩

theorem setReserved (n : UInt64) : Contact.Live C { c with txReserved := n } :=
  ⟨h.present, h.role, h.trafficLr, h.trafficRl, h.addrSecret, h.winData, h.winAck⟩

theorem rotate (a : AnchorHours) (init : List UInt32) (newEpoch : UInt32) :
    (Engine.rotateContact c a init newEpoch).Live C := by
  have hwin : ∀ win : Fin 3 → ReplayWindow, (∀ i, (win i).WF) →
      ∀ i, (Engine.rotateWindows c.winEpochs init newEpoch win i).WF := by
    intro win hwin i
    unfold Engine.rotateWindows
    split
    · exact hwin _
    · split
      · exact ReplayWindow.wf_new
      · exact hwin i
  exact ⟨h.present, h.role, h.trafficLr, h.trafficRl, h.addrSecret, hwin _ h.winData,
    hwin _ h.winAck⟩

end Contact.Live

theorem Contact.live_activated (C : Crypto) (ed : Bytes 32) (id : Bytes 8) (root : Bytes 32)
    {role : UInt8} (epoch : UInt32) (hr : role ≤ 1) :
    (Engine.activatedContact C ed id root role epoch).Live C :=
  ⟨rfl, hr, rfl, rfl, rfl, fun _ => ReplayWindow.wf_new, fun _ => ReplayWindow.wf_new⟩

theorem restoreContact_wf (C : Crypto) {pc : PersistContact} (h : pc.Valid) :
    (Engine.restoreContact C pc).WF C := by
  unfold Engine.restoreContact
  split
  · exact .inr ⟨rfl, h.1, rfl, rfl, rfl, fun _ => ReplayWindow.wf_restore _ _ _,
      fun _ => ReplayWindow.wf_restore _ _ _⟩
  · exact .inl rfl

/-- Replacing one contact by a well-formed one. -/
theorem update_wf {C : Crypto} {cs : Slot → Contact} (h : ∀ i, (cs i).WF C) {slot : Slot}
    {c : Contact} (hc : c.WF C) (i : Slot) : (Function.update cs slot c i).WF C := by
  by_cases hi : i = slot
  · subst hi; rw [Function.update_self]; exact hc
  · rw [Function.update_of_ne hi]; exact h i

theorem PendingKept.role_le {e : Engine} {p' : PendingPair} (h : PendingKept e p')
    (hr : ∀ p, e.pending = some p → p.ownRole ≤ 1) : p'.ownRole ≤ 1 := by
  rcases h.role with ⟨p, hp, heq⟩ | h
  · rw [heq]; exact hr p hp
  · exact h

section Moves

variable {C : Crypto} {e e' : Engine} {op : Op} {out : Output}

theorem Kept.sound_label (h : Kept e e') (hs : e.Sound C) : e'.label ≤ 3 :=
  h.label.elim (fun h => h ▸ hs.label) id

theorem Kept.sound_role (h : Kept e e') (hs : e.Sound C) :
    ∀ p, e'.pending = some p → p.ownRole ≤ 1 := by
  intro p hp
  rcases h.pending with heq | hn
  · exact hs.role p (heq ▸ hp)
  · exact nomatch hn.symm.trans hp

theorem Engine.Staged.not_txReserve {kind : StagedCommit} (h : e'.Staged kind)
    (hk : ∀ i n, kind ≠ .txReserve i n) : ∀ i n, e'.staged ≠ some (.txReserve i n) :=
  fun i n hn => hk i n (Option.some.inj (h.staged.symm.trans hn))

/-- A reservation stages a new block only when the old one is spent. -/
theorem reservation_spec {slot i : Slot} {spare : StagedCommit} {n : UInt64}
    (h : e.reservation slot spare = some (.txReserve i n))
    (hspare : ∀ i n, spare ≠ .txReserve i n) :
    i = slot ∧ n.toNat = (e.contacts slot).txNext.toNat + 32 := by
  unfold Engine.reservation at h
  dsimp only at h
  split at h
  · obtain ⟨m, hm, heq⟩ := Option.map_eq_some_iff.mp h
    cases heq
    exact ⟨rfl, checkedAdd64_eq_some.mp hm⟩
  · exact absurd (Option.some.inj h) (hspare i n)

theorem slotOf_present {id : UInt8} {slot : Slot} (h : e.slotOf id = .ok slot) :
    (e.contacts slot).present = true := (Engine.slotOf_ok h).1

theorem sendReady_spec {ps : PendingSend} {slot : Slot} (h : e.sendReady = .ok (ps, slot)) :
    e.persistDirty = false ∧ e.pendingSend = some ps ∧ e.slotOf ps.contactId = .ok slot ∧
      (e.contacts slot).txNext = ps.sequence ∧ ps.sequence < (e.contacts slot).txReserved := by
  simp only [Engine.sendReady, bind_eq_ok, require_eq_ok, okOr_eq_ok, pure_eq_ok,
    Prod.mk.injEq, Bool.not_eq_true', Bool.or_eq_false_iff, bne_eq_false_iff_eq,
    decide_eq_false_iff_not] at h
  obtain ⟨-, hd, ps', hps, slot', hslot, -, ⟨hn, hr⟩, -, -, rfl, rfl⟩ := h
  exact ⟨hd, hps, hslot, hn, UInt64.not_le.mp hr⟩

/-- Nothing is emitted under an hour before one already sent under. -/
theorem sendReady_epoch {ps : PendingSend} {slot : Slot} (h : e.sendReady = .ok (ps, slot)) :
    (e.contacts slot).txEpochMax ≤ ps.epoch := by
  simp only [Engine.sendReady, bind_eq_ok, require_eq_ok, okOr_eq_ok, pure_eq_ok,
    Prod.mk.injEq, Bool.not_eq_true', decide_eq_false_iff_not] at h
  obtain ⟨-, -, ps', -, slot', -, -, -, -, hge, rfl, rfl⟩ := h
  exact UInt32.not_lt.mp hge

theorem opens_present {frame body pt : List UInt8} {slot : Slot} {h : Header} {win : Fin 3}
    (ho : Opens C e frame slot h body win pt) : (e.contacts slot).present = true := by
  have hopen := ho.opened
  unfold Engine.tryContact at hopen
  dsimp only at hopen
  split at hopen
  · assumption
  · cases hopen

/-- A state staged without a reservation, one slot replaced. -/
theorem sound_of_update {slot : Slot} {c : Contact} {kind : StagedCommit} (hs : e.Sound C)
    (hk : Kept e e') (hc : e'.contacts = Function.update e.contacts slot c) (hwf : c.WF C)
    (hst : e'.Staged kind) (hkind : ∀ i n, kind = .txReserve i n → i = slot ∧ c.present = true) :
    e'.Sound C where
  label := hk.sound_label hs
  role := hk.sound_role hs
  contacts := fun i => by rw [hc]; exact update_wf hs.contacts hwf i
  staged := fun i n h => by
    obtain ⟨rfl, hp⟩ := hkind i n (Option.some.inj (hst.staged.symm.trans h))
    rw [hc, Function.update_self]
    exact hp

theorem acked_sound {slot : Slot} {c : Contact} {h : Header} {pid : UInt32} {f : Option OutgoingFrame}
    (hs : e.Sound C) (hk : Kept e e') (hlive : c.Live C) (ha : Acked C e slot c h pid e' f) :
    e'.Sound C := by
  cases ha with
  | without hkind hc hst =>
      refine sound_of_update hs hk hc (.inr hlive) hst fun i n hn => ?_
      rcases hkind with rfl | rfl <;> cases hn
  | acked hr _ hc _ _ hst =>
      refine sound_of_update hs hk hc (.inr (hlive.consume _)) hst fun i n hn => ?_
      subst hn
      exact ⟨(reservation_spec hr fun _ _ h => nomatch h).1, hlive.present⟩

/-- Every move keeps an engine sound. -/
theorem sound_moves (hs : e.Sound C) (hm : Moves C e op e' out) : e'.Sound C := by
  cases hm with
  | quiet h _ =>
      exact ⟨h.sound_label hs, h.sound_role hs, fun i => h.contacts ▸ hs.contacts i,
        fun i n hn => h.contacts ▸ hs.staged i n (h.staged ▸ hn)⟩
  | pairing h =>
      obtain ⟨⟨p', rfl, hk⟩, -⟩ := h.spec
      exact ⟨hs.label, fun p hp => Option.some.inj hp ▸ hk.role_le hs.role, hs.contacts, hs.staged⟩
  | restage hkind h hc _ hst _ =>
      refine ⟨h.sound_label hs, h.sound_role hs, fun i => hc ▸ hs.contacts i, fun i n hn => ?_⟩
      rcases hkind with rfl | rfl
      · exact absurd hn (hst.not_txReserve (fun _ _ h => nomatch h) i n)
      · exact absurd hn (hst.not_txReserve (fun _ _ h => nomatch h) i n)
  | setTime _ hc h _ _ _ hst _ =>
      refine ⟨h.sound_label hs, h.sound_role hs, fun i => ?_,
        fun i n hn => absurd hn (hst.not_txReserve (fun _ _ h => nomatch h) i n)⟩
      rcases hc i with ⟨hi, -⟩ | ⟨hp, init, hi⟩
      · rw [hi]; exact hs.contacts i
      · rw [hi]; exact .inr (((hs.contacts i).live hp).rotate _ _ _)
  | sendBegin hslot hr _ _ =>
      refine ⟨hs.label, hs.role, hs.contacts, fun i n hn => ?_⟩
      cases hn
      rw [(reservation_spec hr fun _ _ h => nomatch h).1]
      exact slotOf_present hslot
  | sendEmit hr _ hc h _ _ _ hst =>
      have hp := slotOf_present (sendReady_spec hr).2.2.1
      exact sound_of_update hs h.toKept hc (.inr (((hs.contacts _).live hp).consume _)) hst
        fun _ _ h => nomatch h
  | retry => exact hs
  | recvData ho hw _ ha hk _ _ =>
      have hlive := (hs.contacts _).live (opens_present ho)
      exact acked_sound hs hk.toKept (hlive.setData (ReplayWindow.wf_of_accept (hlive.winData _) hw) _) ha
  | recvAck ho _ hw hc _ hk _ _ hst =>
      have hlive := (hs.contacts _).live (opens_present ho)
      have hwf := ReplayWindow.wf_of_accept (hlive.winAck _) hw
      exact sound_of_update hs hk.toKept hc (.inr (hlive.setAck hwf _)) hst fun _ _ h => nomatch h
  | delete _ hc h _ _ hst => exact sound_of_update hs h.toKept hc (.inl rfl) hst fun _ _ h => nomatch h
  | block hslot hc h _ _ hst =>
      have hlive := (hs.contacts _).live (slotOf_present hslot)
      exact sound_of_update hs h.toKept hc (.inr (hlive.setBlocked _)) hst fun _ _ h => nomatch h
  | activate hp _ _ _ _ =>
      refine ⟨hs.label, hs.role, ?_, fun _ _ h => nomatch h⟩
      intro i
      exact update_wf (update_wf hs.contacts (.empty C))
        (.inr (Contact.live_activated C _ _ _ _ (hs.role _ hp))) i
  | commitOk =>
      unfold Engine.commitOk
      split
      · rename_i slot n hst
        exact ⟨hs.label, hs.role, update_wf hs.contacts
          (.inr (((hs.contacts slot).live (hs.staged slot n hst)).setReserved n)), fun _ _ h => nomatch h⟩
      · exact ⟨hs.label, fun _ h => (nomatch h), hs.contacts, fun _ _ h => nomatch h⟩
      · exact ⟨hs.label, hs.role, hs.contacts, fun _ _ h => nomatch h⟩
  | discard => exact ⟨hs.label, hs.role, hs.contacts, fun _ _ h => nomatch h⟩
  | restore hd =>
      have hv := decodeView_valid hd
      exact ⟨hv.1, fun _ h => (nomatch h), fun i => restoreContact_wf C (hv.2 i),
        fun _ _ h => nomatch h⟩

/-- What a move does to the staging buffer: keep it, clear it, or stage the state it leaves. -/
inductive Staging (op : Op) (e e' : Engine) : Prop where
  | kept (staged : e'.staged = e.staged) (dirty : e'.persistDirty = e.persistDirty)
      (scratch : e'.persistScratch = e.persistScratch)
  | cleared (hop : op.free = false) (staged : e'.staged = none) (dirty : e'.persistDirty = false)
  | fresh {kind : StagedCommit} (h : e'.Staged kind)

theorem staging_moves (hm : Moves C e op e' out) : Staging op e e' := by
  cases hm with
  | quiet h _ => exact .kept h.staged h.dirty h.scratch
  | pairing h =>
      obtain ⟨⟨p', rfl, -⟩, -⟩ := h.spec
      exact .kept rfl rfl rfl
  | restage _ _ _ _ hst _ => exact .fresh hst
  | setTime _ _ _ _ _ _ hst _ => exact .fresh hst
  | @sendBegin _ _ _ _ kind _ _ _ _ => exact .fresh (show Engine.Staged _ kind from ⟨rfl, rfl, rfl⟩)
  | sendEmit _ _ _ _ _ _ _ hst => exact .fresh hst
  | retry => exact .kept rfl rfl rfl
  | recvData _ _ _ ha _ _ _ =>
      cases ha with
      | without _ _ hst => exact .fresh hst
      | acked _ _ _ _ _ hst => exact .fresh hst
  | recvAck _ _ _ _ _ _ _ _ hst => exact .fresh hst
  | delete _ _ _ _ _ hst => exact .fresh hst
  | block _ _ _ _ _ hst => exact .fresh hst
  | activate => exact .fresh (Engine.staged_stagePersist _ _)
  | commitOk =>
      unfold Engine.commitOk
      split <;> exact .cleared rfl rfl rfl
  | discard => exact .cleared rfl rfl rfl
  | restore _ => exact .cleared rfl rfl rfl

/-- A fresh snapshot is the pending one. -/
theorem Engine.Staged.pendingPersist {kind : StagedCommit} (h : e'.Staged kind) :
    e'.pendingPersist = some (encodeInto e'.persistView) := by
  rw [Engine.pendingPersist, h.dirty, if_pos rfl, h.scratch]

theorem sound_new (available : Bool) : (Engine.new available).Sound C :=
  ⟨by simp [Engine.new], fun _ h => (nomatch h), fun _ => .inl rfl, fun _ _ h => nomatch h⟩

theorem sound_step (hs : e.Sound C) (op : Op) : (step C e op).1.Sound C :=
  sound_moves hs (step_moves C e op)

end Moves

/-! ### Reservations -/

namespace Engine

/-- No slot has used a sequence its snapshot would not have reserved. -/
def Reserved (e : Engine) : Prop := ∀ i, (e.contacts i).txNext ≤ e.stagedReserved i

/-- No new block is staged and uncommitted. -/
def NoBlock (e : Engine) : Prop := ∀ i n, e.staged ≠ some (.txReserve i n)

theorem NoBlock.stagedReserved {e : Engine} (h : e.NoBlock) (i : Slot) :
    e.stagedReserved i = (e.contacts i).txReserved := by
  unfold Engine.stagedReserved
  split
  · rename_i slot n hst; exact absurd hst (h slot n)
  · rfl

theorem Staged.noBlock {e : Engine} {kind : StagedCommit} (h : e.Staged kind)
    (hk : ∀ i n, kind ≠ .txReserve i n) : e.NoBlock := h.not_txReserve hk

theorem stagedReserved_txReserve {e : Engine} {i : Slot} {n : UInt64}
    (h : e.staged = some (.txReserve i n)) (j : Slot) :
    e.stagedReserved j = if j = i then n else (e.contacts j).txReserved := by
  unfold Engine.stagedReserved
  rw [h]

theorem noBlock_commitOk (e : Engine) : e.commitOk.NoBlock := by
  intro i n h
  unfold commitOk at h
  split at h <;> cases h

theorem commitOk_contacts (e : Engine) (i : Slot) :
    e.commitOk.contacts i = { e.contacts i with txReserved := e.stagedReserved i } := by
  unfold commitOk
  split
  · rename_i slot n hst
    rw [stagedReserved_txReserve hst]
    show Function.update e.contacts slot _ i = _
    by_cases hi : i = slot
    · subst hi
      rw [Function.update_self, if_pos rfl]
    · rw [Function.update_of_ne hi, if_neg hi]
  · rename_i slot hst
    simp [Engine.stagedReserved, hst]
  · rename_i hne _
    rw [NoBlock.stagedReserved fun i n h => hne i n h]

/-- Committing leaves every slot with what was staged for it. -/
theorem commitOk_reserved (e : Engine) (i : Slot) :
    e.commitOk.stagedReserved i = e.stagedReserved i := by
  rw [(noBlock_commitOk e).stagedReserved, commitOk_contacts]

/-- Committing keeps reservations ahead of use, whatever was staged. -/
theorem reserved_commitOk {e : Engine} (hr : e.Reserved) : e.commitOk.Reserved := by
  intro i
  rw [commitOk_reserved, commitOk_contacts]
  exact hr i

end Engine

section Reserved

variable {C : Crypto} {e e' : Engine} {op : Op} {out : Output}

theorem toNat_succ_of_lt {a b : UInt64} (h : a < b) : (a + 1).toNat = a.toNat + 1 := by
  have hlt := UInt64.lt_iff_toNat_lt.mp h
  have hb := b.toNat_lt
  rw [UInt64.toNat_add, UInt64.toNat_one, Nat.mod_eq_of_lt (by omega)]

theorem succ_le_of_lt {a b : UInt64} (h : a < b) : a + 1 ≤ b := by
  rw [UInt64.le_iff_toNat_le, toNat_succ_of_lt h]
  exact UInt64.lt_iff_toNat_lt.mp h

/-- A sequence whose reservation went through lies below what was then reserved. -/
theorem reservation_lt {slot : Slot} {spare kind : StagedCommit}
    (h : e.reservation slot spare = some kind) :
    (∃ n, kind = .txReserve slot n ∧ (e.contacts slot).txNext < n) ∨
      kind = spare ∧ (e.contacts slot).txNext < (e.contacts slot).txReserved := by
  unfold Engine.reservation at h
  dsimp only at h
  split at h
  · obtain ⟨n, hn, rfl⟩ := Option.map_eq_some_iff.mp h
    refine .inl ⟨n, rfl, UInt64.lt_iff_toNat_lt.mpr ?_⟩
    rw [checkedAdd64_eq_some.mp hn]
    exact Nat.lt_add_of_pos_right (by decide)
  · rename_i hlt
    exact .inr ⟨(Option.some.inj h).symm, UInt64.not_le.mp hlt⟩

/-- One slot replaced under a snapshot that reserves for it. -/
theorem reserved_of_update {slot : Slot} {c : Contact} (hr : e.Reserved) (hnb : e.NoBlock)
    (hc : e'.contacts = Function.update e.contacts slot c)
    (hslot : c.txNext ≤ e'.stagedReserved slot)
    (hother : ∀ i, i ≠ slot → e'.stagedReserved i = (e.contacts i).txReserved) : e'.Reserved := by
  intro i
  by_cases hi : i = slot
  · subst hi
    rw [hc, Function.update_self]
    exact hslot
  · rw [hc, Function.update_of_ne hi, hother i hi, ← hnb.stagedReserved]
    exact hr i

/-- As `reserved_of_update`, nothing being reserved by the staging itself. -/
theorem reserved_of_staged {slot : Slot} {c : Contact} {kind : StagedCommit} (hr : e.Reserved)
    (hnb : e.NoBlock) (hc : e'.contacts = Function.update e.contacts slot c) (hst : e'.Staged kind)
    (hkind : ∀ i n, kind ≠ .txReserve i n) (hle : c.txNext ≤ c.txReserved) : e'.Reserved := by
  have hnb' := hst.noBlock hkind
  refine reserved_of_update hr hnb hc ?_ fun i hi => ?_
  · rw [hnb'.stagedReserved, hc, Function.update_self]
    exact hle
  · rw [hnb'.stagedReserved, hc, Function.update_of_ne hi]

theorem acked_reserved {slot : Slot} {c : Contact} {h : Header} {pid : UInt32}
    {f : Option OutgoingFrame} (hr : e.Reserved) (hnb : e.NoBlock)
    (htx : c.txNext = (e.contacts slot).txNext ∧ c.txReserved = (e.contacts slot).txReserved)
    (ha : Acked C e slot c h pid e' f) : e'.Reserved := by
  cases ha with
  | without hkind hc hst =>
      refine reserved_of_staged hr hnb hc hst
        (fun i n hn => by rcases hkind with rfl | rfl <;> cases hn) ?_
      rw [htx.1, htx.2, ← hnb.stagedReserved]
      exact hr slot
  | acked hres _ hc _ _ hst =>
      rcases reservation_lt hres with ⟨n, rfl, hlt⟩ | ⟨rfl, hlt⟩
      · refine reserved_of_update hr hnb hc ?_ fun i hi => ?_
        · rw [Engine.stagedReserved_txReserve hst.staged, if_pos rfl]
          exact succ_le_of_lt (htx.1 ▸ hlt)
        · rw [Engine.stagedReserved_txReserve hst.staged, if_neg hi, hc, Function.update_of_ne hi]
      · exact reserved_of_staged hr hnb hc hst (fun _ _ h => nomatch h)
          (succ_le_of_lt (b := c.txReserved) (by rw [htx.1, htx.2]; exact hlt))

theorem restoreContact_reserved (C : Crypto) (pc : PersistContact) :
    (Engine.restoreContact C pc).txNext ≤ (Engine.restoreContact C pc).txReserved := by
  have hmax : ∀ a b : UInt64, b ≤ max a b := fun a b => by
    have h : max a b = if a ≤ b then b else a := rfl
    rw [h]
    split
    · exact UInt64.le_refl b
    · rename_i hab
      exact UInt64.le_of_lt (UInt64.not_le.mp hab)
  unfold Engine.restoreContact
  split
  · exact hmax _ _
  · exact UInt64.le_refl 0

/-- While no new block is staged and uncommitted, every move keeps reservations ahead of use. -/
theorem reserved_moves (hr : e.Reserved) (hnb : e.NoBlock) (hm : Moves C e op e' out) :
    e'.Reserved := by
  have hle : ∀ i, (e.contacts i).txNext ≤ (e.contacts i).txReserved := fun i =>
    hnb.stagedReserved i ▸ hr i
  cases hm with
  | quiet h _ =>
      intro i
      have hnb' : e'.NoBlock := fun i n hn => hnb i n (h.staged ▸ hn)
      rw [hnb'.stagedReserved, h.contacts]
      exact hle i
  | pairing h =>
      obtain ⟨⟨p', rfl, -⟩, -⟩ := h.spec
      exact hr
  | restage hkind _ hc _ hst _ =>
      intro i
      have hnb' : e'.NoBlock := hst.noBlock fun i n hn => by rcases hkind with rfl | rfl <;> cases hn
      rw [hnb'.stagedReserved, hc]
      exact hle i
  | setTime _ hc _ _ _ _ hst _ =>
      intro i
      rw [(hst.noBlock fun _ _ h => nomatch h).stagedReserved]
      rcases hc i with ⟨hi, -⟩ | ⟨-, init, hi⟩
      · rw [hi]; exact hle i
      · rw [hi]; exact hle i
  | sendBegin _ hres _ _ =>
      intro i
      rcases reservation_lt hres with ⟨n, rfl, hlt⟩ | ⟨rfl, hlt⟩
      · rw [Engine.stagedReserved_txReserve rfl]
        split
        · rename_i hi; subst hi; exact UInt64.le_of_lt hlt
        · exact hle i
      · exact hle i
  | sendEmit hready _ hc _ _ _ _ hst =>
      obtain ⟨-, -, -, hnext, hlt⟩ := sendReady_spec hready
      exact reserved_of_staged hr hnb hc hst (fun _ _ h => nomatch h)
        (succ_le_of_lt (hnext ▸ hlt))
  | retry => exact hr
  | recvData _ _ _ ha _ _ _ =>
      refine acked_reserved hr hnb ?_ ha
      exact ⟨rfl, rfl⟩
  | recvAck _ _ _ hc _ _ _ _ hst =>
      exact reserved_of_staged hr hnb hc hst (fun _ _ h => nomatch h) (hle _)
  | delete _ hc _ _ _ hst =>
      exact reserved_of_staged hr hnb hc hst (fun _ _ h => nomatch h) (UInt64.le_refl 0)
  | block _ hc _ _ _ hst =>
      exact reserved_of_staged hr hnb hc hst (fun _ _ h => nomatch h) (hle _)
  | activate _ _ _ _ _ =>
      exact reserved_of_staged hr hnb (Function.update_idem ..)
        (Engine.staged_stagePersist _ (.pairActivate _)) (fun _ _ h => nomatch h) (UInt64.le_refl 0)
  | commitOk => exact Engine.reserved_commitOk hr
  | discard => exact hle
  | restore _ => exact fun i => restoreContact_reserved C _

end Reserved

end LoraMesh
