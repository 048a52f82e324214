import LoraMesh.Engine.Delivery
import LoraMesh.Engine.Nonce

/-!
# Engine — Hours

The trusted hour, the window tables of the contacts, and the epochs sent under.

* `window_table`: while the time is known, every present contact is anchored at the current hour
  and has a window for each epoch the engine accepts.
* `no_rollback`: the clock is never set below an epoch a frame of ours was released under, and the
  epochs of the fresh frames to one contact never decrease.
-/

namespace LoraMesh

open Engine (position)

section Moves

variable {C : Crypto} {e e' : Engine} {op : Op} {out : Output}

/-! ### Window tables -/

/-- While the time is known, every present contact is anchored at the current hour. -/
def Engine.Aligned (e : Engine) : Prop :=
  e.timeValid = true → ∀ i, (e.contacts i).present = true →
    (e.contacts i).anchor.anchor = e.epoch ∧ (e.contacts i).winEpochs = slots e.epoch

/-- A step within the hour that moves no anchor. -/
theorem Engine.Aligned.steady (h : e.Aligned)
    (hour : e'.timeValid = true → e.timeValid = true ∧ e'.epoch = e.epoch)
    (hc : ∀ i, (e.contacts i).SameWindows (e'.contacts i)) : e'.Aligned := by
  intro hv i hp
  obtain ⟨hv, he⟩ := hour hv
  have hi := h hv i ((hc i).present hp)
  rw [(hc i).anchor, (hc i).winEpochs, he]
  exact hi

theorem Contact.SameWindows.refl (c : Contact) : c.SameWindows c := ⟨id, rfl, rfl⟩

/-- One slot written with the windows of the same hours. -/
theorem sameWindows_update {slot : Slot} {c : Contact}
    (hc : e'.contacts = Function.update e.contacts slot c) (h : (e.contacts slot).SameWindows c)
    (i : Slot) : (e.contacts i).SameWindows (e'.contacts i) := by
  by_cases hi : i = slot
  · subst hi
    rw [hc, Function.update_self]
    exact h
  · rw [hc, Function.update_of_ne hi]
    exact .refl _

/-- The contacts and the hour of a state that has activated a contact. -/
theorem activated_contacts {p : PendingPair} {c : Engine.Confirmed} :
    ((e.activateContact C p.slot c.peerEd c.peerId c.root p.ownRole).stagePersist
      (.pairActivate p.slot)).contacts = Function.update e.contacts p.slot
        (Engine.activatedContact C c.peerEd c.peerId c.root p.ownRole e.epoch) :=
  Function.update_idem ..

theorem activated_epoch {p : PendingPair} {c : Engine.Confirmed} :
    ((e.activateContact C p.slot c.peerEd c.peerId c.root p.ownRole).stagePersist
      (.pairActivate p.slot)).epoch = e.epoch := by
  unfold Engine.epoch
  rfl

/-- Every operation keeps the tables aligned, a restore by forgetting the time. -/
theorem aligned_moves (h : e.Aligned) (hm : Moves C e op e' out) : e'.Aligned := by
  have same (hour : e'.timeValid = true → e.timeValid = true ∧ e'.epoch = e.epoch)
      (hc : e'.contacts = e.contacts) : e'.Aligned :=
    h.steady hour fun i => hc ▸ .refl _
  cases hm with
  | quiet hq _ => exact same hq.hour hq.contacts
  | pairing hp =>
      obtain ⟨⟨p', rfl, -⟩, -⟩ := hp.spec
      exact same (fun hv => ⟨hv, rfl⟩) rfl
  | restage _ hs hc _ _ _ => exact same hs.hour hc
  | setTime _ hc _ hv _ _ _ _ =>
      intro _ i hp
      rw [hv.2]
      rcases hc i with ⟨hi, habs⟩ | ⟨-, init, hi⟩
      · rw [hi, habs] at hp
        cases hp
      · rw [hi]
        exact ⟨rfl, rfl⟩
  | sendBegin _ _ _ _ => exact same (fun hv => ⟨hv, rfl⟩) rfl
  | sendEmit _ _ hc hs _ _ _ _ => exact h.steady hs.hour (sameWindows_update hc ⟨id, rfl, rfl⟩)
  | retry => exact h
  | recvData _ _ _ ha hs _ _ =>
      obtain ⟨c', hc, hsame, -, -⟩ := acked_windows ha
      exact h.steady hs.hour (sameWindows_update hc ⟨hsame.present, hsame.winEpochs, hsame.anchor⟩)
  | recvAck _ _ _ hc _ hs _ _ _ => exact h.steady hs.hour (sameWindows_update hc ⟨id, rfl, rfl⟩)
  | @delete _ slot _ _ hc hs _ _ _ =>
      intro hv i hp
      obtain ⟨hv, he⟩ := hs.hour hv
      by_cases hi : i = slot
      · subst hi
        rw [hc, Function.update_self] at hp
        cases hp
      · rw [hc, Function.update_of_ne hi] at hp ⊢
        rw [he]
        exact h hv i hp
  | block _ hc hs _ _ _ => exact h.steady hs.hour (sameWindows_update hc ⟨id, rfl, rfl⟩)
  | @activate _ _ p c _ _ _ _ _ =>
      intro hv i hp
      rw [activated_contacts] at hp ⊢
      rw [activated_epoch]
      by_cases hi : i = p.slot
      · subst hi
        rw [Function.update_self]
        exact ⟨rfl, rfl⟩
      · rw [Function.update_of_ne hi] at hp ⊢
        exact h hv i hp
  | commitOk =>
      refine h.steady (fun hv => ?_) fun i => by rw [Engine.commitOk_contacts]; exact ⟨id, rfl, rfl⟩
      revert hv
      unfold Engine.commitOk
      split <;> exact fun hv => ⟨hv, rfl⟩
  | discard => exact same (fun hv => ⟨hv, rfl⟩) rfl
  | restore _ => exact fun hv => nomatch hv

/-- An accepted epoch is one of the three hours. -/
theorem position_of_inAcceptWindow {epoch now : UInt32} (h : inAcceptWindow epoch now = true) :
    ∃ win, position (slots now) epoch = some win := by
  cases hp : position (slots now) epoch with
  | some win => exact ⟨win, rfl⟩
  | none =>
      have hne := position_eq_none hp 1
      have hfar := position_slots_none hp
      simp only [inAcceptWindow, isNext, Bool.or_eq_true, Bool.and_eq_true, beq_iff_eq,
        decide_eq_true_eq] at h
      rcases h with (h | ⟨hlt, h⟩) | ⟨hlt, h⟩
      · exact absurd h.symm hne
      · have := congrArg UInt32.toNat h
        rw [UInt32.toNat_add, UInt32.toNat_one, Nat.mod_eq_of_lt hlt] at this
        omega
      · have := congrArg UInt32.toNat h
        rw [UInt32.toNat_add, UInt32.toNat_one, Nat.mod_eq_of_lt hlt] at this
        omega

/-- A frame opens only in the window of its epoch, whether it holds DATA or an ACK. -/
theorem position_of_opened {i : Slot} {h : Header} {body pt : List UInt8} {win : Fin 3}
    (ho : e.tryContact C i h body = .opened win pt) :
    position (e.contacts i).winEpochs h.epoch = some win := by
  unfold Engine.tryContact at ho
  dsimp only at ho
  split at ho
  swap
  · cases ho
  split at ho
  · cases ho
  rename_i w hw
  split at ho
  · cases ho
  split at ho
  · cases ho
  split at ho
  · cases ho
  · cases ho
    exact hw

end Moves

/-- In every state that any operations lead to, restores of any bytes included: while the time is
known, a present contact is anchored at the current hour, its epoch table is the hour and its two
neighbours, and each accepted epoch has a window there, the one that a frame of that epoch is
accounted in, DATA or ACK. -/
theorem window_table (C : Crypto) (available : Bool) (ops : List Op) :
    let e := run (fun e op => (step C e op).1) (.new available) ops
    e.timeValid = true → ∀ i, (e.contacts i).present = true →
      (e.contacts i).anchor.anchor = e.epoch ∧ (e.contacts i).winEpochs = slots e.epoch ∧
        ∀ epoch, inAcceptWindow epoch e.epoch = true →
          ∃ win, position (e.contacts i).winEpochs epoch = some win ∧
            ∀ h body w pt, h.epoch = epoch → e.tryContact C i h body = .opened w pt → w = win := by
  intro e hv i hp
  have ha : e.Aligned := run_invariant_of_all (I := Engine.Aligned)
    (fun e op h => aligned_moves h (step_moves C e op)) ops fun h => nomatch h
  obtain ⟨hanchor, hslots⟩ := ha hv i hp
  refine ⟨hanchor, hslots, fun epoch hin => ?_⟩
  obtain ⟨win, hwin⟩ := position_of_inAcceptWindow hin
  refine ⟨win, hslots ▸ hwin, fun h body w pt hepoch ho => ?_⟩
  have hw := position_of_opened ho
  rw [hslots, hepoch, hwin] at hw
  exact (Option.some.inj hw).symm

/-- A pairing committed, and the time set. -/
def Sample.timed : List Op := setup 1 ++ ceremony 1 ++ [.commitOk, .setTime 7200 false, .commitOk]

theorem window_table_sample :
    let e := run (fun e op => (step Sample.crypto e op).1) (.new true) Sample.timed
    (e.contacts 0).anchor.anchor = e.epoch ∧ (e.contacts 0).winEpochs = slots e.epoch ∧
      ∀ epoch, inAcceptWindow epoch e.epoch = true →
        ∃ win, position (e.contacts 0).winEpochs epoch = some win ∧
          ∀ h body w pt, h.epoch = epoch →
            e.tryContact Sample.crypto 0 h body = .opened w pt → w = win :=
  window_table Sample.crypto true Sample.timed (by decide +kernel) 0 (by decide +kernel)

/-! ### Epochs sent under -/

section Moves

variable {C : Crypto} {e e' : Engine} {op : Op} {out : Output}

namespace Engine

/-- The send in flight is to a present contact, under an hour its anchor has reached. -/
def SendHeld (e : Engine) : Prop :=
  ∀ ps, e.pendingSend = some ps → ∃ i, ps.contactId = contactId i ∧
    (e.contacts i).present = true ∧ ps.epoch ≤ (e.contacts i).anchor.anchor

/-- No contact is ahead of its anchor. -/
structure Timed (e : Engine) : Prop where
  aligned : e.Aligned
  held : e.SendHeld
  epochMax : ∀ i, (e.contacts i).present = true →
    (e.contacts i).txEpochMax ≤ (e.contacts i).anchor.anchor

theorem timed_new (available : Bool) : (new available).Timed :=
  ⟨fun h => (nomatch h), fun _ h => (nomatch h), fun _ h => nomatch h⟩

end Engine

/-- What a move does to the epochs of the contact in a slot. -/
inductive EpochMoved (e e' : Engine) (out : Output) (i : Slot) : Prop where
  | kept (hp : (e.contacts i).present = true)
      (hmax : (e.contacts i).txEpochMax ≤ (e'.contacts i).txEpochMax)
      (hanchor : (e.contacts i).anchor.anchor ≤ (e'.contacts i).anchor.anchor)
      (hlim : (e.contacts i).txEpochMax ≤ (e.contacts i).anchor.anchor →
        (e'.contacts i).txEpochMax ≤ (e'.contacts i).anchor.anchor)
  | absent (h : (e'.contacts i).present = false)
  | activated (h : out.activated? = some (contactId i))
      (hmax : (e'.contacts i).txEpochMax ≤ (e'.contacts i).anchor.anchor)

theorem max32_le {a b c : UInt32} (ha : a ≤ c) (hb : b ≤ c) : max a b ≤ c := by
  rw [show max a b = if a ≤ b then b else a from rfl]
  split
  · exact hb
  · exact ha

theorem epochs_moves (ht : e.Timed) (hm : Moves C e op e' out) (hop : op.keeps = true) (i : Slot) :
    EpochMoved e e' out i := by
  have same (hc : e'.contacts i = e.contacts i) : EpochMoved e e' out i := by
    cases hp : (e.contacts i).present with
    | true =>
        exact .kept hp (hc ▸ UInt32.le_refl _) (hc ▸ UInt32.le_refl _) fun h => by rw [hc]; exact h
    | false => exact .absent (hc ▸ hp)
  -- a slot whose anchor stays, at most an hour of it sent under
  have write {slot : Slot} {c : Contact} (hc : e'.contacts = Function.update e.contacts slot c)
      (hp : (e.contacts slot).present = true) (hmax : (e.contacts slot).txEpochMax ≤ c.txEpochMax)
      (hanchor : c.anchor = (e.contacts slot).anchor)
      (hlim : (e.contacts slot).txEpochMax ≤ (e.contacts slot).anchor.anchor →
        c.txEpochMax ≤ c.anchor.anchor) : EpochMoved e e' out i := by
    by_cases hi : i = slot
    · subst hi
      refine .kept hp ?_ ?_ ?_
      · rw [hc, Function.update_self]; exact hmax
      · rw [hc, Function.update_self, hanchor]; exact UInt32.le_refl _
      · rw [hc, Function.update_self]; exact hlim
    · exact same (by rw [hc, Function.update_of_ne hi])
  cases hm with
  | quiet h _ => exact same (by rw [h.contacts])
  | pairing h =>
      obtain ⟨⟨p', rfl, -⟩, -⟩ := h.spec
      exact same rfl
  | restage _ _ hc _ _ _ => exact same (by rw [hc])
  | @setTime _ _ _ _ n hf hc _ _ _ _ _ _ =>
      rcases hc i with ⟨hi, -⟩ | ⟨hp, init, hi⟩
      · exact same hi
      · have hn : (e.contacts i).anchor.anchor ≤ n := UInt32.not_lt.mp (hf i hp)
        refine .kept hp ?_ ?_ ?_
        · rw [hi]; exact UInt32.le_refl _
        · rw [hi]; exact hn
        · rw [hi]; exact fun h => UInt32.le_trans h hn
  | sendBegin _ _ _ _ => exact same rfl
  | @sendEmit _ ps slot _ hr _ hc _ _ _ _ _ =>
      obtain ⟨-, hps, hslot, -, -⟩ := sendReady_spec hr
      obtain ⟨hp, hid⟩ := Engine.slotOf_ok hslot
      obtain ⟨j, hj, -, hle⟩ := ht.held ps hps
      obtain rfl := Engine.contactId_injective (hid.symm.trans hj)
      exact write hc hp (le_max32 _ _).1 rfl fun h => max32_le h hle
  | retry => exact same rfl
  | recvData ho _ _ ha _ _ _ =>
      have hp := opens_present ho
      cases ha with
      | without _ hc _ => exact write hc hp (UInt32.le_refl _) rfl id
      | acked _ _ hc hv _ _ =>
          refine write hc hp (le_max32 _ _).1 rfl fun h => max32_le h ?_
          exact (ht.aligned hv _ hp).1 ▸ UInt32.le_refl _
  | recvAck ho _ _ hc _ _ _ _ _ => exact write hc (opens_present ho) (UInt32.le_refl _) rfl id
  | @delete _ slot _ _ hc _ _ _ _ =>
      by_cases hi : i = slot
      · subst hi
        exact .absent (by rw [hc, Function.update_self]; rfl)
      · exact same (by rw [hc, Function.update_of_ne hi])
  | block hslot hc _ _ _ _ => exact write hc (Engine.slotOf_ok hslot).1 (UInt32.le_refl _) rfl id
  | @activate _ _ p c _ _ _ _ _ =>
      by_cases hi : i = p.slot
      · subst hi
        refine .activated rfl ?_
        rw [activated_contacts, Function.update_self]
        exact UInt32.zero_le
      · exact same (by rw [activated_contacts, Function.update_of_ne hi])
  | commitOk =>
      cases hp : (e.contacts i).present with
      | true =>
          refine .kept hp ?_ ?_ ?_
          · rw [Engine.commitOk_contacts]; exact UInt32.le_refl _
          · rw [Engine.commitOk_contacts]; exact UInt32.le_refl _
          · rw [Engine.commitOk_contacts]; exact id
      | false => exact .absent (by rw [Engine.commitOk_contacts]; exact hp)
  | discard => exact same rfl
  | restore _ => cases hop

/-- The send in flight stays held: it is kept, or begun under the current hour. -/
theorem held_moves (ht : e.Timed) (hf : e.SlotFree) (hm : Moves C e op e' out)
    (hop : op.keeps = true) : e'.SendHeld := by
  intro ps hps
  have keep (hps₀ : e.pendingSend = some ps) : ∃ i, ps.contactId = contactId i ∧
      (e'.contacts i).present = true ∧ ps.epoch ≤ (e'.contacts i).anchor.anchor := by
    obtain ⟨i, hid, hp, hle⟩ := ht.held ps hps₀
    rcases slot_moves hm hop i with hcar | ⟨-, hsend⟩ | ⟨-, p, hpp, rfl, -⟩
    · refine ⟨i, hid, hcar.present', ?_⟩
      rcases epochs_moves ht hm hop i with ⟨-, -, hanchor, -⟩ | habs | ⟨hact, -⟩
      · exact UInt32.le_trans hle hanchor
      · cases habs.symm.trans hcar.present'
      · obtain ⟨p, hpp, heq, -⟩ := activated_moves hm hact
        obtain rfl := Engine.contactId_injective heq
        cases (hf p hpp).symm.trans hp
    · exact absurd hid (hsend hp ps hps)
    · cases (hf p hpp).symm.trans hp
  rcases send_moves hm with ⟨-, hs | hs⟩ | ⟨id, text, pid, ps', rfl, rfl⟩
  · exact keep (hs ▸ hps)
  · cases hs.symm.trans hps
  · cases hm with
    | quiet h ho =>
        rcases h.pendingSend with hs | hs
        · exact keep (hs ▸ hps)
        · cases hs.symm.trans hps
    | pairing h => cases h
    | restage _ h _ _ _ _ =>
        rcases h.pendingSend with hs | hs
        · exact keep (hs ▸ hps)
        · cases hs.symm.trans hps
    | setTime _ _ h _ _ _ _ _ =>
        rcases h.pendingSend with hs | hs
        · exact keep (hs ▸ hps)
        · cases hs.symm.trans hps
    | @sendBegin _ _ _ slot _ hslot _ _ hok =>
        obtain ⟨hp, hid⟩ := Engine.slotOf_ok hslot
        cases hps
        exact ⟨slot, hid, hp, (ht.aligned hok.timeValid slot hp).1 ▸ UInt32.le_refl _⟩

theorem timed_moves (ht : e.Timed) (hf : e.SlotFree) (hm : Moves C e op e' out)
    (hop : op.keeps = true) : e'.Timed where
  aligned := aligned_moves ht.aligned hm
  held := held_moves ht hf hm hop
  epochMax := by
    intro i hp
    rcases epochs_moves ht hm hop i with ⟨hp₀, -, -, hlim⟩ | habs | ⟨-, hmax⟩
    · exact hlim (ht.epochMax i hp₀)
    · cases habs.symm.trans hp
    · exact hmax

/-- The epoch that a move seals a frame under: for a fresh one at least every epoch the contact has
been sent under before. -/
inductive SealedUnder (e e' : Engine) (op : Op) : UInt8 × Bool × Envelope → Prop where
  | fresh {slot : Slot} {kind : StagedCommit} {v : Envelope} (hp : (e.contacts slot).present = true)
      (hge : (e.contacts slot).txEpochMax ≤ v.header.epoch)
      (hle : v.header.epoch ≤ (e'.contacts slot).txEpochMax)
      (hfloor : v.header.epoch ≤ e'.persistedTxEpoch) (hst : e'.Staged kind)
      (hsend : op = .sendEmit → ∀ ps, e.pendingSend = some ps → v.header.epoch = ps.epoch) :
      SealedUnder e e' op (contactId slot, true, v)
  | echo {slot : Slot} {ps : PendingSend} {v : Envelope} (he : e' = e) (hop : op = .sendRetryEcho)
      (hps : e.pendingSend = some ps) (hv : v.header.epoch = ps.epoch) :
      SealedUnder e e' op (contactId slot, false, v)

theorem sealedUnder_moves (ht : e.Timed) (hm : Moves C e op e' out) {x : UInt8 × Bool × Envelope}
    (hx : out.sealed? = some x) : SealedUnder e e' op x := by
  cases hm with
  | quiet _ ho => exact nomatch ho.sealed_eq_none.symm.trans hx
  | pairing h => exact nomatch h.spec.2.sealed_eq_none.symm.trans hx
  | restage _ _ _ _ _ ho => exact nomatch ho.sealed_eq_none.symm.trans hx
  | setTime _ _ _ _ _ _ _ ho => exact nomatch ho.sealed_eq_none.symm.trans hx
  | @sendEmit _ ps slot _ hr _ hc _ hfloor _ _ hst =>
      obtain ⟨-, hps, hslot, -, -⟩ := sendReady_spec hr
      obtain ⟨hp, hid⟩ := Engine.slotOf_ok hslot
      cases hx
      rw [hid]
      refine .fresh hp (sendReady_epoch hr) ?_ hfloor hst fun _ ps' hps' => ?_
      · rw [hc, Function.update_self]
        exact (le_max32 _ _).2
      · rw [Option.some.inj (hps.symm.trans hps')]
        rfl
  | @retry ps slot _ hps hslot _ =>
      cases hx
      rw [(Engine.slotOf_ok hslot).2]
      exact .echo rfl rfl hps rfl
  | recvData ho _ _ ha _ _ _ =>
      cases ha with
      | without _ _ _ => cases hx
      | acked _ _ hc hv hfloor hst =>
          have hp := opens_present ho
          cases hx
          refine .fresh hp ?_ ?_ hfloor hst fun h => nomatch h
          · show (e.contacts _).txEpochMax ≤ e.epoch
            rw [← (ht.aligned hv _ hp).1]
            exact ht.epochMax _ hp
          · rw [hc, Function.update_self]
            exact (le_max32 _ _).2
  | _ => cases hx

end Moves

/-! ### The epochs of a log -/

def Release.epoch (r : Release) : UInt32 := r.envelope.header.epoch

namespace Bench

/-- No restore but by a failure, and an echo only of a send that was emitted. -/
def orderly (b : Bench) (i : Op × Fate) : Bool :=
  i.1.keeps && (match i.1 with
    | .sendRetryEcho => b.emitted
    | _ => true)

/-- What `e` remembers of the epochs in the log: none above its floor, and none of a fresh frame to a
present contact above that contact's. -/
structure Past (life : UInt8 → ℕ) (log : List Release) (e : Engine) : Prop where
  floor : ∀ r ∈ log, r.epoch ≤ e.persistedTxEpoch
  contacts : ∀ i, (e.contacts i).present = true → ∀ r ∈ log, r.fresh = true →
    r.contact = contactId i → r.life = life r.contact → r.epoch ≤ (e.contacts i).txEpochMax

/-- The invariant of an orderly run. -/
structure Timely (C : Crypto) (b : Bench) : Prop where
  solid : Device.Solid C b.device.engine
  settled : b.device.engine.Settled
  slotFree : b.device.engine.SlotFree
  timed : b.device.engine.Timed
  past : Past b.life b.log b.device.engine
  shadowSolid : Device.Solid C b.device.shadow
  recorded : b.device.Recorded
  shadowTimed : b.device.shadow.Timed
  shadowPast : Past b.life b.log b.device.shadow
  life_lt : ∀ id, b.life id < b.clock
  log_lt : ∀ r ∈ b.log, r.life < b.clock
  emitted : b.emitted = true → ∀ ps, b.device.engine.pendingSend = some ps →
    ps.epoch ≤ b.device.engine.persistedTxEpoch ∧ ps.epoch ≤ b.device.shadow.persistedTxEpoch
  sorted : (b.log.filter (·.fresh)).Pairwise fun r r' => r.Same r' → r.epoch ≤ r'.epoch

variable {C : Crypto} {e e' : Engine} {op : Op} {out : Output} {life : UInt8 → ℕ} {clock : ℕ}
  {log : List Release} {b : Bench}

theorem timely_init (available : Bool) : Timely C (init available) where
  solid := Device.solid_new available
  settled := ⟨rfl, rfl⟩
  slotFree := fun _ h => nomatch h
  timed := Engine.timed_new available
  past := ⟨fun _ h => (nomatch h), fun _ h => nomatch h⟩
  shadowSolid := Device.solid_new available
  recorded := .inl ⟨rfl, available, rfl⟩
  shadowTimed := Engine.timed_new available
  shadowPast := ⟨fun _ h => (nomatch h), fun _ h => nomatch h⟩
  life_lt := fun _ => Nat.one_pos
  log_lt := fun _ h => nomatch h
  emitted := fun h => nomatch h
  sorted := .nil

/-- What is remembered stays remembered; a life that has just started has released nothing. -/
theorem past_moves (h : Past life log e) (ht : e.Timed) (hlog : ∀ r ∈ log, r.life < clock)
    (hm : Moves C e op e' out) (hop : op.keeps = true) (hfloor : e.persistedTxEpoch ≤ e'.persistedTxEpoch) :
    Past (started life clock out) log e' where
  floor := fun r hr => UInt32.le_trans (h.floor r hr) hfloor
  contacts := by
    intro i hp r hr hf hid hlife
    obtain ⟨hl, hne⟩ := started_eq (hlog r hr) hlife
    rcases epochs_moves ht hm hop i with ⟨hp₀, hmax, -, -⟩ | habs | ⟨hact, -⟩
    · exact UInt32.le_trans (h.contacts i hp₀ r hr hf hid hl) hmax
    · cases habs.symm.trans hp
    · exact absurd (hid ▸ hact) hne

theorem past_append {r : Release} (h : Past life log e) (hf : r.epoch ≤ e.persistedTxEpoch)
    (hc : r.fresh = true → ∀ i, (e.contacts i).present = true → r.contact = contactId i →
      r.epoch ≤ (e.contacts i).txEpochMax) : Past life (log ++ [r]) e where
  floor := by
    intro r' hr'
    rcases List.mem_append.mp hr' with hr' | hr'
    · exact h.floor r' hr'
    · rw [List.mem_singleton.mp hr']
      exact hf
  contacts := by
    intro i hp r' hr' hfresh hid hlife
    rcases List.mem_append.mp hr' with hr' | hr'
    · exact h.contacts i hp r' hr' hfresh hid hlife
    · rw [List.mem_singleton.mp hr'] at hfresh hid ⊢
      exact hc hfresh i hp hid

/-- A restart remembers what its snapshot did. -/
theorem past_restarted (h : Past life log e) (hr : e.Restarted e') : Past life log e' where
  floor := fun r hr' => hr.persistedTxEpoch ▸ h.floor r hr'
  contacts := by
    intro i hp
    simp only [hr.contacts] at hp ⊢
    exact h.contacts i hp

theorem past_commitOk (h : Past life log e) : Past life log e.commitOk where
  floor := by
    have hf : e.commitOk.persistedTxEpoch = e.persistedTxEpoch := by
      unfold Engine.commitOk
      split <;> rfl
    rw [hf]
    exact h.floor
  contacts := by
    intro i hp
    simp only [Engine.commitOk_contacts] at hp ⊢
    exact h.contacts i hp

theorem timed_restarted (h : e.Timed) (hr : e.Restarted e') : e'.Timed where
  aligned := fun hv => by cases hr.timeValid.symm.trans hv
  held := fun ps hps => by cases hr.pendingSend.symm.trans hps
  epochMax := by
    intro i hp
    simp only [hr.contacts] at hp ⊢
    exact h.epochMax i hp

/-- No operation but a restore lowers the greatest epoch sent under. -/
theorem floor_moves (hm : Moves C e op e' out) (hop : op.keeps = true) :
    e.persistedTxEpoch ≤ e'.persistedTxEpoch := by
  cases hm with
  | quiet h _ => exact h.floor
  | pairing h =>
      obtain ⟨⟨p', rfl, -⟩, -⟩ := h.spec
      exact UInt32.le_refl _
  | restage _ h _ _ _ _ => exact h.floor
  | setTime _ _ h _ _ _ _ _ => exact h.floor
  | sendEmit _ _ _ h _ _ _ _ => exact h.floor
  | recvData _ _ _ _ h _ _ => exact h.floor
  | recvAck _ _ _ _ _ h _ _ _ => exact h.floor
  | delete _ _ h _ _ _ => exact h.floor
  | block _ _ h _ _ _ => exact h.floor
  | commitOk =>
      unfold Engine.commitOk
      split <;> exact UInt32.le_refl _
  | restore _ => cases hop
  | _ => exact UInt32.le_refl _

/-- How the log grows by an answer. -/
inductive GrowsUnder (b : Bench) (op : Op) (e' : Engine) : List Release → Prop where
  | same : GrowsUnder b op e' b.log
  | fresh {slot : Slot} {kind : StagedCommit} {v : Envelope}
      (hp : (b.device.engine.contacts slot).present = true)
      (hge : (b.device.engine.contacts slot).txEpochMax ≤ v.header.epoch)
      (hle : v.header.epoch ≤ (e'.contacts slot).txEpochMax)
      (hfloor : v.header.epoch ≤ e'.persistedTxEpoch) (hst : e'.Staged kind) :
      GrowsUnder b op e' (b.log ++ [⟨contactId slot, b.life (contactId slot), true, v⟩])
  | echo {id : UInt8} {v : Envelope}
      (hfloor : v.header.epoch ≤ e'.persistedTxEpoch ∧
        v.header.epoch ≤ b.device.shadow.persistedTxEpoch) :
      GrowsUnder b op e' (b.log ++ [⟨id, b.life id, false, v⟩])

theorem Timely.grows (h : Timely C b) (hl : op = .sendRetryEcho → b.emitted = true)
    (hm : Moves C b.device.engine op e' out) :
    GrowsUnder b op e' (b.log ++ released b.life out) := by
  unfold released
  cases hx : out.sealed? with
  | none => exact (List.append_nil b.log).symm ▸ .same
  | some x =>
      cases sealedUnder_moves h.timed hm hx with
      | fresh hp hge hle hfloor hst _ => exact .fresh hp hge hle hfloor hst
      | @echo _ ps v he hop hps hv => exact .echo (he ▸ hv ▸ h.emitted (hl hop) ps hps)

theorem Timely.past_grows (h : Timely C b) (hm : Moves C b.device.engine op e' out)
    (hop : op.keeps = true) (hg : GrowsUnder b op e' log) :
    Past (started b.life b.clock out) log e' := by
  have hpast := past_moves h.past h.timed h.log_lt hm hop (floor_moves hm hop)
  cases hg with
  | same => exact hpast
  | fresh _ _ hle hfloor _ =>
      refine past_append hpast hfloor fun _ i _ hid => ?_
      obtain rfl := Engine.contactId_injective hid
      exact hle
  | echo hfloor => exact past_append hpast hfloor.1 fun hf => nomatch hf

/-- An answer to what staged nothing leaves the durable state in step. -/
theorem Timely.shadow_grows (h : Timely C b) (hm : Moves C b.device.engine op e' out)
    (hset : e'.Settled) (hg : GrowsUnder b op e' log) :
    Past (started b.life b.clock out) log b.device.shadow := by
  rw [started_of_none (settled_activated hset hm)]
  cases hg with
  | same => exact h.shadowPast
  | fresh _ _ _ _ hst => exact nomatch hset.staged.symm.trans hst.staged
  | echo hfloor => exact past_append h.shadowPast hfloor.2 fun hf => nomatch hf

theorem Timely.sorted_grows (h : Timely C b) (hg : GrowsUnder b op e' log) :
    (log.filter (·.fresh)).Pairwise fun r r' => r.Same r' → r.epoch ≤ r'.epoch := by
  cases hg with
  | same => exact h.sorted
  | @fresh slot _ v hp hge _ _ _ =>
      rw [List.filter_append]
      refine List.pairwise_append.mpr ⟨h.sorted, List.pairwise_singleton _ _, ?_⟩
      intro r hr r' hr' hsame
      rw [List.mem_singleton.mp hr'] at hsame ⊢
      obtain ⟨hid, hlife⟩ := hsame
      obtain ⟨hmem, hf⟩ := List.mem_filter.mp hr
      refine UInt32.le_trans (h.past.contacts slot hp r hmem hf hid ?_) hge
      rw [hid]
      exact hlife
  | echo _ =>
      rw [List.filter_append, List.filter_singleton, cond_false, List.append_nil]
      exact h.sorted

theorem Timely.log_grows (h : Timely C b) (hg : GrowsUnder b op e' log) :
    ∀ r ∈ log, r.life < b.clock := by
  intro r hr
  cases hg with
  | same => exact h.log_lt r hr
  | fresh _ _ _ _ _ =>
      rcases List.mem_append.mp hr with hr | hr
      · exact h.log_lt r hr
      · rw [List.mem_singleton.mp hr]
        exact h.life_lt _
  | echo _ =>
      rcases List.mem_append.mp hr with hr | hr
      · exact h.log_lt r hr
      · rw [List.mem_singleton.mp hr]
        exact h.life_lt _

/-- The send in flight, if emitted, is within the floor, and its emission is durable. -/
theorem Timely.emitted_grows (h : Timely C b) (hm : Moves C b.device.engine op e' out)
    (hop : op.keeps = true) (hem : emits b.emitted op out = true) {ps : PendingSend}
    (hps : e'.pendingSend = some ps) :
    ps.epoch ≤ e'.persistedTxEpoch ∧ (ps.epoch ≤ b.device.shadow.persistedTxEpoch ∨
      ∃ kind, e'.Staged kind) := by
  have hps₀ : b.device.engine.pendingSend = some ps := by
    rcases send_moves hm with ⟨-, hs | hs⟩ | ⟨id, text, pid, ps', rfl, rfl⟩
    · rw [← hs]; exact hps
    · exact nomatch hs.symm.trans hps
    · cases hem
  by_cases hb : b.emitted = true
  · obtain ⟨hle, hshadow⟩ := h.emitted hb ps hps₀
    exact ⟨UInt32.le_trans hle (floor_moves hm hop), .inl hshadow⟩
  · -- the send has just been emitted
    have hop' : op = .sendEmit ∧ out.sealed? ≠ none := by
      unfold emits at hem
      split at hem
      · refine ⟨rfl, fun hn => ?_⟩
        rw [hn, Bool.eq_false_of_not_eq_true hb] at hem
        cases hem
      · cases hem
      · exact absurd hem hb
    obtain ⟨rfl, hx⟩ := hop'
    obtain ⟨x, hx⟩ := Option.ne_none_iff_exists'.mp hx
    cases sealedUnder_moves h.timed hm hx with
    | fresh _ _ _ hfloor hst hsend => exact ⟨hsend rfl ps hps₀ ▸ hfloor, .inr ⟨_, hst⟩⟩
    | echo _ hop _ _ => cases hop

/-- The engine after an operation, before anything becomes of it. -/
theorem Timely.after (h : Timely C b) (hm : Moves C b.device.engine op e' out)
    (hop : op.keeps = true) : Device.Solid C e' ∧ e'.Timed :=
  ⟨⟨sound_moves h.solid.sound hm, reserved_moves h.solid.reserved h.settled.noBlock hm⟩,
    timed_moves h.timed h.slotFree hm hop⟩

/-- Writing what an operation left pending, the log being `log` then. -/
theorem Timely.write (h : Timely C b) (hm : Moves C b.device.engine op e' out)
    (hop : op.keeps = true)
    (hpast : Past (started b.life b.clock out) log e')
    (hshadow : e'.Settled → Past (started b.life b.clock out) log b.device.shadow) :
    Device.Solid C (b.device.write e').shadow ∧ (b.device.write e').Recorded ∧
      (b.device.write e').shadow.Timed ∧
      Past (started b.life b.clock out) log (b.device.write e').shadow := by
  obtain ⟨hsolid, htimed⟩ := h.after hm hop
  unfold Device.write
  rcases settled_moves h.settled hm with hset | hpp
  · rw [hset.pendingPersist]
    exact ⟨h.shadowSolid, h.recorded, h.shadowTimed, hshadow hset⟩
  · rw [hpp]
    exact ⟨hsolid, .inr rfl, htimed, hpast⟩

/-- A committed operation. -/
theorem Timely.commit (h : Timely C b) (hop : op.keeps = true)
    (hl : op = .sendRetryEcho → b.emitted = true) : Timely C (b.next C (op, .commit)) := by
  have hm := step_moves C b.device.engine op
  unfold Bench.next Device.next
  dsimp only
  generalize step C b.device.engine op = r at hm ⊢
  obtain ⟨e', out⟩ := r
  dsimp only at *
  have hg := h.grows hl hm
  have hpast := h.past_grows hm hop hg
  obtain ⟨hsolid, htimed⟩ := h.after hm hop
  obtain ⟨hset, hfree⟩ := slotFree_committed h.settled h.slotFree hm hop
  obtain ⟨hws, hwr, hwt, hwp⟩ := h.write hm hop hpast fun hset => h.shadow_grows hm hset hg
  have hsolid' : Device.Solid C e'.commitOk :=
    ⟨sound_moves hsolid.sound .commitOk, Engine.reserved_commitOk hsolid.reserved⟩
  have htimed' : e'.commitOk.Timed := by
    refine ⟨aligned_moves htimed.aligned (.commitOk (C := C)), fun ps hps => ?_, fun i hp => ?_⟩
    · rw [(commitOk_send e').1] at hps
      simp only [Engine.commitOk_contacts]
      exact htimed.held ps hps
    · simp only [Engine.commitOk_contacts] at hp ⊢
      exact htimed.epochMax i hp
  rw [if_pos rfl, if_pos rfl, if_pos (show Fate.commit.durable = true from rfl)]
  refine ⟨?_, hset, hfree, ?_, ?_, hws, hwr, hwt, hwp, started_lt h.life_lt,
    fun r hr => Nat.lt_succ_of_lt (h.log_grows hg r hr), fun hem ps hps => ?_, h.sorted_grows hg⟩
  · dsimp only
    split
    · exact hsolid'
    · exact hsolid
  · dsimp only
    split
    · exact htimed'
    · exact htimed
  · dsimp only
    split
    · exact past_commitOk hpast
    · exact hpast
  · have hem : emits b.emitted op out = true := hem
    have hps' : e'.pendingSend = some ps := by
      revert hps
      dsimp only
      split
      · exact fun hps => (commitOk_send e').1 ▸ hps
      · exact id
    obtain ⟨hle, hdur⟩ := h.emitted_grows hm hop hem hps'
    refine ⟨?_, ?_⟩
    · dsimp only
      split
      · exact UInt32.le_trans hle (floor_moves (.commitOk (C := C)) rfl)
      · exact hle
    · unfold Device.write
      rcases settled_moves h.settled hm with hset' | hpp
      · rw [hset'.pendingPersist]
        rcases hdur with hdur | ⟨kind, hst⟩
        · exact hdur
        · exact nomatch hset'.staged.symm.trans hst.staged
      · rw [hpp]
        exact hle

/-- A failure. -/
theorem Timely.fail (h : Timely C b) (hop : op.keeps = true) (wrote : Bool)
    (reboot : Option Bool) : Timely C (b.next C (op, .fail wrote reboot)) := by
  have hm := step_moves C b.device.engine op
  unfold Bench.next Device.next
  dsimp only
  generalize step C b.device.engine op = r at hm ⊢
  obtain ⟨e', out⟩ := r
  dsimp only at *
  have hpast := past_moves h.past h.timed h.log_lt hm hop (floor_moves hm hop)
  have hdev : Device.Solid C (if wrote then b.device.write e' else b.device).shadow ∧
      (if wrote then b.device.write e' else b.device).Recorded ∧
      (if wrote then b.device.write e' else b.device).shadow.Timed ∧
      Past (if wrote then started b.life b.clock out else b.life) b.log
        (if wrote then b.device.write e' else b.device).shadow := by
    cases wrote with
    | false => exact ⟨h.shadowSolid, h.recorded, h.shadowTimed, h.shadowPast⟩
    | true =>
        refine h.write hm hop hpast fun hset => ?_
        rw [started_of_none (settled_activated hset hm)]
        exact h.shadowPast
  have hlife (id : UInt8) : (if wrote then started b.life b.clock out else b.life) id < b.clock + 1 := by
    cases wrote with
    | false => exact Nat.lt_succ_of_lt (h.life_lt id)
    | true => exact started_lt h.life_lt id
  have hne : Fate.fail wrote reboot ≠ .commit := nofun
  rw [if_neg hne, if_neg hne, show (Fate.fail wrote reboot).durable = wrote from rfl]
  generalize (if wrote then b.device.write e' else b.device) = d at hdev ⊢
  generalize (if wrote then started b.life b.clock out else b.life) = life at hdev hlife ⊢
  obtain ⟨hws, hwr, hwt, hwp⟩ := hdev
  obtain ⟨hr, hset, hsolid⟩ := Device.restarted_of_solid hws hwr e' reboot
  exact ⟨hsolid, hset, fun p hp => (nomatch hr.pending.symm.trans hp), timed_restarted hwt hr,
    past_restarted hwp hr, hws, hwr, hwt, hwp, hlife, fun r hr => Nat.lt_succ_of_lt (h.log_lt r hr),
    fun hem => (nomatch hem), h.sorted⟩

/-- An orderly operation, whatever becomes of it, keeps the invariant. -/
theorem timely_step {i : Op × Fate} (h : Timely C b) (hl : b.orderly i = true) :
    Timely C (b.next C i) := by
  obtain ⟨op, fate⟩ := i
  simp only [orderly, Bool.and_eq_true] at hl
  obtain ⟨hop, hecho⟩ := hl
  cases fate with
  | commit => exact h.commit hop fun heq => by subst heq; exact hecho
  | fail wrote reboot => exact h.fail hop wrote reboot

end Bench

/-- The time is set to no hour below the floor. -/
theorem setTime_floor {e : Engine} {s : UInt64} {confirmed : Bool} {n : UInt32}
    (h : (e.setTimeConfirmed s confirmed).2 = .ok n) : ¬ n < e.timeFloor := by
  unfold Engine.setTimeConfirmed at h
  split at h
  · cases h
  split at h
  · cases h
  split at h
  · cases h
  rename_i hfloor
  split at h
  · cases h
  split at h
  · cases h
  · cases h
    exact hfloor

/-- Over every failure and restart of a device, a clock is set to no hour below one that a frame of
its own was released under, or below the anchor of a present contact; and the fresh frames to one
activated contact are released under hours that never decrease. -/
theorem no_rollback (C : Crypto) (available : Bool) (is : List (Op × Fate))
    (horderly : Along (Bench.next C) (fun b i => b.orderly i = true) (.init available) is) :
    let b := run (Bench.next C) (.init available) is
    (∀ s confirmed n, (step C b.device.engine (.setTime s confirmed)).2 = .hour (.ok n) →
      (∀ r ∈ b.log, r.epoch ≤ n) ∧ ∀ i, (b.device.engine.contacts i).present = true →
        (b.device.engine.contacts i).anchor.anchor ≤ n) ∧
      (b.log.filter (·.fresh)).Pairwise fun r r' => r.Same r' → r.epoch ≤ r'.epoch := by
  have hinv := run_invariant (fun _ _ h hl => Bench.timely_step h hl) is
    (Bench.timely_init (C := C) available) horderly
  refine ⟨fun s confirmed n hset => ?_, hinv.sorted⟩
  have hfloor := setTime_floor (Output.hour.inj hset)
  refine ⟨fun r hr => ?_, fun i hp => UInt32.not_lt.mp (Engine.not_lt_timeFloor hfloor i hp)⟩
  exact UInt32.le_trans (hinv.past.floor r hr) (UInt32.not_lt.mp (Engine.not_lt_persisted hfloor))

/-- The run of `Sample.failing`. -/
theorem no_rollback_sample :
    let b := run (Bench.next Sample.crypto) (.init true) Sample.failing
    (∀ s confirmed n,
      (step Sample.crypto b.device.engine (.setTime s confirmed)).2 = .hour (.ok n) →
      (∀ r ∈ b.log, r.epoch ≤ n) ∧ ∀ i, (b.device.engine.contacts i).present = true →
        (b.device.engine.contacts i).anchor.anchor ≤ n) ∧
      (b.log.filter (·.fresh)).Pairwise fun r r' => r.Same r' → r.epoch ≤ r'.epoch :=
  no_rollback Sample.crypto true Sample.failing (by decide +kernel)

end LoraMesh
