import LoraMesh.Engine.Restore

/-!
# Engine — Device

An engine with its storage.  After an operation the caller makes the pending snapshot durable and
commits it before anything else, or fails, the write done or not, and goes on from the last
snapshot that is durable.

* `slot_moves`: what a move does to a contact: carry it, remove it, or activate it.
* `Inv.next`: between operations nothing is staged, the engine is sound, and the stored snapshot
  is that of a sound engine; `restarted_reload`: a restart continues from it.
-/

namespace LoraMesh

/-- A contact kept, with what its frames are sealed from, and no sequence given back. -/
structure Contact.Carried (c c' : Contact) : Prop where
  present : c.present = true
  present' : c'.present = true
  edPeer : c'.edPeer = c.edPeer
  peerIdentity : c'.peerIdentity = c.peerIdentity
  root : c'.root = c.root
  role : c'.role = c.role
  trafficLr : c'.trafficLr = c.trafficLr
  trafficRl : c'.trafficRl = c.trafficRl
  addrSecret : c'.addrSecret = c.addrSecret
  txNext : c.txNext ≤ c'.txNext

namespace Contact.Carried

theorem refl {c : Contact} (h : c.present = true) : c.Carried c :=
  ⟨h, h, rfl, rfl, rfl, rfl, rfl, rfl, rfl, UInt64.le_refl _⟩

theorem setData {c : Contact} (h : c.present = true) (win : Fin 3) (w : ReplayWindow) :
    c.Carried (c.setData win w) :=
  ⟨h, h, rfl, rfl, rfl, rfl, rfl, rfl, rfl, UInt64.le_refl _⟩

theorem trans {c c' c'' : Contact} (h : c.Carried c') (h' : c'.Carried c'') : c.Carried c'' where
  present := h.present
  present' := h'.present'
  edPeer := h'.edPeer.trans h.edPeer
  peerIdentity := h'.peerIdentity.trans h.peerIdentity
  root := h'.root.trans h.root
  role := h'.role.trans h.role
  trafficLr := h'.trafficLr.trans h.trafficLr
  trafficRl := h'.trafficRl.trans h.trafficRl
  addrSecret := h'.addrSecret.trans h.addrSecret
  txNext := UInt64.le_trans h.txNext h'.txNext

/-- A carried contact seals the same frames. -/
theorem dataEnvelope_eq {C : Crypto} {c c' : Contact} (h : c.Carried c') (uid : Bytes 8)
    (ps : PendingSend) (text : List UInt8) :
    c'.dataEnvelope C uid ps text = c.dataEnvelope C uid ps text := by
  simp only [Contact.dataEnvelope, Contact.envelope, Contact.outgoingKey, Contact.peerAlias,
    Contact.ownAlias, h.role, h.trafficLr, h.trafficRl, h.addrSecret, h.peerIdentity]

theorem consume {c : Contact} (h : c.present = true) {n : UInt64} (hn : c.txNext < n)
    (epoch : UInt32) : c.Carried (c.consume epoch) := by
  refine ⟨h, h, rfl, rfl, rfl, rfl, rfl, rfl, rfl, ?_⟩
  show c.txNext ≤ c.txNext + 1
  rw [UInt64.le_iff_toNat_le, toNat_succ_of_lt hn]
  exact Nat.le_succ _

end Contact.Carried

section Moves

variable {C : Crypto} {e e' : Engine} {op : Op} {out : Output}

/-- No operation but a restore. -/
def Op.keeps : Op → Bool
  | .restore _ => false
  | _ => true

/-- A reservation that went through leaves the sequence below some bound. -/
theorem reservation_bound {slot : Slot} {spare kind : StagedCommit}
    (h : e.reservation slot spare = some kind) : ∃ n, (e.contacts slot).txNext < n := by
  rcases reservation_lt h with ⟨n, -, hn⟩ | ⟨-, hn⟩
  · exact ⟨n, hn⟩
  · exact ⟨_, hn⟩

/-- One slot replaced by a contact that carries it on. -/
theorem carried_of_update {slot : Slot} {c : Contact}
    (hc : e'.contacts = Function.update e.contacts slot c) (h : (e.contacts slot).Carried c)
    (i : Slot) (hp : (e.contacts i).present = true) : (e.contacts i).Carried (e'.contacts i) := by
  by_cases hi : i = slot
  · subst hi
    rw [hc, Function.update_self]
    exact h
  · rw [hc, Function.update_of_ne hi]
    exact .refl hp

theorem acked_carried {slot : Slot} {c : Contact} {h : Header} {pid : UInt32}
    {f : Option OutgoingFrame} (hcar : (e.contacts slot).Carried c)
    (htx : c.txNext = (e.contacts slot).txNext) (ha : Acked C e slot c h pid e' f) :
    ∃ c', e'.contacts = Function.update e.contacts slot c' ∧ (e.contacts slot).Carried c' := by
  cases ha with
  | without _ hc _ => exact ⟨c, hc, hcar⟩
  | acked hr _ hc _ _ _ =>
      obtain ⟨n, hn⟩ := reservation_bound hr
      exact ⟨_, hc, hcar.trans (.consume hcar.present' (htx ▸ hn) _)⟩

/-- What a move does to the contact in a slot. -/
inductive SlotMoved (e e' : Engine) (out : Output) (i : Slot) : Prop where
  | carried (h : (e.contacts i).Carried (e'.contacts i))
  | absent (h : (e'.contacts i).present = false)
      (hsend : (e.contacts i).present = true →
        ∀ ps, e'.pendingSend = some ps → ps.contactId ≠ contactId i)
  | activated (h : out.activated? = some (contactId i))
      (hp : ∃ p, e.pending = some p ∧ p.slot = i ∧ p.ownProof.isSome = true)

/-- A move carries a contact, leaves its slot absent, or activates one there. -/
theorem slot_moves (hm : Moves C e op e' out) (hop : op.keeps = true) (i : Slot) :
    SlotMoved e e' out i := by
  have same (hc : e'.contacts i = e.contacts i) : SlotMoved e e' out i := by
    cases hp : (e.contacts i).present with
    | true => exact .carried (by rw [hc]; exact .refl hp)
    | false => exact .absent (hc ▸ hp) fun h => by cases hp.symm.trans h
  -- a slot written over is carried when it was present; no other slot changes
  have write {slot : Slot} {c : Contact} (hc : e'.contacts = Function.update e.contacts slot c)
      (h : (e.contacts slot).Carried c) : SlotMoved e e' out i := by
    by_cases hi : i = slot
    · subst hi
      exact .carried (carried_of_update hc h i h.present)
    · exact same (by rw [hc, Function.update_of_ne hi])
  cases hm with
  | quiet h _ => exact same (by rw [h.contacts])
  | pairing h =>
      obtain ⟨⟨p', rfl, -⟩, -⟩ := h.spec
      exact same rfl
  | restage _ _ hc _ _ _ => exact same (by rw [hc])
  | setTime _ hc _ _ _ _ _ _ =>
      rcases hc i with ⟨hi, -⟩ | ⟨hp, init, hi⟩
      · exact same hi
      · exact .carried (hi ▸ ⟨hp, hp, rfl, rfl, rfl, rfl, rfl, rfl, rfl, UInt64.le_refl _⟩)
  | sendBegin _ _ _ _ => exact same rfl
  | sendEmit hr _ hc _ _ _ _ _ =>
      obtain ⟨-, -, hslot, hnext, hlt⟩ := sendReady_spec hr
      exact write hc (.consume (slotOf_present hslot) (hnext ▸ hlt) _)
  | retry => exact same rfl
  | recvData ho _ _ ha _ _ _ =>
      obtain ⟨c', hc, hcar⟩ := acked_carried (.setData (opens_present ho) _ _) rfl ha
      exact write hc hcar
  | recvAck ho _ _ hc _ _ _ _ _ =>
      have hp := opens_present ho
      exact write hc ⟨hp, hp, rfl, rfl, rfl, rfl, rfl, rfl, rfl, UInt64.le_refl _⟩
  | @delete id slot _ hslot hc _ hsend _ _ =>
      by_cases hi : i = slot
      · subst hi
        refine .absent ?_ fun _ ps hps hid => hsend ps hps (hid.trans (Engine.slotOf_ok hslot).2.symm)
        rw [hc, Function.update_self]
        rfl
      · exact same (by rw [hc, Function.update_of_ne hi])
  | block hslot hc _ _ _ _ =>
      have hp := slotOf_present hslot
      exact write hc ⟨hp, hp, rfl, rfl, rfl, rfl, rfl, rfl, rfl, UInt64.le_refl _⟩
  | @activate _ _ p c hp _ _ _ hcheck =>
      by_cases hi : i = p.slot
      · subst hi
        obtain ⟨-, ownProof, -, -, -, -, -, -, -, -, -, hown, -⟩ := checkConfirm_spec hcheck
        exact .activated rfl ⟨p, hp, rfl, hown ▸ rfl⟩
      · refine same ?_
        show Function.update (Function.update e.contacts p.slot _) p.slot _ i = _
        rw [Function.update_of_ne hi, Function.update_of_ne hi]
  | commitOk =>
      have hc := e.commitOk_contacts i
      cases hp : (e.contacts i).present with
      | true => exact .carried (hc ▸ ⟨hp, hp, rfl, rfl, rfl, rfl, rfl, rfl, rfl, UInt64.le_refl _⟩)
      | false => exact .absent (hc ▸ hp) fun h => by cases hp.symm.trans h
  | discard => exact same rfl
  | restore _ => cases hop

/-- An activation takes the slot of the pending attempt and is staged. -/
theorem activated_moves (hm : Moves C e op e' out) {id : UInt8} (h : out.activated? = some id) :
    ∃ p, e.pending = some p ∧ id = contactId p.slot ∧ e'.staged = some (.pairActivate p.slot) := by
  cases hm with
  | quiet _ ho => rw [ho.2.2] at h; cases h
  | pairing hp => rw [hp.spec.2.2.2] at h; cases h
  | restage _ _ _ _ _ ho => rw [ho.2.2] at h; cases h
  | setTime _ _ _ _ _ _ _ ho => rw [ho.2.2] at h; cases h
  | @activate _ _ p _ hp _ _ _ _ => exact ⟨p, hp, (Option.some.inj h).symm, rfl⟩
  | _ => cases h

/-- The identity changes only by binding it, and a pending attempt is kept or takes a free slot. -/
theorem identity_moves (hm : Moves C e op e' out) (hop : op.keeps = true) :
    (e'.identity = e.identity ∨ op = .setIdentity e'.uid ∧ e'.uidSet = true) ∧
      ∀ p, e'.pending = some p → PendingKept e p := by
  have keep (h : Kept e e') : ∀ p, e'.pending = some p → PendingKept e p := by
    intro p hp
    rcases h.pending with heq | hn
    · exact .self (heq ▸ hp)
    · exact nomatch hn.symm.trans hp
  cases hm with
  | quiet h _ => exact ⟨.inl h.identity, keep h.toKept⟩
  | pairing h =>
      obtain ⟨⟨p', rfl, hk⟩, -⟩ := h.spec
      exact ⟨.inl rfl, fun p hp => Option.some.inj hp ▸ hk⟩
  | restage _ h _ hu _ _ => exact ⟨hu, keep h.toKept⟩
  | setTime _ _ h _ _ hu _ _ => exact ⟨.inl hu, keep h⟩
  | sendBegin _ _ _ _ => exact ⟨.inl rfl, fun _ h => .self h⟩
  | sendEmit _ _ _ h _ _ hu _ => exact ⟨.inl hu, keep h.toKept⟩
  | retry => exact ⟨.inl rfl, fun _ h => .self h⟩
  | recvData _ _ _ _ h _ hu => exact ⟨.inl hu, keep h.toKept⟩
  | recvAck _ _ _ _ _ h _ hu _ => exact ⟨.inl hu, keep h.toKept⟩
  | delete _ _ h _ hu _ => exact ⟨.inl hu, keep h.toKept⟩
  | block _ _ h _ hu _ => exact ⟨.inl hu, keep h.toKept⟩
  | activate _ _ _ _ _ => exact ⟨.inl rfl, fun _ h => .self h⟩
  | commitOk =>
      refine ⟨.inl ?_, fun p h => .self ?_⟩
      · unfold Engine.commitOk
        split <;> rfl
      · unfold Engine.commitOk at h
        split at h
        · exact h
        · cases h
        · exact h
  | discard => exact ⟨.inl rfl, fun _ h => .self h⟩
  | restore _ => cases hop

end Moves

/-! ### Between operations -/

namespace Engine

/-- Every identity the engine binds or has used is `uid`. -/
structure Identified (uid : Bytes 8) (e : Engine) : Prop where
  uid : e.uidSet = true → e.uid = uid
  contacts : ∀ i, (e.contacts i).present = true → e.uidSet = true
  ownProof : ∀ p, e.pending = some p → p.ownProof.isSome = true → e.uidSet = true

/-- A pending attempt's slot is still free. -/
def SlotFree (e : Engine) : Prop :=
  ∀ p, e.pending = some p → (e.contacts p.slot).present = false

/-- Nothing staged. -/
structure Settled (e : Engine) : Prop where
  staged : e.staged = none
  dirty : e.persistDirty = false

theorem Settled.noBlock {e : Engine} (h : e.Settled) : e.NoBlock := by
  intro i n hst
  rw [h.staged] at hst
  cases hst

theorem Settled.pendingPersist {e : Engine} (h : e.Settled) : e.pendingPersist = none := by
  rw [Engine.pendingPersist, h.dirty]
  rfl

theorem settled_commitOk (e : Engine) : e.commitOk.Settled := by
  unfold commitOk
  split <;> exact ⟨rfl, rfl⟩

end Engine

/-- The operations of a device whose identity is `uid`: no restore, no other identity. -/
def Op.allowed (uid : Bytes 8) : Op → Bool
  | .restore _ => false
  | .setIdentity uid' => uid' == uid
  | _ => true

theorem Op.keeps_of_allowed {uid : Bytes 8} {op : Op} (h : op.allowed uid = true) :
    op.keeps = true := by
  cases op with
  | restore _ => cases h
  | _ => rfl

section Moves

variable {C : Crypto} {e e' : Engine} {op : Op} {out : Output} {uid : Bytes 8}

theorem identified_moves (hi : e.Identified uid) (hm : Moves C e op e' out)
    (hop : op.allowed uid = true) : e'.Identified uid := by
  obtain ⟨hid, hpend⟩ := identity_moves hm (Op.keeps_of_allowed hop)
  have hset : e.uidSet = true → e'.uidSet = true := by
    intro h
    rcases hid with hid | ⟨-, h'⟩
    · rw [show e'.uidSet = e.uidSet from congrArg Prod.snd hid]
      exact h
    · exact h'
  refine ⟨fun h => ?_, fun i hp => ?_, fun p hp hproof => ?_⟩
  · rcases hid with hid | ⟨rfl, -⟩
    · rw [show e'.uid = e.uid from congrArg Prod.fst hid]
      exact hi.uid ((congrArg Prod.snd hid).symm.trans h)
    · exact eq_of_beq hop
  · rcases slot_moves hm (Op.keeps_of_allowed hop) i with h | ⟨h, -⟩ | ⟨-, p, hpp, -, hproof⟩
    · exact hset (hi.contacts i h.present)
    · rw [h] at hp; cases hp
    · exact hset (hi.ownProof p hpp hproof)
  · rcases (hpend p hp).ownProof hproof with ⟨p', hp', h⟩ | h
    · exact hset (hi.ownProof p' hp' h)
    · exact hset h

/-- The slot of an attempt stays free until an activation takes it. -/
theorem slotFree_moves (hf : e.SlotFree) (hm : Moves C e op e' out) (hop : op.keeps = true)
    (hact : out.activated? = none) : e'.SlotFree := by
  intro p hp
  have hfree : (e.contacts p.slot).present = false := by
    rcases ((identity_moves hm hop).2 p hp).slot with ⟨p', hp', heq⟩ | h
    · rw [heq]; exact hf p' hp'
    · exact h
  rcases slot_moves hm hop p.slot with h | ⟨h, -⟩ | ⟨h, -⟩
  · rw [h.present] at hfree; cases hfree
  · exact h
  · rw [hact] at h; cases h

/-- What leaves nothing staged has activated nothing. -/
theorem settled_activated (hset : e'.Settled) (hm : Moves C e op e' out) :
    out.activated? = none := by
  rw [Option.eq_none_iff_forall_not_mem]
  intro id hid
  obtain ⟨p, -, -, hst⟩ := activated_moves hm hid
  exact nomatch hset.staged.symm.trans hst

/-- From a settled state a move leaves nothing staged, or its own snapshot pending. -/
theorem settled_moves (hs : e.Settled) (hm : Moves C e op e' out) :
    e'.Settled ∨ e'.pendingPersist = some (encodeInto e'.persistView) := by
  rcases staging_moves hm with ⟨hst, hd, -⟩ | ⟨-, hst, hd⟩ | h
  · exact .inl ⟨hst.trans hs.staged, hd.trans hs.dirty⟩
  · exact .inl ⟨hst, hd⟩
  · exact .inr h.pendingPersist

/-- A committed operation leaves the engine settled, and a pending attempt's slot free. -/
theorem slotFree_committed (hs : e.Settled) (hf : e.SlotFree) (hm : Moves C e op e' out)
    (hop : op.keeps = true) :
    (if e'.pendingPersist.isSome then e'.commitOk else e').Settled ∧
      (if e'.pendingPersist.isSome then e'.commitOk else e').SlotFree := by
  rcases settled_moves hs hm with hset | hpp
  · rw [hset.pendingPersist]
    exact ⟨hset, slotFree_moves hf hm hop (settled_activated hset hm)⟩
  · rw [hpp]
    refine ⟨Engine.settled_commitOk _, ?_⟩
    cases hact : out.activated? with
    | none => exact slotFree_moves (slotFree_moves hf hm hop hact) (.commitOk (C := C)) rfl rfl
    | some id =>
        obtain ⟨p, -, -, hst⟩ := activated_moves hm hact
        intro p' hp
        have hnone : e'.commitOk.pending = none := by
          unfold Engine.commitOk
          rw [hst]
        exact nomatch hnone.symm.trans hp

end Moves

/-! ### Lives

A slot may hold one contact after another.  A caller's record of a run numbers the activations: the
life of a contact is the number of the activation that made it. -/

section Lives

variable {life : UInt8 → ℕ} {clock : ℕ} {out : Output}

/-- The lives after an answer. -/
def started (life : UInt8 → ℕ) (clock : ℕ) (out : Output) : UInt8 → ℕ :=
  match out.activated? with
  | some id => Function.update life id clock
  | none => life

theorem started_of_none (hact : out.activated? = none) : started life clock out = life := by
  rw [started, hact]

/-- A life below the clock is one that went on. -/
theorem started_eq {id : UInt8} {n : ℕ} (hn : n < clock) (h : n = started life clock out id) :
    n = life id ∧ out.activated? ≠ some id := by
  cases hact : out.activated? with
  | none => exact ⟨by rwa [started_of_none hact] at h, nofun⟩
  | some id' =>
      rw [started, hact] at h
      dsimp only at h
      by_cases hid : id = id'
      · rw [hid, Function.update_self] at h
        exact absurd hn (h ▸ Nat.lt_irrefl _)
      · rw [Function.update_of_ne hid] at h
        exact ⟨h, fun heq => hid (Option.some.inj heq).symm⟩

theorem started_lt (h : ∀ id, life id < clock) (id : UInt8) :
    started life clock out id < clock + 1 := by
  unfold started
  cases out.activated? with
  | none => exact Nat.lt_succ_of_lt (h id)
  | some id' =>
      dsimp only
      by_cases hid : id = id'
      · rw [hid, Function.update_self]
        exact Nat.lt_succ_self _
      · rw [Function.update_of_ne hid]
        exact Nat.lt_succ_of_lt (h id)

end Lives

/-! ### The device -/

/-- What becomes of an operation: its snapshot is written and committed, or the device fails, the
write done or not, and goes on from its storage, in place or at a boot with the radio there or
not. -/
inductive Fate where
  | commit
  | fail (wrote : Bool) (reboot : Option Bool)
  deriving DecidableEq

/-- An engine, what its storage holds, and the state that was a snapshot of. -/
structure Device where
  engine : Engine
  stored : Option (List UInt8)
  shadow : Engine

namespace Device

def init (available : Bool) : Device where
  engine := .new available
  stored := none
  shadow := .new available

/-- Go on from the last durable snapshot; a device with none starts blank, and one whose snapshot
does not restore is marked faulty. -/
def reload (C : Crypto) (e : Engine) (reboot : Option Bool) : Option (List UInt8) → Engine
  | none => .new (reboot.getD e.radioAvailable)
  | some bytes =>
    let e₀ : Engine :=
      match reboot with
      | some available => .new available
      | none => e.discardStaged
    match e₀.restore C bytes with
    | .ok (e, _) => e
    | .error _ => e₀.markFault

/-- Write the pending snapshot of `e`, if it has one. -/
def write (d : Device) (e : Engine) : Device :=
  match e.pendingPersist with
  | some bytes => { d with stored := some bytes, shadow := e }
  | none => d

/-- One operation and what becomes of it. -/
def next (C : Crypto) (d : Device) (op : Op) : Fate → Device
  | .commit =>
    let e := (step C d.engine op).1
    { d.write e with engine := if e.pendingPersist.isSome then e.commitOk else e }
  | .fail wrote reboot =>
    let e := (step C d.engine op).1
    let d := if wrote then d.write e else d
    { d with engine := reload C e reboot d.stored }

variable {C : Crypto} {uid : Bytes 8}

/-- What a snapshot can restore. -/
structure Solid (C : Crypto) (e : Engine) : Prop where
  sound : e.Sound C
  reserved : e.Reserved

/-- What a snapshot of a device is taken of. -/
structure Durable (C : Crypto) (uid : Bytes 8) (e : Engine) : Prop extends Solid C e where
  identified : e.Identified uid

/-- The storage is blank, or holds the snapshot of the shadow state. -/
def Recorded (d : Device) : Prop :=
  d.stored = none ∧ (∃ a, d.shadow = .new a) ∨ d.stored = some (encodeInto d.shadow.persistView)

/-- The storage is blank, or holds the snapshot of a durable state. -/
structure Stored (C : Crypto) (uid : Bytes 8) (d : Device) : Prop where
  shadow : Durable C uid d.shadow
  stored : d.Recorded

/-- What holds of a device between operations. -/
structure Inv (C : Crypto) (uid : Bytes 8) (d : Device) : Prop extends Stored C uid d where
  engine : Durable C uid d.engine
  settled : d.engine.Settled
  slotFree : d.engine.SlotFree

theorem durable_new (available : Bool) : Durable C uid (.new available) where
  sound := sound_new available
  reserved := fun _ => UInt64.le_refl 0
  identified := ⟨fun h => (nomatch h), fun _ h => (nomatch h), fun _ h => (nomatch h)⟩

theorem inv_init (available : Bool) : Inv C uid (init available) where
  shadow := durable_new available
  stored := .inl ⟨rfl, available, rfl⟩
  engine := durable_new available
  settled := ⟨rfl, rfl⟩
  slotFree := fun _ h => nomatch h

/-- What an allowed operation leaves, before anything becomes of it. -/
theorem Inv.after {d : Device} (h : Inv C uid d) {op : Op} (hop : op.allowed uid = true) :
    Durable C uid (step C d.engine op).1 where
  sound := sound_step h.engine.sound op
  reserved := reserved_moves h.engine.reserved h.settled.noBlock (step_moves C d.engine op)
  identified := identified_moves h.engine.identified (step_moves C d.engine op) hop

theorem durable_commitOk {e : Engine} (h : Durable C uid e) : Durable C uid e.commitOk where
  sound := sound_moves h.sound .commitOk
  reserved := Engine.reserved_commitOk h.reserved
  identified := identified_moves h.identified (.commitOk (C := C)) rfl

theorem solid_new (available : Bool) : Solid C (.new available) :=
  ⟨sound_new available, fun _ => UInt64.le_refl 0⟩

/-- A restart skips every reserved block of the recorded state and is settled. -/
theorem restarted_of_solid {d : Device} (hs : Solid C d.shadow) (h : d.Recorded) (e : Engine)
    (reboot : Option Bool) :
    d.shadow.Restarted (reload C e reboot d.stored) ∧ (reload C e reboot d.stored).Settled ∧
      Solid C (reload C e reboot d.stored) := by
  rcases h with ⟨hn, a, ha⟩ | hb
  · rw [hn, ha]
    exact ⟨⟨rfl, rfl, rfl, rfl, rfl, rfl, rfl, rfl, rfl, fun _ => rfl, rfl, rfl, rfl, rfl⟩,
      ⟨rfl, rfl⟩, solid_new _⟩
  · have hd := decodeView_encodeInto.mpr ⟨Engine.persistView_valid hs.sound hs.reserved, rfl⟩
    have hload : ∃ e₀ : Engine, reload C e reboot d.stored = e₀.restoreView C d.shadow.persistView := by
      rw [hb]
      unfold reload
      dsimp only
      rw [Engine.restore, hd]
      exact ⟨_, rfl⟩
    obtain ⟨e₀, hload⟩ := hload
    rw [hload]
    have hr := Engine.restoreView_persistView hs.sound hs.reserved e₀
    have hv := decodeView_valid hd
    exact ⟨hr, ⟨rfl, rfl⟩, ⟨hv.1, fun _ h => (by cases h), fun i => restoreContact_wf C (hv.2 i),
      fun _ _ h => by cases h⟩, fun i => restoreContact_reserved C _⟩

/-- A restart skips every reserved block of the durable state and is settled. -/
theorem restarted_reload {d : Device} (h : Stored C uid d) (e : Engine) (reboot : Option Bool) :
    d.shadow.Restarted (reload C e reboot d.stored) ∧ (reload C e reboot d.stored).Settled ∧
      Durable C uid (reload C e reboot d.stored) := by
  obtain ⟨hr, hset, hsolid⟩ := restarted_of_solid h.shadow.toSolid h.stored e reboot
  refine ⟨hr, hset, hsolid, fun hu => ?_, fun i hp => ?_, fun p hp => nomatch hr.pending.symm.trans hp⟩
  · rw [hr.uidSet] at hu
    rw [hr.uid]
    exact h.shadow.identified.uid hu
  · rw [hr.contacts] at hp
    rw [hr.uidSet]
    exact h.shadow.identified.contacts i hp

/-- Writing what an operation left pending. -/
theorem Inv.write {d : Device} (h : Inv C uid d) {op : Op} (hop : op.allowed uid = true) :
    Stored C uid (d.write (step C d.engine op).1) := by
  unfold Device.write
  rcases settled_moves h.settled (step_moves C d.engine op) with hset | hpp
  · rw [hset.pendingPersist]
    exact h.toStored
  · rw [hpp]
    exact ⟨h.after hop, .inr rfl⟩

/-- A restart, the storage being as it should. -/
theorem inv_reload {d : Device} (h : Stored C uid d) (e : Engine) (reboot : Option Bool) :
    Inv C uid { d with engine := reload C e reboot d.stored } := by
  obtain ⟨hr, hset, hdur⟩ := restarted_reload h e reboot
  exact ⟨⟨h.shadow, h.stored⟩, hdur, hset, fun p hp => nomatch hr.pending.symm.trans hp⟩

/-- An allowed operation, whatever becomes of it, keeps the invariant. -/
theorem Inv.next {d : Device} (h : Inv C uid d) {op : Op} (hop : op.allowed uid = true)
    (fate : Fate) : Inv C uid (d.next C op fate) := by
  have he := h.after hop
  have hm := step_moves C d.engine op
  have hw := h.write hop
  cases fate with
  | commit =>
      unfold Device.next
      dsimp only
      obtain ⟨hset, hfree⟩ := slotFree_committed h.settled h.slotFree hm (Op.keeps_of_allowed hop)
      refine ⟨⟨hw.shadow, hw.stored⟩, ?_, hset, hfree⟩
      split
      · exact durable_commitOk he
      · exact he
  | fail wrote reboot =>
      cases wrote with
      | false => exact inv_reload h.toStored _ reboot
      | true => exact inv_reload hw _ reboot

end Device

end LoraMesh
