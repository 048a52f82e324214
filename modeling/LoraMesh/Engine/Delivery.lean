import LoraMesh.Engine.Device

/-!
# Engine — Delivery

What a contact still refuses to deliver, over rotations of its windows, snapshots and restarts.

* `Refused.moved`: a contact that refuses a DATA frame refuses it after every move that leaves it
  the same contact; `received_moves`: it refuses what it has just delivered.
* `delivered_once`: of one activated contact, no epoch and sequence is released twice.
-/

namespace LoraMesh

open Engine (position)

/-! ### Windows by epoch -/

theorem toNat_satSub32_one (n : UInt32) : (satSub32 n 1).toNat = n.toNat - 1 := by
  unfold satSub32
  split
  · rename_i h
    rw [UInt32.toNat_sub_of_le _ _ h, UInt32.toNat_one]
  · rename_i h
    have h : ¬ 1 ≤ n.toNat := fun hle => h (UInt32.le_iff_toNat_le.mpr hle)
    rw [UInt32.toNat_zero]
    omega

theorem toNat_satAdd32_one (n : UInt32) :
    (satAdd32 n 1).toNat = n.toNat + 1 ∨ n.toNat = 2 ^ 32 - 1 := by
  have hn := n.toNat_lt
  unfold satAdd32
  split
  · rename_i h
    rw [UInt32.toNat_one] at h
    exact .inl (by rw [UInt32.toNat_add, UInt32.toNat_one, Nat.mod_eq_of_lt h])
  · rename_i h
    rw [UInt32.toNat_one] at h
    exact .inr (by omega)

theorem position_eq_some {a : Fin 3 → UInt32} {x : UInt32} {i : Fin 3}
    (h : position a x = some i) : a i = x := by
  unfold position at h
  split at h
  · cases h; assumption
  · split at h
    · cases h; assumption
    · split at h
      · cases h; assumption
      · cases h

theorem position_eq_none {a : Fin 3 → UInt32} {x : UInt32} (h : position a x = none) (i : Fin 3) :
    a i ≠ x := by
  unfold position at h
  split at h
  · cases h
  rename_i h0
  split at h
  · cases h
  rename_i h1
  split at h
  · cases h
  rename_i h2
  match i with
  | 0 => exact h0
  | 1 => exact h1
  | 2 => exact h2

/-- An hour with no slot around `n` is more than one away from it. -/
theorem position_slots_none {n epoch : UInt32} (h : position (slots n) epoch = none) :
    epoch.toNat + 1 < n.toNat ∨ n.toNat + 1 < epoch.toNat := by
  have hlt := epoch.toNat_lt
  have h0 : (satSub32 n 1).toNat ≠ epoch.toNat := fun heq =>
    position_eq_none h 0 (UInt32.toNat_inj.mp heq)
  have h1 : n.toNat ≠ epoch.toNat := fun heq => position_eq_none h 1 (UInt32.toNat_inj.mp heq)
  have h2 : (satAdd32 n 1).toNat ≠ epoch.toNat := fun heq =>
    position_eq_none h 2 (UInt32.toNat_inj.mp heq)
  rw [toNat_satSub32_one] at h0
  rcases toNat_satAdd32_one n with hs | hs
  · rw [hs] at h2; omega
  · omega

/-- A slot around `n` is at most one hour away from it. -/
theorem slots_near (n : UInt32) (i : Fin 3) :
    n.toNat ≤ (slots n i).toNat + 1 ∧ (slots n i).toNat ≤ n.toNat + 1 := by
  match i with
  | 0 =>
      show n.toNat ≤ (satSub32 n 1).toNat + 1 ∧ (satSub32 n 1).toNat ≤ n.toNat + 1
      rw [toNat_satSub32_one]
      omega
  | 1 => exact ⟨Nat.le_succ _, Nat.le_succ _⟩
  | 2 =>
      have hlt := (satAdd32 n 1).toNat_lt
      show n.toNat ≤ (satAdd32 n 1).toNat + 1 ∧ (satAdd32 n 1).toNat ≤ n.toNat + 1
      have hge : n.toNat ≤ (satAdd32 n 1).toNat + 1 ∧ (satAdd32 n 1).toNat ≤ n.toNat + 1 := by
        rcases toNat_satAdd32_one n with hs | hs
        · omega
        · rw [show satAdd32 n 1 = 0xFFFFFFFF by
            rw [satAdd32, if_neg (by rw [UInt32.toNat_one, hs]; decide)], hs]
          decide
      exact hge

namespace Contact

/-- The windows of a present contact are those of the hours around its anchor. -/
def Anchored (c : Contact) : Prop := c.present = true → c.winEpochs = slots c.anchor.anchor

/-- The DATA window of an hour. -/
def window? (c : Contact) (epoch : UInt32) : Option ReplayWindow :=
  (position c.winEpochs epoch).map c.winData

/-- The contact delivers no DATA of this epoch and sequence: its hour's window refuses it, or the
hour is past. -/
def Refused (c : Contact) (epoch : UInt32) (seq : UInt64) : Prop :=
  match c.window? epoch with
  | some w => w.Refuses seq
  | none => epoch.toNat + 1 < c.anchor.anchor.toNat

end Contact

/-- A window of an hour around the new anchor is the one the hour had, or empty. -/
theorem rotateWindows_position {es : Fin 3 → UInt32} {init : List UInt32} {n epoch : UInt32}
    {win : Fin 3 → ReplayWindow} {i : Fin 3} (hi : position (slots n) epoch = some i) :
    Engine.rotateWindows es init n win i = ((position es epoch).map win).getD .new := by
  unfold Engine.rotateWindows
  rw [position_eq_some hi]
  cases hp : position es epoch with
  | some j => rfl
  | none => exact if_pos (.inr (position_eq_none hp))

/-- A rotation never forgets an hour it refuses anything of. -/
theorem Contact.Refused.rotate {c : Contact} {epoch : UInt32} {seq : UInt64}
    (h : c.Refused epoch seq) (hc : c.winEpochs = slots c.anchor.anchor) {n : UInt32}
    (hn : ¬ n < c.anchor.anchor) (init : List UInt32) :
    (Engine.rotateContact c ⟨n⟩ init n).Refused epoch seq := by
  have hle : c.anchor.anchor.toNat ≤ n.toNat := Nat.le_of_not_lt fun hlt => hn (UInt32.lt_iff_toNat_lt.mpr hlt)
  unfold Refused window? at h ⊢
  show match (position (slots n) epoch).map (Engine.rotateWindows c.winEpochs init n c.winData) with
    | some w => w.Refuses seq
    | none => epoch.toNat + 1 < n.toNat
  cases hp : position (slots n) epoch with
  | some i =>
      show (Engine.rotateWindows c.winEpochs init n c.winData i).Refuses seq
      rw [rotateWindows_position hp]
      cases hq : position c.winEpochs epoch with
      | some j =>
          rw [hq] at h
          exact h
      | none =>
          rw [hq] at h
          have h : epoch.toNat + 1 < c.anchor.anchor.toNat := h
          have := (slots_near n i).1
          rw [position_eq_some hp] at this
          omega
  | none =>
      show epoch.toNat + 1 < n.toNat
      cases hq : position c.winEpochs epoch with
      | some j =>
          have hnear := (slots_near c.anchor.anchor j).2
          rw [← hc, position_eq_some hq] at hnear
          rcases position_slots_none hp with hlt | hgt
          · exact hlt
          · omega
      | none =>
          rw [hq] at h
          have h : epoch.toNat + 1 < c.anchor.anchor.toNat := h
          omega

section Moves

variable {C : Crypto} {e e' : Engine} {op : Op} {out : Output}

/-- The DATA windows of two contacts over the same hours. -/
structure Contact.SameWindows (c c' : Contact) : Prop where
  present : c'.present = true → c.present = true
  winEpochs : c'.winEpochs = c.winEpochs
  anchor : c'.anchor = c.anchor

/-- What a move does to the DATA windows of a slot. -/
inductive WinMoved (e e' : Engine) (out : Output) (i : Slot) : Prop where
  | kept (h : (e.contacts i).SameWindows (e'.contacts i))
      (hd : (e'.contacts i).winData = (e.contacts i).winData)
  | rotated {n : UInt32} {init : List UInt32} (hp : (e.contacts i).present = true)
      (hn : ¬ n < (e.contacts i).anchor.anchor)
      (hc : e'.contacts i = Engine.rotateContact (e.contacts i) ⟨n⟩ init n)
  | received {win : Fin 3} {seq : UInt64} (h : (e.contacts i).SameWindows (e'.contacts i))
      (hd : (e'.contacts i).winData = Function.update (e.contacts i).winData win
        (((e.contacts i).winData win).accept seq).2)
  | absent (h : (e'.contacts i).present = false)
  | activated (h : out.activated? = some (contactId i))
      (hc : (e'.contacts i).winEpochs = slots (e'.contacts i).anchor.anchor)

/-- A received body is accounted in its window, whatever acknowledges it. -/
theorem acked_windows {slot : Slot} {c : Contact} {h : Header} {pid : UInt32}
    {f : Option OutgoingFrame} (ha : Acked C e slot c h pid e' f) :
    ∃ c', e'.contacts = Function.update e.contacts slot c' ∧ c.SameWindows c' ∧
      c'.winData = c.winData ∧ c'.present = c.present := by
  cases ha with
  | without _ hc _ => exact ⟨c, hc, ⟨id, rfl, rfl⟩, rfl, rfl⟩
  | acked _ _ hc _ _ _ => exact ⟨_, hc, ⟨id, rfl, rfl⟩, rfl, rfl⟩

theorem windows_moves (hm : Moves C e op e' out) (hop : op.keeps = true) (i : Slot) :
    WinMoved e e' out i := by
  have same (hc : e'.contacts i = e.contacts i) : WinMoved e e' out i :=
    .kept ⟨fun h => hc ▸ h, by rw [hc], by rw [hc]⟩ (by rw [hc])
  have write {slot : Slot} {c : Contact} (hc : e'.contacts = Function.update e.contacts slot c)
      (h : (e.contacts slot).SameWindows c) (hd : c.winData = (e.contacts slot).winData) :
      WinMoved e e' out i := by
    by_cases hi : i = slot
    · subst hi
      refine .kept ?_ ?_
      · rw [hc, Function.update_self]
        exact h
      · rw [hc, Function.update_self]
        exact hd
    · exact same (by rw [hc, Function.update_of_ne hi])
  cases hm with
  | quiet h _ => exact same (by rw [h.contacts])
  | pairing h =>
      obtain ⟨⟨p', rfl, -⟩, -⟩ := h.spec
      exact same rfl
  | restage _ _ hc _ _ _ => exact same (by rw [hc])
  | setTime hf hc _ _ _ _ _ _ =>
      rcases hc i with ⟨hi, -⟩ | ⟨hp, init, hi⟩
      · exact same hi
      · exact .rotated hp (hf i hp) hi
  | sendBegin _ _ _ _ => exact same rfl
  | sendEmit _ _ hc _ _ _ _ _ => exact write hc ⟨id, rfl, rfl⟩ rfl
  | retry => exact same rfl
  | @recvData _ _ _ slot h _ _ win _ _ _ _ w _ hw _ ha _ _ _ =>
      obtain ⟨c', hc, hsame, hd, -⟩ := acked_windows ha
      by_cases hi : i = slot
      · subst hi
        refine @WinMoved.received _ _ _ _ win h.sequence ?_ ?_
        · rw [hc, Function.update_self]
          exact ⟨hsame.present, hsame.winEpochs, hsame.anchor⟩
        · rw [hc, Function.update_self, hd, hw]
          rfl
      · exact same (by rw [hc, Function.update_of_ne hi])
  | recvAck _ _ _ hc _ _ _ _ _ => exact write hc ⟨id, rfl, rfl⟩ rfl
  | @delete _ slot _ _ hc _ _ _ _ =>
      by_cases hi : i = slot
      · subst hi
        exact .absent (by rw [hc, Function.update_self]; rfl)
      · exact same (by rw [hc, Function.update_of_ne hi])
  | block _ hc _ _ _ _ => exact write hc ⟨id, rfl, rfl⟩ rfl
  | @activate _ _ p c _ _ _ _ _ =>
      by_cases hi : i = p.slot
      · subst hi
        refine .activated rfl ?_
        show (Function.update (Function.update e.contacts p.slot _) p.slot _ p.slot).winEpochs =
          slots (Function.update (Function.update e.contacts p.slot _) p.slot _ p.slot).anchor.anchor
        rw [Function.update_self]
        rfl
      · refine same ?_
        show Function.update (Function.update e.contacts p.slot _) p.slot _ i = _
        rw [Function.update_of_ne hi, Function.update_of_ne hi]
  | commitOk =>
      exact .kept (by rw [Engine.commitOk_contacts]; exact ⟨id, rfl, rfl⟩)
        (by rw [Engine.commitOk_contacts])
  | discard => exact same rfl
  | restore _ => cases hop

theorem anchored_moves (h : ∀ i, (e.contacts i).Anchored) (hm : Moves C e op e' out)
    (hop : op.keeps = true) (i : Slot) : (e'.contacts i).Anchored := by
  intro hp
  cases windows_moves hm hop i with
  | kept hs _ => rw [hs.winEpochs, hs.anchor]; exact h i (hs.present hp)
  | rotated _ _ hc => rw [hc]; rfl
  | received hs _ => rw [hs.winEpochs, hs.anchor]; exact h i (hs.present hp)
  | absent habs => cases habs.symm.trans hp
  | activated _ hc => exact hc

/-- A contact goes on refusing what it refused, unless a new one takes its slot. -/
theorem Contact.Refused.moved {i : Slot} {epoch : UInt32} {seq : UInt64}
    (h : (e.contacts i).Refused epoch seq) (ha : (e.contacts i).Anchored)
    (hm : Moves C e op e' out) (hop : op.keeps = true) (hp' : (e'.contacts i).present = true)
    (hact : out.activated? ≠ some (contactId i)) : (e'.contacts i).Refused epoch seq := by
  cases windows_moves hm hop i with
  | kept hs hd =>
      unfold Refused window? at h ⊢
      rw [hs.winEpochs, hs.anchor, hd]
      exact h
  | rotated hp hn hc =>
      rw [hc]
      exact h.rotate (ha hp) hn _
  | @received win seq' hs hd =>
      unfold Refused window? at h ⊢
      rw [hs.winEpochs, hs.anchor, hd]
      cases hq : position (e.contacts i).winEpochs epoch with
      | none => rw [hq] at h; exact h
      | some j =>
          rw [hq] at h
          show (Function.update (e.contacts i).winData win _ j).Refuses seq
          by_cases hj : j = win
          · subst hj
            rw [Function.update_self]
            exact ReplayWindow.Refuses.accept h _
          · rw [Function.update_of_ne hj]
            exact h
  | absent habs => cases habs.symm.trans hp'
  | activated h _ => exact absurd h hact

/-- A reported reception: the contact did not refuse the frame, does so afterwards, and that is
staged. -/
theorem received_moves (hm : Moves C e op e' out) {id : UInt8} {epoch : UInt32} {seq : UInt64}
    {text : List UInt8} (hev : out.event? = some (.received id epoch seq text)) :
    ∃ slot kind, id = contactId slot ∧ (e.contacts slot).present = true ∧
      ¬ (e.contacts slot).Refused epoch seq ∧ (e'.contacts slot).Refused epoch seq ∧
      e'.Staged kind := by
  cases hm with
  | quiet _ ho => exact nomatch ho.2.1.symm.trans hev
  | pairing h => exact nomatch h.spec.2.2.1.symm.trans hev
  | restage _ _ _ _ _ ho => exact nomatch ho.2.1.symm.trans hev
  | setTime _ _ _ _ _ _ _ ho => exact nomatch ho.2.1.symm.trans hev
  | @recvData _ _ _ slot h body text' win kind _ f v w ho hw _ ha _ _ _ =>
      have hev : receivedEvent v slot h text' = some (.received id epoch seq text) := hev
      unfold receivedEvent at hev
      split at hev
      swap
      · cases hev
      rename_i hv
      cases hev
      have hpos : position (e.contacts slot).winEpochs h.epoch = some win := by
        have hopen := ho.opened
        unfold Engine.tryContact at hopen
        dsimp only at hopen
        split at hopen
        swap
        · cases hopen
        split at hopen
        · cases hopen
        rename_i hq
        rw [hq]
        split at hopen
        · cases hopen
        split at hopen
        · cases hopen
        split at hopen
        · cases hopen
        · cases hopen
          rfl
      obtain ⟨c', hc, hsame, hd, -⟩ := acked_windows ha
      obtain ⟨kind', hst⟩ : ∃ kind', e'.Staged kind' := by
        cases ha with
        | without _ _ hst => exact ⟨_, hst⟩
        | acked _ _ _ _ _ hst => exact ⟨_, hst⟩
      refine ⟨slot, kind', rfl, opens_present ho, fun href => ?_, ?_, hst⟩
      · unfold Contact.Refused Contact.window? at href
        rw [hpos] at href
        exact ReplayWindow.Refuses.ne_accepted href (by rw [hw, hv])
      · have hwin : (e'.contacts slot).winData win = w := by
          rw [hc, Function.update_self, hd]
          exact Function.update_self ..
        unfold Contact.Refused Contact.window?
        rw [show (e'.contacts slot).winEpochs = (e.contacts slot).winEpochs by
          rw [hc, Function.update_self]; exact hsame.winEpochs, hpos]
        show ((e'.contacts slot).winData win).Refuses h.sequence
        rw [hwin, ← show (((e.contacts slot).winData win).accept h.sequence).2 = w by rw [hw]]
        exact ReplayWindow.refuses_accept _ _
  | recvAck _ _ _ _ hx _ _ _ _ =>
      obtain ⟨ps, -, -, -, -, -, heq⟩ := hx _ hev
      cases heq
  | _ => cases hev

end Moves

/-! ### The deliveries of a device

Any number of operations may pass between two commits.  A commit makes the snapshot then pending
durable and releases the events held; a failed one drops them, and the device goes on faulty, or
from its storage. -/

/-- A text delivered: of which activation of which contact, under which epoch and sequence. -/
structure Delivery where
  contact : UInt8
  life : ℕ
  epoch : UInt32
  sequence : UInt64
  deriving DecidableEq

/-- How a device goes on after a failure. -/
inductive Resume where
  | fault
  | restore
  | reboot (available : Bool)

/-- What the caller does next. -/
inductive Turn where
  | op (op : {op : Op // op.free = true})
  | commit
  | fail (wrote : Bool) (resume : Resume)

/-- An engine with the lives of its contacts. -/
structure Mark where
  engine : Engine
  life : UInt8 → ℕ

/-- An engine with its storage, its events held and released.  `staged` and `durable` are the
states that the pending and the stored snapshot were taken of. -/
structure Mailbox where
  now : Mark
  staged : Mark
  durable : Mark
  stored : Option (List UInt8)
  clock : ℕ
  held : List Delivery
  log : List Delivery

namespace Mailbox

def init (available : Bool) : Mailbox where
  now := ⟨.new available, fun _ => 0⟩
  staged := ⟨.new available, fun _ => 0⟩
  durable := ⟨.new available, fun _ => 0⟩
  stored := none
  clock := 1
  held := []
  log := []

/-- The deliveries an answer reports. -/
def received (life : UInt8 → ℕ) (out : Output) : List Delivery :=
  match out.event? with
  | some (.received id epoch seq _) => [⟨id, life id, epoch, seq⟩]
  | _ => []

def write (m : Mailbox) : Mailbox :=
  match m.now.engine.pendingPersist with
  | some bytes => { m with stored := some bytes, durable := m.staged }
  | none => m

/-- Go on from storage; the lives are those of what was stored, if it restores. -/
def reload (C : Crypto) (m : Mailbox) (reboot : Option Bool) : Mailbox :=
  { m with now :=
    { engine := Device.reload C m.now.engine reboot m.stored
      life := if m.stored.any fun bytes => (decodeView bytes).isOk then m.durable.life else m.now.life } }

def resume (C : Crypto) (m : Mailbox) : Resume → Mailbox
  | .fault => { m with now := { m.now with engine := m.now.engine.discardStaged.markFault } }
  | .restore => m.reload C none
  | .reboot available => m.reload C (some available)

def next (C : Crypto) (m : Mailbox) : Turn → Mailbox
  | .op ⟨op, _⟩ =>
    let r := step C m.now.engine op
    let now : Mark := ⟨r.1, started m.now.life m.clock r.2⟩
    { m with
      now
      staged := if r.1.pendingPersist = some (encodeInto r.1.persistView) then now else m.staged
      clock := m.clock + 1
      held := m.held ++ received m.now.life r.2 }
  | .commit =>
    let m := m.write
    { m with now := { m.now with engine := m.now.engine.commitOk }, held := [], log := m.log ++ m.held }
  | .fail wrote resume =>
    let m := if wrote then m.write else m
    { m.resume C resume with held := [] }

variable {C : Crypto}

/-- A state that refuses every delivery of a list. -/
structure Knows (C : Crypto) (m : Mark) (ds : List Delivery) : Prop where
  sound : m.engine.Sound C
  anchored : ∀ i, (m.engine.contacts i).Anchored
  refused : ∀ i, (m.engine.contacts i).present = true → ∀ d ∈ ds, d.contact = contactId i →
    d.life = m.life d.contact → (m.engine.contacts i).Refused d.epoch d.sequence

theorem Knows.mono {m : Mark} {ds ds' : List Delivery} (h : Knows C m ds)
    (hds : ∀ d ∈ ds', d ∈ ds) : Knows C m ds' :=
  ⟨h.sound, h.anchored, fun i hp d hd => h.refused i hp d (hds d hd)⟩

/-- A state without contacts. -/
theorem knows_new (available : Bool) (life : UInt8 → ℕ) (ds : List Delivery) :
    Knows C ⟨.new available, life⟩ ds :=
  ⟨sound_new available, fun _ h => (nomatch h), fun _ h => nomatch h⟩

/-- The same contacts. -/
theorem Knows.of_eq {m : Mark} {ds : List Delivery} (h : Knows C m ds) {e : Engine}
    (hs : e.Sound C) (hc : e.contacts = m.engine.contacts) : Knows C ⟨e, m.life⟩ ds :=
  ⟨hs, fun i => hc ▸ h.anchored i, fun i => hc ▸ h.refused i⟩

/-- The invariant of every run. -/
structure Inv (C : Crypto) (m : Mailbox) : Prop where
  now : Knows C m.now (m.log ++ m.held)
  staged : ∀ bytes, m.now.engine.pendingPersist = some bytes →
    bytes = encodeInto m.staged.engine.persistView ∧ Knows C m.staged (m.log ++ m.held)
  durable : ∀ bytes, m.stored = some bytes →
    bytes = encodeInto m.durable.engine.persistView ∧ Knows C m.durable m.log
  settled : m.now.engine.pendingPersist = none → m.held = []
  lives : ∀ id, m.now.life id < m.clock ∧ m.staged.life id < m.clock ∧ m.durable.life id < m.clock
  log_lt : ∀ d ∈ m.log ++ m.held, d.life < m.clock
  nodup : (m.log ++ m.held).Nodup

theorem inv_init (available : Bool) : Inv C (init available) where
  now := knows_new _ _ _
  staged := fun _ h => nomatch h
  durable := fun _ h => nomatch h
  settled := fun _ => rfl
  lives := fun _ => ⟨Nat.one_pos, Nat.one_pos, Nat.one_pos⟩
  log_lt := fun _ h => nomatch h
  nodup := .nil

section Op

variable {m : Mailbox} {op : Op} {e' : Engine} {out : Output}

theorem keeps_of_free (h : op.free = true) : op.keeps = true := by
  cases op with
  | restore _ => cases h
  | _ => rfl

/-- A contact there after a move that does not activate it was there before. -/
theorem present_moves {e : Engine} (hm : Moves C e op e' out) (hop : op.keeps = true) {i : Slot}
    (hp : (e'.contacts i).present = true) (hact : out.activated? ≠ some (contactId i)) :
    (e.contacts i).present = true := by
  rcases slot_moves hm hop i with hcar | ⟨habs, -⟩ | ⟨h, -⟩
  · exact hcar.present
  · cases habs.symm.trans hp
  · exact absurd h hact

/-- What was refused stays refused, and what an answer delivers is refused from then on. -/
theorem Knows.moved {mark : Mark} {ds : List Delivery} {clock : ℕ} (h : Knows C mark ds)
    (hlt : ∀ d ∈ ds, d.life < clock) (hm : Moves C mark.engine op e' out) (hop : op.keeps = true) :
    Knows C ⟨e', started mark.life clock out⟩ (ds ++ received mark.life out) := by
  refine ⟨sound_moves h.sound hm, anchored_moves h.anchored hm hop, fun i hp d hd hid hlife => ?_⟩
  rcases List.mem_append.mp hd with hd | hd
  · obtain ⟨hlife, hne⟩ := started_eq (hlt d hd) hlife
    rw [hid] at hne
    have hp₀ := present_moves hm hop hp hne
    exact (h.refused i hp₀ d hd hid hlife).moved (h.anchored i) hm hop hp hne
  · unfold received at hd
    split at hd
    · rename_i id epoch seq text hev
      obtain rfl := List.mem_singleton.mp hd
      obtain ⟨slot, -, rfl, -, -, href, -⟩ := received_moves hm hev
      obtain rfl := Engine.contactId_injective hid
      exact href
    · cases hd

/-- A delivery is new. -/
theorem Knows.nodup_received {mark : Mark} {ds : List Delivery} (h : Knows C mark ds)
    (hn : ds.Nodup) (hm : Moves C mark.engine op e' out) : (ds ++ received mark.life out).Nodup := by
  unfold received
  split
  · rename_i id epoch seq text hev
    obtain ⟨slot, -, rfl, hp, hnot, -, -⟩ := received_moves hm hev
    refine hn.append (List.nodup_singleton _) fun d hd hd' => ?_
    rw [List.mem_singleton.mp hd'] at hd
    exact hnot (h.refused slot hp _ hd rfl rfl)
  · rwa [List.append_nil]

/-- What leaves no fresh snapshot delivers nothing. -/
theorem received_eq_nil {e : Engine} {life : UInt8 → ℕ} (hm : Moves C e op e' out)
    (hst : ∀ kind, ¬ e'.Staged kind) : received life out = [] := by
  unfold received
  split
  · rename_i id epoch seq text hev
    obtain ⟨-, kind, -, -, -, -, h⟩ := received_moves hm hev
    exact absurd h (hst kind)
  · rfl

end Op

section Steps

variable {m : Mailbox}

theorem Inv.op (h : Inv C m) (op : {op : Op // op.free = true}) : Inv C (m.next C (.op op)) := by
  obtain ⟨op, hfree⟩ := op
  have hm := step_moves C m.now.engine op
  unfold Mailbox.next
  dsimp only
  generalize step C m.now.engine op = r at hm ⊢
  obtain ⟨e', out⟩ := r
  have hnow := h.now.moved h.log_lt hm (keeps_of_free hfree)
  have hnodup := h.now.nodup_received h.nodup hm
  rw [List.append_assoc] at hnow hnodup
  dsimp only at hm ⊢
  refine ⟨hnow, fun bytes hb => ?_, h.durable, fun hn => ?_, fun id => ?_, fun d hd => ?_, hnodup⟩
  · dsimp only at hb ⊢
    split
    · rename_i heq
      exact ⟨Option.some.inj (hb.symm.trans heq), hnow⟩
    · rename_i hne
      rcases staging_moves hm with ⟨-, hd, hs⟩ | ⟨hop, -, -⟩ | hst
      · have hkept : e'.pendingPersist = m.now.engine.pendingPersist := by
          rw [Engine.pendingPersist, hd, hs]
          rfl
        have hnil : received m.now.life out = [] := received_eq_nil hm
          fun kind hst => hne hst.pendingPersist
        obtain ⟨hbytes, hknows⟩ := h.staged bytes (hkept.symm.trans hb)
        refine ⟨hbytes, ?_⟩
        rw [hnil, List.append_nil]
        exact hknows
      · cases hfree.symm.trans hop
      · exact absurd hst.pendingPersist hne
  · have hn : e'.pendingPersist = none := hn
    rcases staging_moves hm with ⟨-, hd, hs⟩ | ⟨hop, -, -⟩ | hst
    · have hkept : e'.pendingPersist = m.now.engine.pendingPersist := by
        rw [Engine.pendingPersist, hd, hs]
        rfl
      have hnil : received m.now.life out = [] := received_eq_nil hm
        fun kind hst => by cases hn.symm.trans hst.pendingPersist
      show m.held ++ received m.now.life out = []
      rw [hnil, h.settled (hkept.symm.trans hn)]
      rfl
    · cases hfree.symm.trans hop
    · cases hn.symm.trans hst.pendingPersist
  · have hlt : started m.now.life m.clock out id < m.clock + 1 :=
      started_lt (fun id => (h.lives id).1) id
    refine ⟨hlt, ?_, Nat.lt_succ_of_lt (h.lives id).2.2⟩
    dsimp only
    split
    · exact hlt
    · exact Nat.lt_succ_of_lt (h.lives id).2.1
  · rw [← List.append_assoc] at hd
    rcases List.mem_append.mp hd with hd | hd
    · exact Nat.lt_succ_of_lt (h.log_lt d hd)
    · unfold received at hd
      split at hd
      · rw [List.mem_singleton.mp hd]
        exact Nat.lt_succ_of_lt (h.lives _).1
      · cases hd

/-- What was held is in the snapshot written, so it may be released. -/
theorem Inv.write (h : Inv C m) : ∀ bytes, m.write.stored = some bytes →
    bytes = encodeInto m.write.durable.engine.persistView ∧ Knows C m.write.durable (m.log ++ m.held) := by
  intro bytes hb
  unfold Mailbox.write at hb ⊢
  cases hp : m.now.engine.pendingPersist with
  | some bytes' =>
      rw [hp] at hb
      exact h.staged bytes (hp.trans hb)
  | none =>
      rw [hp] at hb
      obtain ⟨hbytes, hknows⟩ := h.durable bytes hb
      rw [h.settled hp, List.append_nil]
      exact ⟨hbytes, hknows⟩

/-- Writing changes nothing but the storage. -/
theorem write_eq (m : Mailbox) : m.write = { m with stored := m.write.stored, durable := m.write.durable } := by
  unfold Mailbox.write
  split <;> rfl

theorem Inv.lives_write (h : Inv C m) (id : UInt8) : m.write.durable.life id < m.clock := by
  unfold Mailbox.write
  split
  · exact (h.lives id).2.1
  · exact (h.lives id).2.2

theorem Inv.commit (h : Inv C m) : Inv C (m.next C .commit) := by
  show Inv C { m.write with
    now := { m.write.now with engine := m.write.now.engine.commitOk }
    held := []
    log := m.write.log ++ m.write.held }
  rw [write_eq m]
  have hsettled : m.now.engine.commitOk.pendingPersist = none :=
    (Engine.settled_commitOk _).pendingPersist
  refine ⟨?_, fun bytes hb => (nomatch hsettled.symm.trans hb), fun bytes hb => ?_, fun _ => rfl,
    fun id => ⟨(h.lives id).1, (h.lives id).2.1, h.lives_write id⟩, fun d hd => ?_, ?_⟩
  · have hcommit := h.now.moved h.log_lt (.commitOk (C := C)) rfl
    exact hcommit
  · exact h.write bytes hb
  · rw [List.append_nil] at hd
    exact h.log_lt d hd
  · rw [List.append_nil]
    exact h.nodup

/-- Dropping the events held. -/
theorem Inv.dropped (h : Inv C m) (m' : Mailbox) (hlog : m'.log = m.log) (hnow : Knows C m'.now m'.log)
    (hpp : m'.now.engine.pendingPersist = none)
    (hdur : ∀ bytes, m'.stored = some bytes →
      bytes = encodeInto m'.durable.engine.persistView ∧ Knows C m'.durable m'.log)
    (hlives : ∀ id, m'.now.life id < m'.clock ∧ m'.staged.life id < m'.clock ∧
      m'.durable.life id < m'.clock)
    (hclock : m'.clock = m.clock) : Inv C { m' with held := [] } where
  now := by rw [List.append_nil]; exact hnow
  staged := fun bytes hb => nomatch hpp.symm.trans hb
  durable := hdur
  settled := fun _ => rfl
  lives := hlives
  log_lt := fun d hd => by
    rw [List.append_nil, show m'.log = m.log from hlog] at hd
    rw [show m'.clock = m.clock from hclock]
    exact h.log_lt d (List.mem_append_left _ hd)
  nodup := by
    rw [List.append_nil, show m'.log = m.log from hlog]
    exact (List.nodup_append.mp h.nodup).1

/-- A contact restored refuses what it refused when the snapshot was taken. -/
theorem refused_restoreContact {c : Contact} (hc : c.Live C) {n : UInt64} {epoch : UInt32}
    {seq : UInt64} (h : c.Refused epoch seq) :
    (Engine.restoreContact C { Engine.persistContact c with txReserved := n }).Refused epoch seq := by
  have hpres : ({ Engine.persistContact c with txReserved := n } : PersistContact).present = true :=
    hc.present
  have hwin : (Engine.restoreContact C { Engine.persistContact c with txReserved := n }).winData =
      c.winData := by
    rw [Engine.restoreContact, if_pos hpres]
    exact funext fun i => ReplayWindow.restore_export (hc.winData i)
  unfold Contact.Refused Contact.window? at h ⊢
  rw [hwin]
  rw [Engine.restoreContact, if_pos hpres]
  exact h

theorem knows_restoreView {mark : Mark} {ds : List Delivery} (h : Knows C mark ds)
    (hv : mark.engine.persistView.Valid) (e₀ : Engine) :
    Knows C ⟨e₀.restoreView C mark.engine.persistView, mark.life⟩ ds := by
  have hpres : ∀ i, ((e₀.restoreView C mark.engine.persistView).contacts i).present = true →
      (mark.engine.contacts i).present = true := by
    intro i hp
    have hp : (Engine.restoreContact C (mark.engine.persistView.contacts i)).present = true := hp
    rw [Engine.restoreContact] at hp
    split at hp
    · assumption
    · cases hp
  refine ⟨⟨hv.1, fun _ h => (by cases h), fun i => restoreContact_wf C (hv.2 i), fun _ _ h => by cases h⟩,
    fun i hp => ?_, fun i hp d hd hid hlife => ?_⟩
  · have hp₀ := hpres i hp
    have hp₀' : (mark.engine.persistView.contacts i).present = true := hp₀
    have hc : (e₀.restoreView C mark.engine.persistView).contacts i =
        Engine.restoreContact C (mark.engine.persistView.contacts i) := rfl
    rw [hc, Engine.restoreContact, if_pos hp₀']
    exact h.anchored i hp₀
  · have hp₀ := hpres i hp
    exact refused_restoreContact ((h.sound.contacts i).live hp₀) (h.refused i hp₀ d hd hid hlife)

/-- Going on from storage. -/
theorem knows_reload (hnow : Knows C m.now m.log)
    (hdur : ∀ bytes, m.stored = some bytes →
      bytes = encodeInto m.durable.engine.persistView ∧ Knows C m.durable m.log)
    (reboot : Option Bool) :
    Knows C (m.reload C reboot).now m.log ∧ (m.reload C reboot).now.engine.pendingPersist = none := by
  unfold reload Device.reload
  cases hst : m.stored with
  | none => exact ⟨knows_new _ _ _, rfl⟩
  | some bytes =>
      obtain ⟨hbytes, hknows⟩ := hdur bytes hst
      dsimp only
      rw [Option.any_some, Engine.restore]
      cases hd : decodeView bytes with
      | ok v =>
          rw [hbytes] at hd
          obtain ⟨hvalid, rfl⟩ := decodeView_encodeInto.mp hd
          exact ⟨knows_restoreView hknows hvalid _, rfl⟩
      | error x =>
          cases reboot with
          | some available => exact ⟨(knows_new available m.now.life m.log).of_eq
              (sound_moves (sound_new available) (step_moves C _ .markFault)) rfl, rfl⟩
          | none =>
              refine ⟨hnow.of_eq ?_ rfl, rfl⟩
              exact sound_moves (sound_moves hnow.sound (.discard (C := C))) (step_moves C _ .markFault)

/-- A failure, what was written being as it should. -/
theorem Inv.resume {m' : Mailbox} (h : Inv C m) (hnow : m'.now = m.now) (hstaged : m'.staged = m.staged)
    (hlog : m'.log = m.log) (hclock : m'.clock = m.clock)
    (hdur : ∀ bytes, m'.stored = some bytes →
      bytes = encodeInto m'.durable.engine.persistView ∧ Knows C m'.durable m'.log)
    (hlife : ∀ id, m'.durable.life id < m'.clock) (r : Resume) :
    Inv C { m'.resume C r with held := [] } := by
  have hknows : Knows C m'.now m'.log := by
    rw [hnow, hlog]
    exact h.now.mono fun d hd => List.mem_append_left _ hd
  have hlives : ∀ id, m'.now.life id < m'.clock ∧ m'.staged.life id < m'.clock := by
    intro id
    rw [hnow, hstaged, hclock]
    exact ⟨(h.lives id).1, (h.lives id).2.1⟩
  have hreload (reboot : Option Bool) : Inv C { m'.reload C reboot with held := [] } := by
    obtain ⟨hk, hpp⟩ := knows_reload hknows hdur reboot
    refine h.dropped (m'.reload C reboot) hlog hk hpp hdur (fun id => ?_) hclock
    refine ⟨?_, (hlives id).2, hlife id⟩
    show (if _ then m'.durable.life else m'.now.life) id < _
    split
    · exact hlife id
    · exact (hlives id).1
  cases r with
  | fault =>
      refine h.dropped (m'.resume C .fault) hlog (hknows.of_eq ?_ rfl) rfl hdur
        (fun id => ⟨(hlives id).1, (hlives id).2, hlife id⟩) hclock
      exact sound_moves (sound_moves hknows.sound (.discard (C := C))) (step_moves C _ .markFault)
  | restore => exact hreload none
  | reboot available => exact hreload (some available)

theorem Inv.fail (h : Inv C m) (wrote : Bool) (r : Resume) : Inv C (m.next C (.fail wrote r)) := by
  cases wrote with
  | false => exact h.resume rfl rfl rfl rfl h.durable (fun id => (h.lives id).2.2) r
  | true =>
      have hlog : m.write.log = m.log := by rw [write_eq m]
      have hclock : m.write.clock = m.clock := by rw [write_eq m]
      have hlife : ∀ id, m.write.durable.life id < m.write.clock := by
        rw [hclock]
        exact h.lives_write
      refine h.resume (by rw [write_eq m]) (by rw [write_eq m]) hlog hclock (fun bytes hb => ?_) hlife r
      obtain ⟨hbytes, hknows⟩ := h.write bytes hb
      rw [hlog]
      exact ⟨hbytes, hknows.mono fun d hd => List.mem_append_left _ hd⟩

/-- Every turn keeps the invariant. -/
theorem inv_next (h : Inv C m) (turn : Turn) : Inv C (m.next C turn) := by
  cases turn with
  | op op => exact h.op op
  | commit => exact h.commit
  | fail wrote r => exact h.fail wrote r

end Steps

end Mailbox

/-- Of one activated contact, no epoch and sequence is released twice: whatever frames come, over
hour changes, blocking, failed commits and reboots. -/
theorem delivered_once (C : Crypto) (available : Bool) (turns : List Turn) (d : Delivery) :
    (run (Mailbox.next C) (.init available) turns).log.count d ≤ 1 := by
  have hinv := run_invariant_of_all (I := Mailbox.Inv C) (fun _ turn h => Mailbox.inv_next h turn)
    turns (Mailbox.inv_init available)
  exact List.nodup_iff_count_le_one.mp (List.nodup_append.mp hinv.nodup).1 d

end LoraMesh
