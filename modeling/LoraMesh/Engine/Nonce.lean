import LoraMesh.Engine.Device

/-!
# Engine — Nonce

Sequence numbers over the whole life of a device, its failures and restarts included.

* `sealed_moves`: a frame that a move seals takes the next sequence of its contact and stages
  the state that has consumed it, or is a frame sealed before.
* `nonce_unique`: of one activated contact, the sequences released increase strictly, and two
  frames of one sequence are the same frame.
-/

namespace LoraMesh

/-- A frame of ours, released: the contact and which activation of it, whether it is fresh or an
echo, and what it seals. -/
structure Release where
  contact : UInt8
  life : ℕ
  fresh : Bool
  envelope : Envelope

namespace Release

def sequence (r : Release) : UInt64 := r.envelope.header.sequence

/-- Of one activation of one contact. -/
def Same (r r' : Release) : Prop := r.contact = r'.contact ∧ r.life = r'.life

end Release

/-- The frame of our own sealing in an answer. -/
def Output.sealed? (out : Output) : Option (UInt8 × Bool × Envelope) :=
  match out.frame? with
  | some { contactId := some id, isRetryEcho := echo, envelope := some v, .. } => some (id, !echo, v)
  | _ => none

section Moves

variable {C : Crypto} {e e' : Engine} {op : Op} {out : Output}

theorem Output.Silent.sealed_eq_none (h : out.Silent) : out.sealed? = none := by
  unfold Output.sealed?
  split
  · rename_i hf
    exact nomatch h.1 _ hf
  · rfl

theorem Output.activated_of_sealed {x : UInt8 × Bool × Envelope} (h : out.sealed? = some x) :
    out.activated? = none := by
  cases out with
  | imported r => cases h
  | _ => rfl

/-- What a move seals: a frame of the contact's next sequence, consumed and staged, or once more
the frame of the send in flight. -/
inductive Sealed (C : Crypto) (e e' : Engine) (op : Op) : UInt8 × Bool × Envelope → Prop where
  | fresh {slot : Slot} {kind : StagedCommit} {v : Envelope}
      (hp : (e.contacts slot).present = true)
      (hseq : v.header.sequence = (e.contacts slot).txNext)
      (hlt : (e.contacts slot).txNext < (e'.contacts slot).txNext) (hst : e'.Staged kind)
      (hemit : op = .sendEmit → ∃ ps, e.pendingSend = some ps ∧ ps.contactId = contactId slot ∧
        v = (e.contacts slot).dataEnvelope C e.uid ps e.pendingText) :
      Sealed C e e' op (contactId slot, true, v)
  | echo {ps : PendingSend} {slot : Slot} (he : e' = e) (hop : op = .sendRetryEcho)
      (hps : e.pendingSend = some ps) (hid : ps.contactId = contactId slot)
      (hp : (e.contacts slot).present = true) :
      Sealed C e e' op
        (contactId slot, false, (e.contacts slot).dataEnvelope C e.uid ps e.pendingText)

theorem lt_succ_of_lt {a n : UInt64} (h : a < n) : a < a + 1 := by
  rw [UInt64.lt_iff_toNat_lt, toNat_succ_of_lt h]
  exact Nat.lt_succ_self _

theorem sealed_moves (hm : Moves C e op e' out) {x : UInt8 × Bool × Envelope}
    (hx : out.sealed? = some x) : Sealed C e e' op x := by
  cases hm with
  | quiet _ ho => exact nomatch ho.sealed_eq_none.symm.trans hx
  | pairing h => exact nomatch h.spec.2.sealed_eq_none.symm.trans hx
  | restage _ _ _ _ _ ho => exact nomatch ho.sealed_eq_none.symm.trans hx
  | setTime _ _ _ _ _ _ _ ho => exact nomatch ho.sealed_eq_none.symm.trans hx
  | @sendEmit _ ps slot _ hr _ hc _ _ _ _ hst =>
      obtain ⟨-, hps, hslot, hnext, hlt⟩ := sendReady_spec hr
      obtain ⟨hp, hid⟩ := Engine.slotOf_ok hslot
      cases hx
      rw [hid]
      refine .fresh hp hnext.symm ?_ hst fun _ => ⟨ps, hps, hid, rfl⟩
      rw [hc, Function.update_self]
      exact lt_succ_of_lt (hnext ▸ hlt)
  | @retry ps slot _ hps hslot _ =>
      obtain ⟨hp, hid⟩ := Engine.slotOf_ok hslot
      cases hx
      rw [hid]
      exact .echo rfl rfl hps hid hp
  | recvData ho _ _ ha _ _ _ =>
      cases ha with
      | without _ _ _ => cases hx
      | acked hr _ hc _ _ hst =>
          obtain ⟨n, hn⟩ := reservation_bound hr
          cases hx
          refine .fresh (opens_present ho) rfl ?_ hst fun h => nomatch h
          rw [hc, Function.update_self]
          exact lt_succ_of_lt hn
  | _ => cases hx

/-- A send in flight stays, with its text, or is dropped; only beginning one starts one. -/
theorem send_moves (hm : Moves C e op e' out) :
    (e'.pendingText = e.pendingText ∧ (e'.pendingSend = e.pendingSend ∨ e'.pendingSend = none)) ∨
      ∃ id text pid ps, op = .sendBegin id text pid ∧ out = .send (.ok ps) := by
  cases hm with
  | quiet h _ => exact .inl ⟨h.pendingText, h.pendingSend⟩
  | pairing h =>
      obtain ⟨⟨p', rfl, -⟩, -⟩ := h.spec
      exact .inl ⟨rfl, .inl rfl⟩
  | restage _ h _ _ _ _ => exact .inl ⟨h.pendingText, h.pendingSend⟩
  | setTime _ _ h _ _ _ _ _ => exact .inl ⟨h.pendingText, h.pendingSend⟩
  | @sendBegin id text pid _ _ _ _ _ _ => exact .inr ⟨id, text, pid, _, rfl, rfl⟩
  | sendEmit _ _ _ h _ _ _ _ => exact .inl ⟨h.pendingText, h.pendingSend⟩
  | retry => exact .inl ⟨rfl, .inl rfl⟩
  | recvData _ _ _ _ h _ _ => exact .inl ⟨h.pendingText, h.pendingSend⟩
  | recvAck _ _ _ _ _ h _ _ _ => exact .inl ⟨h.pendingText, h.pendingSend⟩
  | delete _ _ h _ _ _ => exact .inl ⟨h.pendingText, h.pendingSend⟩
  | block _ _ h _ _ _ => exact .inl ⟨h.pendingText, h.pendingSend⟩
  | activate _ _ _ _ _ => exact .inl ⟨rfl, .inl rfl⟩
  | commitOk =>
      refine .inl ?_
      unfold Engine.commitOk
      split <;> exact ⟨rfl, .inl rfl⟩
  | discard => exact .inl ⟨rfl, .inr rfl⟩
  | restore _ => exact .inl ⟨rfl, .inr rfl⟩

end Moves

/-! ### The log of a device -/

/-- Whether what became of an operation left its snapshot durable. -/
def Fate.durable : Fate → Bool
  | .commit => true
  | .fail wrote _ => wrote

/-- A device with a log of what it released.  Activations are numbered as they become durable;
`emitted` is whether the send in flight has been emitted. -/
structure Bench where
  device : Device
  life : UInt8 → ℕ
  clock : ℕ
  emitted : Bool
  log : List Release

namespace Bench

def init (available : Bool) : Bench where
  device := .init available
  life := fun _ => 0
  clock := 1
  emitted := false
  log := []

/-- Whether the send in flight after an answer has been emitted. -/
def emits (emitted : Bool) : Op → Output → Bool
  | .sendEmit, out => emitted || out.sealed?.isSome
  | .sendBegin .., .send (.ok _) => false
  | _, _ => emitted

/-- What an answer releases once its operation is committed. -/
def released (life : UInt8 → ℕ) (out : Output) : List Release :=
  match out.sealed? with
  | some (id, fresh, v) => [⟨id, life id, fresh, v⟩]
  | none => []

/-- One operation and what becomes of it. -/
def next (C : Crypto) (b : Bench) (i : Op × Fate) : Bench :=
  let out := (step C b.device.engine i.1).2
  { device := b.device.next C i.1 i.2
    life := if i.2.durable then started b.life b.clock out else b.life
    clock := b.clock + 1
    emitted := if i.2 = .commit then emits b.emitted i.1 out else false
    log := if i.2 = .commit then b.log ++ released b.life out else b.log }

/-- An operation of a device of identity `uid`; an echo only of a send that was emitted. -/
def legal (uid : Bytes 8) (b : Bench) (i : Op × Fate) : Bool :=
  i.1.allowed uid && (match i.1 with
    | .sendRetryEcho => b.emitted
    | _ => true)

/-- No present contact has used a sequence of its bound. -/
def Covers (life : UInt8 → ℕ) (log : List Release) (cs : Slot → Contact) (bound : Slot → UInt64) :
    Prop :=
  ∀ i, (cs i).present = true → ∀ r ∈ log, r.contact = contactId i → r.life = life r.contact →
    r.sequence < bound i

/-- A fresh release of the same frame is in the log. -/
def Twin (log : List Release) (r : Release) : Prop :=
  ∃ r' ∈ log, r'.fresh = true ∧ r'.Same r ∧ r'.envelope = r.envelope

/-- The invariant of a legal run. -/
structure Inv (C : Crypto) (uid : Bytes 8) (b : Bench) : Prop where
  device : b.device.Inv C uid
  life_lt : ∀ id, b.life id < b.clock
  log_lt : ∀ r ∈ b.log, r.life < b.clock
  engine : Covers b.life b.log b.device.engine.contacts fun i => (b.device.engine.contacts i).txNext
  shadow : Covers b.life b.log b.device.shadow.contacts b.device.shadow.stagedReserved
  twin : ∀ r ∈ b.log, Twin b.log r
  sorted : (b.log.filter (·.fresh)).Pairwise fun r r' => r.Same r' → r.sequence < r'.sequence
  emitted : b.emitted = true → ∀ ps, b.device.engine.pendingSend = some ps →
    ∃ i, ps.contactId = contactId i ∧ (b.device.engine.contacts i).present = true ∧
      Twin b.log ⟨contactId i, b.life (contactId i), true, (b.device.engine.contacts i).dataEnvelope C
        b.device.engine.uid ps b.device.engine.pendingText⟩

variable {C : Crypto} {uid : Bytes 8} {e e' : Engine} {op : Op} {out : Output}
  {life : UInt8 → ℕ} {clock : ℕ} {log : List Release} {cs : Slot → Contact} {bound : Slot → UInt64}

theorem inv_init (available : Bool) : Inv C uid (init available) where
  device := Device.inv_init available
  life_lt := fun _ => Nat.one_pos
  log_lt := fun _ h => nomatch h
  engine := fun _ h => nomatch h
  shadow := fun _ h => nomatch h
  twin := fun _ h => nomatch h
  sorted := .nil
  emitted := fun h => nomatch h

theorem Twin.mono {r r' : Release} (h : Twin log r) : Twin (log ++ [r']) r := by
  obtain ⟨r₀, hr₀, h⟩ := h
  exact ⟨r₀, List.mem_append_left _ hr₀, h⟩

/-- A life that has just started has released nothing. -/
theorem covers_moves (h : Covers life log e.contacts fun i => (e.contacts i).txNext)
    (hlog : ∀ r ∈ log, r.life < clock) (hm : Moves C e op e' out) (hop : op.keeps = true) :
    Covers (started life clock out) log e'.contacts fun i => (e'.contacts i).txNext := by
  intro i hp r hr hid hlife
  obtain ⟨hl, hne⟩ := started_eq (hlog r hr) hlife
  rcases slot_moves hm hop i with hcar | ⟨habs, -⟩ | ⟨hact, -⟩
  · exact UInt64.lt_of_lt_of_le (h i hcar.present r hr hid hl) hcar.txNext
  · cases habs.symm.trans hp
  · exact absurd (hid ▸ hact) hne

theorem covers_append {r : Release} (h : Covers life log cs bound)
    (hr : ∀ i, (cs i).present = true → r.contact = contactId i → r.life = life r.contact →
      r.sequence < bound i) :
    Covers life (log ++ [r]) cs bound := by
  intro i hp r' hr'
  rcases List.mem_append.mp hr' with hr' | hr'
  · exact h i hp r' hr'
  · rw [List.mem_singleton.mp hr']
    exact hr i hp

/-- An echo is covered as the release it repeats. -/
theorem covers_twin {r : Release} (h : Covers life log cs bound) (ht : Twin log r) :
    Covers life (log ++ [r]) cs bound := by
  obtain ⟨r', hr', -, ⟨hid', hlife'⟩, henv⟩ := ht
  refine covers_append h fun i hp hid hlife => ?_
  have := h i hp r' hr' (hid'.trans hid) (by rw [hlife', hlife, hid'])
  rwa [Release.sequence, henv] at this

/-- A durable state keeps what its snapshot reserves above what it has used. -/
theorem covers_reserved (h : Covers life log e.contacts fun i => (e.contacts i).txNext)
    (hr : e.Reserved) : Covers life log e.contacts e.stagedReserved :=
  fun i hp r hr' hid hlife => UInt64.lt_of_lt_of_le (h i hp r hr' hid hlife) (hr i)

theorem covers_commitOk (h : Covers life log e.contacts fun i => (e.contacts i).txNext) :
    Covers life log e.commitOk.contacts fun i => (e.commitOk.contacts i).txNext := by
  intro i hp
  simp only [Engine.commitOk_contacts] at hp ⊢
  exact h i hp

/-- A restart uses nothing its snapshot had reserved. -/
theorem covers_restarted (h : Covers life log e.contacts e.stagedReserved) (hr : e.Restarted e') :
    Covers life log e'.contacts fun i => (e'.contacts i).txNext := by
  intro i hp
  simp only [hr.contacts] at hp ⊢
  exact h i hp

/-- How the log grows by an answer. -/
inductive Grows (C : Crypto) (b : Bench) (op : Op) (e' : Engine) (out : Output) :
    List Release → Prop where
  | same (hx : out.sealed? = none) : Grows C b op e' out b.log
  | fresh {slot : Slot} {kind : StagedCommit} {v : Envelope}
      (hact : out.activated? = none)
      (hp : (b.device.engine.contacts slot).present = true)
      (hseq : v.header.sequence = (b.device.engine.contacts slot).txNext)
      (hlt : (b.device.engine.contacts slot).txNext < (e'.contacts slot).txNext)
      (hst : e'.Staged kind)
      (hemit : op = .sendEmit → ∃ ps, b.device.engine.pendingSend = some ps ∧
        ps.contactId = contactId slot ∧ v = (b.device.engine.contacts slot).dataEnvelope C
          b.device.engine.uid ps b.device.engine.pendingText) :
      Grows C b op e' out (b.log ++ [⟨contactId slot, b.life (contactId slot), true, v⟩])
  | echo {r : Release} (hact : out.activated? = none) (hop : op = .sendRetryEcho)
      (he : e' = b.device.engine) (hf : r.fresh = false) (ht : Twin b.log r) :
      Grows C b op e' out (b.log ++ [r])

variable {b : Bench}

theorem Inv.grows (h : Inv C uid b) (hl : op = .sendRetryEcho → b.emitted = true)
    (hm : Moves C b.device.engine op e' out) :
    Grows C b op e' out (b.log ++ released b.life out) := by
  unfold released
  cases hx : out.sealed? with
  | none => exact (List.append_nil b.log).symm ▸ .same hx
  | some x =>
      have hact := Output.activated_of_sealed hx
      cases sealed_moves hm hx with
      | fresh hp hseq hlt hst hemit => exact .fresh hact hp hseq hlt hst hemit
      | @echo ps slot he hop hps hid hp =>
          refine .echo hact hop he rfl ?_
          obtain ⟨i, hi, -, r, hr, hf, hsame, henv⟩ := h.emitted (hl hop) ps hps
          obtain rfl : i = slot := Engine.contactId_injective (hi.symm.trans hid)
          exact ⟨r, hr, hf, hsame, henv⟩

theorem Inv.covers_engine (h : Inv C uid b) (hm : Moves C b.device.engine op e' out)
    (hop : op.keeps = true) (hg : Grows C b op e' out log) :
    Covers (started b.life b.clock out) log e'.contacts fun i => (e'.contacts i).txNext := by
  have hc := covers_moves h.engine h.log_lt hm hop
  cases hg with
  | same => exact hc
  | fresh hact hp hseq hlt _ _ =>
      refine covers_append hc fun i _ hid _ => ?_
      obtain rfl := Engine.contactId_injective hid
      rw [Release.sequence, hseq]
      exact hlt
  | echo _ _ _ _ ht => exact covers_twin hc ht

/-- An answer to what staged nothing leaves the durable state covered. -/
theorem Inv.covers_shadow (h : Inv C uid b) (hm : Moves C b.device.engine op e' out)
    (hset : e'.Settled) (hg : Grows C b op e' out log) :
    Covers (started b.life b.clock out) log b.device.shadow.contacts
      b.device.shadow.stagedReserved := by
  rw [started_of_none (settled_activated hset hm)]
  cases hg with
  | same => exact h.shadow
  | fresh _ _ _ _ hst _ => exact nomatch hset.staged.symm.trans hst.staged
  | echo _ _ _ _ ht => exact covers_twin h.shadow ht

theorem Inv.twins (h : Inv C uid b) (hg : Grows C b op e' out log) : ∀ r ∈ log, Twin log r := by
  intro r hr
  cases hg with
  | same => exact h.twin r hr
  | fresh _ _ _ _ _ _ =>
      rcases List.mem_append.mp hr with hr | hr
      · exact (h.twin r hr).mono
      · rw [List.mem_singleton.mp hr]
        exact ⟨_, List.mem_append_right _ List.mem_cons_self, rfl, ⟨rfl, rfl⟩, rfl⟩
  | echo _ _ _ _ ht =>
      rcases List.mem_append.mp hr with hr | hr
      · exact (h.twin r hr).mono
      · rw [List.mem_singleton.mp hr]
        exact ht.mono

theorem Inv.sorted_grows (h : Inv C uid b) (hg : Grows C b op e' out log) :
    (log.filter (·.fresh)).Pairwise fun r r' => r.Same r' → r.sequence < r'.sequence := by
  cases hg with
  | same => exact h.sorted
  | @fresh slot _ _ _ hp hseq _ _ _ =>
      rw [List.filter_append]
      refine List.pairwise_append.mpr ⟨h.sorted, List.pairwise_singleton _ _, ?_⟩
      intro r hr r' hr' hsame
      rw [List.mem_singleton.mp hr'] at hsame ⊢
      rw [show (Release.mk _ _ true _).sequence = _ from hseq]
      obtain ⟨hid, hlife⟩ := hsame
      refine h.engine slot hp r (List.mem_of_mem_filter hr) hid ?_
      rw [hid]
      exact hlife
  | echo _ _ _ hf _ =>
      rw [List.filter_append, List.filter_singleton, hf, cond_false, List.append_nil]
      exact h.sorted

theorem Inv.log_lt_grows (h : Inv C uid b) (hg : Grows C b op e' out log) :
    ∀ r ∈ log, r.life < b.clock := by
  intro r hr
  cases hg with
  | same => exact h.log_lt r hr
  | fresh _ _ _ _ _ _ =>
      rcases List.mem_append.mp hr with hr | hr
      · exact h.log_lt r hr
      · rw [List.mem_singleton.mp hr]
        exact h.life_lt _
  | echo _ _ _ _ ht =>
      rcases List.mem_append.mp hr with hr | hr
      · exact h.log_lt r hr
      · obtain ⟨r', hr', -, ⟨-, hlife⟩, -⟩ := ht
        rw [List.mem_singleton.mp hr, ← hlife]
        exact h.log_lt r' hr'

/-- The contact of a send that stays in flight is carried, under the same identity. -/
theorem Inv.send_carried (h : Inv C uid b) (hm : Moves C b.device.engine op e' out)
    (hop : op.allowed uid = true) {i : Slot} {ps : PendingSend}
    (hp : (b.device.engine.contacts i).present = true) (hid : ps.contactId = contactId i)
    (hps : e'.pendingSend = some ps) :
    (b.device.engine.contacts i).Carried (e'.contacts i) ∧ e'.uid = b.device.engine.uid ∧
      started b.life b.clock out (contactId i) = b.life (contactId i) := by
  have hi := h.device.engine.identified
  have hi' := identified_moves hi hm hop
  have hcar : (b.device.engine.contacts i).Carried (e'.contacts i) := by
    rcases slot_moves hm (Op.keeps_of_allowed hop) i with hcar | ⟨-, hsend⟩ | ⟨-, p, hpp, rfl, -⟩
    · exact hcar
    · exact absurd hid (hsend hp ps hps)
    · cases (h.device.slotFree p hpp).symm.trans hp
  refine ⟨hcar, ?_, ?_⟩
  · rw [hi.uid (hi.contacts i hp), hi'.uid (hi'.contacts i hcar.present')]
  · cases hact : out.activated? with
    | none => rw [started_of_none hact]
    | some id =>
        obtain ⟨p, hpp, rfl, -⟩ := activated_moves hm hact
        have hne : contactId i ≠ contactId p.slot := fun heq => by
          have := h.device.slotFree p hpp
          rw [← Engine.contactId_injective heq, hp] at this
          cases this
        rw [started, hact]
        exact Function.update_of_ne hne _ _

/-- The send in flight stays the one that was emitted. -/
theorem Inv.emitted_grows (h : Inv C uid b) (hm : Moves C b.device.engine op e' out)
    (hop : op.allowed uid = true) (hg : Grows C b op e' out log)
    (hem : emits b.emitted op out = true) {ps : PendingSend} (hps : e'.pendingSend = some ps) :
    ∃ i, ps.contactId = contactId i ∧ (e'.contacts i).present = true ∧
      Twin log ⟨contactId i, started b.life b.clock out (contactId i), true,
        (e'.contacts i).dataEnvelope C e'.uid ps e'.pendingText⟩ := by
  -- a send begun by this operation is not emitted
  have hsend : e'.pendingText = b.device.engine.pendingText ∧ b.device.engine.pendingSend = some ps := by
    rcases send_moves hm with ⟨htext, hs⟩ | ⟨id, text, pid, ps', rfl, rfl⟩
    · refine ⟨htext, ?_⟩
      rcases hs with hs | hs
      · rw [← hs]; exact hps
      · exact nomatch hs.symm.trans hps
    · cases hem
  obtain ⟨htext, hps₀⟩ := hsend
  have finish {i : Slot} (hid : ps.contactId = contactId i)
      (hp : (b.device.engine.contacts i).present = true)
      (ht : Twin log ⟨contactId i, b.life (contactId i), true, (b.device.engine.contacts i).dataEnvelope
        C b.device.engine.uid ps b.device.engine.pendingText⟩) :
      ∃ i, ps.contactId = contactId i ∧ (e'.contacts i).present = true ∧
        Twin log ⟨contactId i, started b.life b.clock out (contactId i), true,
          (e'.contacts i).dataEnvelope C e'.uid ps e'.pendingText⟩ := by
    obtain ⟨hcar, huid, hlife⟩ := h.send_carried hm hop hp hid hps
    refine ⟨i, hid, hcar.present', ?_⟩
    rw [hlife, hcar.dataEnvelope_eq, huid, htext]
    exact ht
  by_cases hb : b.emitted = true
  · obtain ⟨i, hid, hp, ht⟩ := h.emitted hb ps hps₀
    refine finish hid hp ?_
    cases hg with
    | same => exact ht
    | fresh => exact ht.mono
    | echo => exact ht.mono
  · -- the send has just been emitted
    have hop' : op = .sendEmit ∧ out.sealed? ≠ none := by
      unfold emits at hem
      split at hem
      · refine ⟨rfl, fun hn => ?_⟩
        rw [hn, Bool.eq_false_of_not_eq_true hb] at hem
        cases hem
      · cases hem
      · exact absurd hem hb
    obtain ⟨rfl, hx⟩ := hop'
    cases hg with
    | same hn => exact absurd hn hx
    | fresh _ hp _ _ _ hemit =>
        obtain ⟨ps', hps', hid, rfl⟩ := hemit rfl
        obtain rfl : ps' = ps := Option.some.inj (hps'.symm.trans hps₀)
        exact finish hid hp
          ⟨_, List.mem_append_right _ List.mem_cons_self, rfl, ⟨rfl, rfl⟩, rfl⟩
    | echo _ hop _ _ _ => cases hop

/-- Nothing an engine commits touches the send in flight. -/
theorem commitOk_send (e : Engine) : e.commitOk.pendingSend = e.pendingSend ∧
    e.commitOk.pendingText = e.pendingText ∧ e.commitOk.uid = e.uid := by
  unfold Engine.commitOk
  split <;> exact ⟨rfl, rfl, rfl⟩

theorem dataEnvelope_commitOk (i : Slot) (ps : PendingSend) (text : List UInt8) :
    (e.commitOk.contacts i).dataEnvelope C uid ps text = (e.contacts i).dataEnvelope C uid ps text := by
  rw [Engine.commitOk_contacts]
  rfl

/-- A committed operation. -/
theorem Inv.commit (h : Inv C uid b) (hop : op.allowed uid = true)
    (hl : op = .sendRetryEcho → b.emitted = true) : Inv C uid (b.next C (op, .commit)) := by
  have hm := step_moves C b.device.engine op
  have hd := h.device.next hop .commit
  have hdur := h.device.after hop
  unfold Bench.next Device.next at *
  dsimp only at *
  generalize step C b.device.engine op = r at hm hd hdur ⊢
  obtain ⟨e', out⟩ := r
  dsimp only at *
  have hg := h.grows hl hm
  have hcov := h.covers_engine hm (Op.keeps_of_allowed hop) hg
  rw [if_pos rfl, if_pos rfl]
  refine ⟨hd, started_lt h.life_lt, fun r hr => Nat.lt_succ_of_lt (h.log_lt_grows hg r hr), ?_, ?_,
    h.twins hg, h.sorted_grows hg, ?_⟩
  · show Covers _ _ (if e'.pendingPersist.isSome then e'.commitOk else e').contacts _
    split
    · exact covers_commitOk hcov
    · exact hcov
  · rcases settled_moves h.device.settled hm with hset | hpp
    · rw [Device.write, hset.pendingPersist]
      exact h.covers_shadow hm hset hg
    · rw [Device.write, hpp]
      exact covers_reserved hcov hdur.reserved
  · intro hem ps hps
    have hem' (hps : e'.pendingSend = some ps) := h.emitted_grows hm hop hg hem hps
    revert hps
    show (if e'.pendingPersist.isSome then e'.commitOk else e').pendingSend = some ps → _
    split
    · intro hps
      obtain ⟨hsend, htext, huid⟩ := commitOk_send e'
      obtain ⟨i, hid, hp, ht⟩ := hem' (hsend ▸ hps)
      refine ⟨i, hid, ?_, ?_⟩
      · rw [Engine.commitOk_contacts]
        exact hp
      · rw [dataEnvelope_commitOk, htext, huid]
        exact ht
    · exact hem'

/-- A failure. -/
theorem Inv.fail (h : Inv C uid b) (hop : op.allowed uid = true) (wrote : Bool)
    (reboot : Option Bool) : Inv C uid (b.next C (op, .fail wrote reboot)) := by
  have hm := step_moves C b.device.engine op
  have hd := h.device.next hop (.fail wrote reboot)
  have hst : (if wrote then b.device.write (step C b.device.engine op).1 else b.device).Stored C uid := by
    cases wrote with
    | false => exact h.device.toStored
    | true => exact h.device.write hop
  have hr := (Device.restarted_reload hst (step C b.device.engine op).1 reboot).1
  have hdur := h.device.after hop
  have hcov : Covers (if wrote then started b.life b.clock (step C b.device.engine op).2 else b.life) b.log
      (if wrote then b.device.write (step C b.device.engine op).1 else b.device).shadow.contacts
      (if wrote then b.device.write (step C b.device.engine op).1 else b.device).shadow.stagedReserved := by
    cases wrote with
    | false => exact h.shadow
    | true =>
        rw [if_pos rfl, if_pos rfl]
        generalize step C b.device.engine op = r at hm hdur ⊢
        rcases settled_moves h.device.settled hm with hset | hpp
        · rw [Device.write, hset.pendingPersist, started_of_none (settled_activated hset hm)]
          exact h.shadow
        · rw [Device.write, hpp]
          exact covers_reserved (covers_moves h.engine h.log_lt hm (Op.keeps_of_allowed hop))
            hdur.reserved
  refine ⟨hd, ?_, fun r hr => Nat.lt_succ_of_lt (h.log_lt r hr), covers_restarted hcov hr, hcov,
    h.twin, h.sorted, fun hem => nomatch hem⟩
  intro id
  show (if wrote then _ else b.life) id < _
  cases wrote with
  | false => exact Nat.lt_succ_of_lt (h.life_lt id)
  | true => exact started_lt h.life_lt id

/-- A legal operation, whatever becomes of it, keeps the invariant. -/
theorem inv_step {i : Op × Fate} (h : Inv C uid b) (hl : b.legal uid i = true) :
    Inv C uid (b.next C i) := by
  obtain ⟨op, fate⟩ := i
  simp only [legal, Bool.and_eq_true] at hl
  obtain ⟨hop, hecho⟩ := hl
  cases fate with
  | commit => exact h.commit hop fun heq => by subst heq; exact hecho
  | fail wrote reboot => exact h.fail hop wrote reboot

end Bench

/-- Of one sequence there is one fresh release. -/
theorem Bench.fresh_unique {l : List Release}
    (h : l.Pairwise fun r r' => r.Same r' → r.sequence < r'.sequence) {r r' : Release} (hr : r ∈ l)
    (hr' : r' ∈ l) : r.Same r' → r.sequence = r'.sequence → r.envelope = r'.envelope := by
  have : Std.Symm fun r r' : Release =>
      r.Same r' → r.sequence = r'.sequence → r.envelope = r'.envelope :=
    ⟨fun r r' h hsame heq => (h ⟨hsame.1.symm, hsame.2.symm⟩ heq.symm).symm⟩
  have hpair : l.Pairwise fun r r' : Release =>
      r.Same r' → r.sequence = r'.sequence → r.envelope = r'.envelope := by
    apply h.imp
    intro r r' hlt hsame heq
    have hlt := hlt hsame
    rw [heq] at hlt
    exact absurd hlt (UInt64.lt_irrefl _)
  exact hpair.forall_of_forall (fun _ _ _ _ => rfl) hr hr'

/-- Of the frames a device releases, over every failure and restart: those of one activated
contact take strictly increasing sequences, echoes apart, and two of one sequence seal the same
header and plaintext. -/
theorem nonce_unique (C : Crypto) (uid : Bytes 8) (available : Bool) (is : List (Op × Fate))
    (hlegal : Along (Bench.next C) (fun b i => b.legal uid i = true) (.init available) is) :
    let log := (run (Bench.next C) (.init available) is).log
    ((log.filter (·.fresh)).Pairwise fun r r' => r.Same r' → r.sequence < r'.sequence) ∧
      ∀ r ∈ log, ∀ r' ∈ log, r.Same r' → r.sequence = r'.sequence → r.envelope = r'.envelope := by
  have hinv := run_invariant (fun _ _ h hl => Bench.inv_step h hl) is
    (Bench.inv_init (C := C) available) hlegal
  refine ⟨hinv.sorted, fun r hr r' hr' hsame hseq => ?_⟩
  obtain ⟨s, hs, hf, ⟨hid, hlife⟩, henv⟩ := hinv.twin r hr
  obtain ⟨s', hs', hf', ⟨hid', hlife'⟩, henv'⟩ := hinv.twin r' hr'
  rw [← henv, ← henv']
  refine Bench.fresh_unique hinv.sorted (List.mem_filter.mpr ⟨hs, hf⟩)
    (List.mem_filter.mpr ⟨hs', hf'⟩) ?_ ?_
  · exact ⟨hid.trans (hsame.1.trans hid'.symm), hlife.trans (hsame.2.trans hlife'.symm)⟩
  · rw [Release.sequence, Release.sequence, henv, henv']
    exact hseq

/-- The sample device sends, fails before its next commit, and sends again. -/
def Sample.failing : List (Op × Fate) :=
  (sending ++ [Op.sendEmit, .sendRetryEcho]).map (·, .commit) ++
    [(.sendComplete, .fail false (some true)), (.setTime 10800 false, .commit),
      (.sendBegin 1 (ascii "again") 10, .commit), (.sendEmit, .commit)]

/-- A send, its echo, and a send after a failure. -/
theorem nonce_unique_sample :
    let log := (run (Bench.next Sample.crypto) (.init true) Sample.failing).log
    ((log.filter (·.fresh)).Pairwise fun r r' => r.Same r' → r.sequence < r'.sequence) ∧
      ∀ r ∈ log, ∀ r' ∈ log, r.Same r' → r.sequence = r'.sequence → r.envelope = r'.envelope :=
  nonce_unique Sample.crypto (Sample.bytes8 1) true Sample.failing (by decide +kernel)

end LoraMesh
