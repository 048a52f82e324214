import LoraMesh.Engine.Device
import LoraMesh.Engine.Invisible

/-!
# Engine — Blocking

A blocked contact is left alone.  From the commit of the block the caller goes on as it likes: any
operation after any other, a write of what is pending at any time, a restart from what is stored.

* `Dormant`: a contact that only hours and restarts have changed.
* `Isolated`: the engine keeps the contact so, and has nothing of its under way; `Isolated.moves`,
  `Isolated.about`: an operation keeps it, and its answer is not about the contact.
* `block_undone`: the confirmation that made the contact, imported once more, lifts the block.
* `blocked_rests`: in every other run the contact rests, and its frames make no difference.
-/

namespace LoraMesh

/-! ### Whom an answer is about -/

/-- The contact a kind names. -/
def IncomingKind.contact? : IncomingKind → Option UInt8
  | .deliver id _ => some id
  | .reAck id => some id
  | .ack id => some id
  | .forward => none
  | .ignore => none

def NodeEvent.contact : NodeEvent → UInt8
  | .received id _ _ _ => id
  | .sendAcked id _ _ _ => id

namespace Output

def kind? : Output → Option IncomingKind
  | incoming (k, _, _) => some k
  | _ => none

/-- The contacts an answer is about: that of its frame, that of its event, that of its kind. -/
def about (o : Output) : List UInt8 :=
  (o.frame?.bind (·.contactId)).toList ++ (o.event?.map NodeEvent.contact).toList ++
    (o.kind?.bind IncomingKind.contact?).toList

end Output

section About

variable {C : Crypto} {e : Engine} {id : UInt8}

theorem sendEmit_about (h : id ∈ (Output.frame (e.sendEmit C).2).about) :
    ∃ ps, e.pendingSend = some ps ∧ ps.contactId = id := by
  rw [Engine.sendEmit] at h
  cases hr : e.sendReady with
  | error x =>
      rw [hr] at h
      cases h
  | ok r =>
      obtain ⟨ps, slot⟩ := r
      obtain ⟨-, hps, -⟩ := sendReady_spec hr
      rw [hr] at h
      dsimp only at h
      split at h
      · cases h
      · exact ⟨ps, hps, (List.mem_singleton.mp h).symm⟩

theorem sendRetryEcho_about (h : id ∈ (Output.frame (e.sendRetryEcho C)).about) :
    ∃ ps, e.pendingSend = some ps ∧ ps.contactId = id := by
  cases hr : e.sendRetryEcho C with
  | error x =>
      rw [hr] at h
      cases h
  | ok f =>
      rw [hr] at h
      simp only [Engine.sendRetryEcho, bind_eq_ok, okOr_eq_ok, pure_eq_ok] at hr
      obtain ⟨ps, hps, _, _, _, _, hf⟩ := hr
      rw [← hf] at h
      exact ⟨ps, hps, (List.mem_singleton.mp h).symm⟩

theorem relayed_about {o : Output} (h : o.Relayed) : o.about = [] := by
  cases h with
  | ignored => rfl
  | forwarded hc _ => simp [Output.about, Output.frame?, Output.event?, Output.kind?, IncomingKind.contact?, hc]

theorem buildAck_contact {slot : Slot} {hd : Header} {pid : UInt32} {f : OutgoingFrame}
    (h : (e.buildAck C slot hd pid).2 = some f) : f.contactId = some (contactId slot) := by
  rw [Engine.buildAck] at h
  split at h
  · cases h
  split at h
  · cases h
  dsimp only at h
  split at h
  · cases h
  · cases h
    rfl

/-- The frame of an answer is to the contact, or there is none. -/
theorem buildAck_about {slot : Slot} {hd : Header} {pid : UInt32} {k : IncomingKind} {ev : Option NodeEvent}
    (hk : k.contact? = some (contactId slot)) (hev : ∀ x, ev = some x → x.contact = contactId slot)
    (h : id ∈ (Output.incoming (k, (e.buildAck C slot hd pid).2, ev)).about) : id = contactId slot := by
  rw [Output.about, List.mem_append, List.mem_append] at h
  rcases h with (h | h) | h
  · obtain ⟨f, hf, hid⟩ := Option.bind_eq_some_iff.mp (Option.mem_toList.mp h)
    rw [buildAck_contact hf] at hid
    exact (Option.some.inj hid).symm
  · obtain ⟨x, hx, rfl⟩ := Option.map_eq_some_iff.mp (Option.mem_toList.mp h)
    exact hev x hx
  · have hid : k.contact? = some id := Option.mem_toList.mp h
    rw [hk] at hid
    exact (Option.some.inj hid).symm

/-- The answer to a body is about the contact it opened under, which is not blocked. -/
theorem acceptBody_about {slot : Slot} {win : Fin 3} {hd : Header} {plaintext : List UInt8} {pid : UInt32}
    (h : id ∈ (Output.incoming (e.acceptBody C slot win hd plaintext pid).2).about) :
    id = contactId slot ∧ (e.contacts slot).blocked = false := by
  unfold Engine.acceptBody at h
  split at h
  · cases h
  rename_i hb
  refine ⟨?_, Bool.eq_false_of_not_eq_true hb⟩
  split at h
  · cases h
  split at h
  · rw [Engine.acceptData] at h
    split at h
    · exact buildAck_about rfl (fun x hx => by cases hx; rfl) h
    · exact buildAck_about rfl (fun x hx => by cases hx) h
    · cases h
  · rw [Engine.acceptAck] at h
    dsimp only at h
    split at h
    · split at h
      · split at h
        · rcases List.mem_cons.mp h with h | h
          · exact h
          · exact List.mem_singleton.mp h
        · cases h
      · cases h
    · cases h

theorem onFrame_about {frame : List UInt8} {now : UInt64} {pid : UInt32}
    (h : id ∈ (Output.incoming (e.onFrame C frame now pid).2).about) :
    ∃ slot, id = contactId slot ∧ (e.contacts slot).blocked = false := by
  have relayed {e' : Engine} {hd : Header} {hlen : minFrameLen ≤ frame.length}
      (h : id ∈ (Output.incoming (e'.transit C frame hd hlen now).2).about) :
      ∃ slot, id = contactId slot ∧ (e.contacts slot).blocked = false := by
    rw [relayed_about (transit_relayed e').2] at h
    cases h
  rw [Engine.onFrame] at h
  split at h
  swap
  · cases h
  split at h
  · cases h
  rename_i hd body _
  split at h
  · cases h
  split at h
  · cases h
  split at h
  · exact relayed h
  split at h
  · exact relayed h
  obtain ⟨as, failed, r, hscan, -⟩ := scan_spec (C := C) hd body (List.finRange maxContacts) e false
  rw [hscan] at h
  cases r with
  | none => exact relayed h
  | some r =>
      obtain ⟨slot, win, plaintext⟩ := r
      have hb := acceptBody_about h
      exact ⟨slot, hb⟩

/-- What an answer is about: the contact of the send in flight, or one not blocked. -/
theorem step_about {op : Op} (h : id ∈ (step C e op).2.about) :
    (∃ ps, e.pendingSend = some ps ∧ ps.contactId = id) ∨
      ∃ slot, id = contactId slot ∧ (e.contacts slot).blocked = false := by
  cases op with
  | sendEmit => exact .inl (sendEmit_about h)
  | sendRetryEcho => exact .inl (sendRetryEcho_about h)
  | onFrame frame now pid => exact .inr (onFrame_about h)
  | _ => cases h

end About

/-! ### The contact at rest -/

/-- A contact that only hours and restarts have changed since it was `c`: the hour moves its
windows, and a restart skips the last reserved block. -/
inductive Dormant (C : Crypto) (c : Contact) : Contact → Prop where
  | refl : Dormant C c c
  | rotated {c' : Contact} {init : List UInt32} {newEpoch : UInt32} (h : Dormant C c c') :
      Dormant C c (Engine.rotateContact c' ⟨newEpoch⟩ init newEpoch)
  | restarted {c' : Contact} (h : Dormant C c c') :
      Dormant C c (Engine.restoreContact C (Engine.persistContact c'))

/-- The contact is there and blocked. -/
def Contact.Barred (c : Contact) : Prop := c.present = true ∧ c.blocked = true

theorem Dormant.barred {C : Crypto} {c c' : Contact} (h : Dormant C c c') (hc : c.Barred) : c'.Barred := by
  induction h with
  | refl => exact hc
  | rotated _ ih => exact ih
  | @restarted c' _ ih =>
      have hp : (Engine.persistContact c').present = true := ih.1
      rw [Engine.restoreContact, if_pos hp]
      exact ⟨rfl, ih.2⟩

/-- The bytes are a snapshot with the contact at rest. -/
def Records (C : Crypto) (c : Contact) (slot : Slot) (bytes : List UInt8) : Prop :=
  ∃ v c', bytes = encodeInto v ∧ v.contacts slot = Engine.persistContact c' ∧ Dormant C c c'

/-- The engine keeps the contact at rest: no send to it is in flight and no block of its staged, and
what is pending records it so. -/
structure Isolated (C : Crypto) (c : Contact) (slot : Slot) (e : Engine) : Prop where
  dormant : Dormant C c (e.contacts slot)
  send : ∀ ps, e.pendingSend = some ps → ps.contactId ≠ contactId slot
  block : ∀ n, e.staged ≠ some (.txReserve slot n)
  scratch : e.persistDirty = true → Records C c slot e.persistScratch

namespace Isolated

variable {C : Crypto} {c : Contact} {slot : Slot} {e e' : Engine} {op : Op} {out : Output}

theorem stagedReserved_eq (h : ∀ n, e.staged ≠ some (.txReserve slot n)) :
    e.stagedReserved slot = (e.contacts slot).txReserved := by
  unfold Engine.stagedReserved
  split
  · rename_i i n hst
    refine if_neg fun heq => ?_
    rw [← heq] at hst
    exact h n hst
  · rfl

/-- The snapshot of an engine that stages no block of the contact. -/
theorem persistView_contact (h : ∀ n, e.staged ≠ some (.txReserve slot n)) :
    e.persistView.contacts slot = Engine.persistContact (e.contacts slot) := by
  show { Engine.persistContact (e.contacts slot) with txReserved := e.stagedReserved slot } = _
  rw [stagedReserved_eq h]
  rfl

/-- A staged state with the contact at rest. -/
theorem of_staged {kind : StagedCommit} (hd : Dormant C c (e.contacts slot))
    (hp : ∀ ps, e.pendingSend = some ps → ps.contactId ≠ contactId slot) (hs : e.Staged kind)
    (hk : ∀ n, kind ≠ .txReserve slot n) : Isolated C c slot e := by
  have hb : ∀ n, e.staged ≠ some (.txReserve slot n) := by
    intro n hn
    rw [hs.staged] at hn
    exact hk n (Option.some.inj hn)
  exact ⟨hd, hp, hb, fun _ => ⟨e.persistView, _, hs.scratch, persistView_contact hb, hd⟩⟩

theorem dropped (h : Isolated C c slot e) (hp : e'.pendingSend = e.pendingSend ∨ e'.pendingSend = none) :
    ∀ ps, e'.pendingSend = some ps → ps.contactId ≠ contactId slot := by
  intro ps hps
  rcases hp with heq | hn
  · exact h.send ps (heq ▸ hps)
  · cases hn.symm.trans hps

/-- Another slot written over. -/
theorem other {i : Slot} {c' : Contact} (h : Isolated C c slot e) (hi : i ≠ slot)
    (hc : e'.contacts = Function.update e.contacts i c') : Dormant C c (e'.contacts slot) := by
  rw [hc, Function.update_of_ne hi.symm]
  exact h.dormant

theorem ne_of_unblocked {i : Slot} (h : Isolated C c slot e) (hc : c.Barred) (hi : (e.contacts i).blocked = false) :
    i ≠ slot := by
  intro heq
  rw [heq] at hi
  cases hi.symm.trans (h.dormant.barred hc).2

theorem acked (h : Isolated C c slot e) {i : Slot} {c' : Contact} {hd : Header} {pid : UInt32}
    {f : Option OutgoingFrame} (hi : i ≠ slot) (hp : e'.pendingSend = e.pendingSend)
    (ha : Acked C e i c' hd pid e' f) : Isolated C c slot e' := by
  cases ha with
  | without hk hcs hs =>
      refine of_staged (h.other hi hcs) (h.dropped (.inl hp)) hs fun n hn => ?_
      rcases hk with rfl | rfl
      · cases hn
      · cases hn
  | acked hr _ hcs _ _ hs =>
      refine of_staged (h.other hi hcs) (h.dropped (.inl hp)) hs fun n hn => ?_
      rw [hn] at hr
      exact hi (reservation_spec hr fun _ _ h => by cases h).1.symm

end Isolated

/-! ### One operation -/

namespace Engine

/-- The operation asks to lift the block of the contact in a slot, or to delete it. -/
def asksRelease (slot : Slot) : Op → Bool
  | .setBlocked id false => id == contactId slot
  | .deleteContact id => id == contactId slot
  | _ => false

/-- The operation lifts the block of the contact in a slot, or deletes it. -/
def releases (e : Engine) (slot : Slot) (op : Op) : Bool := asksRelease slot op && e.checkUsable.isOk

/-- A confirmation that activates the slot: that of the pending attempt. -/
def reconfirms (C : Crypto) (e : Engine) (slot : Slot) : Op → Bool
  | .pairImport record _ true =>
    e.checkUsable.isOk && !e.radioOn &&
      match e.livePending with
      | .ok p => decide (p.slot = slot) && (checkConfirm C p record).isOk
      | .error _ => false
  | _ => false

end Engine

namespace Isolated

variable {C : Crypto} {c : Contact} {slot : Slot} {e e' : Engine} {op : Op} {out : Output}

/-- What a move keeps that does not release the contact or confirm its attempt again. -/
theorem moves (h : Isolated C c slot e) (hc : c.Barred) (hm : Moves C e op e' out) (hop : op.keeps = true)
    (hr : Engine.asksRelease slot op = false) (hx : e.reconfirms C slot op = false) : Isolated C c slot e' := by
  cases hm with
  | quiet hq _ =>
      refine ⟨?_, h.dropped hq.pendingSend, ?_, ?_⟩
      · rw [hq.contacts]
        exact h.dormant
      · rw [hq.staged]
        exact h.block
      · rw [hq.dirty, hq.scratch]
        exact h.scratch
  | pairing hp =>
      obtain ⟨⟨p', rfl, -⟩, -⟩ := hp.spec
      exact ⟨h.dormant, h.send, h.block, h.scratch⟩
  | restage hk hq hcs _ hs _ =>
      refine of_staged ?_ (h.dropped hq.pendingSend) hs fun n hn => ?_
      · rw [hcs]
        exact h.dormant
      · rcases hk with rfl | rfl
        · cases hn
        · cases hn
  | setTime _ hcs hq _ _ _ hs _ =>
      refine of_staged ?_ (h.dropped hq.pendingSend) hs fun n hn => by cases hn
      rcases hcs slot with ⟨-, habs⟩ | ⟨-, init, heq⟩
      · cases habs.symm.trans (h.dormant.barred hc).1
      · rw [heq]
        exact .rotated h.dormant
  | @sendBegin id _ _ i kind hslot hres _ hs =>
      have hi := h.ne_of_unblocked hc hs.blocked
      refine of_staged h.dormant (fun ps hps => ?_) ⟨rfl, rfl, rfl⟩ fun n hn => ?_
      · cases hps
        intro hid
        exact hi (Engine.contactId_injective ((Engine.slotOf_ok hslot).2.symm.trans hid))
      · rw [hn] at hres
        exact hi (reservation_spec hres fun _ _ h => by cases h).1.symm
  | sendEmit hready _ hcs _ _ hp _ hs =>
      obtain ⟨-, hps, hslot, -, -⟩ := sendReady_spec hready
      refine of_staged (h.other ?_ hcs) (h.dropped (.inl hp)) hs fun n hn => by cases hn
      intro hi
      exact h.send _ hps (hi ▸ (Engine.slotOf_ok hslot).2)
  | retry => exact h
  | recvData ho _ _ ha _ hp _ => exact h.acked (h.ne_of_unblocked hc ho.blocked) hp ha
  | recvAck ho _ _ hcs _ _ hp _ hs =>
      exact of_staged (h.other (h.ne_of_unblocked hc ho.blocked) hcs) (h.dropped (.inl hp)) hs fun n hn => by cases hn
  | @delete id i _ hslot hcs hq _ _ hs =>
      refine of_staged (h.other ?_ hcs) (h.dropped hq.pendingSend) hs fun n hn => by cases hn
      intro hi
      have hid : id = contactId slot := hi ▸ (Engine.slotOf_ok hslot).2
      rw [hid] at hr
      cases hr.symm.trans (beq_self_eq_true (contactId slot))
  | @block id blocked i _ _ hslot hcs hq _ _ hs =>
      refine of_staged ?_ (h.dropped hq.pendingSend) hs fun n hn => by cases hn
      by_cases hi : i = slot
      · have hid : id = contactId slot := hi ▸ (Engine.slotOf_ok hslot).2
        have hb : blocked = true := by
          cases blocked with
          | true => rfl
          | false =>
              rw [hid] at hr
              cases hr.symm.trans (beq_self_eq_true (contactId slot))
        -- blocked again: nothing changes
        have hsame : { e.contacts slot with blocked := true } = e.contacts slot := by
          rw [← (h.dormant.barred hc).2]
        rw [hcs, hi, hb, hsame, Function.update_self]
        exact h.dormant
      · exact h.other hi hcs
  | @activate record replace p cf hp hlive hu hro hcheck =>
      have hi : p.slot ≠ slot := by
        intro hi
        have hlive : e.livePending = .ok p := by
          simp [Engine.livePending, hp, hlive, okOr, require, pure, Except.pure, bind, Except.bind]
        simp [Engine.reconfirms, hu, hro, hlive, hi, hcheck, Except.isOk, Except.toBool] at hx
      refine of_staged ?_ h.send ⟨rfl, rfl, rfl⟩ fun n hn => by cases hn
      show Dormant C c (Function.update (Function.update e.contacts p.slot _) p.slot _ slot)
      rw [Function.update_of_ne hi.symm, Function.update_of_ne hi.symm]
      exact h.dormant
  | commitOk =>
      have hsend : e.commitOk.pendingSend = e.pendingSend := by
        unfold Engine.commitOk
        split
        · rfl
        · rfl
        · rfl
      have hset := Engine.settled_commitOk e
      refine ⟨?_, h.dropped (.inl hsend), fun n hn => ?_, fun hd => ?_⟩
      · rw [e.commitOk_contacts, stagedReserved_eq h.block]
        exact h.dormant
      · cases hset.staged.symm.trans hn
      · cases hset.dirty.symm.trans hd
  | discard =>
      exact ⟨h.dormant, fun ps hps => (by cases hps), fun n hn => (by cases hn), fun hd => (by cases hd)⟩
  | restore _ => cases hop

/-- What an operation keeps that does not release the contact or confirm its attempt again. -/
theorem step (h : Isolated C c slot e) (hc : c.Barred) (hop : op.keeps = true) (hr : e.releases slot op = false)
    (hx : e.reconfirms C slot op = false) : Isolated C c slot (LoraMesh.step C e op).1 := by
  cases hask : Engine.asksRelease slot op with
  | false => exact h.moves hc (step_moves C e op) hop hask hx
  | true =>
      -- an engine that is not usable refuses it
      rw [Engine.releases, hask] at hr
      cases hu : e.checkUsable with
      | ok u =>
          rw [hu] at hr
          cases hr
      | error x =>
          have hsame : (LoraMesh.step C e op).1 = e := by
            cases op with
            | setBlocked id blocked => simp [LoraMesh.step, answer, settle, Engine.setBlocked, hu, bind, Except.bind]
            | deleteContact id => simp [LoraMesh.step, answer, settle, Engine.deleteContact, hu, bind, Except.bind]
            | _ => cases hask
          rw [hsame]
          exact h

/-- Nothing is answered about the contact. -/
theorem about (h : Isolated C c slot e) (hc : c.Barred) : contactId slot ∉ (LoraMesh.step C e op).2.about := by
  intro hid
  rcases step_about hid with ⟨ps, hps, hps'⟩ | ⟨i, hi, hb⟩
  · exact h.send ps hps hps'
  · exact h.ne_of_unblocked hc hb (Engine.contactId_injective hi).symm

/-- A restart from a snapshot with the contact at rest. -/
theorem restart {bytes : List UInt8} (h : Records C c slot bytes) (hd : (decodeView bytes).isOk = true)
    (reboot : Option Bool) : Isolated C c slot (Device.reload C e reboot (some bytes)) := by
  obtain ⟨v, c', rfl, hv, hdorm⟩ := h
  cases hdec : decodeView (encodeInto v) with
  | error x =>
      rw [hdec] at hd
      cases hd
  | ok w =>
      obtain ⟨-, rfl⟩ := decodeView_encodeInto.mp hdec
      have hload : ∃ e₀ : Engine, Device.reload C e reboot (some (encodeInto w)) = e₀.restoreView C w := by
        unfold Device.reload
        dsimp only
        rw [Engine.restore, hdec]
        exact ⟨_, rfl⟩
      obtain ⟨e₀, hload⟩ := hload
      rw [hload]
      refine ⟨?_, fun ps hps => (by cases hps), fun n hn => (by cases hn), fun hd => (by cases hd)⟩
      show Dormant C c (Engine.restoreContact C (w.contacts slot))
      rw [hv]
      exact .restarted hdorm

end Isolated

/-! ### The caller -/

/-- An engine and what its storage holds. -/
structure Station where
  engine : Engine
  stored : Option (List UInt8)

namespace Station

/-- What a caller does: an operation, a write of what is pending, or a restart from what is stored,
in place or at a boot with the radio there or not. -/
inductive Act where
  | call (op : Op)
  | store
  | restart (reboot : Option Bool)

variable (C : Crypto)

def next (s : Station) : Act → Station
  | .call op => { s with engine := (step C s.engine op).1 }
  | .store =>
    match s.engine.pendingPersist with
    | some bytes => { s with stored := some bytes }
    | none => s
  | .restart reboot => { s with engine := Device.reload C s.engine reboot s.stored }

/-- What an act answers. -/
def answer (s : Station) : Act → Output
  | .call op => (step C s.engine op).2
  | .store => .done
  | .restart _ => .done

/-- A contact blocked, the snapshot written and committed. -/
def blockCommitted (s : Station) (slot : Slot) : Station :=
  run (next C) s [.call (.setBlocked (contactId slot) true), .store, .call .commitOk]

/-- The block lasts: the act does not lift it or delete the contact, and restores nothing but what
is stored. -/
def lasts (slot : Slot) (s : Station) : Act → Bool
  | .call op => op.keeps && !s.engine.releases slot op
  | .store => true
  | .restart _ => true

/-- The act imports no confirmation that activates the contact's slot, and restarts from a snapshot
that restores. -/
def undisturbed (slot : Slot) (s : Station) : Act → Bool
  | .call op => !s.engine.reconfirms C slot op
  | .store => true
  | .restart _ =>
    match s.stored with
    | some bytes => (decodeView bytes).isOk
    | none => true

/-- A frame of the contact: it opens under the contact, or for nobody. -/
def fromContact (slot : Slot) (s : Station) : Act → Bool
  | .call (.onFrame frame _ _) => s.engine.sender? C frame == some slot || !s.engine.authenticates C frame
  | _ => false

/-- Two stations that are the same but for hearsay. -/
def Same (s t : Station) : Prop := SameBut s.engine t.engine ∧ t.stored = s.stored

/-- The act answers the same in both, but to a frame that authenticates for no contact. -/
def SameAnswer (C : Crypto) (s t : Station) : Act → Prop
  | .call op => LoraMesh.SameAnswer C s.engine t.engine op
  | .store => True
  | .restart _ => True

/-- The contact is at rest in the engine and in what is stored. -/
structure Rests (C : Crypto) (c : Contact) (slot : Slot) (s : Station) : Prop where
  isolated : Isolated C c slot s.engine
  stored : ∃ bytes, s.stored = some bytes ∧ Records C c slot bytes

variable {C : Crypto} {c : Contact} {slot : Slot} {s t : Station}

theorem Rests.next (h : Rests C c slot s) (hc : c.Barred) {a : Act} (hl : s.lasts slot a = true)
    (hu : s.undisturbed C slot a = true) : Rests C c slot (s.next C a) := by
  obtain ⟨bytes, hb, hrec⟩ := h.stored
  cases a with
  | call op =>
      rw [lasts, Bool.and_eq_true, Bool.not_eq_true'] at hl
      rw [undisturbed, Bool.not_eq_true'] at hu
      exact ⟨h.isolated.step hc hl.1 hl.2 hu, h.stored⟩
  | store =>
      rw [Station.next]
      cases hp : s.engine.pendingPersist with
      | none => exact h
      | some pending =>
          rw [Engine.pendingPersist] at hp
          split at hp
          · rename_i hd
            cases hp
            exact ⟨h.isolated, _, rfl, h.isolated.scratch hd⟩
          · cases hp
  | restart reboot =>
      rw [undisturbed, hb] at hu
      refine ⟨?_, h.stored⟩
      show Isolated C c slot (Device.reload C s.engine reboot s.stored)
      rw [hb]
      exact .restart hrec hu reboot

/-- A block leaves the contact barred, no send to it in flight and the state staged. -/
theorem setBlocked_isolated {e e' : Engine} {o : BlockOutcome}
    (h : e.setBlocked (contactId slot) true = .ok (e', o)) : (e'.contacts slot).Barred ∧
      (∀ ps, e'.pendingSend = some ps → ps.contactId ≠ contactId slot) ∧ e'.Staged .none := by
  obtain ⟨i, hslot, hc, hsend, hs⟩ : ∃ i, e.slotOf (contactId slot) = .ok i ∧
      e'.contacts = Function.update e.contacts i { e.contacts i with blocked := true } ∧
      (∀ ps, e'.pendingSend = some ps → ps.contactId ≠ contactId slot) ∧ e'.Staged .none := by
    simp only [Engine.setBlocked, bind_eq_ok] at h
    obtain ⟨-, -, i, hslot, h⟩ := h
    refine ⟨i, hslot, ?_⟩
    rw [if_pos trivial] at h
    split at h
    · rename_i ps hps
      split at h
      · simp only [pure_eq_ok, Prod.mk.injEq] at h
        obtain ⟨rfl, rfl⟩ := h
        exact ⟨rfl, fun _ h => (by cases h), rfl, rfl, rfl⟩
      · rename_i hne
        simp only [pure_eq_ok, Prod.mk.injEq] at h
        obtain ⟨rfl, rfl⟩ := h
        exact ⟨rfl, fun x hx => Option.some.inj (hps.symm.trans hx) ▸ hne, Engine.staged_stagePersist _ _⟩
    · rename_i hn
      simp only [pure_eq_ok, Prod.mk.injEq] at h
      obtain ⟨rfl, rfl⟩ := h
      exact ⟨rfl, fun x hx => (by cases hn.symm.trans hx), Engine.staged_stagePersist _ _⟩
  have hi : i = slot := Engine.contactId_injective (Engine.slotOf_ok hslot).2.symm
  rw [hi] at hc hslot
  refine ⟨?_, hsend, hs⟩
  rw [hc, Function.update_self]
  exact ⟨slotOf_present hslot, rfl⟩

/-- A committed block puts the contact to rest. -/
theorem rests_blockCommitted (h : (s.engine.setBlocked (contactId slot) true).isOk = true) :
    ((s.blockCommitted C slot).engine.contacts slot).Barred ∧
      Rests C ((s.blockCommitted C slot).engine.contacts slot) slot (s.blockCommitted C slot) := by
  cases hset : s.engine.setBlocked (contactId slot) true with
  | error x =>
      rw [hset] at h
      cases h
  | ok r =>
      obtain ⟨e, o⟩ := r
      obtain ⟨hc, hsend, hstaged⟩ := setBlocked_isolated hset
      have hblock : s.next C (.call (.setBlocked (contactId slot) true)) = ⟨e, s.stored⟩ := by
        simp [Station.next, step, LoraMesh.answer, settle, hset]
      have hstore : Station.next C ⟨e, s.stored⟩ .store = ⟨e, some (encodeInto e.persistView)⟩ := by
        simp [Station.next, hstaged.pendingPersist]
      have hdef : s.blockCommitted C slot = ⟨e.commitOk, some (encodeInto e.persistView)⟩ := by
        rw [blockCommitted, run_cons, hblock, run_cons, hstore]
        rfl
      have hiso : Isolated C (e.contacts slot) slot e := .of_staged .refl hsend hstaged fun n hn => by cases hn
      have hcommit : Isolated C (e.contacts slot) slot e.commitOk :=
        hiso.moves hc (.commitOk (C := C)) rfl rfl rfl
      have hsame : e.commitOk.contacts slot = e.contacts slot := by
        rw [e.commitOk_contacts, Isolated.stagedReserved_eq hiso.block]
      rw [hdef]
      dsimp only
      rw [hsame]
      exact ⟨hc, hcommit, _, rfl, e.persistView, _, rfl, Isolated.persistView_contact hiso.block, .refl⟩

theorem Same.symm (h : Same s t) : Same t s := ⟨h.1.symm, h.2.symm⟩

theorem Same.trans {u : Station} (h : Same s t) (h' : Same t u) : Same s u := ⟨h.1.trans h'.1, h'.2.trans h.2⟩

theorem Same.reload (h : Same s t) (reboot : Option Bool) :
    SameBut (Device.reload C s.engine reboot s.stored) (Device.reload C t.engine reboot t.stored) := by
  obtain ⟨⟨x, hx⟩, hst⟩ := h
  rw [hst, hx]
  cases s.stored with
  | none => exact .refl _
  | some bytes =>
      unfold Device.reload
      cases reboot with
      | some available => exact .refl _
      | none =>
          dsimp only
          rw [Engine.restore, Engine.restore]
          cases decodeView bytes with
          | ok v => exact .of_rest rfl
          | error x => exact .of_rest rfl

/-- An act that both take. -/
theorem Same.next (h : Same s t) (a : Act) : Same (s.next C a) (t.next C a) := by
  cases a with
  | call op => exact ⟨(step_same h.1 op).1, h.2⟩
  | store =>
      rw [Station.next, Station.next, h.1.pendingPersist]
      cases s.engine.pendingPersist with
      | none => exact h
      | some bytes => exact ⟨h.1, rfl⟩
  | restart reboot => exact ⟨h.reload reboot, h.2⟩

theorem Same.answer (h : Same s t) (a : Act) : SameAnswer C s t a := by
  cases a with
  | call op => exact (step_same h.1 op).2
  | store => trivial
  | restart reboot => trivial

/-- What the run keeps beside the run without the contact's frames. -/
def Beside (C : Crypto) (c : Contact) (slot : Slot) (s t : Station) : Prop := Rests C c slot s ∧ Same s t

/-- The input is permitted: the block lasts, the contact is undisturbed, and what is put in is a
frame of the contact. -/
def Permits (C : Crypto) (slot : Slot) (s : Station) (a : Call Act) : Prop :=
  (s.lasts slot a.input = true ∧ s.undisturbed C slot a.input = true) ∧
    OnExtra (fun s a => s.fromContact C slot a = true) s a

instance (s : Station) (a : Call Act) : Decidable (Permits C slot s a) := inferInstanceAs (Decidable (_ ∧ _))

/-- A frame of the contact changes nothing but hearsay. -/
theorem Rests.heard (h : Rests C c slot s) (hc : c.Barred) {a : Act} (ha : s.fromContact C slot a = true) :
    Same s (s.next C a) := by
  cases a with
  | call op =>
      cases op with
      | onFrame frame now packetId =>
          rw [fromContact, Bool.or_eq_true, beq_iff_eq, Bool.not_eq_true'] at ha
          rcases ha with hs | hu
          · exact ⟨onFrame_blocked now packetId hs (h.isolated.dormant.barred hc).2, rfl⟩
          · exact ⟨(onFrame_unheard now packetId hu).1, rfl⟩
      | _ => cases ha
  | store => cases ha
  | restart reboot => cases ha

end Station

/-! ### The run -/

open Station in
/-- The contact is silenced in the run: no answer is about it, it stays at rest, and everything
goes as in the run without its frames. -/
structure Silenced (C : Crypto) (slot : Slot) (s : Station) (acts : List (Call Act)) : Prop where
  answers : Along (onInput (Station.next C)) (fun s a => contactId slot ∉ (s.answer C a.input).about) s acts
  dormant : Dormant C (s.engine.contacts slot) ((run (onInput (Station.next C)) s acts).engine.contacts slot)
  alike : Lockstep (Station.next C) Same (Station.SameAnswer C) s s acts

open Station in
/-- From a committed block, in a run that does not release the contact, imports no confirmation
that activates its slot and restarts from snapshots that restore, the contact is silenced. -/
theorem blocked_rests (C : Crypto) (s : Station) (slot : Slot)
    (hset : (s.engine.setBlocked (contactId slot) true).isOk = true) (acts : List (Call Act))
    (h : Along (onInput (Station.next C)) (Permits C slot) (s.blockCommitted C slot) acts) :
    Silenced C slot (s.blockCommitted C slot) acts := by
  obtain ⟨hc, hrest⟩ := rests_blockCommitted (C := C) hset
  generalize hcdef : (s.blockCommitted C slot).engine.contacts slot = c at hc hrest
  have keep : ∀ s a, Rests C c slot s → Permits C slot s a → Rests C c slot (onInput (Station.next C) s a) :=
    fun s a hs ha => hs.next hc ha.1.1 ha.1.2
  refine ⟨?_, ?_, ?_⟩
  · refine Along.of_invariant keep (fun s a hs _ => ?_) acts hrest h
    cases ha : a.input with
    | call op => exact hs.isolated.about hc
    | store => exact List.not_mem_nil
    | restart reboot => exact List.not_mem_nil
  · rw [hcdef]
    exact (run_invariant keep acts hrest h).isolated.dormant
  · have hb : Lockstep (Station.next C) (Beside C c slot) (Station.SameAnswer C) (s.blockCommitted C slot)
        (s.blockCommitted C slot) acts := by
      refine lockstep_of_permitted (fun s t a hst ha => ?_) (fun s t a hst _ => hst.2.answer a)
        (fun s t a hst ha => ?_) acts ⟨hrest, .refl _, rfl⟩ h
      · exact ⟨keep s (.own a) hst.1 ha, hst.2.next a⟩
      · exact ⟨keep s (.extra a) hst.1 ha, (hst.1.heard hc ha.2).symm.trans hst.2⟩
    exact hb.mono (fun s t hst => hst.2) acts

namespace Sample

/-- The contact blocked, a stray frame comes and a send is refused. -/
def refusal : List (Call Station.Act) :=
  [.extra (.call (.onFrame stray 5 7)), .own (.call (.sendBegin 1 (ascii "hi") 9)), .own .store, .own (.call .commitOk)]

/-- Paired, the contact not yet committed. -/
def uncommitted : Station := ⟨after (.new true) (setup 1 ++ ceremony 1), none⟩

/-- The block committed, the confirmation is imported once more, and a text sent. -/
def reconfirmation : List (Call Station.Act) :=
  [.pairImport (exported (peer 1) (proofs (peer 1)) .pairConfirm) false true, .commitOk, .setTime 7200 false, .commitOk,
    .sendBegin 1 (ascii "hi") 9, .commitOk, .sendEmit].map fun op => .own (.call op)

end Sample

theorem blocked_rests_sample :
    Silenced Sample.crypto 0 (Station.blockCommitted Sample.crypto ⟨Sample.listening, none⟩ 0) Sample.refusal :=
  blocked_rests Sample.crypto ⟨Sample.listening, none⟩ 0 (by decide +kernel) Sample.refusal (by decide +kernel)

/-- A confirmation imported once more lifts the block. -/
theorem block_undone :
    ¬ Silenced Sample.crypto 0 (Sample.uncommitted.blockCommitted Sample.crypto 0) Sample.reconfirmation := by
  intro h
  have hanswers : ¬ Along (onInput (Station.next Sample.crypto))
      (fun s a => contactId 0 ∉ (s.answer Sample.crypto a.input).about)
      (Sample.uncommitted.blockCommitted Sample.crypto 0) Sample.reconfirmation := by
    decide +kernel
  exact hanswers h.answers

end LoraMesh
