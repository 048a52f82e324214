import LoraMesh.Engine.Nonce

/-!
# Engine — Retry

An echo is sealed anew from the state, by a second copy of the code that sealed the frame.

* `Engine.Holds`: a send in flight to a present contact, and what its frame seals.
* `Holds.step`: an operation that leaves the send in flight leaves what its frame seals.
* `retry_identical`: an echo is the frame of its send once more, whatever came between.
-/

namespace LoraMesh

namespace Engine

/-- A send in flight to a present contact, and what its frame seals. -/
structure Holds (C : Crypto) (v : Envelope) (ps : PendingSend) (i : Slot) (e : Engine) : Prop where
  pendingSend : e.pendingSend = some ps
  contactId : ps.contactId = contactId i
  present : (e.contacts i).present = true
  envelope : (e.contacts i).dataEnvelope C e.uid ps e.pendingText = v

/-- An operation that leaves the send in flight and the identity as they are, and activates no
other contact under the id that the send goes to. -/
structure Leaves (C : Crypto) (e : Engine) (op : Op) : Prop where
  pendingSend : (step C e op).1.pendingSend = e.pendingSend
  uid : (step C e op).1.uid = e.uid
  contact : ∀ ps ∈ e.pendingSend, (step C e op).2.activated? ≠ some ps.contactId

instance (C : Crypto) (e : Engine) (op : Op) : Decidable (e.Leaves C op) :=
  decidable_of_iff
    ((step C e op).1.pendingSend = e.pendingSend ∧ (step C e op).1.uid = e.uid ∧
      ∀ ps ∈ e.pendingSend, (step C e op).2.activated? ≠ some ps.contactId)
    ⟨fun ⟨hp, hu, hc⟩ => ⟨hp, hu, hc⟩, fun ⟨hp, hu, hc⟩ => ⟨hp, hu, hc⟩⟩

variable {C : Crypto} {e : Engine} {op : Op} {ps : PendingSend} {v : Envelope} {i : Slot}

/-- A restore that goes through drops the send in flight. -/
theorem restore_leaves {bytes : List UInt8} (hp : e.pendingSend = some ps)
    (hl : e.Leaves C (.restore bytes)) : (step C e (.restore bytes)).1 = e := by
  have hl := hl.pendingSend
  simp only [step, answer] at hl ⊢
  cases hr : e.restore C bytes with
  | error x => rfl
  | ok r =>
      obtain ⟨e', u⟩ := r
      rw [hr] at hl
      simp only [restore, bind_eq_ok, pure_eq_ok, Prod.mk.injEq] at hr
      obtain ⟨w, -, rfl, -⟩ := hr
      cases hl.trans hp

/-- The contact that a send in flight goes to is carried on. -/
theorem Leaves.carried (hl : e.Leaves C op) (h : e.Holds C v ps i) (hop : op.keeps = true) :
    (e.contacts i).Carried ((step C e op).1.contacts i) := by
  rcases slot_moves (step_moves C e op) hop i with hcar | ⟨-, hgone⟩ | ⟨hact, -⟩
  · exact hcar
  · exact absurd h.contactId (hgone h.present ps (hl.pendingSend.trans h.pendingSend))
  · exact absurd (h.contactId ▸ hact) (hl.contact ps h.pendingSend)

/-- A send in flight keeps its text: none begins before it is over. -/
theorem Leaves.pendingText (hl : e.Leaves C op) (hp : e.pendingSend = some ps) :
    (step C e op).1.pendingText = e.pendingText := by
  rcases send_moves (step_moves C e op) with ⟨ht, -⟩ | ⟨id, text, pid, ps', rfl, hout⟩
  · exact ht
  · have hbusy : ∀ r, e.sendBegin id text pid ≠ .ok r := by
      intro r hr
      simp only [sendBegin, bind_eq_ok, require_eq_ok, hp] at hr
      obtain ⟨-, -, -, -, -, -, -, -, -, hfree, -⟩ := hr
      cases hfree
    show (settle e (e.sendBegin id text pid)).1.pendingText = e.pendingText
    cases hr : e.sendBegin id text pid with
    | error x => rfl
    | ok r => exact absurd hr (hbusy r)

/-- An operation that leaves the send in flight leaves what its frame seals. -/
theorem Holds.step (h : e.Holds C v ps i) (hl : e.Leaves C op) :
    (step C e op).1.Holds C v ps i := by
  cases hop : op.keeps with
  | false =>
      cases op with
      | restore bytes => exact (restore_leaves h.pendingSend hl).symm ▸ h
      | _ => cases hop
  | true =>
      have hcar := hl.carried h hop
      refine ⟨hl.pendingSend.trans h.pendingSend, h.contactId, hcar.present', ?_⟩
      rw [hcar.dataEnvelope_eq, hl.uid, hl.pendingText h.pendingSend]
      exact h.envelope

/-- A frame emitted is that of a send in flight, sealed. -/
theorem holds_sendEmit {f : OutgoingFrame} (h : (e.sendEmit C).2 = .ok f) :
    ∃ v ps i, (e.sendEmit C).1.Holds C v ps i ∧
      sealFrame C v (1 + maxTextLen + tagLen) = .ok f.bytes ∧
      f = { f with contactId := some ps.contactId, isAck := false, isRetryEcho := false
                   envelope := some v } := by
  simp only [sendEmit] at h ⊢
  cases hr : e.sendReady with
  | error x => rw [hr] at h; cases h
  | ok r =>
      obtain ⟨ps, i⟩ := r
      obtain ⟨-, hps, hslot, hnext, hlt⟩ := sendReady_spec hr
      obtain ⟨hp, hid⟩ := slotOf_ok hslot
      rw [hr] at h
      dsimp only at h ⊢
      rw [refreshAliases_eq] at h ⊢
      generalize (e.refreshAliases C i).aliases = as at h ⊢
      dsimp only at h ⊢
      cases hb : sealFrame C ((e.contacts i).dataEnvelope C e.uid ps e.pendingText)
          (1 + maxTextLen + tagLen) with
      | error x => rw [hb] at h; cases h
      | ok bytes =>
          rw [hb] at h
          cases h
          refine ⟨_, ps, i, ⟨hps, hid, ?_, ?_⟩, hb, rfl⟩
          · show (Function.update e.contacts i ((e.contacts i).consume ps.epoch) i).present = true
            rw [Function.update_self]
            exact hp
          · show (Function.update e.contacts i ((e.contacts i).consume ps.epoch) i).dataEnvelope C
              e.uid ps e.pendingText = _
            rw [Function.update_self]
            exact (Contact.Carried.consume hp (hnext ▸ hlt) ps.epoch).dataEnvelope_eq _ _ _

/-- The echo of a send in flight, sealed from what the state holds. -/
theorem Holds.sendRetryEcho (h : e.Holds C v ps i) {bytes : List UInt8}
    (hb : sealFrame C v (1 + maxTextLen + tagLen) = .ok bytes) :
    e.sendRetryEcho C = .ok
      { bytes, contactId := some ps.contactId, isAck := false, isRetryEcho := true
        envelope := some v } := by
  have hslot : e.slotOf ps.contactId = .ok i := h.contactId ▸ slotOf_contactId h.present
  simp only [Engine.sendRetryEcho, bind_eq_ok, okOr_eq_ok, pure_eq_ok]
  exact ⟨ps, h.pendingSend, i, hslot, bytes, h.envelope ▸ hb, by rw [h.envelope]⟩

end Engine

/-! ### What a send in flight reads -/

/-- What a frame is tried with. -/
def Contact.sealView (c : Contact) :=
  ((c.present, c.role, c.peerIdentity), (c.trafficLr, c.trafficRl, c.addrSecret), c.winEpochs)

namespace Engine

variable {C : Crypto} {e e' : Engine} {y : Slot}

/-- What a retry and an acknowledgement of a send to the contact in a slot read. -/
def sendView (e : Engine) (y : Slot) :=
  (((e.pendingSend, e.pendingText, e.uid), (e.provisioned, e.fault, e.radioOn), (e.unixSeconds, e.timeValid)),
    ((fun i => (e.contacts i).sealView), ((e.contacts y).blocked, (e.contacts y).winAck)))

/-- A contact written back with what frames are tried with, and ours with its ACK windows. -/
theorem sendView_setContact {i : Slot} {c : Contact} (hs : c.sealView = (e.contacts i).sealView)
    (hy : i = y → c.blocked = (e.contacts i).blocked ∧ c.winAck = (e.contacts i).winAck) :
    (e.setContact i c).sendView y = e.sendView y := by
  have hseal : (fun j => (Function.update e.contacts i c j).sealView) = fun j => (e.contacts j).sealView := by
    funext j
    by_cases hj : j = i
    · rw [hj, Function.update_self, hs]
    · rw [Function.update_of_ne hj]
  have hown : (Function.update e.contacts i c y).blocked = (e.contacts y).blocked ∧
      (Function.update e.contacts i c y).winAck = (e.contacts y).winAck := by
    by_cases hi : i = y
    · obtain ⟨hb, ha⟩ := hy hi
      rw [← hi, Function.update_self]
      exact ⟨hb, ha⟩
    · rw [Function.update_of_ne (Ne.symm hi)]
      exact ⟨rfl, rfl⟩
  simp only [sendView, setContact, hseal, hown.1, hown.2]

theorem sendView_commitOk : e.commitOk.sendView y = e.sendView y := by
  unfold commitOk
  split
  · rename_i i n _
    have h : (e.setContact i { e.contacts i with txReserved := n }).sendView y = e.sendView y :=
      sendView_setContact rfl fun _ => ⟨rfl, rfl⟩
    exact h
  · rfl
  · rfl

theorem sendView_noteOrigin (bytes : List UInt8) (now : UInt64) :
    (e.noteOrigin C bytes now).sendView y = e.sendView y := by
  unfold noteOrigin
  split
  · rfl
  · split
    · rfl
    · rfl

theorem setBlocked_staged {id : UInt8} {blocked : Bool} {o : BlockOutcome}
    (h : e.setBlocked id blocked = .ok (e', o)) : e'.pendingPersist.isSome = true := by
  simp only [Engine.setBlocked, bind_eq_ok] at h
  obtain ⟨-, -, i, -, h⟩ := h
  have hstaged : ((e.setContact i { e.contacts i with blocked }).stagePersist .none).pendingPersist.isSome =
      true := rfl
  revert hstaged h
  generalize (e.setContact i { e.contacts i with blocked }).stagePersist .none = e₁
  intro h hstaged
  cases blocked with
  | false =>
      simp only [Bool.false_eq_true, if_false, pure_eq_ok, Prod.mk.injEq] at h
      exact h.1 ▸ hstaged
  | true =>
      simp only [if_true] at h
      split at h
      · split at h
        · simp only [pure_eq_ok, Prod.mk.injEq] at h
          exact h.1 ▸ hstaged
        · simp only [pure_eq_ok, Prod.mk.injEq] at h
          exact h.1 ▸ hstaged
      · simp only [pure_eq_ok, Prod.mk.injEq] at h
        exact h.1 ▸ hstaged

/-- Another contact's block, while the send in flight is to this one. -/
theorem sendView_setBlocked {id : UInt8} {blocked : Bool} {o : BlockOutcome} {ps : PendingSend}
    (hps : e.pendingSend = some ps) (hid : ps.contactId = contactId y) (hne : id ≠ contactId y)
    (h : e.setBlocked id blocked = .ok (e', o)) : e'.sendView y = e.sendView y := by
  simp only [Engine.setBlocked, bind_eq_ok] at h
  obtain ⟨-, -, i, hslot, h⟩ := h
  have hi : i ≠ y := fun hi => hne (hi ▸ (slotOf_ok hslot).2)
  have hother : ps.contactId ≠ id := fun heq => hne (heq.symm.trans hid)
  have hset : (e.setContact i { e.contacts i with blocked }).sendView y = e.sendView y :=
    sendView_setContact rfl fun heq => absurd heq hi
  have hview : ((e.setContact i { e.contacts i with blocked }).stagePersist .none).sendView y =
      e.sendView y := hset
  have hpend : ((e.setContact i { e.contacts i with blocked }).stagePersist .none).pendingSend =
      some ps := hps
  rw [hpend] at h
  dsimp only at h
  rw [if_neg hother] at h
  cases blocked with
  | false =>
      simp only [Bool.false_eq_true, if_false, pure_eq_ok, Prod.mk.injEq] at h
      exact h.1 ▸ hview
  | true =>
      simp only [if_true, pure_eq_ok, Prod.mk.injEq] at h
      exact h.1 ▸ hview

/-! #### Receiving -/

theorem transit_sendView {frame : List UInt8} {h : Header} {hlen : minFrameLen ≤ frame.length}
    {now : UInt64} : (e.transit C frame h hlen now).1.sendView y = e.sendView y := by
  unfold transit
  dsimp only
  split
  · rfl
  split
  · split
    · rfl
    · rfl
  · rfl

theorem buildAck_sendView {i : Slot} {h : Header} {pid : UInt32} :
    (e.buildAck C i h pid).1.sendView y = e.sendView y := by
  unfold buildAck
  split
  · rfl
  dsimp only
  split
  · rfl
  rename_i kind _
  split
  · rfl
  · have h : ((e.stagePersist kind).setContact i
        (((e.stagePersist kind).contacts i).consume e.epoch)).sendView y =
        (e.stagePersist kind).sendView y := sendView_setContact rfl fun _ => ⟨rfl, rfl⟩
    exact h

theorem acceptData_sendView {i : Slot} {win : Fin 3} {h : Header} {text : List UInt8} {pid : UInt32} :
    (e.acceptData C i win h text pid).1.sendView y = e.sendView y := by
  have hin : (e.acceptInData i win h.sequence).2.sendView y = e.sendView y :=
    sendView_setContact rfl fun _ => ⟨rfl, rfl⟩
  unfold acceptData
  split
  · rename_i heq
    rw [heq] at hin
    exact buildAck_sendView.trans hin
  · rename_i heq
    rw [heq] at hin
    exact buildAck_sendView.trans hin
  · rename_i heq
    rw [heq] at hin
    exact hin

/-- An acknowledgement of another contact. -/
theorem acceptAck_sendView {i : Slot} {win : Fin 3} {h : Header} {ref : List UInt8} (hi : i ≠ y) :
    (e.acceptAck i win h ref).1.sendView y = e.sendView y := by
  have hin : (e.acceptInAck i win h.sequence).2.sendView y = e.sendView y :=
    sendView_setContact rfl fun heq => absurd heq hi
  unfold acceptAck
  dsimp only
  split
  · rename_i heq
    rw [heq] at hin
    split
    · split
      · exact hin
      · exact hin
    · exact hin
  · rename_i heq
    rw [heq] at hin
    exact hin

/-- A frame that opens as an acknowledgement of the contact in a slot. -/
def AckFrom (C : Crypto) (e : Engine) (y : Slot) (frame : List UInt8) : Prop :=
  ∃ h body win b ref, decodeFrame frame = .ok (h, body) ∧
    e.tryContact C y h body = .opened win (b :: ref) ∧ b ≠ bodyData

/-- A frame leaves what the send reads, but an acknowledgement of its contact. -/
theorem onFrame_sendView {frame : List UInt8} {now : UInt64} {pid : UInt32}
    (hack : ¬ e.AckFrom C y frame) : (e.onFrame C frame now pid).1.sendView y = e.sendView y := by
  unfold onFrame
  split
  swap
  · rfl
  split
  · rfl
  rename_i h body hd
  split
  · rfl
  split
  · rfl
  split
  · exact transit_sendView
  split
  · exact transit_sendView
  obtain ⟨as, failed, r, hscan, hfound⟩ := scan_spec (C := C) h body (List.finRange maxContacts) e false
  rw [hscan]
  cases r with
  | none =>
      refine transit_sendView.trans ?_
      unfold countFailure
      split
      · rfl
      · rfl
  | some x =>
      obtain ⟨i, win, pt⟩ := x
      have hopened := hfound i win pt rfl
      dsimp only
      unfold acceptBody
      split
      · rfl
      split
      · rfl
      rename_i b rest
      split
      · exact acceptData_sendView
      · rename_i hb
        refine acceptAck_sendView fun hi => hack ?_
        subst hi
        exact ⟨h, body, win, b, rest, hd, hopened, hb⟩

/-! #### What is read is what decides -/

/-- A scan finds what the contacts make of the frame. -/
theorem scan_congr {h : Header} {body : List UInt8} : ∀ (is : List Slot) {e e' : Engine}
    (failed failed' : Bool), (∀ i, e'.tryContact C i h body = e.tryContact C i h body) →
      (scan C h body is e' failed').2.2 = (scan C h body is e failed).2.2
  | [], _, _, _, _, _ => rfl
  | i :: is, e, e', failed, failed', ht => by
      have htouch (e : Engine) (j : Slot) :
          (e.touchAliases C i h).tryContact C j h body = e.tryContact C j h body := by
        rw [touchAliases_eq]
        rfl
      have hrest (j : Slot) : (e'.touchAliases C i h).tryContact C j h body =
          (e.touchAliases C i h).tryContact C j h body := by rw [htouch, htouch, ht]
      rw [scan, scan, hrest i]
      cases (e.touchAliases C i h).tryContact C i h body with
      | skip => exact scan_congr is failed failed' hrest
      | badTag => exact scan_congr is true true hrest
      | opened win pt => rfl

section

variable (hv : e'.sendView y = e.sendView y)

include hv

theorem sealView_of_view (i : Slot) : (e'.contacts i).sealView = (e.contacts i).sealView := by
  simp only [sendView, Prod.mk.injEq] at hv
  exact congrFun hv.2.1 i

/-- Every contact makes of a frame what it made before. -/
theorem tryContact_of_view (i : Slot) (h : Header) (body : List UInt8) :
    e'.tryContact C i h body = e.tryContact C i h body := by
  have hi := sealView_of_view hv i
  simp only [Contact.sealView, Prod.mk.injEq] at hi
  obtain ⟨⟨hp, hr, hid⟩, ⟨hlr, hrl, hs⟩, hw⟩ := hi
  have hu : e'.uid = e.uid := congrArg (fun v => v.1.1.2.2) hv
  simp only [tryContact, Contact.ownAlias, Contact.peerAlias, Contact.incomingKey, hu, hp, hr, hid, hlr,
    hrl, hs, hw]
  rfl

/-- The retry is the same. -/
theorem sendRetryEcho_of_view : e'.sendRetryEcho C = e.sendRetryEcho C := by
  have hseal := sealView_of_view hv
  simp only [Contact.sealView, Prod.mk.injEq] at hseal
  have hp : e'.pendingSend = e.pendingSend := congrArg (fun v => v.1.1.1) hv
  have ht : e'.pendingText = e.pendingText := congrArg (fun v => v.1.1.2.1) hv
  have hu : e'.uid = e.uid := congrArg (fun v => v.1.1.2.2) hv
  have hslot (id : UInt8) : e'.slotOf id = e.slotOf id := by
    simp only [slotOf, (hseal _).1.1]
  have henv (i : Slot) (ps : PendingSend) : (e'.contacts i).dataEnvelope C e'.uid ps e'.pendingText =
      (e.contacts i).dataEnvelope C e.uid ps e.pendingText := by
    obtain ⟨⟨-, hr, hid⟩, ⟨hlr, hrl, hs⟩, -⟩ := hseal i
    simp only [Contact.dataEnvelope, Contact.envelope, Contact.outgoingKey, Contact.peerAlias,
      Contact.ownAlias, hr, hid, hlr, hrl, hs, hu, ht]
  simp only [sendRetryEcho, hp, hslot, henv]

omit hv in
theorem transit_kind {frame : List UInt8} {h : Header} {hlen : minFrameLen ≤ frame.length}
    {now : UInt64} (c : UInt8) : (e.transit C frame h hlen now).2.1 ≠ .ack c := by
  unfold transit
  dsimp only
  split
  · intro hk
    cases hk
  split
  · split
    · intro hk
      cases hk
    · intro hk
      cases hk
  · intro hk
    cases hk

omit hv in
/-- Only an authenticated ACK body acknowledges, and its own contact's send. -/
theorem acceptBody_ack {i : Slot} {win : Fin 3} {h : Header} {pt : List UInt8} {pid : UInt32} {c : UInt8}
    (hack : (e.acceptBody C i win h pt pid).2.1 = .ack c) :
    c = contactId i ∧ (e.contacts i).blocked = false ∧ ∃ b ref, pt = b :: ref ∧ b ≠ bodyData := by
  unfold acceptBody at hack
  split at hack
  · cases hack
  rename_i hblocked
  split at hack
  · cases hack
  rename_i b ref
  split at hack
  · unfold acceptData at hack
    split at hack
    · cases hack
    · cases hack
    · cases hack
  rename_i hb
  refine ⟨?_, Bool.eq_false_of_not_eq_true hblocked, b, ref, rfl, hb⟩
  unfold acceptAck at hack
  dsimp only at hack
  split at hack
  · split at hack
    · split at hack
      · cases hack
        rfl
      · cases hack
    · cases hack
  · cases hack

theorem ackFrom_of_view {frame : List UInt8} (h : e'.AckFrom C y frame) : e.AckFrom C y frame := by
  obtain ⟨hdr, body, win, b, ref, hd, hopen, hb⟩ := h
  exact ⟨hdr, body, win, b, ref, hd, (tryContact_of_view hv y hdr body).symm.trans hopen, hb⟩

theorem acceptAck_of_view (win : Fin 3) (h : Header) (ref : List UInt8) :
    (e'.acceptAck y win h ref).2 = (e.acceptAck y win h ref).2 := by
  have hp : e'.pendingSend = e.pendingSend := congrArg (fun v => v.1.1.1) hv
  have hw : (e'.contacts y).winAck = (e.contacts y).winAck := congrArg (fun v => v.2.2.2) hv
  have hset (e : Engine) (c : Contact) :
      ((e.setContact y c).stagePersist .rxAccept).pendingSend = e.pendingSend := rfl
  unfold acceptAck acceptInAck
  dsimp only
  rw [hw]
  cases (((e.contacts y).winAck win).accept h.sequence).1 with
  | accepted =>
      dsimp only
      rw [hset, hset, hp]
      split
      · split
        · rfl
        · rfl
      · rfl
  | duplicate => rfl
  | stale => rfl

/-- An acknowledgement of the contact is answered as before. -/
theorem acceptBody_of_view {i : Slot} {win : Fin 3} {h : Header} {pt : List UInt8} {pid : UInt32}
    (hack : (e.acceptBody C i win h pt pid).2.1 = .ack (contactId y)) :
    (e'.acceptBody C i win h pt pid).2 = (e.acceptBody C i win h pt pid).2 := by
  obtain ⟨hi, hblocked, b, ref, rfl, hb⟩ := acceptBody_ack hack
  obtain rfl := contactId_injective hi
  have hbl : (e'.contacts y).blocked = (e.contacts y).blocked := congrArg (fun v => v.2.2.1) hv
  simp only [acceptBody, hbl, hblocked, Bool.false_eq_true, if_false, if_neg hb]
  exact acceptAck_of_view hv win h ref

omit hv in
/-- Only a frame of a contact acknowledges a send to it. -/
theorem onFrame_ack_from {frame : List UInt8} {now : UInt64} {pid : UInt32} {c : UInt8}
    (hack : (e.onFrame C frame now pid).2.1 = .ack c) : ∃ i, c = contactId i ∧ e.AckFrom C i frame := by
  unfold onFrame at hack
  split at hack
  swap
  · cases hack
  split at hack
  · cases hack
  rename_i h body hd
  split at hack
  · cases hack
  split at hack
  · cases hack
  split at hack
  · exact absurd hack (transit_kind c)
  split at hack
  · exact absurd hack (transit_kind c)
  obtain ⟨as, failed, r, hscan, hfound⟩ := scan_spec (C := C) h body (List.finRange maxContacts) e false
  rw [hscan] at hack
  cases r with
  | none => exact absurd hack (transit_kind c)
  | some x =>
      obtain ⟨i, win, pt⟩ := x
      obtain ⟨hc, -, b, ref, rfl, hb⟩ := acceptBody_ack hack
      exact ⟨i, hc, h, body, win, b, ref, hd, hfound i win _ rfl, hb⟩

/-- A frame that acknowledges the send is answered as before. -/
theorem onFrame_of_view {frame : List UInt8} {now : UInt64} {pid : UInt32}
    (hack : (e.onFrame C frame now pid).2.1 = .ack (contactId y)) :
    (e'.onFrame C frame now pid).2 = (e.onFrame C frame now pid).2 := by
  have hp : e'.provisioned = e.provisioned := congrArg (fun v => v.1.2.1.1) hv
  have hf : e'.fault = e.fault := congrArg (fun v => v.1.2.1.2.1) hv
  have hu : e'.unixSeconds = e.unixSeconds := congrArg (fun v => v.1.2.2.1) hv
  have ht : e'.timeValid = e.timeValid := congrArg (fun v => v.1.2.2.2) hv
  have he : e'.epoch = e.epoch := by rw [epoch, epoch, hu, ht]
  by_cases hmin : minFrameLen ≤ frame.length
  swap
  · simp only [onFrame, dif_neg hmin]
  simp only [onFrame, dif_pos hmin, hp, hf, ht, he] at hack ⊢
  cases hd : decodeFrame frame with
  | error x => rfl
  | ok r =>
      obtain ⟨h, body⟩ := r
      simp only [hd] at hack ⊢
      by_cases hver : h.version ≠ versionSecure
      · rw [if_pos hver, if_pos hver]
      rw [if_neg hver] at hack ⊢
      rw [if_neg hver]
      by_cases hhops : h.hops > 1
      · rw [if_pos hhops, if_pos hhops]
      rw [if_neg hhops] at hack ⊢
      rw [if_neg hhops]
      by_cases hready : (!e.provisioned || e.fault || !e.timeValid) = true
      · rw [if_pos hready] at hack
        exact absurd hack (transit_kind _)
      rw [if_neg hready] at hack ⊢
      rw [if_neg hready]
      by_cases hwin : (!inAcceptWindow h.epoch e.epoch) = true
      · rw [if_pos hwin] at hack
        exact absurd hack (transit_kind _)
      rw [if_neg hwin] at hack ⊢
      rw [if_neg hwin]
      have hfound := scan_congr (C := C) (h := h) (List.finRange maxContacts) false false
        (fun i => tryContact_of_view hv i h body)
      obtain ⟨as, failed, r, hscan, -⟩ :=
        scan_spec (C := C) h body (List.finRange maxContacts) e false
      obtain ⟨as', failed', r', hscan', -⟩ :=
        scan_spec (C := C) h body (List.finRange maxContacts) e' false
      rw [hscan, hscan'] at hfound
      obtain rfl : r' = r := hfound
      rw [hscan] at hack ⊢
      rw [hscan']
      cases r' with
      | none => exact absurd hack (transit_kind _)
      | some x =>
          have hv' : ({ e' with aliases := as' } : Engine).sendView y =
              ({ e with aliases := as } : Engine).sendView y := hv
          exact acceptBody_of_view hv' hack

end

end Engine

/-- An echo is the frame of its send once more, whatever came between: every operation that leaves
the send in flight, as receptions, acknowledgements, commits, changes of the time and of other
contacts. -/
theorem retry_identical (C : Crypto) (e : Engine) (f : OutgoingFrame) (ops : List Op)
    (hemit : (e.sendEmit C).2 = .ok f)
    (hops : Along (fun e op => (step C e op).1) (fun e op => e.Leaves C op) (e.sendEmit C).1 ops) :
    (run (fun e op => (step C e op).1) (e.sendEmit C).1 ops).sendRetryEcho C =
      .ok { f with isRetryEcho := true } := by
  obtain ⟨v, ps, i, hholds, hb, hf⟩ := Engine.holds_sendEmit hemit
  have hend := run_invariant (fun _ _ h hl => Engine.Holds.step h hl) ops hholds hops
  rw [hend.sendRetryEcho hb, hf]

namespace Sample

/-- The sample device with a send reserved. -/
def reserved : Engine := after (.new true) (sending ++ [.commitOk])

/-- The commit of the frame, an hour change and its commit, a foreign frame and a refused block. -/
def meanwhile : List Op :=
  [.commitOk, .setTime 10800 false, .commitOk, .onFrame [1, 2, 3] 5 7, .setBlocked 2 true]

end Sample

/-- The echo of the sample device in the next hour. -/
theorem retry_identical_sample :
    ∃ f, (Sample.reserved.sendEmit Sample.crypto).2 = .ok f ∧
      (run (fun e op => (step Sample.crypto e op).1) (Sample.reserved.sendEmit Sample.crypto).1
        Sample.meanwhile).sendRetryEcho Sample.crypto = .ok { f with isRetryEcho := true } := by
  have hsome : (Sample.reserved.sendEmit Sample.crypto).2.toOption.isSome = true := by
    decide +kernel
  cases hf : (Sample.reserved.sendEmit Sample.crypto).2 with
  | error x => rw [hf] at hsome; cases hsome
  | ok f =>
      exact ⟨f, rfl, retry_identical Sample.crypto Sample.reserved f Sample.meanwhile hf
        (by decide +kernel)⟩

end LoraMesh
