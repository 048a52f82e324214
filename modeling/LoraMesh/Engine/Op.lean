import LoraMesh.Engine.Receive

/-!
# Engine — Op

The public operations of the engine as one step function, and everything a step can do.

* `step_moves`: a step is quiet, stages the state as it is, or is one of the named moves of
  `Moves`.  The invariants of the later modules are proved by cases on it.
-/

namespace LoraMesh

/-- The public operations that change or use the engine. -/
inductive Op where
  | setMonoS (now : UInt64)
  | advanceTime (nowMonoS : UInt64)
  | markFault
  | setRadioAvailable (available : Bool)
  | setIdentity (uid : Bytes 8)
  | provision (label : UInt8) (signPriv : Bytes 32)
  | setTime (unixSeconds : UInt64) (confirmed : Bool)
  | setRadio (enabled : Bool)
  | armNextBoot
  | consumeBootArm
  | pairOffer (ephPriv ephPub challenge : Bytes 32)
  | pairCancel
  | pairImport (record : List UInt8) (replace sasMatch : Bool)
  | pairProof
  | pairConfirm
  | sendBegin (id : UInt8) (text : List UInt8) (packetId : UInt32)
  | sendEmit
  | sendRetryEcho
  | sendComplete
  | onFrame (frame : List UInt8) (nowMs : UInt64) (ackPacketId : UInt32)
  | noteOrigin (bytes : List UInt8) (nowMs : UInt64)
  | deleteContact (id : UInt8)
  | setBlocked (id : UInt8) (blocked : Bool)
  | commitOk
  | discardStaged
  | restore (bytes : List UInt8)

/-- The operations but those by which the caller resolves what is staged. -/
def Op.free : Op → Bool
  | .commitOk => false
  | .discardStaged => false
  | .restore _ => false
  | _ => true

/-- What an operation answers. -/
inductive Output where
  | done
  | unit (r : Except EngineError Unit)
  | hour (r : Except EngineError UInt32)
  | armed (r : Except EngineError Bool)
  | record (r : Except EngineError (List UInt8))
  | imported (r : Except EngineError PairImportOutcome)
  | send (r : Except EngineError PendingSend)
  | frame (r : Except EngineError OutgoingFrame)
  | incoming (r : Incoming)
  | block (r : Except EngineError BlockOutcome)

namespace Output

/-- The frame an answer asks to transmit. -/
def frame? : Output → Option OutgoingFrame
  | frame (.ok f) => some f
  | incoming (_, f, _) => f
  | _ => none

def event? : Output → Option NodeEvent
  | incoming (_, _, ev) => ev
  | _ => none

/-- The contact an answer reports activated. -/
def activated? : Output → Option UInt8
  | imported (.ok o) => o.contactId
  | _ => none

/-- No frame of our own sealing, no event, no activation. -/
def Silent (o : Output) : Prop :=
  (∀ f, o.frame? = some f → f.envelope = none) ∧ o.event? = none ∧ o.activated? = none

theorem silent_done : Silent done := ⟨fun _ h => (nomatch h), rfl, rfl⟩

theorem silent_unit (r : Except EngineError Unit) : (unit r).Silent := ⟨fun _ h => (nomatch h), rfl, rfl⟩

theorem silent_hour (r : Except EngineError UInt32) : (hour r).Silent :=
  ⟨fun _ h => (nomatch h), rfl, rfl⟩

theorem silent_armed (r : Except EngineError Bool) : (armed r).Silent :=
  ⟨fun _ h => (nomatch h), rfl, rfl⟩

theorem silent_record (r : Except EngineError (List UInt8)) : (record r).Silent :=
  ⟨fun _ h => (nomatch h), rfl, rfl⟩

theorem silent_imported {r : Except EngineError PairImportOutcome}
    (h : ∀ o, r = .ok o → o.contactId = none) : (imported r).Silent := by
  refine ⟨fun _ h => (nomatch h), rfl, ?_⟩
  cases r with
  | error x => rfl
  | ok o => exact h o rfl

theorem silent_ignored : (incoming .ignored).Silent := ⟨fun _ h => (nomatch h), rfl, rfl⟩

theorem silent_forward {k : IncomingKind} {f : OutgoingFrame} (h : f.envelope = none) :
    (incoming (k, some f, none)).Silent :=
  ⟨fun _ hf => Option.some.inj hf ▸ h, rfl, rfl⟩

end Output

/-- The state and answer of an operation whose failures change nothing. -/
def settle {α : Type} (e : Engine) (r : Except EngineError (Engine × α)) :
    Engine × Except EngineError α :=
  match r with
  | .ok (e', a) => (e', .ok a)
  | .error x => (e, .error x)

/-- The state with the answer put as an output. -/
def answer {α : Type} (f : α → Output) (r : Engine × α) : Engine × Output := (r.1, f r.2)

/-- One operation. -/
def step (C : Crypto) (e : Engine) : Op → Engine × Output
  | .setMonoS now => (e.setMonoS now, .done)
  | .advanceTime now => answer .unit (e.advanceTime now)
  | .markFault => (e.markFault, .done)
  | .setRadioAvailable available => (e.setRadioAvailable available, .done)
  | .setIdentity uid => (e.setIdentity uid, .done)
  | .provision label signPriv => answer .unit (settle e (e.provision label signPriv))
  | .setTime s confirmed => answer .hour (e.setTimeConfirmed s confirmed)
  | .setRadio enabled => answer .unit (settle e (e.setRadio enabled))
  | .armNextBoot => answer .unit (settle e e.armNextBoot)
  | .consumeBootArm => answer .armed (settle e e.consumeBootArm)
  | .pairOffer ephPriv ephPub challenge =>
    answer .record (settle e (e.pairOffer C ephPriv ephPub challenge))
  | .pairCancel => (e.pairCancel, .done)
  | .pairImport record replace sasMatch =>
    answer .imported (settle e (e.pairImportSas C record replace sasMatch))
  | .pairProof => answer .record (settle e (e.pairProof C))
  | .pairConfirm => answer .record (settle e (e.pairConfirm C))
  | .sendBegin id text packetId => answer .send (settle e (e.sendBegin id text packetId))
  | .sendEmit => answer .frame (e.sendEmit C)
  | .sendRetryEcho => (e, .frame (e.sendRetryEcho C))
  | .sendComplete => (e.sendComplete, .done)
  | .onFrame frame nowMs ackPacketId => answer .incoming (e.onFrame C frame nowMs ackPacketId)
  | .noteOrigin bytes nowMs => (e.noteOrigin C bytes nowMs, .done)
  | .deleteContact id => answer .unit (settle e (e.deleteContact id))
  | .setBlocked id blocked => answer .block (settle e (e.setBlocked id blocked))
  | .commitOk => (e.commitOk, .done)
  | .discardStaged => (e.discardStaged, .done)
  | .restore bytes => answer .unit (settle e (e.restore C bytes))

/-! ### Moves -/

/-- The staged snapshot is of the state as it is. -/
structure Engine.Staged (e : Engine) (kind : StagedCommit) : Prop where
  staged : e.staged = some kind
  dirty : e.persistDirty = true
  scratch : e.persistScratch = encodeInto e.persistView

theorem Engine.staged_stagePersist (e : Engine) (kind : StagedCommit) :
    (e.stagePersist kind).Staged kind := ⟨rfl, rfl, rfl⟩

/-- The identity bound at boot, and whether it is. -/
def Engine.identity (e : Engine) : Bytes 8 × Bool := (e.uid, e.uidSet)

/-- A pending attempt with the slot and role of the one before it, or with a free slot; a proof of
ours in it was there before or names a bound identity. -/
structure PendingKept (e : Engine) (p' : PendingPair) : Prop where
  slot : (∃ p, e.pending = some p ∧ p'.slot = p.slot) ∨ (e.contacts p'.slot).present = false
  role : (∃ p, e.pending = some p ∧ p'.ownRole = p.ownRole) ∨ p'.ownRole ≤ 1
  ownProof : p'.ownProof.isSome = true →
    (∃ p, e.pending = some p ∧ p.ownProof.isSome = true) ∨ e.uidSet = true

theorem PendingKept.self {e : Engine} {p : PendingPair} (h : e.pending = some p) :
    PendingKept e p := ⟨.inl ⟨p, h, rfl⟩, .inl ⟨p, h, rfl⟩, fun hp => .inl ⟨p, h, hp⟩⟩

/-- What every operation but a restore and those of the ceremony keeps: the label stays in range,
and a pending attempt and a send in flight are kept or dropped. -/
structure Kept (e e' : Engine) : Prop where
  label : e'.label = e.label ∨ e'.label ≤ 3
  pending : e'.pending = e.pending ∨ e'.pending = none
  pendingSend : e'.pendingSend = e.pendingSend ∨ e'.pendingSend = none
  pendingText : e'.pendingText = e.pendingText
  floor : e.persistedTxEpoch ≤ e'.persistedTxEpoch

/-- The trusted time, whether there is one, and the greatest epoch sent under. -/
def Engine.clock (e : Engine) : UInt64 × Bool × UInt32 :=
  (e.unixSeconds, e.timeValid, e.persistedTxEpoch)

/-- A step within the hour: it sets no time. -/
structure Steady (e e' : Engine) : Prop extends Kept e e' where
  hour : e'.timeValid = true → e.timeValid = true ∧ e'.epoch = e.epoch

theorem Steady.of_clock {e e' : Engine} (hl : e'.label = e.label ∨ e'.label ≤ 3)
    (hp : e'.pending = e.pending ∨ e'.pending = none)
    (hs : e'.pendingSend = e.pendingSend ∨ e'.pendingSend = none)
    (ht : e'.pendingText = e.pendingText) (hc : e'.clock = e.clock) : Steady e e' := by
  simp only [Engine.clock, Prod.mk.injEq] at hc
  obtain ⟨hu, hv, hf⟩ := hc
  refine ⟨⟨hl, hp, hs, ht, hf ▸ UInt32.le_refl _⟩, fun h => ⟨hv ▸ h, ?_⟩⟩
  rw [Engine.epoch, Engine.epoch, hu, hv]

theorem Steady.of_eq {e e' : Engine} (hl : e'.label = e.label) (hp : e'.pending = e.pending)
    (hs : e'.pendingSend = e.pendingSend) (ht : e'.pendingText = e.pendingText)
    (hc : e'.clock = e.clock) : Steady e e' :=
  .of_clock (.inl hl) (.inl hp) (.inl hs) ht hc

/-- A step that leaves the contacts, the identity and the staging alone. -/
structure Quiet (e e' : Engine) : Prop extends Steady e e' where
  contacts : e'.contacts = e.contacts
  identity : e'.identity = e.identity
  staged : e'.staged = e.staged
  dirty : e'.persistDirty = e.persistDirty
  scratch : e'.persistScratch = e.persistScratch

theorem Quiet.refl (e : Engine) : Quiet e e :=
  ⟨.of_eq rfl rfl rfl rfl rfl, rfl, rfl, rfl, rfl, rfl⟩

/-- The acknowledgement of a reception that left the slot with `c`: none, or the next sequence
consumed and, if the block was spent, a new one staged. -/
inductive Acked (C : Crypto) (e : Engine) (slot : Slot) (c : Contact) (h : Header) (pid : UInt32) :
    Engine → Option OutgoingFrame → Prop where
  | without {e' : Engine} {kind : StagedCommit} (hk : kind = .none ∨ kind = .rxAccept)
      (hc : e'.contacts = Function.update e.contacts slot c) (hs : e'.Staged kind) :
      Acked C e slot c h pid e' none
  | acked {e' : Engine} {kind : StagedCommit} {bytes : List UInt8}
      (hr : e.reservation slot .rxAccept = some kind)
      (hb : sealFrame C (c.ackEnvelope C e.uid h pid e.epoch) (17 + tagLen) = .ok bytes)
      (hc : e'.contacts = Function.update e.contacts slot (c.consume e.epoch))
      (hv : e.timeValid = true) (hfloor : e.epoch ≤ e'.persistedTxEpoch) (hs : e'.Staged kind) :
      Acked C e slot c h pid e' (some
        { bytes, contactId := some (contactId slot), isAck := true, isRetryEcho := false
          envelope := some (c.ackEnvelope C e.uid h pid e.epoch) })

/-- A text that may be sent now, to the contact in a slot. -/
structure Engine.Sendable (e : Engine) (slot : Slot) (text : List UInt8) : Prop where
  timeValid : e.timeValid = true
  blocked : (e.contacts slot).blocked = false
  text : text ≠ [] ∧ text.length ≤ maxTextLen ∧ fromUtf8 text = true
  epoch : ¬ e.epoch < (e.contacts slot).txEpochMax

/-- A received frame opens under the contact in a slot. -/
structure Opens (C : Crypto) (e : Engine) (frame : List UInt8) (slot : Slot) (h : Header)
    (body : List UInt8) (win : Fin 3) (plaintext : List UInt8) : Prop where
  decoded : decodeFrame frame = .ok (h, body)
  timeValid : e.timeValid = true
  epoch : inAcceptWindow h.epoch e.epoch = true
  opened : e.tryContact C slot h body = .opened win plaintext
  blocked : (e.contacts slot).blocked = false

/-- A call of the ceremony that changes the pending attempt and activates nothing. -/
inductive Pairs (C : Crypto) (e : Engine) : Op → Engine → Output → Prop where
  | offered {ephPriv ephPub challenge : Bytes 32} {e' : Engine} {r : List UInt8}
      (hn : ∀ p, e.livePending ≠ .ok p)
      (h : e.freshOffer C ephPriv ephPub challenge = .ok (e', r)) :
      Pairs C e (.pairOffer ephPriv ephPub challenge) e' (.record (.ok r))
  | offer {record : List UInt8} {replace sasMatch : Bool} {p : PendingPair} {e' : Engine}
      {o : PairImportOutcome} (hp : e.livePending = .ok p)
      (h : e.importOffer C p record replace = .ok (e', o)) :
      Pairs C e (.pairImport record replace sasMatch) e' (.imported (.ok o))
  | proof {record : List UInt8} {replace sasMatch : Bool} {p : PendingPair} {e' : Engine}
      {o : PairImportOutcome} (hp : e.livePending = .ok p)
      (h : e.importProof C p record = .ok (e', o)) :
      Pairs C e (.pairImport record replace sasMatch) e' (.imported (.ok o))
  | ownProof {p : PendingPair} {t : Bytes 32} {e' : Engine} {r : List UInt8}
      (hp : e.livePending = .ok p) (ht : p.transcript = some t) (hn : p.ownProof = none)
      (h : e.freshProof C p t = .ok (e', r)) :
      Pairs C e .pairProof e' (.record (.ok r))
  | ownConfirm {p : PendingPair} {t : Bytes 32} {e' : Engine} {r : List UInt8}
      (hp : e.livePending = .ok p) (ht : p.transcript = some t) (hn : p.ownConfirm = none)
      (h : e.freshConfirm C p t = .ok (e', r)) :
      Pairs C e .pairConfirm e' (.record (.ok r))

/-- The event of an accepted DATA frame. -/
def receivedEvent (v : Verdict) (slot : Slot) (h : Header) (text : List UInt8) : Option NodeEvent :=
  if v = .accepted then some (.received (contactId slot) h.epoch h.sequence text) else none

/-- Everything one operation can do. -/
inductive Moves (C : Crypto) (e : Engine) : Op → Engine → Output → Prop where
  | quiet {op : Op} {e' : Engine} {out : Output} (h : Quiet e e') (ho : out.Silent) :
      Moves C e op e' out
  | pairing {op : Op} {e' : Engine} {out : Output} (h : Pairs C e op e' out) : Moves C e op e' out
  | restage {op : Op} {e' : Engine} {out : Output} {kind : StagedCommit}
      (hk : kind = .none ∨ kind = .provision) (h : Steady e e') (hc : e'.contacts = e.contacts)
      (hu : e'.identity = e.identity ∨ op = .setIdentity e'.uid ∧ e'.uidSet = true) (hs : e'.Staged kind) (ho : out.Silent) :
      Moves C e op e' out
  | setTime {op : Op} {e' : Engine} {out : Output} {s : UInt64} {newEpoch : UInt32}
      (hf : ∀ i, (e.contacts i).present = true → ¬ newEpoch < (e.contacts i).anchor.anchor)
      (hc : ∀ i, e'.contacts i = e.contacts i ∧ (e.contacts i).present = false ∨
        (e.contacts i).present = true ∧
          ∃ init, e'.contacts i = Engine.rotateContact (e.contacts i) ⟨newEpoch⟩ init newEpoch)
      (h : Kept e e') (hv : e'.timeValid = true ∧ e'.epoch = newEpoch)
      (hfloor : ¬ newEpoch < e.persistedTxEpoch) (hu : e'.identity = e.identity)
      (hs : e'.Staged (.time s)) (ho : out.Silent) :
      Moves C e op e' out
  | sendBegin {id : UInt8} {text : List UInt8} {pid : UInt32} {slot : Slot} {kind : StagedCommit}
      (hslot : e.slotOf id = .ok slot) (hr : e.reservation slot .none = some kind)
      (hn : e.pendingSend = none) (hs : e.Sendable slot text) :
      Moves C e (.sendBegin id text pid)
        { e.stagePersist kind with
          pendingText := text
          pendingSend := some ⟨id, e.epoch, (e.contacts slot).txNext, pid⟩ }
        (.send (.ok ⟨id, e.epoch, (e.contacts slot).txNext, pid⟩))
  | sendEmit {e' : Engine} {ps : PendingSend} {slot : Slot} {bytes : List UInt8}
      (hr : e.sendReady = .ok (ps, slot))
      (hb : sealFrame C ((e.contacts slot).dataEnvelope C e.uid ps e.pendingText)
        (1 + maxTextLen + tagLen) = .ok bytes)
      (hc : e'.contacts = Function.update e.contacts slot ((e.contacts slot).consume ps.epoch))
      (h : Steady e e') (hfloor : ps.epoch ≤ e'.persistedTxEpoch)
      (hp : e'.pendingSend = e.pendingSend) (hu : e'.identity = e.identity) (hs : e'.Staged .none) :
      Moves C e .sendEmit e' (.frame (.ok
        { bytes, contactId := some ps.contactId, isAck := false, isRetryEcho := false
          envelope := some ((e.contacts slot).dataEnvelope C e.uid ps e.pendingText) }))
  | retry {ps : PendingSend} {slot : Slot} {bytes : List UInt8} (hp : e.pendingSend = some ps)
      (hslot : e.slotOf ps.contactId = .ok slot)
      (hb : sealFrame C ((e.contacts slot).dataEnvelope C e.uid ps e.pendingText)
        (1 + maxTextLen + tagLen) = .ok bytes) :
      Moves C e .sendRetryEcho e (.frame (.ok
        { bytes, contactId := some ps.contactId, isAck := false, isRetryEcho := true
          envelope := some ((e.contacts slot).dataEnvelope C e.uid ps e.pendingText) }))
  | recvData {frame : List UInt8} {now : UInt64} {pid : UInt32} {slot : Slot} {h : Header}
      {body text : List UInt8} {win : Fin 3} {kind : IncomingKind} {e' : Engine}
      {f : Option OutgoingFrame} {v : Verdict} {w : ReplayWindow}
      (ho : Opens C e frame slot h body win (bodyData :: text))
      (hw : ((e.contacts slot).winData win).accept h.sequence = (v, w)) (hv : v ≠ .stale)
      (ha : Acked C e slot ((e.contacts slot).setData win w) h pid e' f)
      (hk : Steady e e') (hp : e'.pendingSend = e.pendingSend) (hu : e'.identity = e.identity) :
      Moves C e (.onFrame frame now pid) e' (.incoming (kind, f, receivedEvent v slot h text))
  | recvAck {frame : List UInt8} {now : UInt64} {pid : UInt32} {slot : Slot} {h : Header}
      {b : UInt8} {body ref : List UInt8} {win : Fin 3} {kind : IncomingKind} {e' : Engine}
      {ev : Option NodeEvent} {w : ReplayWindow}
      (ho : Opens C e frame slot h body win (b :: ref)) (hb : b ≠ bodyData)
      (hw : ((e.contacts slot).winAck win).accept h.sequence = (.accepted, w))
      (hc : e'.contacts = Function.update e.contacts slot ((e.contacts slot).setAck win w))
      (hev : ∀ x, ev = some x → ∃ ps, e.pendingSend = some ps ∧ ps.contactId = contactId slot ∧
        ps.epoch = ofBe32 (ref.take 4) ∧ ps.sequence = ofBe64 ((ref.drop 4).take 8) ∧
        ps.packetId = ofBe32 ((ref.drop 12).take 4) ∧
        x = .sendAcked ps.contactId ps.epoch ps.sequence ps.packetId)
      (hk : Steady e e') (hp : e'.pendingSend = e.pendingSend) (hu : e'.identity = e.identity)
      (hs : e'.Staged .rxAccept) :
      Moves C e (.onFrame frame now pid) e' (.incoming (kind, none, ev))
  | delete {id : UInt8} {slot : Slot} {e' : Engine} (hslot : e.slotOf id = .ok slot)
      (hc : e'.contacts = Function.update e.contacts slot .empty) (h : Steady e e')
      (hp : ∀ ps, e'.pendingSend = some ps → ps.contactId ≠ id) (hu : e'.identity = e.identity)
      (hs : e'.Staged .none) :
      Moves C e (.deleteContact id) e' (.unit (.ok ()))
  | block {id : UInt8} {blocked : Bool} {slot : Slot} {e' : Engine} {o : BlockOutcome}
      (hslot : e.slotOf id = .ok slot)
      (hc : e'.contacts = Function.update e.contacts slot { e.contacts slot with blocked })
      (h : Steady e e') (hp : blocked = true → ∀ ps, e'.pendingSend = some ps → ps.contactId ≠ id)
      (hu : e'.identity = e.identity) (hs : e'.Staged .none) :
      Moves C e (.setBlocked id blocked) e' (.block (.ok o))
  | activate {record : List UInt8} {replace : Bool} {p : PendingPair} {c : Engine.Confirmed}
      (hp : e.pending = some p) (hx : isExpired p.startMonoS e.monoS = false)
      (hu : e.checkUsable = .ok ()) (hr : e.radioOn = false)
      (hc : Engine.checkConfirm C p record = .ok c) :
      Moves C e (.pairImport record replace true)
        ((e.activateContact C p.slot c.peerEd c.peerId c.root p.ownRole).stagePersist
          (.pairActivate p.slot))
        (.imported (.ok
          { step := .active, fingerprint := transcriptFingerprint c.t
            contactId := some (contactId p.slot) }))
  | commitOk : Moves C e .commitOk e.commitOk .done
  | discard : Moves C e .discardStaged e.discardStaged .done
  | restore {bytes : List UInt8} {v : PersistView} (hd : decodeView bytes = .ok v) :
      Moves C e (.restore bytes) (e.restoreView C v) (.unit (.ok ()))

/-! ### The clock -/

theorem not_lt_max {n a b : UInt32} (h : ¬ n < max a b) : ¬ n < a ∧ ¬ n < b := by
  have hmax : max a b = if a ≤ b then b else a := rfl
  simp only [UInt32.lt_iff_toNat_lt, Nat.not_lt] at h ⊢
  rw [hmax] at h
  split at h
  · rename_i hab
    exact ⟨Nat.le_trans (UInt32.le_iff_toNat_le.mp hab) h, h⟩
  · rename_i hab
    have hba : b.toNat < a.toNat := Nat.lt_of_not_le fun hle => hab (UInt32.le_iff_toNat_le.mpr hle)
    exact ⟨h, by omega⟩

theorem le_max32 (a b : UInt32) : a ≤ max a b ∧ b ≤ max a b := by
  have hmax : max a b = if a ≤ b then b else a := rfl
  rw [hmax]
  split
  · rename_i hab
    exact ⟨hab, UInt32.le_refl b⟩
  · rename_i hab
    exact ⟨UInt32.le_refl a, UInt32.le_of_lt (UInt32.not_le.mp hab)⟩

namespace Engine

theorem not_lt_timeFloor {e : Engine} {n : UInt32} (h : ¬ n < e.timeFloor) (i : Slot)
    (hp : (e.contacts i).present = true) : ¬ n < (e.contacts i).anchor.anchor := by
  have key : ∀ (is : List Slot) (acc : UInt32),
      ¬ n < is.foldl (fun floor i =>
        if (e.contacts i).present then max floor (e.contacts i).anchor.anchor else floor) acc →
      ¬ n < acc ∧ (i ∈ is → ¬ n < (e.contacts i).anchor.anchor) := by
    intro is
    induction is with
    | nil => exact fun acc h => ⟨h, fun hi => nomatch hi⟩
    | cons j is ih =>
        intro acc h
        obtain ⟨hacc, his⟩ := ih _ h
        dsimp only at hacc
        by_cases hj : (e.contacts j).present = true
        · rw [if_pos hj] at hacc
          refine ⟨(not_lt_max hacc).1, fun hi => ?_⟩
          rcases List.mem_cons.mp hi with rfl | hi
          · exact (not_lt_max hacc).2
          · exact his hi
        · rw [if_neg hj] at hacc
          refine ⟨hacc, fun hi => ?_⟩
          rcases List.mem_cons.mp hi with rfl | hi
          · exact absurd hp hj
          · exact his hi
  exact (key _ _ h).2 (List.mem_finRange i)

/-- The greatest epoch sent under is below the floor. -/
theorem not_lt_persisted {e : Engine} {n : UInt32} (h : ¬ n < e.timeFloor) :
    ¬ n < e.persistedTxEpoch := by
  have key : ∀ (is : List Slot) (acc : UInt32),
      ¬ n < is.foldl (fun floor i =>
        if (e.contacts i).present then max floor (e.contacts i).anchor.anchor else floor) acc →
      ¬ n < acc := by
    intro is
    induction is with
    | nil => exact fun _ h => h
    | cons j is ih =>
        intro acc h
        have hacc := ih _ h
        dsimp only at hacc
        split at hacc
        · exact (not_lt_max hacc).1
        · exact hacc
  exact (not_lt_max (key _ _ h)).2

/-- Advancing to an hour below no anchor rotates exactly the present contacts of the list. -/
theorem advanceAll_spec {n : UInt32} : ∀ (is : List Slot) (e : Engine), is.Nodup →
    (∀ i ∈ is, (e.contacts i).present = true → ¬ n < (e.contacts i).anchor.anchor) →
    ∃ cs as, advanceAll n is e = ({ e with contacts := cs, aliases := as }, .ok ()) ∧
      (∀ i ∉ is, cs i = e.contacts i) ∧ ∀ i ∈ is,
        cs i = e.contacts i ∧ (e.contacts i).present = false ∨
        (e.contacts i).present = true ∧ ∃ init, cs i = rotateContact (e.contacts i) ⟨n⟩ init n
  | [], e, _, _ => ⟨e.contacts, e.aliases, rfl, fun _ _ => rfl, fun _ hi => nomatch hi⟩
  | j :: is, e, hnd, h => by
      obtain ⟨hj, hnd⟩ := List.nodup_cons.mp hnd
      by_cases hp : (e.contacts j).present = true
      · obtain ⟨init, hadv⟩ := AnchorHours.trustedAdvance_of_le (h j List.mem_cons_self hp)
        have hnext : ∀ i, i ≠ j → (e.rotateSlot j ⟨n⟩ init n).contacts i = e.contacts i :=
          fun i hi => Function.update_of_ne hi _ _
        have hne : ∀ i ∈ is, i ≠ j := fun i hi hij => hj (hij ▸ hi)
        obtain ⟨cs, as, hrun, hout, hin⟩ := advanceAll_spec (n := n) is
          (e.rotateSlot j ⟨n⟩ init n) hnd fun i hi => by
            rw [hnext i (hne i hi)]
            exact h i (List.mem_cons_of_mem j hi)
        refine ⟨cs, as, ?_, fun i hi => ?_, fun i hi => ?_⟩
        · rw [advanceAll, if_pos hp, hadv]; exact hrun
        · rw [List.mem_cons, not_or] at hi
          rw [hout i hi.2, hnext i hi.1]
        · rcases List.mem_cons.mp hi with rfl | hi
          · refine .inr ⟨hp, init, ?_⟩
            rw [hout i hj]
            exact Function.update_self ..
          · have hi' := hin i hi
            rwa [hnext i (hne i hi)] at hi'
      · obtain ⟨cs, as, hrun, hout, hin⟩ :=
          advanceAll_spec is e hnd fun i hi => h i (List.mem_cons_of_mem j hi)
        refine ⟨cs, as, ?_, fun i hi => ?_, fun i hi => ?_⟩
        · rw [advanceAll, if_neg hp]; exact hrun
        · exact hout i fun him => hi (List.mem_cons_of_mem j him)
        · rcases List.mem_cons.mp hi with rfl | hi
          · exact .inl ⟨hout i hj, Bool.not_eq_true _ ▸ hp⟩
          · exact hin i hi

end Engine

section Moves

variable {C : Crypto} {e : Engine}

/-- An operation whose failures change nothing and say nothing of its own sealing. -/
theorem settle_moves {α : Type} {op : Op} {r : Except EngineError (Engine × α)}
    {f : Except EngineError α → Output} (herr : ∀ x, (f (.error x)).Silent)
    (hok : ∀ e' a, r = .ok (e', a) → Moves C e op e' (f (.ok a))) :
    Moves C e op (answer f (settle e r)).1 (answer f (settle e r)).2 := by
  cases r with
  | error x => exact .quiet (.refl e) (herr x)
  | ok x => exact hok x.1 x.2 rfl

/-- A change of the clock alone, within the hour. -/
theorem quiet_clock {unixSeconds monoS utcMonoS : UInt64} {timeValid : Bool}
    (hour : timeValid = true → e.timeValid = true ∧
      ({ e with unixSeconds, timeValid } : Engine).epoch = e.epoch) :
    Quiet e { e with unixSeconds, monoS, utcMonoS, timeValid } :=
  ⟨⟨⟨.inl rfl, .inl rfl, .inl rfl, rfl, UInt32.le_refl _⟩, hour⟩, rfl, rfl, rfl, rfl, rfl⟩

/-- The monotonic clock alone. -/
theorem quiet_mono {monoS : UInt64} : Quiet e { e with monoS } := quiet_clock fun h => ⟨h, rfl⟩

/-- No trusted time any more. -/
theorem quiet_unset {monoS : UInt64} : Quiet e { e with monoS, timeValid := false } :=
  quiet_clock fun h => by cases h

theorem epoch_of_valid {e : Engine} {n : UInt32} (hv : e.timeValid = true)
    (h : epochOfUnix e.unixSeconds = some n) : e.epoch = n := by
  rw [Engine.epoch, if_pos hv, h]
  rfl

/-- Setting the time, at any reading of the monotonic clock, leaves the contacts or rotates
every one present to the new hour. -/
theorem setTimeConfirmed_moves (monoS s : UInt64) (confirmed : Bool) {op : Op} {out : Output}
    (ho : out.Silent) :
    Moves C e op (({ e with monoS } : Engine).setTimeConfirmed s confirmed).1 out := by
  unfold Engine.setTimeConfirmed
  split
  · exact .quiet quiet_mono ho
  split
  · exact .quiet quiet_mono ho
  rename_i newEpoch hnew
  split
  · exact .quiet quiet_mono ho
  rename_i hfloor
  split
  · exact .quiet quiet_mono ho
  have hanchor := Engine.not_lt_timeFloor hfloor
  obtain ⟨cs, as, hrun, -, hin⟩ :=
    Engine.advanceAll_spec _ _ (List.nodup_finRange maxContacts) fun i _ => hanchor i
  rw [hrun]
  exact .setTime hanchor (fun i => hin i (List.mem_finRange i))
    ⟨.inl rfl, .inl rfl, .inl rfl, rfl, UInt32.le_refl _⟩ ⟨rfl, epoch_of_valid rfl hnew⟩
    (Engine.not_lt_persisted hfloor) rfl (Engine.staged_stagePersist _ _) ho

theorem advanceTime_moves (now : UInt64) {op : Op} {out : Output} (ho : out.Silent) :
    Moves C e op (e.advanceTime now).1 out := by
  unfold Engine.advanceTime
  split
  · exact .quiet (.refl e) ho
  dsimp only
  split
  · exact .quiet quiet_mono ho
  rename_i hvalid
  split
  · exact .quiet quiet_unset ho
  split
  · exact .quiet quiet_unset ho
  rename_i next _
  split
  · have hset : Moves C e op _ out := setTimeConfirmed_moves now next false ho
    unfold Engine.setTime
    split
    · rename_i heq; rwa [heq] at hset
    · rename_i heq; rwa [heq] at hset
  · rename_i hsame
    refine .quiet (quiet_clock fun hv => ⟨hv, ?_⟩) ho
    exact epoch_of_valid hv (Decidable.not_not.mp hsame)

theorem setRadioAvailable_quiet (available : Bool) : Quiet e (e.setRadioAvailable available) := by
  cases available with
  | true => exact ⟨.of_eq rfl rfl rfl rfl rfl, rfl, rfl, rfl, rfl, rfl⟩
  | false =>
      exact ⟨.of_clock (.inl rfl) (.inl rfl) (.inr rfl) rfl rfl, rfl, rfl, rfl, rfl, rfl⟩

theorem setIdentity_moves (uid : Bytes 8) :
    Moves C e (.setIdentity uid) (e.setIdentity uid) .done := by
  unfold Engine.setIdentity
  split
  · exact .quiet (.refl e) Output.silent_done
  · exact .restage (.inl rfl) (.of_eq rfl rfl rfl rfl rfl) rfl (.inr ⟨rfl, rfl⟩)
      (Engine.staged_stagePersist _ _) Output.silent_done

theorem provision_moves {label : UInt8} {signPriv : Bytes 32} {e' : Engine} {u : Unit}
    (h : e.provision label signPriv = .ok (e', u)) {op : Op} {out : Output} (ho : out.Silent) :
    Moves C e op e' out := by
  simp only [Engine.provision, bind_eq_ok, require_eq_ok, pure_eq_ok, Prod.mk.injEq] at h
  obtain ⟨-, -, -, -, -, hl, rfl, -⟩ := h
  simp only [Bool.and_eq_true, decide_eq_true_eq] at hl
  exact .restage (.inr rfl) (.of_clock (.inr hl.2) (.inl rfl) (.inl rfl) rfl rfl) rfl (.inl rfl)
    (Engine.staged_stagePersist _ _) ho

theorem setRadio_moves {enabled : Bool} {e' : Engine} {u : Unit}
    (h : e.setRadio enabled = .ok (e', u)) {op : Op} {out : Output} (ho : out.Silent) :
    Moves C e op e' out := by
  simp only [Engine.setRadio, bind_eq_ok, require_eq_ok, pure_eq_ok, Prod.mk.injEq] at h
  obtain ⟨-, -, -, -, rfl, -⟩ := h
  cases enabled with
  | true =>
      exact .restage (.inl rfl) (.of_eq rfl rfl rfl rfl rfl) rfl (.inl rfl)
        (Engine.staged_stagePersist _ _) ho
  | false =>
      exact .restage (.inl rfl) (.of_clock (.inl rfl) (.inl rfl) (.inr rfl) rfl rfl) rfl (.inl rfl)
        (Engine.staged_stagePersist _ _) ho

theorem armNextBoot_moves {e' : Engine} {u : Unit} (h : e.armNextBoot = .ok (e', u)) {op : Op}
    {out : Output} (ho : out.Silent) : Moves C e op e' out := by
  simp only [Engine.armNextBoot, bind_eq_ok, require_eq_ok, pure_eq_ok, Prod.mk.injEq] at h
  obtain ⟨-, -, -, -, rfl, -⟩ := h
  exact .restage (.inl rfl) (.of_eq rfl rfl rfl rfl rfl) rfl (.inl rfl)
    (Engine.staged_stagePersist _ _) ho

theorem consumeBootArm_moves {e' : Engine} {b : Bool} (h : e.consumeBootArm = .ok (e', b)) {op : Op}
    {out : Output} (ho : out.Silent) : Moves C e op e' out := by
  simp only [Engine.consumeBootArm, bind_eq_ok, require_eq_ok, pure_eq_ok, Prod.mk.injEq] at h
  obtain ⟨-, -, rfl, -⟩ := h
  split
  · exact .restage (.inl rfl) (.of_eq rfl rfl rfl rfl rfl) rfl (.inl rfl)
      (Engine.staged_stagePersist _ _) ho
  · exact .quiet (.refl e) ho

/-! #### Pairing -/

theorem absent_of_freeSlot {i : Slot} (h : e.freeSlot = some i) :
    (e.contacts i).present = false := by
  have := List.find?_some h
  simpa using this

/-- The new attempt differs from the one before beside its slot and role. -/
theorem pendingKept_of_same {p p' : PendingPair} (hp : e.pending = some p)
    (hslot : p'.slot = p.slot) (hrole : p'.ownRole = p.ownRole)
    (hproof : p'.ownProof = p.ownProof ∨ e.uidSet = true) : PendingKept e p' :=
  ⟨.inl ⟨p, hp, hslot⟩, .inl ⟨p, hp, hrole⟩, fun hs =>
    hproof.imp (fun heq : p'.ownProof = p.ownProof => ⟨p, hp, heq ▸ hs⟩) id⟩

theorem roleFor_le_one (a b : Bytes 32) : roleFor a b ≤ 1 := by
  rcases roleFor_le a b with h | h
  · rw [h]; decide
  · rw [h]; decide

theorem livePending_ok {p : PendingPair} (h : e.livePending = .ok p) :
    e.pending = some p ∧ isExpired p.startMonoS e.monoS = false := by
  simp only [Engine.livePending, bind_eq_ok, require_eq_ok, okOr_eq_ok, pure_eq_ok,
    Bool.not_eq_true'] at h
  obtain ⟨p, hp, -, hx, rfl⟩ := h
  exact ⟨hp, hx⟩

/-- The attempt that a fresh offer starts. -/
def Engine.startedPair (C : Crypto) (e : Engine) (ephPriv ephPub challenge : Bytes 32)
    (slot : Slot) : PendingPair where
  ownOffer := encodeOfferPayload { edPub := C.edPublic e.signPriv, ephPub, challenge }
  ownEphPriv := ephPriv
  peerOffer := none
  peerIdentity := none
  transcript := none
  ownRole := roleL
  ownProof := none
  peerProof := none
  ownConfirm := none
  startMonoS := e.monoS
  slot := slot
  replace := false

/-- The attempt that an imported offer leaves, `ed` our signing key. -/
def PendingPair.withOffer (C : Crypto) (p : PendingPair) (ed : Bytes 32) (offer : Offer)
    (slot : Slot) (replace : Bool) : PendingPair :=
  let lr := Engine.orderPayloads p.ownOffer (encodeOfferPayload offer)
  { p with
    peerOffer := some (encodeOfferPayload offer)
    transcript := some (transcriptT C lr.1 lr.2)
    ownRole := roleFor ed offer.edPub
    slot
    replace }

theorem freshOffer_spec {ephPriv ephPub challenge : Bytes 32} {e' : Engine} {r : List UInt8}
    (h : e.freshOffer C ephPriv ephPub challenge = .ok (e', r)) :
    e.signSet = true ∧ ∃ slot, e.freeSlot = some slot ∧
      e' = { e with pending := some (e.startedPair C ephPriv ephPub challenge slot) } ∧
      r = Engine.offerRecord (e.startedPair C ephPriv ephPub challenge slot).ownOffer := by
  simp only [Engine.freshOffer, Engine.edPubkey, bind_eq_ok, require_eq_ok, okOr_eq_ok, pure_eq_ok,
    Prod.mk.injEq] at h
  obtain ⟨-, hsign, ed, ⟨-, -, rfl⟩, -, -, slot, hslot, rfl, rfl⟩ := h
  exact ⟨hsign, slot, hslot, rfl, rfl⟩

theorem importOffer_spec {p : PendingPair} {record : List UInt8} {replace : Bool} {e' : Engine}
    {o : PairImportOutcome} (h : e.importOffer C p record replace = .ok (e', o)) :
    ∃ offer own slot, decodeOfferRecord record = .ok offer ∧
      decodeOfferPayload p.ownOffer.1 = .ok own ∧ checkNotSelf own.edPub offer.edPub = .ok () ∧
      (¬ ∃ i, (e.contacts i).present ∧ (e.contacts i).edPeer = offer.edPub) ∧
      e.importSlot p replace = .ok slot ∧
      o.contactId = none ∧ o.step = .needProof ∧
      e' = { e with pending := some (p.withOffer C own.edPub offer slot replace) } := by
  simp only [Engine.importOffer, bind_eq_ok, require_eq_ok, mapErr_eq_ok, pure_eq_ok,
    Prod.mk.injEq, Bool.not_eq_true', decide_eq_false_iff_not] at h
  obtain ⟨offer, hd, own, hown, ⟨⟩, hself, -, hnew, slot, hslot, rfl, rfl⟩ := h
  exact ⟨offer, own, slot, hd, hown, hself, hnew, hslot, rfl, rfl, rfl⟩

/-- The attempt that a proof imported leaves, and what was checked of the proof. -/
theorem importProof_spec {p : PendingPair} {record : List UInt8} {e' : Engine}
    {o : PairImportOutcome} (h : e.importProof C p record = .ok (e', o)) :
    ∃ proof t payload peer keys pt, decodeProof record = .ok proof ∧ p.transcript = some t ∧
      proof.t = t ∧ proof.role ≠ p.ownRole ∧ p.peerOffer = some payload ∧
      decodeOfferPayload payload.1 = .ok peer ∧
      C.edVerify peer.edPub (Engine.proofMessage proof.t proof.role proof.ct.1) proof.sig = true ∧
      Engine.setupKeys C p t = .ok keys ∧
      decryptData C (Engine.setupKey keys proof.role) Engine.setupNonce (Engine.proofAad t proof.role)
        proof.ct.1 8 = .ok pt ∧
      o.contactId = none ∧ o.step = .needConfirm ∧
      ∃ (rec' : Bytes proofRecordLen) (id : Bytes 8), rec'.1 = record ∧ id.1 = pt ∧
        e' = { e with pending := some { p with peerProof := some rec', peerIdentity := some id } } := by
  simp only [Engine.importProof, bind_eq_ok, require_eq_ok, mapErr_eq_ok, okOr_eq_ok, beq_iff_eq,
    bne_iff_ne] at h
  obtain ⟨proof, hd, t, ht, -, hpt, -, hrole, payload, hpay, peer, hpeer, -, hsig, keys, hkeys, pt, hdec,
    h⟩ := h
  split at h
  · rename_i hlen
    simp only [pure_eq_ok, Prod.mk.injEq] at h
    obtain ⟨rfl, rfl⟩ := h
    exact ⟨proof, t, payload, peer, keys, pt, hd, ht, hpt, hrole, hpay, hpeer, hsig, hkeys, hdec, rfl,
      rfl, _, _, rfl, rfl, rfl⟩
  · cases h

/-- The attempt that a proof of ours leaves. -/
theorem freshProof_spec {p : PendingPair} {t : Bytes 32} {e' : Engine} {r : List UInt8}
    (h : e.freshProof C p t = .ok (e', r)) :
    e.uidSet = true ∧ ∃ keys ct, ∃ (hct : ct.length = proofCtLen), ∃ record : Bytes proofRecordLen,
      Engine.setupKeys C p t = .ok keys ∧
      encryptData C (Engine.setupKey keys p.ownRole) Engine.setupNonce (Engine.proofAad t p.ownRole)
        e.uid.1 proofCtLen = .ok ct ∧
      encodeProof ⟨t, p.ownRole, ⟨ct, hct⟩, C.edSign e.signPriv (Engine.proofMessage t p.ownRole ct)⟩ =
        .ok record ∧
      r = record.1 ∧ e' = { e with pending := some { p with ownProof := some record } } := by
  simp only [Engine.freshProof, bind_eq_ok, require_eq_ok, mapErr_eq_ok] at h
  obtain ⟨keys, hkeys, -, huid, ct, hct, h⟩ := h
  split at h
  · rename_i hlen
    simp only [bind_eq_ok, mapErr_eq_ok, pure_eq_ok, Prod.mk.injEq] at h
    obtain ⟨record, hrecord, rfl, rfl⟩ := h
    exact ⟨huid, keys, ct, hlen, record, hkeys, hct, hrecord, rfl, rfl⟩
  · cases h

/-- The attempt that a confirmation of ours leaves. -/
theorem freshConfirm_spec {p : PendingPair} {t : Bytes 32} {e' : Engine} {r : List UInt8}
    (h : e.freshConfirm C p t = .ok (e', r)) :
    ∃ ownProof peerProof root, ∃ record : Bytes confirmRecordLen, p.ownProof = some ownProof ∧
      p.peerProof = some peerProof ∧ Engine.pairRoot C p t = .ok root ∧
      encodeConfirmation ⟨t, p.ownRole, Engine.confirmMac C root t p.ownRole
        (Engine.proofDigest C p.ownRole ownProof peerProof)⟩ = .ok record ∧
      r = record.1 ∧ e' = { e with pending := some { p with ownConfirm := some record } } := by
  simp only [Engine.freshConfirm, bind_eq_ok, okOr_eq_ok, mapErr_eq_ok, pure_eq_ok,
    Prod.mk.injEq] at h
  obtain ⟨ownProof, hown, peerProof, hpeer, root, hroot, record, hrecord, rfl, rfl⟩ := h
  exact ⟨ownProof, peerProof, root, record, hown, hpeer, hroot, hrecord, rfl, rfl⟩

/-- A call of the ceremony changes the pending attempt alone, and activates nothing. -/
theorem Pairs.spec {op : Op} {e' : Engine} {out : Output} (h : Pairs C e op e' out) :
    (∃ p', e' = { e with pending := some p' } ∧ PendingKept e p') ∧ out.Silent := by
  cases h with
  | offered _ h =>
      obtain ⟨-, slot, hslot, rfl, -⟩ := freshOffer_spec h
      exact ⟨⟨_, rfl, .inr (absent_of_freeSlot hslot), .inr (by decide : (roleL : UInt8) ≤ 1),
        fun h => nomatch h⟩, Output.silent_record _⟩
  | @offer _ _ _ p _ _ hp h =>
      obtain ⟨hp, -⟩ := livePending_ok hp
      obtain ⟨offer, own, slot, -, -, -, -, hslot, ho, -, rfl⟩ := importOffer_spec h
      refine ⟨⟨_, rfl, ?_, .inr (roleFor_le_one _ _), fun hs => .inl ⟨p, hp, hs⟩⟩,
        Output.silent_imported fun o' h' => Except.ok.inj h' ▸ ho⟩
      unfold Engine.importSlot at hslot
      split at hslot
      · exact .inl ⟨p, hp, (Except.ok.inj hslot).symm⟩
      · exact .inr (absent_of_freeSlot (okOr_eq_ok.mp hslot))
  | proof hp h =>
      obtain ⟨-, -, -, -, -, -, -, -, -, -, -, -, -, -, -, ho, -, -, -, -, -, rfl⟩ :=
        importProof_spec h
      exact ⟨⟨_, rfl, pendingKept_of_same (livePending_ok hp).1 rfl rfl (.inl rfl)⟩,
        Output.silent_imported fun o' h' => Except.ok.inj h' ▸ ho⟩
  | ownProof hp _ _ h =>
      obtain ⟨huid, -, -, -, -, -, -, -, -, rfl⟩ := freshProof_spec h
      exact ⟨⟨_, rfl, pendingKept_of_same (livePending_ok hp).1 rfl rfl (.inr huid)⟩,
        Output.silent_record _⟩
  | ownConfirm hp _ _ h =>
      obtain ⟨-, -, -, -, -, -, -, -, -, rfl⟩ := freshConfirm_spec h
      exact ⟨⟨_, rfl, pendingKept_of_same (livePending_ok hp).1 rfl rfl (.inl rfl)⟩,
        Output.silent_record _⟩

theorem pairOffer_moves {ephPriv ephPub challenge : Bytes 32} {e' : Engine} {r : List UInt8}
    (h : e.pairOffer C ephPriv ephPub challenge = .ok (e', r)) :
    Moves C e (.pairOffer ephPriv ephPub challenge) e' (.record (.ok r)) := by
  simp only [Engine.pairOffer, bind_eq_ok] at h
  obtain ⟨-, -, -, -, h⟩ := h
  split at h
  · rename_i p hp
    split at h
    · rename_i hx
      refine .pairing (.offered (fun p' hp' => ?_) h)
      obtain ⟨hp', hx'⟩ := livePending_ok hp'
      cases hp.symm.trans hp'
      cases hx'.symm.trans hx
    · simp only [pure_eq_ok, Prod.mk.injEq] at h
      obtain ⟨rfl, -⟩ := h
      exact .quiet (.refl e) (Output.silent_record _)
  · rename_i hn
    refine .pairing (.offered (fun p' hp' => ?_) h)
    cases hn.symm.trans (livePending_ok hp').1

theorem pairProof_moves {e' : Engine} {r : List UInt8} (h : e.pairProof C = .ok (e', r)) :
    Moves C e .pairProof e' (.record (.ok r)) := by
  simp only [Engine.pairProof, bind_eq_ok, okOr_eq_ok] at h
  obtain ⟨-, -, -, -, p, hp, t, ht, h⟩ := h
  split at h
  · simp only [pure_eq_ok, Prod.mk.injEq] at h
    obtain ⟨rfl, -⟩ := h
    exact .quiet (.refl e) (Output.silent_record _)
  · rename_i hn
    exact .pairing (.ownProof hp ht hn h)

theorem pairConfirm_moves {e' : Engine} {r : List UInt8} (h : e.pairConfirm C = .ok (e', r)) :
    Moves C e .pairConfirm e' (.record (.ok r)) := by
  simp only [Engine.pairConfirm, bind_eq_ok, okOr_eq_ok] at h
  obtain ⟨-, -, -, -, p, hp, t, ht, -, -, h⟩ := h
  split at h
  · simp only [pure_eq_ok, Prod.mk.injEq] at h
    obtain ⟨rfl, -⟩ := h
    exact .quiet (.refl e) (Output.silent_record _)
  · rename_i hn
    exact .pairing (.ownConfirm hp ht hn h)

theorem checkUsable_ok (h : e.checkUsable = .ok ()) : e.fault = false ∧ e.provisioned = true := by
  unfold Engine.checkUsable at h
  split at h
  · cases h
  rename_i hf
  split at h
  · rename_i hp
    exact ⟨Bool.eq_false_of_not_eq_true hf, hp⟩
  · cases h

/-- What a confirmation that passes was checked against. -/
theorem checkConfirm_spec {p : PendingPair} {record : List UInt8} {c : Engine.Confirmed}
    (h : Engine.checkConfirm C p record = .ok c) :
    ∃ conf ownProof peerProof proof keys payload peer, decodeConfirmation record = .ok conf ∧
      p.transcript = some c.t ∧ conf.t = c.t ∧ conf.role ≠ p.ownRole ∧ p.ownProof = some ownProof ∧
      p.peerProof = some peerProof ∧ Engine.pairRoot C p c.t = .ok c.root ∧
      Engine.confirmMac C c.root c.t conf.role (Engine.proofDigest C p.ownRole ownProof peerProof) =
        conf.mac ∧
      p.peerIdentity = some c.peerId ∧ decodeProof peerProof.1 = .ok proof ∧
      Engine.setupKeys C p c.t = .ok keys ∧
      decryptData C (Engine.setupKey keys conf.role) Engine.setupNonce
        (Engine.proofAad c.t conf.role) proof.ct.1 8 = .ok c.peerId.1 ∧
      p.peerOffer = some payload ∧ decodeOfferPayload payload.1 = .ok peer ∧ c.peerEd = peer.edPub := by
  simp only [Engine.checkConfirm, bind_eq_ok, mapErr_eq_ok, okOr_eq_ok, require_eq_ok, pure_eq_ok,
    Bool.and_eq_true, beq_iff_eq, bne_iff_ne] at h
  obtain ⟨conf, hconf, t, ht, -, ⟨hct, hrole⟩, ownProof, hown, peerProof, hproof, root, hroot, -, hmac,
    cached, hid, proof, hd, keys, hkeys, pt, hdec, -, hpt, payload, hpay, peer, hpeer, rfl⟩ := h
  exact ⟨conf, ownProof, peerProof, proof, keys, payload, peer, hconf, ht, hct, hrole, hown, hproof, hroot,
    hmac, hid, hd, hkeys, hpt ▸ hdec, hpay, hpeer, rfl⟩

/-- An import that goes through is of an offer, a proof, or a confirmation the operator has
compared, into a live attempt. -/
theorem pairImportSas_spec {record : List UInt8} {replace sasMatch : Bool} {e' : Engine}
    {o : PairImportOutcome} (h : e.pairImportSas C record replace sasMatch = .ok (e', o)) :
    e.checkUsable = .ok () ∧ e.radioOn = false ∧ ∃ p, e.livePending = .ok p ∧
      (e.importOffer C p record replace = .ok (e', o) ∨ e.importProof C p record = .ok (e', o) ∨
        sasMatch = true ∧ e.importConfirm C p record = .ok (e', o)) := by
  simp only [Engine.pairImportSas, Engine.requireRadioOff, bind_eq_ok, require_eq_ok,
    Bool.not_eq_true'] at h
  obtain ⟨⟨⟩, hu, -, hr, p, hp, h⟩ := h
  refine ⟨hu, hr, p, hp, ?_⟩
  split at h
  · cases h
  rename_i type _
  simp only [bind_eq_ok, require_eq_ok] at h
  obtain ⟨-, hsas, h⟩ := h
  split at h
  · exact .inl h
  split at h
  · exact .inr (.inl h)
  split at h
  · rename_i htype
    exact .inr (.inr ⟨by simpa [htype] using hsas, h⟩)
  · cases h

/-- The contact that a confirmation installs, staged. -/
theorem importConfirm_spec {p : PendingPair} {record : List UInt8} {e' : Engine}
    {o : PairImportOutcome} (h : e.importConfirm C p record = .ok (e', o)) :
    ∃ c, Engine.checkConfirm C p record = .ok c ∧
      e' = (e.activateContact C p.slot c.peerEd c.peerId c.root p.ownRole).stagePersist
        (.pairActivate p.slot) ∧
      o = { step := .active, fingerprint := transcriptFingerprint c.t
            contactId := some (contactId p.slot) } := by
  simp only [Engine.importConfirm, bind_eq_ok, pure_eq_ok, Prod.mk.injEq] at h
  obtain ⟨c, hc, rfl, rfl⟩ := h
  exact ⟨c, hc, rfl, rfl⟩

/-- An import changes the pending attempt, or activates a confirmed contact. -/
theorem pairImport_moves {record : List UInt8} {replace sasMatch : Bool} {e' : Engine}
    {o : PairImportOutcome} (h : e.pairImportSas C record replace sasMatch = .ok (e', o)) :
    Moves C e (.pairImport record replace sasMatch) e' (.imported (.ok o)) := by
  obtain ⟨hu, hr, p, hp, hi | hi | ⟨rfl, hi⟩⟩ := pairImportSas_spec h
  · exact .pairing (.offer hp hi)
  · exact .pairing (.proof hp hi)
  · obtain ⟨hp, hx⟩ := livePending_ok hp
    obtain ⟨c, hc, rfl, rfl⟩ := importConfirm_spec hi
    exact .activate hp hx hu hr hc

/-! #### Sending -/

theorem sendBegin_moves {id : UInt8} {text : List UInt8} {pid : UInt32} {e' : Engine}
    {ps : PendingSend} (h : e.sendBegin id text pid = .ok (e', ps)) :
    Moves C e (.sendBegin id text pid) e' (.send (.ok ps)) := by
  simp only [Engine.sendBegin, bind_eq_ok, require_eq_ok, okOr_eq_ok, pure_eq_ok, Prod.mk.injEq,
    Option.isNone_iff_eq_none] at h
  obtain ⟨-, -, -, htime, slot, hslot, -, hblocked, -, hn, -, htext, -, hepoch, kind, hr, rfl, rfl⟩ := h
  simp only [Bool.not_eq_true', Bool.or_eq_false_iff, Bool.not_eq_false', decide_eq_false_iff_not,
    beq_eq_false_iff_ne, Nat.not_lt] at hblocked htext hepoch
  exact .sendBegin hslot hr hn ⟨htime, hblocked, ⟨htext.1.1, htext.1.2, htext.2⟩, hepoch⟩

/-- Refreshing cached aliases is invisible to the rest of the state. -/
theorem refreshAliases_eq (slot : Slot) :
    e.refreshAliases C slot = { e with aliases := (e.refreshAliases C slot).aliases } := by
  unfold Engine.refreshAliases
  dsimp only
  split
  · rfl
  · rfl

theorem quiet_aliases {as : Slot → AliasSlot} : Quiet e { e with aliases := as } :=
  ⟨.of_eq rfl rfl rfl rfl rfl, rfl, rfl, rfl, rfl, rfl⟩

theorem sendEmit_moves : Moves C e .sendEmit (e.sendEmit C).1 (.frame (e.sendEmit C).2) := by
  unfold Engine.sendEmit
  split
  · exact .quiet (.refl e) ⟨fun _ h => (nomatch h), rfl, rfl⟩
  rename_i ps slot hready
  dsimp only
  rw [refreshAliases_eq]
  generalize (e.refreshAliases C slot).aliases = as
  dsimp only
  split
  · exact .quiet quiet_aliases ⟨fun _ h => (nomatch h), rfl, rfl⟩
  · rename_i bytes hb
    exact .sendEmit hready hb rfl
      ⟨⟨.inl rfl, .inl rfl, .inl rfl, rfl, (le_max32 _ _).1⟩, fun h => ⟨h, rfl⟩⟩ (le_max32 _ _).2 rfl rfl
      (Engine.staged_stagePersist _ _)

theorem sendRetryEcho_moves : Moves C e .sendRetryEcho e (.frame (e.sendRetryEcho C)) := by
  cases h : e.sendRetryEcho C with
  | error x => exact .quiet (.refl e) ⟨fun _ h => (nomatch h), rfl, rfl⟩
  | ok f =>
      simp only [Engine.sendRetryEcho, bind_eq_ok, okOr_eq_ok, pure_eq_ok] at h
      obtain ⟨ps, hps, slot, hslot, bytes, hb, rfl⟩ := h
      exact .retry hps hslot hb

/-! #### Receiving -/

/-- A plaintext that fits its buffer and the frame is sealed. -/
theorem sealFrame_ok {v : Envelope} {bodyCap : ℕ} (hcap : v.plaintext.length + tagLen ≤ bodyCap)
    (hlen : v.plaintext.length + tagLen + minFrameLen ≤ maxFrameLen) :
    ∃ bytes, sealFrame C v bodyCap = .ok bytes := by
  obtain ⟨ct, hct, hctlen⟩ : ∃ ct, encryptData C v.key (nonce v.header.epoch v.header.sequence)
      (frameAad v.header (UInt8.ofNat (v.plaintext.length + tagLen))) v.plaintext bodyCap = .ok ct ∧
      ct.length = v.plaintext.length + tagLen := encryptData_ok C hcap
  obtain ⟨bytes, hbytes⟩ : ∃ bytes, encodeFrame v.header ct maxFrameLen = .ok bytes :=
    encodeFrame_ok v.header (by
      rw [hctlen]
      simp only [minFrameLen, headerLen, crcLen, maxFrameLen] at hlen ⊢
      omega)
  refine ⟨bytes, ?_⟩
  simp only [sealFrame, bind_eq_ok, mapErr_eq_ok]
  exact ⟨ct, hct, hbytes⟩

theorem sealFrame_ack {c : Contact} {uid : Bytes 8} {h : Header} {pid epoch : UInt32} :
    ∃ bytes, sealFrame C (c.ackEnvelope C uid h pid epoch) (17 + tagLen) = .ok bytes :=
  sealFrame_ok (by simp [Contact.ackEnvelope, Contact.envelope, Contact.ackBody])
    (by simp [Contact.ackEnvelope, Contact.envelope, Contact.ackBody, tagLen, minFrameLen, headerLen,
      crcLen, maxFrameLen])

/-- The acknowledgement of a reception just staged. -/
theorem buildAck_acked (e₀ : Engine) {slot : Slot} {c : Contact} {h : Header} {pid : UInt32}
    {kind : StagedCommit} (hk : kind = .none ∨ kind = .rxAccept)
    (hc : e.contacts = Function.update e₀.contacts slot c) (hs : e.Staged kind)
    (hk₀ : Steady e₀ e) (hu : e.identity = e₀.identity) (hv₀ : e.timeValid = e₀.timeValid) (he : e.epoch = e₀.epoch)
    (htx : c.txNext = (e₀.contacts slot).txNext ∧ c.txReserved = (e₀.contacts slot).txReserved) :
    Acked C e₀ slot c h pid (e.buildAck C slot h pid).1 (e.buildAck C slot h pid).2 ∧
      Steady e₀ (e.buildAck C slot h pid).1 ∧
      (e.buildAck C slot h pid).1.pendingSend = e.pendingSend ∧
      (e.buildAck C slot h pid).1.identity = e.identity := by
  have hcs : e.contacts slot = c := by rw [hc]; exact Function.update_self ..
  have hres : e.reservation slot .rxAccept = e₀.reservation slot .rxAccept := by
    simp only [Engine.reservation, hcs, htx.1, htx.2]
  unfold Engine.buildAck
  split
  · exact ⟨.without hk hc hs, hk₀, rfl, rfl⟩
  rename_i htime
  dsimp only
  split
  · exact ⟨.without hk hc hs, hk₀, rfl, rfl⟩
  rename_i op hop
  obtain ⟨bytes, hb⟩ : ∃ bytes,
    sealFrame C (c.ackEnvelope C e₀.uid h pid e₀.epoch) (17 + tagLen) = .ok bytes := sealFrame_ack
  have hv : ((e.stagePersist op).contacts slot).ackEnvelope C (e.stagePersist op).uid h pid e.epoch
      = c.ackEnvelope C e₀.uid h pid e₀.epoch := by
    show (e.contacts slot).ackEnvelope C e.uid h pid e.epoch = _
    rw [hcs, show e.uid = e₀.uid from congrArg Prod.fst hu, he]
  have hcons : Function.update e.contacts slot ((e.contacts slot).consume e.epoch) =
      Function.update e₀.contacts slot (c.consume e₀.epoch) := by
    rw [hc, Function.update_self, Function.update_idem, he]
  rw [hv, hb]
  simp only [Bool.not_eq_true', Bool.not_eq_false] at htime
  exact ⟨.acked (hres ▸ hop) hb hcons (hv₀ ▸ htime) (he ▸ (le_max32 _ _).2)
      (Engine.staged_stagePersist _ op),
    ⟨⟨hk₀.label, hk₀.pending, hk₀.pendingSend, hk₀.pendingText,
      UInt32.le_trans hk₀.floor (le_max32 _ _).1⟩, hk₀.hour⟩, rfl, rfl⟩

theorem touchAliases_eq (slot : Slot) (h : Header) :
    e.touchAliases C slot h = { e with aliases := (e.touchAliases C slot h).aliases } := by
  unfold Engine.touchAliases
  split
  · exact refreshAliases_eq slot
  · rfl

/-- A scan changes only cached aliases, and what it finds opens there. -/
theorem scan_spec (h : Header) (body : List UInt8) : ∀ (is : List Slot) (e : Engine) (failed : Bool),
    ∃ as failed' r, Engine.scan C h body is e failed = ({ e with aliases := as }, failed', r) ∧
      ∀ slot win pt, r = some (slot, win, pt) → e.tryContact C slot h body = .opened win pt
  | [], e, failed => ⟨e.aliases, failed, none, rfl, fun _ _ _ hr => nomatch hr⟩
  | slot :: is, e, failed => by
      rw [Engine.scan, touchAliases_eq]
      generalize (e.touchAliases C slot h).aliases = as
      have hsame : ({ e with aliases := as } : Engine).tryContact C slot h body =
          e.tryContact C slot h body := rfl
      rw [hsame]
      cases ht : e.tryContact C slot h body with
      | skip => exact scan_spec h body is { e with aliases := as } failed
      | badTag => exact scan_spec h body is { e with aliases := as } true
      | opened win pt =>
          refine ⟨as, failed, some (slot, win, pt), rfl, fun slot' win' pt' hr => ?_⟩
          cases hr
          exact ht

theorem transit_moves {e₀ : Engine} (hq : Quiet e₀ e) {frame : List UInt8} {h : Header}
    {hlen : minFrameLen ≤ frame.length} {now : UInt64} {op : Op} :
    Moves C e₀ op (e.transit C frame h hlen now).1 (.incoming (e.transit C frame h hlen now).2) := by
  have hq' : ∀ c, Quiet e₀ { e with relayCache := c } := fun c =>
    ⟨⟨⟨hq.label, hq.pending, hq.pendingSend, hq.pendingText, hq.floor⟩, hq.hour⟩, hq.contacts,
      hq.identity, hq.staged, hq.dirty, hq.scratch⟩
  unfold Engine.transit
  dsimp only
  split
  · exact .quiet (hq' _) Output.silent_ignored
  · split
    · split
      · exact .quiet (hq' _) (Output.silent_forward rfl)
      · exact .quiet (hq' _) Output.silent_ignored
    · exact .quiet (hq' _) Output.silent_ignored

section Accept

variable {frame body : List UInt8} {now : UInt64} {pid : UInt32} {slot : Slot} {h : Header}
  {win : Fin 3} {as : Slot → AliasSlot}

/-- The reception of a DATA frame, staged. -/
def receivedState (e : Engine) (slot : Slot) (win : Fin 3) (w : ReplayWindow) (kind : StagedCommit)
    (as : Slot → AliasSlot) (drops : UInt32) : Engine :=
  (({ e with aliases := as, replayDrops := drops } : Engine).setContact slot
    ((e.contacts slot).setData win w)).stagePersist kind

/-- The acknowledgement of a staged reception. -/
theorem receivedState_ack {kind : StagedCommit} (hk : kind = .none ∨ kind = .rxAccept)
    (w : ReplayWindow) (as : Slot → AliasSlot) (drops : UInt32) :
    let r := (receivedState e slot win w kind as drops).buildAck C slot h pid
    Acked C e slot ((e.contacts slot).setData win w) h pid r.1 r.2 ∧ Steady e r.1 ∧
      r.1.pendingSend = e.pendingSend ∧ r.1.identity = e.identity :=
  buildAck_acked e hk rfl (Engine.staged_stagePersist _ kind) (.of_eq rfl rfl rfl rfl rfl) rfl rfl rfl
    ⟨rfl, rfl⟩

theorem setData_self (c : Contact) (win : Fin 3) : c.setData win (c.winData win) = c := by
  rw [Contact.setData, Function.update_eq_self]

theorem setAck_self (c : Contact) (win : Fin 3) : c.setAck win (c.winAck win) = c := by
  rw [Contact.setAck, Function.update_eq_self]

/-- A contact written back unchanged, with only counters and cached aliases new. -/
theorem quiet_writeBack {c : Contact} (hc : c = e.contacts slot) {drops : UInt32} :
    Quiet e { e.setContact slot c with aliases := as, replayDrops := drops } :=
  ⟨.of_eq rfl rfl rfl rfl rfl, by rw [hc]; exact Function.update_eq_self .., rfl, rfl, rfl, rfl⟩

theorem acceptInData_eq {e : Engine} {w : ReplayWindow} {seq : UInt64} {v : Verdict}
    (h : ((e.contacts slot).winData win).accept seq = (v, w)) :
    e.acceptInData slot win seq = (v, e.setContact slot ((e.contacts slot).setData win w)) := by
  show ((((e.contacts slot).winData win).accept seq).1, e.setContact slot
    ((e.contacts slot).setData win (((e.contacts slot).winData win).accept seq).2)) = _
  rw [h]

theorem acceptInAck_eq {e : Engine} {w : ReplayWindow} {seq : UInt64} {v : Verdict}
    (h : ((e.contacts slot).winAck win).accept seq = (v, w)) :
    e.acceptInAck slot win seq = (v, e.setContact slot ((e.contacts slot).setAck win w)) := by
  show ((((e.contacts slot).winAck win).accept seq).1, e.setContact slot
    ((e.contacts slot).setAck win (((e.contacts slot).winAck win).accept seq).2)) = _
  rw [h]

theorem acceptData_moves {text : List UInt8} (ho : Opens C e frame slot h body win (bodyData :: text)) :
    Moves C e (.onFrame frame now pid)
      (({ e with aliases := as } : Engine).acceptData C slot win h text pid).1
      (.incoming (({ e with aliases := as } : Engine).acceptData C slot win h text pid).2) := by
  cases hw : ((e.contacts slot).winData win).accept h.sequence with
  | mk v w =>
      unfold Engine.acceptData
      rw [acceptInData_eq (e := { e with aliases := as }) hw]
      cases v with
      | accepted =>
          obtain ⟨ha, hk, hp, hu⟩ := receivedState_ack (.inr rfl) w as e.replayDrops
          exact .recvData ho hw (by decide) ha hk hp hu
      | duplicate =>
          obtain ⟨ha, hk, hp, hu⟩ := receivedState_ack (.inl rfl) w as (bump e.replayDrops)
          exact .recvData ho hw (by decide) ha hk hp hu
      | stale =>
          refine .quiet (quiet_writeBack ?_) Output.silent_ignored
          rw [ReplayWindow.accept_of_ne_accepted hw (by decide), setData_self]

theorem acceptAck_moves {b : UInt8} {ref : List UInt8} (ho : Opens C e frame slot h body win (b :: ref))
    (hb : b ≠ bodyData) :
    Moves C e (.onFrame frame now pid) (({ e with aliases := as } : Engine).acceptAck slot win h ref).1
      (.incoming (({ e with aliases := as } : Engine).acceptAck slot win h ref).2) := by
  cases hw : ((e.contacts slot).winAck win).accept h.sequence with
  | mk v w =>
      have hquiet (hv : v ≠ .accepted) : (e.contacts slot).setAck win w = e.contacts slot := by
        rw [ReplayWindow.accept_of_ne_accepted hw hv, setAck_self]
      have hack (hv : v = .accepted) (kind : IncomingKind) (ev : Option NodeEvent) (hev) :
          Moves C e (.onFrame frame now pid) ((({ e with aliases := as } : Engine).setContact slot
            ((e.contacts slot).setAck win w)).stagePersist .rxAccept) (.incoming (kind, none, ev)) :=
        .recvAck ho hb (hv ▸ hw) rfl hev (.of_eq rfl rfl rfl rfl rfl) rfl rfl
          (Engine.staged_stagePersist _ _)
      unfold Engine.acceptAck
      rw [acceptInAck_eq (e := { e with aliases := as }) hw]
      cases v with
      | accepted =>
          dsimp only
          split
          · rename_i ps hps
            split
            · rename_i hm
              obtain ⟨hid, hep, hseq, hpid⟩ := hm
              refine hack rfl _ _ fun x hx => ⟨ps, hps, hid, hep, hseq, hpid, ?_⟩
              rw [hid, hep, hseq, hpid]
              exact (Option.some.inj hx).symm
            · exact hack rfl _ _ fun _ hx => nomatch hx
          · exact hack rfl _ _ fun _ hx => nomatch hx
      | duplicate => exact .quiet (quiet_writeBack (hquiet (by decide))) Output.silent_ignored
      | stale => exact .quiet (quiet_writeBack (hquiet (by decide))) Output.silent_ignored

end Accept

theorem onFrame_moves {frame : List UInt8} {now : UInt64} {pid : UInt32} :
    Moves C e (.onFrame frame now pid) (e.onFrame C frame now pid).1
      (.incoming (e.onFrame C frame now pid).2) := by
  unfold Engine.onFrame
  split
  swap
  · exact .quiet (.refl e) Output.silent_ignored
  split
  · exact .quiet (.refl e) Output.silent_ignored
  rename_i h body hd
  split
  · exact .quiet (.refl e) Output.silent_ignored
  split
  · exact .quiet (.refl e) Output.silent_ignored
  split
  · exact transit_moves (.refl e)
  rename_i hready
  split
  · exact transit_moves (.refl e)
  rename_i hwin
  obtain ⟨as, failed, r, hscan, hfound⟩ := scan_spec (C := C) h body (List.finRange maxContacts) e false
  rw [hscan]
  cases r with
  | none =>
      refine transit_moves ?_
      unfold Engine.countFailure
      split
      · exact ⟨.of_eq rfl rfl rfl rfl rfl, rfl, rfl, rfl, rfl, rfl⟩
      · exact quiet_aliases
  | some x =>
      obtain ⟨slot, win, plaintext⟩ := x
      have hopened := hfound slot win plaintext rfl
      dsimp only
      unfold Engine.acceptBody
      split
      · exact .quiet quiet_aliases Output.silent_ignored
      rename_i hblock
      simp only [Bool.or_eq_true, Bool.not_eq_true', not_or, Bool.not_eq_true] at hready hwin
      have ho : ∀ pt, plaintext = pt → Opens C e frame slot h body win pt := fun pt hpt =>
        ⟨hd, Bool.of_not_eq_false hready.2, Bool.of_not_eq_false hwin, hpt ▸ hopened,
          Bool.eq_false_of_not_eq_true hblock⟩
      split
      · exact .quiet quiet_aliases Output.silent_ignored
      · rename_i b rest
        split
        · rename_i hb
          subst hb
          exact acceptData_moves (ho _ rfl)
        · rename_i hb
          exact acceptAck_moves (ho _ rfl) hb

/-! #### Removal and blocking -/

theorem dropSendTo_spec (id : UInt8) :
    e.dropSendTo id = { e with pendingSend := (e.dropSendTo id).pendingSend } ∧
      ((e.dropSendTo id).pendingSend = e.pendingSend ∨ (e.dropSendTo id).pendingSend = none) ∧
      ∀ ps, (e.dropSendTo id).pendingSend = some ps → ps.contactId ≠ id := by
  unfold Engine.dropSendTo
  split
  · rename_i ps hps
    split
    · exact ⟨rfl, .inr rfl, fun _ h => nomatch h⟩
    · rename_i hne
      refine ⟨rfl, .inl rfl, fun ps' h => ?_⟩
      rw [hps] at h
      cases h
      exact hne
  · rename_i hn
    refine ⟨rfl, .inl rfl, fun ps h => ?_⟩
    rw [hn] at h
    cases h

theorem deleteContact_moves {id : UInt8} {e' : Engine} {u : Unit}
    (h : e.deleteContact id = .ok (e', u)) : Moves C e (.deleteContact id) e' (.unit (.ok u)) := by
  simp only [Engine.deleteContact, bind_eq_ok, pure_eq_ok, Prod.mk.injEq] at h
  obtain ⟨-, -, slot, hslot, rfl, -⟩ := h
  obtain ⟨heq, hp, hne⟩ := dropSendTo_spec (e := e.clearContact slot) id
  rw [heq]
  exact .delete hslot rfl (.of_clock (.inl rfl) (.inl rfl) hp rfl rfl) hne rfl
    (Engine.staged_stagePersist _ _)

theorem setBlocked_moves {id : UInt8} {blocked : Bool} {e' : Engine} {o : BlockOutcome}
    (h : e.setBlocked id blocked = .ok (e', o)) :
    Moves C e (.setBlocked id blocked) e' (.block (.ok o)) := by
  simp only [Engine.setBlocked, bind_eq_ok] at h
  obtain ⟨-, -, slot, hslot, h⟩ := h
  have hkeep (hp : blocked = true → ∀ ps, e.pendingSend = some ps → ps.contactId ≠ id) :
      Moves C e (.setBlocked id blocked)
        ((e.setContact slot { e.contacts slot with blocked }).stagePersist .none) (.block (.ok o)) :=
    .block hslot rfl (.of_eq rfl rfl rfl rfl rfl) hp rfl (Engine.staged_stagePersist _ _)
  split at h
  · split at h
    · rename_i ps hps
      split at h
      · simp only [pure_eq_ok, Prod.mk.injEq] at h
        obtain ⟨rfl, rfl⟩ := h
        exact .block hslot rfl (.of_clock (.inl rfl) (.inl rfl) (.inr rfl) rfl rfl)
          (fun _ _ h => by cases h) rfl ⟨rfl, rfl, rfl⟩
      · rename_i hne
        simp only [pure_eq_ok, Prod.mk.injEq] at h
        obtain ⟨rfl, rfl⟩ := h
        exact hkeep fun _ ps' hps' => Option.some.inj (hps.symm.trans hps') ▸ hne
    · rename_i hn
      simp only [pure_eq_ok, Prod.mk.injEq] at h
      obtain ⟨rfl, rfl⟩ := h
      exact hkeep fun _ ps hps => by cases hn.symm.trans hps
  · rename_i hb
    simp only [pure_eq_ok, Prod.mk.injEq] at h
    obtain ⟨rfl, rfl⟩ := h
    exact hkeep fun h => absurd h hb

theorem noteOrigin_quiet (bytes : List UInt8) (now : UInt64) : Quiet e (e.noteOrigin C bytes now) := by
  unfold Engine.noteOrigin
  split
  · exact .refl e
  split
  · exact .refl e
  · exact ⟨.of_eq rfl rfl rfl rfl rfl, rfl, rfl, rfl, rfl, rfl⟩

theorem restore_moves {bytes : List UInt8} {e' : Engine} {u : Unit}
    (h : e.restore C bytes = .ok (e', u)) : Moves C e (.restore bytes) e' (.unit (.ok u)) := by
  simp only [Engine.restore, bind_eq_ok, mapErr_eq_ok, pure_eq_ok, Prod.mk.injEq] at h
  obtain ⟨v, hv, rfl, -⟩ := h
  exact .restore hv

end Moves

/-- Everything one operation can do. -/
theorem step_moves (C : Crypto) (e : Engine) (op : Op) :
    Moves C e op (step C e op).1 (step C e op).2 := by
  cases op with
  | setMonoS now => exact .quiet quiet_mono Output.silent_done
  | advanceTime now => exact advanceTime_moves now (Output.silent_unit _)
  | markFault => exact .quiet ⟨.of_eq rfl rfl rfl rfl rfl, rfl, rfl, rfl, rfl, rfl⟩ Output.silent_done
  | setRadioAvailable available => exact .quiet (setRadioAvailable_quiet available) Output.silent_done
  | setIdentity uid => exact setIdentity_moves uid
  | provision label signPriv =>
      exact settle_moves (fun _ => Output.silent_unit _) fun _ _ h =>
        provision_moves h (Output.silent_unit _)
  | setTime s confirmed => exact setTimeConfirmed_moves e.monoS s confirmed (Output.silent_hour _)
  | setRadio enabled =>
      exact settle_moves (fun _ => Output.silent_unit _) fun _ _ h =>
        setRadio_moves h (Output.silent_unit _)
  | armNextBoot =>
      exact settle_moves (fun _ => Output.silent_unit _) fun _ _ h =>
        armNextBoot_moves h (Output.silent_unit _)
  | consumeBootArm =>
      exact settle_moves (fun _ => Output.silent_armed _) fun _ _ h =>
        consumeBootArm_moves h (Output.silent_armed _)
  | pairOffer ephPriv ephPub challenge =>
      exact settle_moves (fun _ => Output.silent_record _) fun _ _ h => pairOffer_moves h
  | pairCancel =>
      exact .quiet ⟨.of_clock (.inl rfl) (.inr rfl) (.inr rfl) rfl rfl, rfl, rfl, rfl, rfl, rfl⟩
        Output.silent_done
  | pairImport record replace sasMatch =>
      exact settle_moves (fun _ => Output.silent_imported fun _ h => nomatch h) fun _ _ h =>
        pairImport_moves h
  | pairProof =>
      exact settle_moves (fun _ => Output.silent_record _) fun _ _ h => pairProof_moves h
  | pairConfirm =>
      exact settle_moves (fun _ => Output.silent_record _) fun _ _ h => pairConfirm_moves h
  | sendBegin id text packetId =>
      exact settle_moves (fun _ => ⟨fun _ h => (nomatch h), rfl, rfl⟩) fun _ _ h => sendBegin_moves h
  | sendEmit => exact sendEmit_moves
  | sendRetryEcho => exact sendRetryEcho_moves
  | sendComplete =>
      exact .quiet ⟨.of_clock (.inl rfl) (.inl rfl) (.inr rfl) rfl rfl, rfl, rfl, rfl, rfl, rfl⟩
        Output.silent_done
  | onFrame frame nowMs ackPacketId => exact onFrame_moves
  | noteOrigin bytes nowMs => exact .quiet (noteOrigin_quiet bytes nowMs) Output.silent_done
  | deleteContact id =>
      exact settle_moves (fun _ => Output.silent_unit _) fun _ _ h => deleteContact_moves h
  | setBlocked id blocked =>
      exact settle_moves (fun _ => ⟨fun _ h => (nomatch h), rfl, rfl⟩) fun _ _ h => setBlocked_moves h
  | commitOk => exact .commitOk
  | discardStaged => exact .discard
  | restore bytes => exact settle_moves (fun _ => Output.silent_unit _) fun _ _ h => restore_moves h

/-! ### Two sample devices -/

namespace Sample

/-- The state after the operations. -/
def after (e : Engine) (ops : List Op) : Engine := ops.foldl (fun e op => (step crypto e op).1) e

/-- Device `n`, provisioned. -/
def setup (n : ℕ) : List Op := [.setIdentity (bytes8 n), .provision 1 (bytes32 (10 + n))]

/-- Its offer, the ephemeral key that of `n`. -/
def offer (n : ℕ) : Op :=
  .pairOffer (bytes32 (4 + n)) (crypto.x25519 (bytes32 (4 + n)) (bytes32 9)) (bytes32 (70 + n))

/-- The record that an operation of device `n` exports. -/
def exported (n : ℕ) (ops : List Op) (op : Op) : List UInt8 :=
  match (step crypto (after (.new true) (setup n ++ ops)) op).2 with
  | .record (.ok r) => r
  | _ => []

/-- Devices 1 and 2. -/
def peer (n : ℕ) : ℕ := 3 - n

def offerRecord (n : ℕ) : List UInt8 := exported n [] (offer n)

/-- The ceremony of device `n` up to the proofs, up to the confirmations, and whole. -/
def offers (n : ℕ) : List Op := [offer n, .pairImport (offerRecord (peer n)) false false]

def proofs (n : ℕ) : List Op :=
  offers n ++ [.pairProof, .pairImport (exported (peer n) (offers (peer n)) .pairProof) false false]

def ceremony (n : ℕ) : List Op :=
  proofs n ++
    [.pairConfirm, .pairImport (exported (peer n) (proofs (peer n)) .pairConfirm) false true]

example : ((after (.new true) (setup 1 ++ ceremony 1)).contacts 0).peerIdentity = bytes8 2 := by
  decide +kernel

end Sample

end LoraMesh
