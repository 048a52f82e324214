import LoraMesh.Lib.Runs
import LoraMesh.Engine.Sound

/-!
# Engine — Restore

Snapshots and restarts.

* `persistView_valid`, `restoreView_persistView`: the snapshot of a sound engine is accepted by
  the decoder, and restoring it gives the engine back with every reserved block skipped.
* `snapshot_restores`: so does every snapshot left pending in a run in which staged blocks are
  resolved before the next operation.
-/

namespace LoraMesh

namespace Engine

/-- What a restart from a snapshot of `e` leaves: the persisted state, every sequence skipped up
to what was reserved, and nothing volatile. -/
structure Restarted (e r : Engine) : Prop where
  provisioned : r.provisioned = e.provisioned
  label : r.label = e.label
  uid : r.uid = e.uid
  uidSet : r.uidSet = e.uidSet
  signPriv : r.signPriv = e.signPriv
  signSet : r.signSet = e.signSet
  persistedTxEpoch : r.persistedTxEpoch = e.persistedTxEpoch
  unixSeconds : r.unixSeconds = e.unixSeconds
  armedNextBoot : r.armedNextBoot = e.armedNextBoot
  contacts : ∀ i, r.contacts i =
    { e.contacts i with txNext := e.stagedReserved i, txReserved := e.stagedReserved i }
  timeValid : r.timeValid = false
  radioOn : r.radioOn = false
  pending : r.pending = none
  pendingSend : r.pendingSend = none

theorem windowOk_exportWindow {w : ReplayWindow} (h : w.WF) : windowOk (exportWindow w) = true := by
  obtain ⟨top, bits, e⟩ := w
  cases e with
  | true =>
      have h : (⟨top, bits, true⟩ : ReplayWindow) = .new := h
      rw [h]; rfl
  | false =>
      have h : bits ≠ 0 := h
      simp [windowOk, exportWindow, h]

variable {C : Crypto} {e : Engine}

theorem stagedReserved_absent (hs : e.Sound C) {i : Slot} (hp : (e.contacts i).present = false) :
    e.stagedReserved i = 0 := by
  have hempty := (hs.contacts i).eq_empty hp
  have hzero : (e.contacts i).txReserved = 0 := by rw [hempty]; rfl
  unfold stagedReserved
  split
  · rename_i slot n hst
    split
    · rename_i hi
      subst hi
      rw [hs.staged i n hst] at hp
      cases hp
    · exact hzero
  · exact hzero

/-- The snapshot of a sound engine is one the decoder accepts. -/
theorem persistView_valid (hs : e.Sound C) (hr : e.Reserved) : e.persistView.Valid := by
  refine ⟨hs.label, fun i => ?_⟩
  cases hp : (e.contacts i).present with
  | true =>
      have hlive := (hs.contacts i).live hp
      refine ⟨hlive.role, hr i, fun j => windowOk_exportWindow (hlive.winData j),
        fun j => windowOk_exportWindow (hlive.winAck j), ?_⟩
      show ((e.contacts i).present || _) = true
      rw [hp]; rfl
  | false =>
      have hempty : e.persistView.contacts i = .empty := by
        show ({ persistContact (e.contacts i) with txReserved := e.stagedReserved i } :
          PersistContact) = _
        rw [stagedReserved_absent hs hp, (hs.contacts i).eq_empty hp]
        rfl
      rw [hempty]
      exact PersistContact.valid_empty

/-- A live contact comes back with every reserved sequence skipped. -/
theorem restoreContact_persist {c : Contact} (h : c.Live C) {n : UInt64} (hn : c.txNext ≤ n) :
    restoreContact C { persistContact c with txReserved := n } =
      { c with txNext := n, txReserved := n } := by
  have hmax : max n c.txNext = n := by
    have h : max n c.txNext = if n ≤ c.txNext then c.txNext else n := rfl
    rw [h]
    split
    · rename_i hle; exact UInt64.le_antisymm hn hle
    · rfl
  have hself : max n n = n := ite_self n
  have hwin : ∀ win : Fin 3 → ReplayWindow, (∀ i, (win i).WF) → (fun s => ReplayWindow.restore
      (exportWindow (win s)).1 (exportWindow (win s)).2.1 (exportWindow (win s)).2.2) = win :=
    fun win hwf => funext fun s => ReplayWindow.restore_export (hwf s)
  have hpres : ({ persistContact c with txReserved := n } : PersistContact).present = true :=
    h.present
  rw [restoreContact, if_pos hpres]
  show Contact.mk true c.blocked c.edPeer c.peerIdentity c.root (deriveLabel C c.root labelTrafficLR)
    (deriveLabel C c.root labelTrafficRL) (deriveLabel C c.root labelAddress) c.role
    (max n c.txNext) (max n (max n c.txNext)) c.txEpochMax c.anchor _ _ c.winEpochs = _
  rw [hmax, hself, ← h.trafficLr, ← h.trafficRl, ← h.addrSecret, ← h.present]
  exact congrArg₂ (fun d a => ({ c with txNext := n, txReserved := n, winData := d, winAck := a } :
    Contact)) (hwin c.winData h.winData) (hwin c.winAck h.winAck)

/-- Restoring the snapshot of a sound engine into any engine restarts it. -/
theorem restoreView_persistView (hs : e.Sound C) (hr : e.Reserved) (e₀ : Engine) :
    e.Restarted (e₀.restoreView C e.persistView) where
  provisioned := rfl
  label := rfl
  uid := rfl
  uidSet := rfl
  signPriv := rfl
  signSet := rfl
  persistedTxEpoch := rfl
  unixSeconds := rfl
  armedNextBoot := rfl
  contacts := fun i => by
    show restoreContact C { persistContact (e.contacts i) with txReserved := e.stagedReserved i } = _
    cases hp : (e.contacts i).present with
    | true => exact restoreContact_persist ((hs.contacts i).live hp) (hr i)
    | false =>
        rw [stagedReserved_absent hs hp, (hs.contacts i).eq_empty hp]
        rfl
  timeValid := rfl
  radioOn := rfl
  pending := rfl
  pendingSend := rfl

end Engine

/-! ### Runs -/

/-- Where a run stands with a staged block: free to go on, to commit or discard it, or, having
discarded it, to restore. -/
inductive Phase where
  | free
  | resolve
  | restore
  deriving DecidableEq

/-- An engine, the state its pending snapshot was taken of, and where the run stands. -/
structure Snapshotting where
  engine : Engine
  shadow : Engine
  phase : Phase

namespace Snapshotting

/-- The operations that stage new sequence blocks. -/
def mayReserve : Op → Bool
  | .sendBegin .. => true
  | .onFrame .. => true
  | _ => false

def isBlock : Option StagedCommit → Bool
  | some (.txReserve ..) => true
  | _ => false

/-- The operation left a new sequence block staged. -/
def stagesBlock (op : Op) (e' : Engine) : Bool := mayReserve op && isBlock e'.staged

def init (available : Bool) : Snapshotting where
  engine := .new available
  shadow := .new available
  phase := .free

/-- One operation; the shadow follows the engine whenever the pending snapshot changes. -/
def next (C : Crypto) (s : Snapshotting) (op : Op) : Snapshotting :=
  let e := (step C s.engine op).1
  { engine := e
    shadow := if e.pendingPersist = s.engine.pendingPersist then s.shadow else e
    phase :=
      match s.phase, op with
      | .resolve, .discardStaged => .restore
      | _, _ => if stagesBlock op e then .resolve else .free }

/-- A staged block is resolved by a commit, or by a discard and then a restore that succeeds,
before any other operation. -/
def legal (s : Snapshotting) (op : Op) : Bool :=
  match s.phase, op with
  | .free, _ => true
  | .resolve, .commitOk => true
  | .resolve, .discardStaged => true
  | .restore, .restore bytes => (decodeView bytes).isOk
  | _, _ => false

variable {C : Crypto}

/-- The invariant of a legal run. -/
structure Inv (C : Crypto) (s : Snapshotting) : Prop where
  sound : s.engine.Sound C
  reserved : s.phase ≠ .restore → s.engine.Reserved
  noBlock : s.phase = .free → s.engine.NoBlock
  clean : s.phase = .restore → s.engine.pendingPersist = none
  shadow : ∀ bytes, s.engine.pendingPersist = some bytes →
    bytes = encodeInto s.shadow.persistView ∧ s.shadow.Sound C ∧ s.shadow.Reserved

theorem inv_init (available : Bool) : Inv C (init available) where
  sound := sound_new available
  reserved := fun _ _ => UInt64.le_refl 0
  noBlock := fun _ _ _ h => nomatch h
  clean := fun _ => rfl
  shadow := fun _ h => nomatch h

/-- An operation leaves the pending snapshot, clears it, or stages the state it leaves. -/
theorem pendingPersist_moves {e e' : Engine} {op : Op} {out : Output} (hm : Moves C e op e' out) :
    e'.pendingPersist = e.pendingPersist ∨ e'.pendingPersist = none ∨
      e'.pendingPersist = some (encodeInto e'.persistView) := by
  rcases staging_moves hm with ⟨-, hd, hs⟩ | ⟨-, -, hd⟩ | h
  · exact .inl (by rw [Engine.pendingPersist, hd, hs]; rfl)
  · exact .inr (.inl (by rw [Engine.pendingPersist, hd]; rfl))
  · exact .inr (.inr h.pendingPersist)

/-- An operation that does not leave its own new block staged. -/
theorem noBlock_step {e : Engine} {op : Op} (hnb : e.NoBlock)
    (hblock : stagesBlock op (step C e op).1 = false) : (step C e op).1.NoBlock := by
  intro i n hst
  have hm := step_moves C e op
  revert hm hst hblock
  generalize step C e op = r
  obtain ⟨e', out⟩ := r
  intro hblock hst hm
  dsimp only at hst hblock hm
  cases hm with
  | quiet h _ => exact hnb i n (h.staged ▸ hst)
  | pairing h =>
      obtain ⟨⟨p', rfl, -⟩, -⟩ := h.spec
      exact hnb i n hst
  | restage hk _ _ _ hs _ =>
      exact hs.not_txReserve (fun i n h => by rcases hk with rfl | rfl <;> cases h) i n hst
  | setTime _ _ _ _ _ _ hs _ => exact hs.not_txReserve (fun _ _ h => nomatch h) i n hst
  | sendBegin _ _ _ _ => rw [stagesBlock, hst] at hblock; cases hblock
  | sendEmit _ _ _ _ _ _ _ hs => exact hs.not_txReserve (fun _ _ h => nomatch h) i n hst
  | retry => exact hnb i n hst
  | recvData => rw [stagesBlock, hst] at hblock; cases hblock
  | recvAck => rw [stagesBlock, hst] at hblock; cases hblock
  | delete _ _ _ _ _ hs => exact hs.not_txReserve (fun _ _ h => nomatch h) i n hst
  | block _ _ _ _ _ hs => exact hs.not_txReserve (fun _ _ h => nomatch h) i n hst
  | activate => cases hst
  | commitOk => exact e.noBlock_commitOk i n hst
  | discard => cases hst
  | restore _ => cases hst

/-- What the state and the shadow after an operation owe to the invariant, wherever the run
stands then. -/
theorem inv_next {s : Snapshotting} {op : Op} (h : Inv C s)
    (hres : (step C s.engine op).1.Reserved) (hphase : (s.next C op).phase ≠ .restore)
    (hnb : (s.next C op).phase = .free → (step C s.engine op).1.NoBlock) : Inv C (s.next C op) where
  sound := sound_step h.sound op
  reserved := fun _ => hres
  noBlock := hnb
  clean := fun hp => absurd hp hphase
  shadow := by
    intro bytes hb
    have hb : (step C s.engine op).1.pendingPersist = some bytes := hb
    have hshadow : (s.next C op).shadow =
        if (step C s.engine op).1.pendingPersist = s.engine.pendingPersist then s.shadow
        else (step C s.engine op).1 := rfl
    rw [hshadow]
    split
    · rename_i heq
      exact h.shadow bytes (heq ▸ hb)
    · rename_i hne
      rcases pendingPersist_moves (step_moves C s.engine op) with heq | hn | hs
      · exact absurd heq hne
      · rw [hn] at hb; cases hb
      · exact ⟨Option.some.inj (hb.symm.trans hs), sound_step h.sound op, hres⟩

/-- A legal operation keeps the invariant. -/
theorem inv_step {s : Snapshotting} {op : Op} (h : Inv C s) (hl : s.legal op = true) :
    Inv C (s.next C op) := by
  obtain ⟨e, shadow, phase⟩ := s
  have hfree {op : Op} (hp : (if stagesBlock op (step C e op).1 then Phase.resolve else .free) = .free) :
      stagesBlock op (step C e op).1 = false := by
    cases hb : stagesBlock op (step C e op).1 with
    | true => rw [hb, if_pos rfl] at hp; cases hp
    | false => rfl
  cases phase with
  | free =>
      have hnb : e.NoBlock := h.noBlock rfl
      have hr : (step C e op).1.Reserved := reserved_moves (h.reserved fun hp => by cases hp) hnb (step_moves C e op)
      refine inv_next h hr (fun hp => ?_) fun hp => noBlock_step hnb (hfree hp)
      have hp : (if stagesBlock op (step C e op).1 then Phase.resolve else .free) = .restore := hp
      split at hp <;> cases hp
  | resolve =>
      have hr : e.Reserved := h.reserved fun hp => by cases hp
      cases op with
      | commitOk => exact inv_next h (Engine.reserved_commitOk hr) (fun hp => by cases hp) fun _ => e.noBlock_commitOk
      | discardStaged =>
          exact ⟨sound_step h.sound .discardStaged, fun hp => absurd rfl hp, fun hp => (by cases hp), fun _ => rfl,
            fun _ hp => (by cases hp)⟩
      | _ => cases hl
  | restore =>
      cases op with
      | restore bytes =>
          cases hd : decodeView bytes with
          | error x =>
              have hl : (decodeView bytes).isOk = true := hl
              rw [hd] at hl
              cases hl
          | ok v =>
              have hstep : (step C e (.restore bytes)).1 = e.restoreView C v := by
                show (settle e (e.restore C bytes)).1 = _
                rw [Engine.restore, hd]
                rfl
              refine inv_next h ?_ (fun hp => by cases hp) fun _ => ?_
              · rw [hstep]; exact fun i => restoreContact_reserved C _
              · rw [hstep]
                intro slot n hs
                cases hs
      | _ => cases hl

end Snapshotting

/-- Every snapshot pending in a legal run is accepted by the decoder, and restoring it into a
fresh engine restarts the engine it was staged in. -/
theorem snapshot_restores (C : Crypto) (available fresh : Bool) (ops : List Op)
    (hlegal : Along (Snapshotting.next C) (fun s op => s.legal op = true) (.init available) ops)
    {bytes : List UInt8}
    (hb : (run (Snapshotting.next C) (.init available) ops).engine.pendingPersist = some bytes) :
    (∃ v, decodeView bytes = .ok v) ∧
      ∃ r, (Engine.new fresh).restore C bytes = .ok (r, ()) ∧
        (run (Snapshotting.next C) (.init available) ops).shadow.Restarted r := by
  have hinv := run_invariant (fun _ _ h hl => Snapshotting.inv_step h hl) ops
    (Snapshotting.inv_init (C := C) available) hlegal
  obtain ⟨rfl, hs, hr⟩ := hinv.shadow bytes hb
  have hd := decodeView_encodeInto.mpr ⟨Engine.persistView_valid hs hr, rfl⟩
  refine ⟨⟨_, hd⟩, _, ?_, Engine.restoreView_persistView hs hr (Engine.new fresh)⟩
  rw [Engine.restore, hd]
  rfl

/-- The sample device, paired with nothing committed, then sending. -/
def Sample.sending : List Op :=
  setup 1 ++ ceremony 1 ++ [.commitOk, .setTime 7200 false, .sendBegin 1 (ascii "hi") 9]

/-- The run of the sample device ends with a block staged. -/
theorem snapshot_restores_sample :
    let s := run (Snapshotting.next Sample.crypto) (.init true) Sample.sending
    (∃ v, decodeView s.engine.persistScratch = .ok v) ∧
      ∃ r, (Engine.new false).restore Sample.crypto s.engine.persistScratch = .ok (r, ()) ∧
        s.shadow.Restarted r :=
  snapshot_restores Sample.crypto true false Sample.sending (by decide +kernel)
    (if_pos (by decide +kernel))

end LoraMesh
