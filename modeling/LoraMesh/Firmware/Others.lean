import LoraMesh.Firmware.Echoes
import LoraMesh.Engine.Retry

/-!
# Firmware — Others

A send in flight while the host deletes or blocks another contact.  A block leaves it alone; a
delete ends whatever send is in flight (the delete branch of `on_usb_outcome`).

* `Alone`: the send, what it reads of the engine, and no reply that ends it.
* `RadioEvt.isFor`, `waited`: the radio events for the send, and those that the line handles while
  it waits for its barrier.
* `Ended`: the send has been replied to; a delete brings it there, and so does a write that fails.
* `others_alone`: the send is left alone exactly if the line is refused, or is a block whose record
  is stored.
-/

namespace LoraMesh

open Std.Do

set_option mvcgen.warning false

/-! ### The gate -/

theorem maskBit_eq (mask : UInt32) (i : Slot) : maskBit mask i = mask.toNat.testBit i.1 := by
  have hi : i.1 % 4294967296 % 32 = i.1 := by
    have hslot : i.1 < 16 := i.2
    omega
  unfold maskBit Nat.testBit
  rw [Bool.eq_iff_iff, beq_iff_eq, bne_iff_ne, ← UInt32.toNat_inj]
  simp only [UInt32.toNat_and, UInt32.toNat_shiftRight, UInt32.toNat_ofNat', hi, UInt32.toNat_one,
    Nat.and_one_is_mod, Nat.one_and_eq_mod_two, Nat.reducePow]
  omega

theorem maskBit_mark (mask : UInt32) (i j : Slot) :
    maskBit (mask ||| (1 <<< UInt32.ofNat i.1)) j = (maskBit mask j || decide (i = j)) := by
  have hslot : i.1 < 16 := i.2
  have hi : i.1 % 4294967296 % 32 = i.1 := by omega
  have hpow : 2 ^ i.1 < 4294967296 := by
    calc 2 ^ i.1 < 2 ^ 32 := Nat.pow_lt_pow_right (by omega) (by omega)
      _ = 4294967296 := by norm_num
  simp only [maskBit_eq, UInt32.toNat_or, Nat.testBit_or, UInt32.toNat_shiftLeft, UInt32.toNat_ofNat', hi,
    UInt32.toNat_one, Nat.reducePow, Nat.one_shiftLeft, Nat.mod_eq_of_lt hpow, Nat.testBit_two_pow,
    Fin.ext_iff]

/-- The bits of the mask that the policy is synchronised to. -/
theorem maskBit_blockedMask (w : World) (j : Slot) :
    maskBit w.blockedMask j = ((w.engine.contacts j).present && (w.engine.contacts j).blocked) := by
  have fold (l : List Slot) : ∀ mask, maskBit (l.foldl (fun mask i =>
      if (w.engine.contacts i).present && (w.engine.contacts i).blocked then
        mask ||| (1 <<< UInt32.ofNat i.1)
      else mask) mask) j =
      (maskBit mask j ||
        (decide (j ∈ l) && ((w.engine.contacts j).present && (w.engine.contacts j).blocked))) := by
    induction l with
    | nil =>
        intro mask
        simp
    | cons i l ih =>
        intro mask
        rw [List.foldl_cons, ih]
        by_cases hij : j = i
        · subst hij
          split
          · rename_i hb
            simp [maskBit_mark, hb]
          · rename_i hb
            simp [hb]
        · split
          · simp [maskBit_mark, hij, Ne.symm hij]
          · simp [hij]
  unfold World.blockedMask
  rw [fold]
  simp [maskBit_eq]

theorem contactIdx_contactId (j : Slot) : contactIdx (contactId j) = some j := by
  revert j
  decide

/-- What the gate reads of a transmission to the contact in a slot. -/
def PolicyState.gateView (p : PolicyState) (y : Slot) :=
  ((p.enabled, p.allGen), (p.blocked y, p.contactGen y))

theorem PolicyState.tokenValid_of_view {p p' : PolicyState} {y : Slot} (hv : p'.gateView y = p.gateView y)
    (token : TxToken) : p'.tokenValid (some (contactId y)) token = p.tokenValid (some (contactId y)) token := by
  simp only [PolicyState.gateView, Prod.mk.injEq] at hv
  simp only [PolicyState.tokenValid, contactIdx_contactId, hv]

/-- A policy written as it was. -/
theorem PolicyState.setPolicy_view {p : PolicyState} {y : Slot} {enabled : Bool} {mask : UInt32}
    (he : p.enabled = enabled) (hb : p.blocked y = maskBit mask y) :
    (p.setPolicy enabled mask).gateView y = p.gateView y := by
  have hmask : maskBit p.blockedMask y = maskBit mask y := hb
  simp only [PolicyState.gateView, PolicyState.setPolicy, PolicyState.blocked, he, hmask, bne_self_eq_false,
    Bool.false_eq_true, if_false]

/-- The gate holds what the engine says of the contact in a slot. -/
def World.Synced (w : World) (y : Slot) : Prop :=
  w.policy.enabled = w.engine.radioOn ∧
    w.policy.blocked y = ((w.engine.contacts y).present && (w.engine.contacts y).blocked)

/-! ### A send left alone -/

/-- The end of a send, by its reply. -/
def Happening.endsSend : Happening → Bool
  | .reply _ (some .send) => true
  | _ => false

/-- The storage takes what it is handed. -/
def Wake.stores (k : Wake) : Prop := ∀ a ∈ k.answer, a.stored = true

/-- The storage takes what it is handed at the next wait. -/
def World.StoresNext (w : World) : Prop := ∀ k ∈ w.wakes.head?, k.stores

/-- The send to the contact in a slot is as it was in `v`, and has not been replied to. -/
structure Alone (v : World) (y : Slot) (w : World) : Prop where
  send : w.send = v.send
  view : w.engine.sendView y = v.engine.sendView y
  gate : v.Synced y → w.policy.gateView y = v.policy.gateView y
  log : ∃ l, w.log = l ++ v.log ∧ ∀ x ∈ l, x.endsSend = false
  stores : ∀ k ∈ w.wakes, k.stores

/-- What `Alone` looks at. -/
def World.sendView (w : World) := (w.send, w.engine, w.policy, w.log, w.wakes)

section

variable {C : Crypto} {v w w' : World} {y : Slot}

theorem Alone.of_view (h : Alone v y w) (hv : w'.sendView = w.sendView) : Alone v y w' := by
  simp only [World.sendView, Prod.mk.injEq] at hv
  obtain ⟨hs, he, hp, hl, hk⟩ := hv
  exact ⟨hs ▸ h.send, he ▸ h.view, hp ▸ h.gate, hl ▸ h.log, hk ▸ h.stores⟩

theorem Alone.record (h : Alone v y w) {x : Happening} (hx : x.endsSend = false) :
    Alone v y (w.record x) := by
  obtain ⟨l, hl, hends⟩ := h.log
  refine ⟨h.send, h.view, h.gate, ⟨x :: l, congrArg (x :: ·) hl, fun x' hx' => ?_⟩, h.stores⟩
  rcases List.mem_cons.mp hx' with rfl | hx'
  · exact hx
  · exact hends x' hx'

theorem Alone.engine (h : Alone v y w) {e : Engine} (he : e.sendView y = w.engine.sendView y) :
    Alone v y { w with engine := e } :=
  ⟨h.send, he.trans h.view, h.gate, h.log, h.stores⟩

/-- A program that leaves the send alone. -/
abbrev Spares (v : World) (y : Slot) {α : Type} (m : Async α) : Prop :=
  Keeps (Alone v y) (fun _ => True) m

theorem Spares.alone {α : Type} {m : Async α} {a : α} (h : Spares v y m) (hw : Alone v y w)
    (hrun : m.run w = (some a, w')) : Alone v y w' := by
  have h := triple_iff.mp h w hw
  rw [hrun] at h
  exact h

/-! ### Moves -/

/-- A wait leaves the send alone, and the storage takes what it was handed. -/
theorem await_alone :
    ⦃fun w => ⌜Alone v y w⌝⦄ await
    ⦃post⟨fun a w => ⌜a.stored = true ∧ Alone v y w⌝, fun _ _ => ⌜True⌝⟩⦄ := by
  refine triple_iff.mpr fun w hw => ?_
  cases hk : w.wakes with
  | nil =>
      have hrun : await.run w = (none, w) := by simp only [OptionT.run, await, hk]
      rw [hrun]
      trivial
  | cons k ks =>
      have hstores (k' : Wake) (hk' : k' ∈ k :: ks) : k'.stores := hw.stores k' (hk ▸ hk')
      have hnext : Alone v y { w with wakes := ks } :=
        ⟨hw.send, hw.view, hw.gate, hw.log, fun k' hk' => hstores k' (List.mem_cons_of_mem k hk')⟩
      have henv : Alone v y (run World.envStep { w with wakes := ks } k.env) :=
        run_invariant_of_all (envStep_keeps (fun _ _ h => h.of_view rfl)
          (fun _ _ h => h.of_view (by simp only [World.sendView, Bus.step_policy]))
          fun _ _ h => h.record rfl) k.env hnext
      have hrun : await.run w = (k.answer, run World.envStep { w with wakes := ks } k.env) := by
        simp only [OptionT.run, await, hk]
      rw [hrun]
      cases ha : k.answer with
      | none => trivial
      | some a => exact ⟨hstores k List.mem_cons_self a ha, henv⟩

theorem alloc_alone : Spares v y allocCmd := triple_iff.mpr fun _ hw => hw.of_view rfl

theorem stage_alone : Spares v y stageForCommit :=
  stageForCommit_keeps fun _ _ hw => hw.of_view rfl

theorem reply_alone {r : Reply} {ends : Option Flight} (he : ends ≠ some .send) :
    Spares v y (reply r ends) := by
  refine triple_iff.mpr fun w hw => hw.record ?_
  rcases ends with _ | _ | _
  · rfl
  · exact absurd rfl he
  · rfl

theorem call_alone {op : Op} (hop : ∀ e : Engine, (step C e op).1.sendView y = e.sendView y) :
    Spares v y (callEngine C op) :=
  triple_iff.mpr fun w hw => (hw.engine (hop w.engine)).record rfl

theorem queue_alone (cmd : RadioCmd) (use : Use) : Spares v y (trySend cmd use) := by
  unfold trySend
  mvcgen
  · rename_i w hw _
    have hrec : Alone v y (w.record (.queued cmd use (w.cmdValid cmd))) := hw.record rfl
    exact hrec.of_view rfl
  · rename_i w hw _
    exact hw.record rfl

/-- The policy is written as the gate has it of the contact. -/
theorem Alone.policy (h : Alone v y w) :
    Alone v y { w with policy := w.policy.setPolicy w.engine.radioOn w.blockedMask } := by
  refine ⟨h.send, h.view, fun hsync => ?_, h.log, h.stores⟩
  have hv := h.gate hsync
  have hview := h.view
  simp only [PolicyState.gateView, Engine.sendView, Prod.mk.injEq] at hv hview
  have hseal := Engine.sealView_of_view h.view
  simp only [Contact.sealView, Prod.mk.injEq] at hseal
  have hmask : maskBit w.blockedMask y =
      ((v.engine.contacts y).present && (v.engine.contacts y).blocked) := by
    rw [maskBit_blockedMask, (hseal y).1.1, hview.2.2.1]
  refine (PolicyState.setPolicy_view ?_ ?_).trans (h.gate hsync)
  · exact (hv.1.1.trans hsync.1).trans hview.1.2.1.2.2.symm
  · exact (hv.2.1.trans hsync.2).trans hmask.symm

theorem sync_alone : Spares v y syncPolicy := by
  unfold syncPolicy setPolicy
  mvcgen
  rename_i w hw _ _ _ _
  have hrec : Alone v y (World.record _ (.policy w.engine.radioOn w.blockedMask)) := hw.policy.record rfl
  exact hrec.of_view rfl

/-- A commit goes through. -/
theorem commit_alone :
    ⦃fun w => ⌜Alone v y w⌝⦄ commit C
    ⦃post⟨fun ok w => ⌜ok = true ∧ Alone v y w⌝, fun _ _ => ⌜True⌝⟩⦄ := by
  have stage := stage_alone (v := v) (y := y)
  have wait := await_alone (v := v) (y := y)
  have ok : Spares v y (callEngine C .commitOk) := call_alone fun _ => Engine.sendView_commitOk
  unfold commit restage
  mvcgen [stage, wait, ok]
  case vc3 | vc8 =>
    have hw : Alone v y _ := ‹_›
    exact hw.of_view rfl
  case vc4 | vc9 =>
    have hw : _ ∧ Alone v y _ := ‹_›
    exact hw.2.record rfl
  case vc6 | vc11 =>
    have hw : Answer.stored _ = true ∧ Alone v y _ := ‹_›
    exact absurd hw.1 ‹_›

theorem wait_alone : Spares v y await :=
  triple_mono await_alone (fun _ hw => hw) (fun _ _ hw => hw.2) fun _ _ => trivial

theorem commits_alone : Spares v y (commit C) :=
  triple_mono commit_alone (fun _ hw => hw) (fun _ _ hw => hw.2) fun _ _ => trivial

/-! ### Radio events -/

/-- A radio event for the send: a completion of its transmission, an acknowledgement of its contact,
or a fault of the radio. -/
def RadioEvt.isFor (C : Crypto) (y : Slot) (w : World) : RadioEvt → Prop
  | .txDone id _ _ => ∃ send, w.send = some send ∧ send.cmdId = id
  | .rxFrame frame => w.engine.AckFrom C y frame
  | .fault => True
  | _ => False

theorem jitter_alone : Spares v y jitter := by
  have wait := wait_alone (v := v) (y := y)
  unfold jitter
  mvcgen [wait]

theorem sendAckFrame_alone (ack : OutgoingFrame) : Spares v y (sendAckFrame C ack) := by
  have jit := jitter_alone (v := v) (y := y)
  have sync := sync_alone (v := v) (y := y)
  have token := txToken_keeps (Alone v y) (fun _ => True) ack.contactId
  have alloc := alloc_alone (v := v) (y := y)
  have note (bytes : List UInt8) (now : UInt64) : Spares v y (callEngine C (.noteOrigin bytes now)) :=
    call_alone fun _ => Engine.sendView_noteOrigin bytes now
  have queue := queue_alone (v := v) (y := y)
  unfold sendAckFrame
  mvcgen [jit, sync, token, alloc, note, queue]

theorem scheduleForward_alone (fwd : OutgoingFrame) : Spares v y (scheduleForward fwd) := by
  have wait := wait_alone (v := v) (y := y)
  unfold scheduleForward
  mvcgen [wait]
  have hw : Alone v y _ := ‹_›
  exact hw.of_view rfl

theorem commitPending_alone : Spares v y (commitPending C) := by
  have commit := commits_alone (C := C) (v := v) (y := y)
  unfold commitPending
  mvcgen [commit]

/-- A frame that is not for the send. -/
theorem onRx_alone (hid : ∀ send, v.send = some send → send.contactId = contactId y) {frame : AirFrame}
    (hack : ¬ v.engine.AckFrom C y frame) : Spares v y (onRx C frame) := by
  have wait := wait_alone (v := v) (y := y)
  have call (now : UInt64) (pid : UInt32) :
      ⦃fun w => ⌜Alone v y w⌝⦄ callEngine C (.onFrame frame now pid)
      ⦃post⟨fun out w => ⌜(∀ c f ev, out = .incoming (.ack c, f, ev) → c ≠ contactId y) ∧ Alone v y w⌝,
        fun _ _ => ⌜True⌝⟩⦄ := by
    refine triple_iff.mpr fun w hw => ?_
    have hack : ¬ w.engine.AckFrom C y frame := fun h => hack (Engine.ackFrom_of_view hw.view h)
    refine ⟨fun c f ev hout => ?_, (hw.engine (Engine.onFrame_sendView hack)).record rfl⟩
    have hout : (w.engine.onFrame C frame now pid).2 = (.ack c, f, ev) := Output.incoming.inj hout
    obtain ⟨i, rfl, hfrom⟩ := Engine.onFrame_ack_from (congrArg Prod.fst hout)
    exact fun h => hack (Engine.contactId_injective h ▸ hfrom)
  have commit := commits_alone (C := C) (v := v) (y := y)
  have pending := commitPending_alone (C := C) (v := v) (y := y)
  have ack := sendAckFrame_alone (C := C) (v := v) (y := y)
  have replies (r : Reply) : Spares v y (reply r none) := reply_alone nofun
  have forward := scheduleForward_alone (v := v) (y := y)
  unfold onRx
  mvcgen [wait, call, commit, pending, ack, replies, forward]
  case vc16 =>
    -- an acknowledgement of another contact is not of this send
    rename_i c _ _ hne _ _ w hw send hs heq
    exact absurd (heq.symm.trans (hid send (hw.send.symm.trans hs))) (hne.1 c _ _ rfl)
  all_goals
    have hw : (∀ c f ev, _ = _ → c ≠ contactId y) ∧ Alone v y _ := ‹_›
    exact hw.2

theorem onCadDone_alone (id : ℕ) (result : Except TxFault Bool) : Spares v y (onCadDone id result) := by
  have replies (r : Reply) : Spares v y (reply r (some .ping)) := reply_alone nofun
  have alloc := alloc_alone (v := v) (y := y)
  have queue := queue_alone (v := v) (y := y)
  unfold onCadDone endPing
  mvcgen [replies, alloc, queue]
  all_goals
    have hw : Alone v y _ := ‹_›
    first
      | exact hw.of_view rfl
      | exact (hw.record (x := .probed _) rfl).of_view rfl

theorem forwardDone_alone (id : ℕ) : Spares v y (forwardDone id) := by
  refine triple_iff.mpr fun w hw => ?_
  rcases forwardDone_run id w with hrun | ⟨-, hrun⟩
  · rw [hrun]
    exact hw
  · rw [hrun]
    exact hw.of_view rfl

/-- A completion of another transmission. -/
theorem onTxDone_alone {id : ℕ} (hid : ¬ ∃ send, v.send = some send ∧ send.cmdId = id)
    (result : Except TxFault Unit) : Spares v y (onTxDone C id result) := by
  have forward := forwardDone_alone (v := v) (y := y)
  unfold onTxDone
  mvcgen [forward]
  all_goals
    rename_i w hw send hs heq _
    exact absurd ⟨send, hw.send.symm.trans hs, heq⟩ hid

theorem onRadioEvt_alone (hid : ∀ send, v.send = some send → send.contactId = contactId y)
    {evt : RadioEvt} (hevt : ¬ evt.isFor C y v) : Spares v y (onRadioEvt C evt) := by
  cases evt with
  | controlDone id ok => exact triple_iff.mpr fun _ hw => hw
  | txDone id result attempted => exact onTxDone_alone hevt result
  | cadDone id result => exact onCadDone_alone id result
  | rxFrame frame => exact onRx_alone hid hevt
  | rxCrcError => exact triple_iff.mpr fun _ hw => hw
  | fault => exact absurd trivial hevt

/-! ### The wait for a barrier -/

variable (C) in
/-- The radio events that a wait handles. -/
def handled (want deadline : ℕ) : ℕ → World → List RadioEvt
  | 0, _ => []
  | fuel + 1, w =>
    if deadline ≤ w.now then []
    else
      match await.run w with
      | (none, _) => []
      | (some _, w) =>
        match w.evts with
        | [] => if deadline ≤ w.now then [] else handled want deadline fuel w
        | .controlDone id _ :: evts =>
          if id = want then [] else handled want deadline fuel { w with evts := evts }
        | evt :: evts =>
          evt ::
            match (onRadioEvt C evt).run { w with evts := evts } with
            | (none, _) => []
            | (some _, w) => handled want deadline fuel w

/-- One pass of a wait. -/
theorem waitLoop_run (want deadline fuel : ℕ) (w : World) :
    (waitLoop C want deadline (fuel + 1)).run w =
      if deadline ≤ w.now then (some false, w)
      else
        match await.run w with
        | (none, w) => (none, w)
        | (some _, w) =>
          match w.evts with
          | [] => if deadline ≤ w.now then (some false, w) else (waitLoop C want deadline fuel).run w
          | .controlDone id ok :: evts =>
            if id = want then (some ok, { w with evts := evts })
            else (waitLoop C want deadline fuel).run { w with evts := evts }
          | evt :: evts =>
            match (onRadioEvt C evt).run { w with evts := evts } with
            | (none, w) => (none, w)
            | (some _, w) => (waitLoop C want deadline fuel).run w := by
  have hget (w : World) : (get : Async World).run w = (some w, w) := rfl
  have hset (w w' : World) : (set w' : Async PUnit).run w = (some (), w') := rfl
  conv_lhs => unfold waitLoop
  change (if deadline ≤ w.now then _ else _ : Async Bool).run w = _
  split
  · rfl
  rw [bind_run]
  rcases await.run w with ⟨_ | a, w⟩
  · rfl
  dsimp only
  rw [bind_run, hget]
  dsimp only
  rcases w.evts with _ | ⟨evt, evts⟩
  · dsimp only
    split
    · rfl
    · rfl
  dsimp only
  rw [bind_run, hset]
  cases evt with
  | controlDone id ok =>
      dsimp only
      split
      · rfl
      · rfl
  | _ =>
      dsimp only
      rw [bind_run]
      generalize (onRadioEvt C _).run _ = r
      rcases r with ⟨_ | a, w⟩
      · rfl
      · rfl

/-- A wait that handles no event for the send. -/
theorem waitLoop_alone (hid : ∀ send, v.send = some send → send.contactId = contactId y)
    (want deadline : ℕ) : ∀ (fuel : ℕ) {w w' : World} {ok : Bool}, Alone v y w →
      (∀ evt ∈ handled C want deadline fuel w, ¬ evt.isFor C y v) →
      (waitLoop C want deadline fuel).run w = (some ok, w') → Alone v y w'
  | 0, _, _, _, _, _, hrun => nomatch hrun
  | fuel + 1, w, w', ok, hw, hevts, hrun => by
      rw [waitLoop_run] at hrun
      unfold handled at hevts
      split at hrun
      · cases hrun
        exact hw
      rename_i hdue
      rw [if_neg hdue] at hevts
      have hwait := triple_iff.mp await_alone w hw
      generalize await.run w = r at hevts hwait hrun
      obtain ⟨_ | a, w⟩ := r
      · cases hrun
      obtain ⟨-, hw⟩ := hwait
      dsimp only at hevts hrun
      have hpop (evts : List RadioEvt) : Alone v y { w with evts := evts } := hw.of_view rfl
      split at hrun
      · rename_i hnone
        rw [hnone] at hevts
        split at hrun
        · cases hrun
          exact hw
        · rename_i hlate
          rw [if_neg hlate] at hevts
          exact waitLoop_alone hid want deadline fuel hw hevts hrun
      · rename_i hdone
        rw [hdone] at hevts
        split at hrun
        · cases hrun
          exact hpop _
        · rename_i hother
          simp only [if_neg hother] at hevts
          exact waitLoop_alone hid want deadline fuel (hpop _) hevts hrun
      · rename_i evt evts hnot hevt
        rw [hevt] at hevts
        cases evt with
        | controlDone id ok => exact (hnot id ok rfl).elim
        | _ =>
            obtain ⟨hfor, hrest⟩ := List.forall_mem_cons.mp hevts
            have hkeep := triple_iff.mp (onRadioEvt_alone hid hfor) _ (hpop evts)
            generalize (onRadioEvt C _).run _ = r at hkeep hrest hrun
            obtain ⟨_ | u, w⟩ := r
            · cases hrun
            · exact waitLoop_alone hid want deadline fuel hkeep hrest hrun

/-- A barrier up to its wait: its id, if it was queued. -/
def barrierQueued : Async (Option ℕ) := do
  let cmd ← allocCmd
  if ← trySend (.barrier cmd) .control then return some cmd
  return none

variable (C) in
/-- A staged line up to the wait for its barrier, whose id it answers if there is one. -/
def untilBarrier : Async (Option ℕ) := do
  if !(← commit C) then return none
  syncPolicy
  let w ← get
  if w.hwPresent then barrierQueued
  else return none

variable (C) in
/-- The radio events that a staged line handles while it waits for its barrier. -/
def waited (w : World) : List RadioEvt :=
  match (untilBarrier C).run w with
  | (some (some cmd), w) => handled C cmd (w.now + controlWait) (w.wakes.length + 1) w
  | _ => []

theorem commitReply_alone : Spares v y commitReply := by
  have replies (r : Reply) : Spares v y (reply r none) := reply_alone nofun
  unfold commitReply
  mvcgen [replies]
  all_goals
    have hw : Alone v y _ := ‹_›
    exact hw.of_view rfl

/-- A barrier is queued, and then waited for. -/
theorem barrier_run (w : World) :
    (barrier C).run w =
      match barrierQueued.run w with
      | (some (some cmd), w) =>
        match (waitControl C cmd).run w with
        | (some ok, w) => (some (some ok), w)
        | (none, w) => (none, w)
      | (some none, w) => (some none, w)
      | (none, w) => (none, w) := by
  unfold barrier barrierQueued
  rw [bind_run, bind_run]
  generalize allocCmd.run w = r
  obtain ⟨_ | cmd, w⟩ := r
  · rfl
  dsimp only
  rw [bind_run, bind_run]
  generalize (trySend (.barrier cmd) .control).run w = r
  obtain ⟨_ | _ | _, w⟩ := r
  · rfl
  · rfl
  change ((waitControl C cmd) >>= fun ok => pure (some ok)).run w =
    match (waitControl C cmd).run w with
    | (some ok, w) => (some (some ok), w)
    | (none, w) => (none, w)
  rw [bind_run]
  generalize (waitControl C cmd).run w = r
  obtain ⟨_ | ok, w⟩ := r
  · rfl
  · rfl

theorem waitControl_run (want : ℕ) (hp : w.hwPresent = true) :
    (waitControl C want).run w = (waitLoop C want (w.now + controlWait) (w.wakes.length + 1)).run w := by
  have hget (w : World) : (get : Async World).run w = (some w, w) := rfl
  have hpresent : (!w.hwPresent) = false := by
    rw [hp]
    rfl
  unfold waitControl
  rw [bind_run, hget]
  dsimp only
  rw [hpresent, if_neg Bool.false_ne_true]

/-- Queueing a barrier leaves the send alone, and the radio where it was. -/
theorem barrierQueued_alone :
    ⦃fun w => ⌜w.hwPresent = true ∧ Alone v y w⌝⦄ barrierQueued
    ⦃post⟨fun _ w => ⌜w.hwPresent = true ∧ Alone v y w⌝, fun _ _ => ⌜True⌝⟩⦄ := by
  unfold barrierQueued allocCmd trySend
  mvcgen
  case vc1 =>
    rename_i w hw _ _
    have hrec : Alone v y (w.record (.queued (.barrier w.nextCmd) .control false)) := hw.2.record rfl
    exact ⟨hw.1, hrec.of_view rfl⟩
  case vc4 =>
    rename_i w hw _ _
    have hrec : Alone v y (w.record (.refused (.barrier w.nextCmd) .control (w.wanted != w.wanted))) :=
      hw.2.record rfl
    exact ⟨hw.1, hrec.of_view rfl⟩

theorem barrier_alone (hid : ∀ send, v.send = some send → send.contactId = contactId y)
    {answer : Option Bool} (hw : Alone v y w) (hp : w.hwPresent = true)
    (hevts : ∀ evt ∈ (match (barrierQueued).run w with
      | (some (some cmd), w) => handled C cmd (w.now + controlWait) (w.wakes.length + 1) w
      | _ => []), ¬ evt.isFor C y v)
    (hrun : (barrier C).run w = (some answer, w')) : Alone v y w' := by
  rw [barrier_run] at hrun
  have hqueue := triple_iff.mp (barrierQueued_alone (v := v) (y := y)) w ⟨hp, hw⟩
  generalize barrierQueued.run w = r at hrun hevts hqueue
  obtain ⟨_ | _ | cmd, w⟩ := r
  · cases hrun
  · cases hrun
    exact hqueue.2
  obtain ⟨hp, hw⟩ := hqueue
  dsimp only at hrun hevts
  rw [waitControl_run cmd hp] at hrun
  generalize hloop : (waitLoop C cmd (w.now + controlWait) (w.wakes.length + 1)).run w = r at hrun
  obtain ⟨_ | ok, w₂⟩ := r
  · cases hrun
  cases hrun
  exact waitLoop_alone hid _ _ _ hw hevts hloop

/-- A block that is committed, with its wait. -/
theorem controlSetBlocked_alone (hid : ∀ send, v.send = some send → send.contactId = contactId y)
    {id : UInt64} (hw : Alone v y w) (hevts : ∀ evt ∈ waited C w, ¬ evt.isFor C y v)
    (hrun : (controlSetBlocked C id).run w = (some (), w')) : Alone v y w' := by
  unfold controlSetBlocked at hrun
  unfold waited untilBarrier at hevts
  rw [bind_run] at hrun hevts
  have hcommit := triple_iff.mp (commit_alone (C := C)) w hw
  generalize (commit C).run w = r at hrun hevts hcommit
  obtain ⟨_ | ok, w⟩ := r
  · cases hrun
  obtain ⟨rfl, hw⟩ := hcommit
  simp only [Bool.not_true, Bool.false_eq_true, if_false] at hrun hevts
  rw [bind_run] at hrun hevts
  have hsync := triple_iff.mp sync_alone w hw
  generalize syncPolicy.run w = r at hrun hevts hsync
  obtain ⟨_ | u, w⟩ := r
  · cases hrun
  have hget (w : World) : (get : Async World).run w = (some w, w) := rfl
  dsimp only at hrun hevts
  rw [bind_run, hget] at hrun hevts
  dsimp only at hrun hevts
  by_cases hpresent : w.hwPresent = true
  · rw [if_pos hpresent, bind_run] at hrun
    rw [if_pos hpresent] at hevts
    generalize hb : (barrier C).run w = r at hrun
    obtain ⟨_ | answer, w₁⟩ := r
    · cases hrun
    have hw₁ := barrier_alone hid hsync hpresent hevts hb
    have busy : Spares v y (reply (.err id .busy) none) := reply_alone nofun
    rcases answer with _ | _ | _
    · exact busy.alone hw₁ hrun
    · exact busy.alone hw₁ hrun
    · exact commitReply_alone.alone hw₁ hrun
  · rw [if_neg hpresent] at hrun
    exact commitReply_alone.alone hsync hrun

/-! ### Lines for a contact -/

/-- The lines that delete, block or unblock a contact, with their engine operation. -/
inductive Request.Manages (x : UInt8) : Request → Op → Prop
  | delete : Manages x (.contactDelete (some x)) (.deleteContact x)
  | block : Manages x (.block (some x)) (.setBlocked x true)
  | unblock : Manages x (.unblock (some x)) (.setBlocked x false)

variable (C) in
/-- An operation that the dispatch answers at once with an error. -/
def World.Refuses (w : World) (op : Op) : Prop :=
  w.health = .fault ∨ (LoraMesh.step C w.engine op).2.succeeded = false

/-- A refused line touches nothing, and an accepted one is staged with its reply owed. -/
theorem manages_run {x : UInt8} {req : Request} {op : Op} (hreq : req.Manages x op) (id : UInt64)
    (w : World) :
    (w.Refuses C op ∧ ∃ code w', (dispatch C id req).run w = (some (.inline (.err id code)), w') ∧
      (w' = w ∨ w' = w.called C op ∧ w'.engine = w.engine)) ∨
    (¬ w.Refuses C op ∧ ∃ owed, op.owes id = some owed ∧
      (dispatch C id req).run w = (some .needsCommit, (w.called C op).copied.owing owed)) := by
  have hrun : (dispatch C id req).run w =
      (if w.health = .fault then _ else _ : Async Outcome).run w := rfl
  by_cases hh : w.health = .fault
  · refine .inl ⟨.inl hh, .storageFault, w, ?_, .inl rfl⟩
    rw [hrun, if_pos hh]
    cases hreq <;> rfl
  rw [hrun, if_neg hh]
  have settles {α : Type} {m : Async Outcome} {f : Except EngineError α → Output} {owed : StagedReply}
      {r : Except EngineError (Engine × α)} (hf : ∀ r, (f r).succeeded = r.isOk)
      (hstep : LoraMesh.step C w.engine op = answer f (settle w.engine r))
      (howed : op.owes id = some owed)
      (hm : m.run w = (settled id (settle w.engine r).2 fun _ => stageReply owed).run (w.called C op)) :
      (w.Refuses C op ∧ ∃ code w', m.run w = (some (.inline (.err id code)), w') ∧
        (w' = w ∨ w' = w.called C op ∧ w'.engine = w.engine)) ∨
      (¬ w.Refuses C op ∧ ∃ owed, op.owes id = some owed ∧
        m.run w = (some .needsCommit, (w.called C op).copied.owing owed)) := by
    have hout : (LoraMesh.step C w.engine op).2.succeeded = (settle w.engine r).2.isOk := by
      rw [hstep]
      exact hf _
    have hengine : (w.called C op).engine = (settle w.engine r).1 := congrArg Prod.fst hstep
    cases r with
    | error e => exact .inl ⟨.inr hout, engineCode e, _, hm, .inr ⟨rfl, hengine⟩⟩
    | ok a =>
        refine .inr ⟨fun h => h.elim hh fun h => ?_, owed, howed, hm⟩
        exact nomatch h.symm.trans hout
  cases hreq with
  | delete => exact settles unit_succeeded rfl rfl rfl
  | block => exact settles block_succeeded rfl rfl rfl
  | unblock => exact settles block_succeeded rfl rfl rfl

/-! ### A send that has ended -/

/-- The log since `v` ends a send. -/
def Ended (v w : World) : Prop := ∃ l, w.log = l ++ v.log ∧ ∃ x ∈ l, x.endsSend = true

/-- The log has gone on since `v`. -/
def Grown (v w : World) : Prop := ∃ l, w.log = l ++ v.log

/-- And a send is in flight. -/
def Flying (v w : World) : Prop := w.send.isSome = true ∧ Grown v w

/-- A statement about the send in flight and a log that goes on. -/
structure Watched (P : World → Prop) : Prop where
  view : ∀ {w w' : World}, P w → w'.send = w.send → w'.log = w.log → P w'
  record : ∀ {w} x, P w → P (w.record x)

theorem Ended.of_log (h : Ended v w) (hl : w'.log = w.log) : Ended v w' := by
  obtain ⟨l, hlog, hends⟩ := h
  exact ⟨l, hl.trans hlog, hends⟩

theorem ended_watched : Watched (Ended v) where
  view h _ hl := h.of_log hl
  record x h := by
    obtain ⟨l, hlog, x', hx', hends⟩ := h
    exact ⟨x :: l, congrArg (x :: ·) hlog, x', List.mem_cons_of_mem x hx', hends⟩

theorem grown_watched : Watched (Grown v) where
  view h _ hl := by
    obtain ⟨l, hlog⟩ := h
    exact ⟨l, hl.trans hlog⟩
  record x h := by
    obtain ⟨l, hlog⟩ := h
    exact ⟨x :: l, congrArg (x :: ·) hlog⟩

theorem flying_watched : Watched (Flying v) where
  view h hs hl := ⟨hs ▸ h.1, grown_watched.view h.2 hs hl⟩
  record x h := ⟨h.1, grown_watched.record x h.2⟩

theorem Flying.contra (h : Flying v w) (hnone : w.send = none) : False :=
  nomatch (congrArg Option.isSome hnone).symm.trans h.1

/-- The reply to the send. -/
theorem reply_ends (r : Reply) :
    ⦃fun w => ⌜Grown v w⌝⦄ reply r (some .send) ⦃post⟨fun _ w => ⌜Ended v w⌝, fun _ _ => ⌜True⌝⟩⦄ := by
  refine triple_iff.mpr fun w hw => ?_
  obtain ⟨l, hlog⟩ := hw
  exact ⟨_ :: l, congrArg (_ :: ·) hlog, _, List.mem_cons_self, rfl⟩

section

variable {P : World → Prop} (h : Watched P)

include h

theorem wait_watched : Keeps P (fun _ => True) await :=
  triple_mono (await_keeps (fun _ _ hw => h.view hw rfl rfl) (fun _ _ hw => h.view hw rfl rfl)
    (fun _ _ hw => h.view hw rfl rfl) fun _ _ hw => h.record _ hw) (fun _ hw => hw) (fun _ _ hw => hw)
    fun _ _ => trivial

theorem alloc_watched : Keeps P (fun _ => True) allocCmd :=
  triple_iff.mpr fun _ hw => h.view hw rfl rfl

theorem stage_watched : Keeps P (fun _ => True) stageForCommit :=
  stageForCommit_keeps fun _ _ hw => h.view hw rfl rfl

theorem reply_watched (r : Reply) (ends : Option Flight) : Keeps P (fun _ => True) (reply r ends) :=
  triple_iff.mpr fun _ hw => h.record _ hw

theorem call_watched (op : Op) : Keeps P (fun _ => True) (callEngine C op) :=
  triple_iff.mpr fun _ hw => h.view (h.record _ hw) rfl rfl

theorem queue_watched (cmd : RadioCmd) (use : Use) : Keeps P (fun _ => True) (trySend cmd use) := by
  unfold trySend
  mvcgen
  · have hw : P _ := ‹_›
    exact h.view (h.record _ hw) rfl rfl
  · have hw : P _ := ‹_›
    exact h.record _ hw

theorem policy_watched (enabled : Bool) (mask : UInt32) : Keeps P (fun _ => True) (setPolicy enabled mask) :=
  triple_iff.mpr fun _ hw => h.view (h.record _ hw) rfl rfl

theorem sync_watched : Keeps P (fun _ => True) syncPolicy := by
  have policy := policy_watched h
  unfold syncPolicy
  mvcgen [policy]
  have hw : P _ := ‹_›
  exact h.view hw rfl rfl

end

/-- A send in flight ends as RF is closed. -/
theorem failRadioClosed_ends :
    ⦃fun w => ⌜Flying v w⌝⦄ failRadioClosed C ⦃post⟨fun _ w => ⌜Ended v w⌝, fun _ _ => ⌜True⌝⟩⦄ := by
  have policy := policy_watched (flying_watched (v := v))
  have alloc := alloc_watched (flying_watched (v := v))
  have queue := queue_watched (flying_watched (v := v))
  have call := call_watched (C := C) (grown_watched (v := v))
  have ends := reply_ends (v := v)
  unfold failRadioClosed emitErr
  mvcgen [policy, alloc, queue, call, ends]
  case vc1 =>
    have hw : Flying v _ := ‹_›
    exact flying_watched.record _ hw
  case vc4 =>
    have hw : Flying v _ := ‹_›
    exact hw.2
  case vc6 =>
    rename_i hw _ hnone _
    exact (hw.contra hnone).elim

/-- A commit leaves a send in flight, or ends it as its write fails. -/
theorem commit_flying :
    ⦃fun w => ⌜Flying v w⌝⦄ commit C
    ⦃post⟨fun ok w => ⌜if ok then Flying v w else Ended v w⌝, fun _ _ => ⌜True⌝⟩⦄ := by
  have stage := stage_watched (flying_watched (v := v))
  have wait := wait_watched (flying_watched (v := v))
  have call := call_watched (C := C) (flying_watched (v := v))
  have close := failRadioClosed_ends (C := C) (v := v)
  unfold commit restage
  mvcgen [stage, wait, call, close]
  all_goals
    have hw : Flying v _ := ‹_›
    exact flying_watched.record _ hw

/-- A write that fails. -/
theorem await_broken :
    ⦃fun w => ⌜Flying v w ∧ ¬ w.StoresNext⌝⦄ await
    ⦃post⟨fun a w => ⌜a.stored = false ∧ Flying v w⌝, fun _ _ => ⌜True⌝⟩⦄ := by
  refine triple_iff.mpr fun w hw => ?_
  obtain ⟨hw, hbreaks⟩ := hw
  have hkeep := triple_iff.mp (wait_watched flying_watched) w hw
  cases hk : w.wakes with
  | nil => exact absurd (by simp only [World.StoresNext, hk, List.head?_nil, Option.mem_def,
      reduceCtorEq, IsEmpty.forall_iff, implies_true]) hbreaks
  | cons k ks =>
      have hrun : await.run w = (k.answer, run World.envStep { w with wakes := ks } k.env) := by
        simp only [OptionT.run, await, hk]
      rw [hrun] at hkeep ⊢
      cases ha : k.answer with
      | none => trivial
      | some a =>
          rw [ha] at hkeep
          refine ⟨?_, hkeep⟩
          by_contra hstored
          refine hbreaks fun k' hk' a' ha' => ?_
          rw [hk] at hk'
          cases hk'
          cases ha.symm.trans ha'
          exact (Bool.not_eq_false _).mp hstored

/-- And ends it as a write fails that comes first. -/
theorem commit_broken :
    ⦃fun w => ⌜Flying v w ∧ w.staged.isSome = true ∧ ¬ w.StoresNext⌝⦄ commit C
    ⦃post⟨fun ok w => ⌜ok = false ∧ Ended v w⌝, fun _ _ => ⌜True⌝⟩⦄ := by
  have wait := await_broken (v := v)
  have call := call_watched (C := C) (flying_watched (v := v))
  have close := failRadioClosed_ends (C := C) (v := v)
  unfold commit restage
  mvcgen [wait, call, close]
  case vc1 =>
    rename_i hw hnone
    cases (congrArg Option.isSome (Option.isNone_iff_eq_none.mp hnone)).symm.trans hw.2.1
  case vc2 =>
    rename_i hw _ hnone
    cases (congrArg Option.isSome hnone).symm.trans hw.2.1
  case vc3 =>
    have hw : Flying v _ ∧ _ ∧ ¬ World.StoresNext _ := ‹_›
    exact ⟨flying_watched.view hw.1 rfl rfl, hw.2.2⟩
  case vc5 =>
    rename_i hw _ hstored _ _ _
    cases hw.1.symm.trans hstored
  all_goals
    have hw : Answer.stored _ = false ∧ Flying v _ := ‹_›
    exact flying_watched.record _ hw.2

theorem endSend_ends (send : InFlight) (code : ErrCode) :
    ⦃fun w => ⌜Grown v w⌝⦄ endSend C send code ⦃post⟨fun _ w => ⌜Ended v w⌝, fun _ _ => ⌜True⌝⟩⦄ := by
  have call := call_watched (C := C) (grown_watched (v := v))
  have ends := reply_ends (v := v)
  unfold endSend finishSend
  mvcgen [call, ends]

theorem failRadioClosed_ended : Keeps (Ended v) (fun _ => True) (failRadioClosed C) := by
  have policy := policy_watched (ended_watched (v := v))
  have alloc := alloc_watched (ended_watched (v := v))
  have queue := queue_watched (ended_watched (v := v))
  have call := call_watched (C := C) (ended_watched (v := v))
  have reply := reply_watched (ended_watched (v := v))
  unfold failRadioClosed emitErr
  mvcgen [policy, alloc, queue, call, reply]
  have hw : Ended v _ := ‹_›
  exact ended_watched.record _ hw

theorem commit_ended : Keeps (Ended v) (fun _ => True) (commit C) := by
  have stage := stage_watched (ended_watched (v := v))
  have wait := wait_watched (ended_watched (v := v))
  have call := call_watched (C := C) (ended_watched (v := v))
  have close := failRadioClosed_ended (C := C) (v := v)
  unfold commit restage
  mvcgen [stage, wait, call, close]
  all_goals
    have hw : Ended v _ := ‹_›
    exact ended_watched.record _ hw

/-- The end of a send is not undone. -/
theorem ended_moves : MovesKeep C (Ended v) fun _ => True where
  stands _ _ := trivial
  stood _ := trivial
  scratch h hw := by
    simp only [World.core, Prod.mk.injEq] at hw
    exact h.of_log hw.2.2.2.2
  pop h _ := h.of_log rfl
  flights _ _ h := h.of_log rfl
  accepted _ _ h := ended_watched.record _ h
  cleared _ h := ended_watched.record _ h
  probed _ h := ended_watched.record _ h
  kept _ h := ended_watched.record _ h
  wait := wait_watched ended_watched
  alloc := alloc_watched ended_watched
  call op _ := call_watched ended_watched op
  keyed op _ := call_watched ended_watched op
  stage := stage_watched ended_watched
  sync := sync_watched ended_watched
  queue cmd use _ := queue_watched ended_watched cmd use
  reply r ends _ := reply_watched ended_watched r ends
  commit := commit_ended
  close := failRadioClosed_ended

theorem commitReply_ended : Keeps (Ended v) (fun _ => True) commitReply := by
  have reply := reply_watched (ended_watched (v := v))
  unfold commitReply
  mvcgen [reply]

/-- The delete branch ends any send in flight. -/
theorem controlDelete_ends (id : UInt64) :
    ⦃fun w => ⌜Flying v w⌝⦄ controlDelete C id ⦃post⟨fun _ w => ⌜Ended v w⌝, fun _ _ => ⌜True⌝⟩⦄ := by
  have commit := commit_flying (C := C) (v := v)
  have sync := sync_watched (flying_watched (v := v))
  have ends := endSend_ends (C := C) (v := v)
  have wait := barrier_keeps (ended_moves (C := C) (v := v)).relay
  have reply := reply_watched (ended_watched (v := v))
  unfold controlDelete emitErr
  mvcgen [commit, sync, ends, wait, reply]
  case vc2 | vc3 =>
    have hw : if _ then Flying v _ else Ended v _ := ‹_›
    simp_all
  case vc4 =>
    have hw : Flying v _ := ‹_›
    exact hw.2
  all_goals
    have hw : Flying v _ := ‹_›
    exact (hw.contra ‹_›).elim

/-- A deletion that is committed. -/
theorem deletion_ends (id : UInt64) :
    ⦃fun w => ⌜Flying v w ∧ w.stagedReply = some (.simple id)⌝⦄ onNeedsCommit C
    ⦃post⟨fun _ w => ⌜Ended v w⌝, fun _ _ => ⌜True⌝⟩⦄ := by
  have delete := controlDelete_ends (C := C) (v := v)
  have commit := commit_ended (C := C) (v := v)
  have finish := commitReply_ended (v := v)
  have reply := reply_watched (ended_watched (v := v))
  unfold onNeedsCommit emitErr
  mvcgen [delete, commit, finish, reply]
  case vc3 =>
    rename_i hw _ _ _
    exact hw.1
  -- the reply owed is the delete branch's
  all_goals
    rename_i hw _ _
    simp_all

/-- A block whose write fails. -/
theorem block_broken (id : UInt64) :
    ⦃fun w => ⌜Flying v w ∧ w.staged.isSome = true ∧ ¬ w.StoresNext⌝⦄ controlSetBlocked C id
    ⦃post⟨fun _ w => ⌜Ended v w⌝, fun _ _ => ⌜True⌝⟩⦄ := by
  have commit := commit_broken (C := C) (v := v)
  have reply := reply_watched (ended_watched (v := v))
  have sync := sync_watched (ended_watched (v := v))
  have wait := barrier_keeps (ended_moves (C := C) (v := v)).relay
  have finish := commitReply_ended (v := v)
  unfold controlSetBlocked emitErr
  mvcgen [commit, sync, wait, finish, reply]
  all_goals
    have hw : _ = false ∧ Ended v _ := ‹_›
    exact hw.2

/-! ### Other contacts -/

variable (C) in
/-- The radio events that a line of the host handles while it waits. -/
def lineEvents (line : Line) (w : World) : List RadioEvt :=
  match (dispatchLine C line).run w with
  | (some .needsCommit, w) => waited C (w.record (.dispatched line w.staged))
  | _ => []

/-- The send to the contact in a slot is left alone between two worlds: both copies of it are
unchanged and it has not been replied to, and its retry, its acknowledgement and the gate go as
before. -/
structure LeftAlone (C : Crypto) (y : Slot) (w w' : World) : Prop where
  send : w'.send = w.send
  pending : w'.engine.pendingSend = w.engine.pendingSend
  unanswered : ∃ l, w'.log = l ++ w.log ∧ ∀ x ∈ l, x.endsSend = false
  retry : w'.engine.sendRetryEcho C = w.engine.sendRetryEcho C
  ack : ∀ frame now pid, (w.engine.onFrame C frame now pid).2.1 = .ack (contactId y) ∨
    (w'.engine.onFrame C frame now pid).2.1 = .ack (contactId y) →
    (w'.engine.onFrame C frame now pid).2 = (w.engine.onFrame C frame now pid).2
  radioOn : w'.engine.radioOn = w.engine.radioOn
  blocked : w'.contactBlocked (contactId y) = w.contactBlocked (contactId y)
  gate : w.Synced y → ∀ token,
    w'.policy.tokenValid (some (contactId y)) token = w.policy.tokenValid (some (contactId y)) token

theorem LeftAlone.of_view (hs : w'.send = w.send)
    (hv : w'.engine.sendView y = w.engine.sendView y)
    (hg : w.Synced y → w'.policy.gateView y = w.policy.gateView y)
    (hl : ∃ l, w'.log = l ++ w.log ∧ ∀ x ∈ l, x.endsSend = false) : LeftAlone C y w w' where
  send := hs
  pending := congrArg (fun v => v.1.1.1) hv
  unanswered := hl
  retry := Engine.sendRetryEcho_of_view hv
  ack frame now pid hack := by
    rcases hack with hack | hack
    · exact Engine.onFrame_of_view hv hack
    · exact (Engine.onFrame_of_view hv.symm hack).symm
  radioOn := congrArg (fun v => v.1.2.1.2.2) hv
  blocked := by
    have hseal := Engine.sealView_of_view hv
    simp only [Contact.sealView, Prod.mk.injEq] at hseal
    have hblocked : (w'.engine.contacts y).blocked = (w.engine.contacts y).blocked :=
      congrArg (fun v => v.2.2.1) hv
    have hslot : w'.engine.slotOf (contactId y) = w.engine.slotOf (contactId y) := by
      simp only [Engine.slotOf, (hseal _).1.1]
    unfold World.contactBlocked
    rw [hslot]
    cases hi : w.engine.slotOf (contactId y) with
    | error => rfl
    | ok i =>
        obtain rfl := Engine.contactId_injective (Engine.slotOf_ok hi).2
        exact hblocked
  gate hsync token := PolicyState.tokenValid_of_view (hg hsync) token

theorem Alone.left (h : Alone w y w') : LeftAlone C y w w' := .of_view h.send h.view h.gate h.log

theorem Ended.not_left (h : Ended w w') : ¬ LeftAlone C y w w' := by
  intro hleft
  obtain ⟨l, hlog, x, hx, hends⟩ := h
  obtain ⟨l', hlog', hnone⟩ := hleft.unanswered
  obtain rfl := List.append_cancel_right (hlog.symm.trans hlog')
  exact nomatch hends.symm.trans (hnone x hx)

variable (C) in
/-- A line that was accepted, with its reply owed. -/
def World.taken (w : World) (id : UInt64) (req : Request) (op : Op) (owed : StagedReply) : World :=
  let w := ((({ w with replyId := id } : World).called C op).copied.owing owed)
  w.record (.dispatched (.request id req) w.staged)

/-- A line, from the run of its dispatch. -/
theorem onLine_run (line : Line) (w : World) :
    (onLine C line).run w =
      match (dispatchLine C line).run w with
      | (some o, w) =>
        (onUsbOutcome C o).run (w.record (.dispatched line
          (match o with
          | .needsCommit => w.staged
          | .inline (.ok _ _) => w.staged
          | _ => none)))
      | (none, w) => (none, w) := by
  unfold onLine
  rw [bind_run]
  rcases (dispatchLine C line).run w with ⟨_ | o, w⟩
  · rfl
  · rfl

/-- A line that is refused leaves everything alone, and one that is accepted goes to its commit. -/
theorem line_run {x : UInt8} {req : Request} {op : Op} (hreq : req.Manages x op) (id : UInt64) (w : World) :
    (w.Refuses C op ∧ ∀ w', (onLine C (.request id req)).run w = (some (), w') → LeftAlone C y w w') ∨
    (¬ w.Refuses C op ∧ ∃ owed, op.owes id = some owed ∧
      (onLine C (.request id req)).run w = (onNeedsCommit C).run (w.taken C id req op owed) ∧
      lineEvents C (.request id req) w = waited C (w.taken C id req op owed)) := by
  have hdispatch : (dispatchLine C (.request id req)).run w =
      (dispatch C id req).run { w with replyId := id } := rfl
  rw [onLine_run, hdispatch]
  unfold lineEvents
  rw [hdispatch]
  rcases manages_run (C := C) hreq id { w with replyId := id } with
    ⟨href, code, w₁, hrun, hw₁⟩ | ⟨href, owed, howed, hrun⟩
  · refine .inl ⟨href, fun w' h => ?_⟩
    rw [hrun] at h
    obtain rfl : _ = w' := congrArg Prod.snd h
    rcases hw₁ with rfl | ⟨rfl, heng⟩
    · exact .of_view rfl rfl (fun _ => rfl) ⟨[_, _], rfl, by simp [Happening.endsSend]⟩
    · refine .of_view rfl ?_ (fun _ => rfl) ⟨[_, _, _], rfl, by simp [Happening.endsSend]⟩
      exact congrArg (Engine.sendView · y) heng
  · refine .inr ⟨href, owed, howed, ?_, ?_⟩
    · rw [hrun]
      rfl
    · rw [hrun]
      rfl

/-- A line that was accepted is staged, if its operation was. -/
theorem taken_eq {id : UInt64} {req : Request} {op : Op} {owed : StagedReply} {bytes : List UInt8}
    (hp : (LoraMesh.step C w.engine op).1.pendingPersist = some bytes) :
    w.taken C id req op owed =
      (({ w with
        replyId := id, engine := (LoraMesh.step C w.engine op).1, staged := some bytes,
        stagedReply := some owed } : World).record
        (.engine op (LoraMesh.step C w.engine op).2
          (w.staged.isSome &&
            decide ((LoraMesh.step C w.engine op).1.pendingPersist ≠ w.engine.pendingPersist)))).record
        (.dispatched (.request id req) (some bytes)) := by
  have hcopied : (({ w with replyId := id } : World).called C op).copied =
      { ({ w with replyId := id } : World).called C op with staged := some bytes } := by
    unfold World.copied
    have h : (({ w with replyId := id } : World).called C op).engine.pendingPersist = some bytes := hp
    rw [h]
  unfold World.taken
  rw [hcopied]
  rfl

theorem taken_flying {id : UInt64} {req : Request} {op : Op} {owed : StagedReply}
    (hs : w.send.isSome = true) : Flying w (w.taken C id req op owed) := by
  unfold World.taken World.copied
  split
  · exact ⟨hs, [_, _], rfl⟩
  · exact ⟨hs, [_, _], rfl⟩

/-- A block that was accepted is staged, and leaves the send to another contact alone. -/
theorem taken_block (id : UInt64) (req : Request) {x : UInt8} {b : Bool} {ps : PendingSend}
    (hps : w.engine.pendingSend = some ps) (hpid : ps.contactId = contactId y) (hne : x ≠ contactId y)
    (haccept : ¬ w.Refuses C (.setBlocked x b)) :
    (w.taken C id req (.setBlocked x b) (.block id x b)).staged.isSome = true ∧
      (w.taken C id req (.setBlocked x b) (.block id x b)).wakes = w.wakes ∧
      ((∀ k ∈ w.wakes, k.stores) → Alone w y (w.taken C id req (.setBlocked x b) (.block id x b))) := by
  have hstep : LoraMesh.step C w.engine (.setBlocked x b) =
      answer .block (settle w.engine (w.engine.setBlocked x b)) := rfl
  cases hset : w.engine.setBlocked x b with
  | error err =>
      rw [hset] at hstep
      exact (haccept (.inr (by rw [hstep]; rfl))).elim
  | ok r =>
      obtain ⟨e', o⟩ := r
      rw [hset] at hstep
      have he' : (LoraMesh.step C w.engine (.setBlocked x b)).1 = e' := by rw [hstep]; rfl
      obtain ⟨bytes, hbytes⟩ := Option.isSome_iff_exists.mp (Engine.setBlocked_staged hset)
      have hview : (LoraMesh.step C w.engine (.setBlocked x b)).1.sendView y = w.engine.sendView y := by
        rw [he']
        exact Engine.sendView_setBlocked hps hpid hne hset
      rw [taken_eq (he' ▸ hbytes)]
      exact ⟨rfl, rfl, fun hstores =>
        ⟨rfl, hview, fun _ => rfl, ⟨[_, _], rfl, by simp [Happening.endsSend]⟩, hstores⟩⟩

theorem onNeedsCommit_block {id : UInt64} {x : UInt8} {b : Bool}
    (howed : w.stagedReply = some (.block id x b)) (hrun : (onNeedsCommit C).run w = (some (), w')) :
    (controlSetBlocked C id).run w = (some (), w') := by
  unfold onNeedsCommit at hrun
  have hget (w : World) : (get : Async World).run w = (some w, w) := rfl
  rw [bind_run, hget] at hrun
  dsimp only at hrun
  rw [howed] at hrun
  dsimp only at hrun
  rw [bind_run] at hrun
  generalize (controlSetBlocked C id).run w = r at hrun
  obtain ⟨_ | u, w⟩ := r
  · cases hrun
  · exact hrun

/-- The delete branch of `on_usb_outcome` ends the send in flight, whoever it is for; a block and
an unblock leave it alone. -/
theorem others_alone (C : Crypto) (w w' : World) (id : UInt64) (x : UInt8) (req : Request) (op : Op)
    (y : Slot) (send : InFlight) (ps : PendingSend) (hreq : req.Manages x op) (hne : x ≠ contactId y)
    (hsend : w.send = some send) (hid : send.contactId = contactId y)
    (hps : w.engine.pendingSend = some ps) (hpid : ps.contactId = contactId y)
    (hstores : ∀ k ∈ w.wakes.tail, k.stores)
    (hevts : ∀ evt ∈ lineEvents C (.request id req) w, ¬ evt.isFor C y w)
    (hrun : (onLine C (.request id req)).run w = (some (), w')) :
    LeftAlone C y w w' ↔ w.Refuses C op ∨ (op ≠ .deleteContact x ∧ w.StoresNext) := by
  have hflying : w.send.isSome = true := by rw [hsend]; rfl
  rcases line_run (C := C) (y := y) hreq id w with ⟨href, hleft⟩ | ⟨haccept, owed, howed, hline, hev⟩
  · exact ⟨fun _ => .inl href, fun _ => hleft w' hrun⟩
  rw [hline] at hrun
  rw [hev] at hevts
  have block {b : Bool} (hop : op = .setBlocked x b) :
      LeftAlone C y w w' ↔ w.Refuses C op ∨ (op ≠ .deleteContact x ∧ w.StoresNext) := by
    subst hop
    cases howed
    obtain ⟨hstaged, hwakes, halone⟩ := taken_block id req hps hpid hne haccept
    have hblock := onNeedsCommit_block rfl hrun
    by_cases hnext : w.StoresNext
    · have hall : ∀ k ∈ w.wakes, k.stores := by
        intro k hk
        cases hw : w.wakes with
        | nil => exact (nomatch hw ▸ hk)
        | cons k₀ ks =>
            rw [hw] at hk
            rcases List.mem_cons.mp hk with rfl | hk
            · exact hnext k (by rw [hw]; rfl)
            · exact hstores k (by rw [hw]; exact hk)
      have hto (s : InFlight) (hs : w.send = some s) : s.contactId = contactId y := by
        obtain rfl := Option.some.inj (hsend.symm.trans hs)
        exact hid
      have hleft := (controlSetBlocked_alone hto (halone hall) hevts hblock).left (C := C)
      exact ⟨fun _ => .inr ⟨nofun, hnext⟩, fun _ => hleft⟩
    · have hbroken : ¬ (w.taken C id req (.setBlocked x b) (.block id x b)).StoresNext := by
        unfold World.StoresNext
        rw [hwakes]
        exact hnext
      have hends := triple_iff.mp (block_broken (C := C) id) _ ⟨taken_flying hflying, hstaged, hbroken⟩
      rw [hblock] at hends
      refine ⟨fun h => (hends.not_left h).elim, fun h => ?_⟩
      rcases h with href | ⟨-, hstores⟩
      · exact (haccept href).elim
      · exact (hnext hstores).elim
  cases hreq with
  | delete =>
      cases howed
      have hfly : Flying w (w.taken C id (.contactDelete (some x)) (.deleteContact x) (.simple id)) :=
        taken_flying hflying
      have hends := triple_iff.mp (deletion_ends (C := C) id) _ ⟨hfly, rfl⟩
      rw [hrun] at hends
      refine ⟨fun h => (hends.not_left h).elim, fun h => ?_⟩
      rcases h with href | ⟨hdel, -⟩
      · exact (haccept href).elim
      · exact (hdel rfl).elim
  | block => exact block rfl
  | unblock => exact block rfl

end

namespace Sample

/-- The ceremonies of devices `n` and `m`, up to the proofs, up to the confirmations, and whole. -/
def offersWith (n m : ℕ) : List Op := [offer n, .pairImport (offerRecord m) false false]

def proofsWith (n m : ℕ) : List Op :=
  offersWith n m ++ [.pairProof, .pairImport (exported m (offersWith m n) .pairProof) false false]

def ceremonyWith (n m : ℕ) : List Op :=
  proofsWith n m ++ [.pairConfirm, .pairImport (exported m (proofsWith m n) .pairConfirm) false true]

/-- The record of device 1, paired with devices 2 and 3. -/
def metBoth : List UInt8 :=
  (after (.new true)
    (setup 1 ++ ceremonyWith 1 2 ++ [.commitOk] ++ ceremonyWith 1 3 ++ [.commitOk])).persistScratch

/-- Device 1 has sent a text to device 2, which has not acknowledged it. -/
def sentBoth : World :=
  run (World.step crypto) (.boot crypto (some metBoth) (bytes8 1) true)
    (texting ++
      [{ turn := .sleep, wakes := [wake (take :: List.replicate 5 go)] }, { turn := .radioEvt, wakes := [] }])

/-- At the next waits the storage takes the record and the radio task answers the barrier. -/
def answers : List Wake := [wake [], wake [go, take, go, go]]

/-- Before a line that waits twice. -/
@[irreducible] def waiting : World := { sentBoth with wakes := answers }

theorem waiting_wakes : waiting.wakes = answers := by
  have h (w : World) : ({ w with wakes := answers } : World).wakes = answers := rfl
  unfold waiting
  exact h sentBoth

end Sample

theorem run_snd {m : Async Unit} {w : World} (h : (m.run w).1 = some ()) :
    m.run w = (some (), (m.run w).2) := Prod.ext h rfl

/-- A block of contact 2 leaves the text to contact 1 alone. -/
theorem others_alone_sample :
    LeftAlone Sample.crypto 0 Sample.waiting
      ((onLine Sample.crypto (.request 4 (.block (some 2)))).run Sample.waiting).2 := by
  have hruns : Sample.waiting.send.map (·.contactId) = some (contactId 0) ∧
      Sample.waiting.engine.pendingSend.map (·.contactId) = some (contactId 0) ∧
      (lineEvents Sample.crypto (.request 4 (.block (some 2))) Sample.waiting).isEmpty = true ∧
      ((onLine Sample.crypto (.request 4 (.block (some 2)))).run Sample.waiting).1 = some () := by
    decide +kernel
  obtain ⟨hto, hpending, hquiet, hrun⟩ := hruns
  obtain ⟨send, hsend, hid⟩ := Option.map_eq_some_iff.mp hto
  obtain ⟨ps, hps, hpid⟩ := Option.map_eq_some_iff.mp hpending
  have hstores (env : List Env) : (Sample.wake env).stores := by
    rintro a ⟨⟩
    rfl
  refine (others_alone Sample.crypto _ _ 4 2 _ _ 0 send ps .block (by decide) hsend hid hps hpid ?_ ?_
    (run_snd hrun)).mpr (.inr ⟨nofun, ?_⟩)
  · rw [Sample.waiting_wakes]
    intro k hk
    obtain rfl := List.mem_singleton.mp hk
    exact hstores _
  · rw [List.isEmpty_iff.mp hquiet]
    exact nofun
  · unfold World.StoresNext
    rw [Sample.waiting_wakes]
    rintro k ⟨⟩
    exact hstores _

theorem LeftAlone.send_isSome {C : Crypto} {y : Slot} {w w' : World} (h : LeftAlone C y w w') :
    w'.send.isSome = w.send.isSome := congrArg Option.isSome h.send

/-- A deletion of contact 2 ends the text to contact 1. -/
theorem deletion_ends_other :
    Sample.waiting.send.map (·.contactId) = some (contactId 0) ∧
      Sample.waiting.engine.pendingSend.map (·.contactId) = some (contactId 0) ∧
      (lineEvents Sample.crypto (.request 4 (.contactDelete (some 2))) Sample.waiting).isEmpty = true ∧
      ((onLine Sample.crypto (.request 4 (.contactDelete (some 2)))).run Sample.waiting).1 = some () ∧
      ¬ LeftAlone Sample.crypto 0 Sample.waiting
        ((onLine Sample.crypto (.request 4 (.contactDelete (some 2)))).run Sample.waiting).2 :=
  have hne (h : ((onLine Sample.crypto (.request 4 (.contactDelete (some 2)))).run
      Sample.waiting).2.send.isSome ≠ Sample.waiting.send.isSome) :
      ¬ LeftAlone Sample.crypto 0 Sample.waiting
        ((onLine Sample.crypto (.request 4 (.contactDelete (some 2)))).run Sample.waiting).2 :=
    fun hleft => h hleft.send_isSome
  And.imp_right (And.imp_right (And.imp_right (And.imp_right hne))) (by decide +kernel)

end LoraMesh
