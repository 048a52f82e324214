import LoraMesh.Firmware.Walk

/-!
# Firmware — Enable

The radio's enable state has three copies: the engine's flag, the policy gate's, and the radio
task's.  `radio_set` moves all three; `fail_radio_closed` moves the last two only, and either may
find the command queue full.

* `Agree`: the copies agree, the task's as it will be when its queue is drained.
* `enable_coherent`: they do in every run in which neither happens.
-/

namespace LoraMesh

open Std.Do

set_option mvcgen.warning false

/-- Leaves the copies apart: RF is disabled under an engine whose flag is up, or a command that would
have moved the task's flag is refused. -/
def Happening.parts : Happening → Bool
  | .failClosed radioOn _ => radioOn
  | .refused _ _ lost => lost
  | _ => false

def parted (log : List Happening) : Bool := log.any Happening.parts

theorem parts_kept {x : Happening} (hx : x.kept = true) : x.parts = false := by
  cases x <;> first | rfl | cases hx

/-- What holds of the copies also while `radio_set` moves them. -/
structure Wired (w : World) : Prop where
  last : ∀ p, w.lastPolicy = some p → p.1 = w.policy.enabled
  available : w.engine.radioAvailable = w.hwPresent
  present : w.engine.radioOn = true → w.hwPresent = true
  absent : w.hwPresent = false → w.wanted = false

/-- The copies agree. -/
structure Agree (w : World) : Prop extends Wired w where
  policy : parted w.log = false → w.policy.enabled = w.engine.radioOn
  radio : parted w.log = false → w.wanted = w.engine.radioOn

/-- Where the runtime may stand at an `await`. -/
def Standing (w : World) : Prop := w.control = true ∨ Agree w

/-- What `Agree` looks at. -/
def World.enableView (w : World) :=
  (w.lastPolicy, w.policy.enabled, w.engine.radioAvailable, w.engine.radioOn, w.hwPresent, w.wanted,
    parted w.log)

section

variable {w w' : World}

theorem Wired.of_view (h : Wired w) (hv : w'.enableView = w.enableView) : Wired w' := by
  simp only [World.enableView, Prod.mk.injEq] at hv
  obtain ⟨hlast, hpolicy, hav, hon, hhw, hwanted, -⟩ := hv
  exact
    { last := fun p hp => (h.last p (hlast ▸ hp)).trans hpolicy.symm
      available := hav.trans (h.available.trans hhw.symm)
      present := fun ho => hhw.trans (h.present (hon ▸ ho))
      absent := fun ha => hwanted.trans (h.absent (hhw ▸ ha)) }

theorem Agree.of_view (h : Agree w) (hv : w'.enableView = w.enableView) : Agree w' := by
  refine { h.toWired.of_view hv with policy := ?_, radio := ?_ }
  all_goals
    simp only [World.enableView, Prod.mk.injEq] at hv
    obtain ⟨-, hpolicy, -, hon, -, hwanted, hparted⟩ := hv
    rw [hparted, hon]
  · rw [hpolicy]
    exact h.policy
  · rw [hwanted]
    exact h.radio

/-- A command in the queue is a command the task will have taken. -/
theorem wanted_push (b : Bus) (cmd : RadioCmd) :
    Bus.wanted { b with cmds := b.cmds ++ [cmd] } = cmd.flag b.wanted := by
  simp [Bus.wanted]

end

/-! ### The moves -/

section

variable {C : Crypto}

/-- On the way to `enabled`: the engine's flag and the gate are there. -/
structure Toward (enabled : Bool) (w : World) : Prop extends Wired w where
  hardware : w.hwPresent = false → enabled = false
  ready : parted w.log = false → w.policy.enabled = enabled ∧ w.engine.radioOn = enabled

/-- Under `radio_set`, the engine's flag has moved. -/
structure Toggled (enabled : Bool) (w : World) : Prop extends Wired w where
  control : w.control = true
  on : w.engine.radioOn = enabled

theorem stageForCommit_keeps {P S : World → Prop} (h : ∀ w staged, P w → P { w with staged := staged }) :
    Keeps P S stageForCommit := by
  refine triple_iff.mpr fun w hw => ?_
  obtain ⟨staged, hrun⟩ := stageForCommit_run w
  rw [hrun]
  exact h w staged hw

/-- A condition on the copies under which the runtime may stand at an `await`. -/
structure Seen (P : World → Prop) : Prop where
  view : ∀ {w w'}, P w → w'.enableView = w.enableView → w'.control = w.control → P w'
  wired : ∀ {w}, P w → Wired w
  standing : ∀ {w}, P w → Standing w

theorem agree_seen : Seen Agree where
  view h hv _ := h.of_view hv
  wired := Agree.toWired
  standing := Or.inr

theorem toggled_seen (enabled : Bool) : Seen (Toggled enabled) where
  view h hv hc :=
    { h.toWired.of_view hv with
      control := hc.trans h.control
      on := by
        simp only [World.enableView, Prod.mk.injEq] at hv
        exact hv.2.2.2.1.trans h.on }
  wired := Toggled.toWired
  standing h := .inl h.control

section

variable {P : World → Prop} (hP : Seen P)

include hP

theorem reply_seen (r : Reply) (ends : Option Flight) : Keeps P Standing (reply r ends) :=
  triple_iff.mpr fun _ h => hP.view h rfl rfl

theorem allocCmd_seen : Keeps P Standing allocCmd := triple_iff.mpr fun _ h => hP.view h rfl rfl

/-- A call that leaves the engine's flag, and whether there is a radio. -/
theorem callEngine_seen {op : Op} (h : ∀ e, (step C e op).1.radioOn = e.radioOn ∧
    (step C e op).1.radioAvailable = e.radioAvailable) : Keeps P Standing (callEngine C op) := by
  refine triple_iff.mpr fun w hw => hP.view hw ?_ rfl
  obtain ⟨hon, hav⟩ := h w.engine
  exact congrArg₂ (fun on av => (w.lastPolicy, w.policy.enabled, av, on, w.hwPresent, w.wanted,
    parted w.log)) hon hav

theorem callEngine_flags_seen {op : Op} (hop : op.movesFlags = false) :
    Keeps P Standing (callEngine C op) := by
  refine callEngine_seen hP fun e => ?_
  have h := step_flags C e hop
  simp only [Engine.flags, Prod.mk.injEq] at h
  exact h.2

/-- What the clock and the radio task do does not move the copies. -/
theorem await_seen : Keeps P Standing await := by
  refine triple_mono (await_keeps (P := P) (fun _ _ h => hP.view h rfl rfl)
    (fun _ _ h => hP.view h rfl rfl) (fun w i h => hP.view h ?_ rfl) fun _ _ h => hP.view h rfl rfl)
    (fun _ h => h) (fun _ _ h => h) fun _ h => hP.standing h
  simp only [World.enableView, w.toBus.step_policy i, w.toBus.step_wanted i]

end

/-- A command that does not set the task's flag cannot lose it. -/
theorem trySend_agree {cmd : RadioCmd} (hc : cmd.setsFlag = false) (use : Use) :
    Keeps Agree Standing (trySend cmd use) := by
  have hflag (b : Bool) : cmd.flag b = b := by
    cases cmd with
    | setEnabled => cases hc
    | barrier => rfl
    | tx => rfl
    | cadProbe => rfl
  unfold trySend
  mvcgen
  · rename_i w h _
    refine h.of_view ?_
    have hw := wanted_push w.toBus cmd
    rw [hflag] at hw
    simp only [World.enableView, World.record, hw]
    rfl
  · rename_i w h _
    refine h.of_view ?_
    have hl : (cmd.flag w.wanted != w.wanted) = false := by rw [hflag, bne_self_eq_false]
    simp only [World.enableView, World.record, hl]
    rfl

/-- `SetEnabled` makes the task's flag agree, or is refused. -/
theorem trySend_toward (cmd : ℕ) (enabled : Bool) :
    ⦃fun w => ⌜Toward enabled w⌝⦄ trySend (.setEnabled cmd enabled) .control
    ⦃post⟨fun _ w => ⌜Agree w⌝, fun _ w => ⌜Standing w⌝⟩⦄ := by
  unfold trySend
  mvcgen
  · rename_i w h _
    have hw : Bus.wanted { w.toBus with cmds := w.cmds ++ [.setEnabled cmd enabled] } = enabled :=
      wanted_push w.toBus _
    exact
      { last := h.last
        available := h.available
        present := h.present
        absent := fun ha => hw.trans (h.hardware ha)
        policy := fun hp => (h.ready hp).1.trans (h.ready hp).2.symm
        radio := fun hp => hw.trans (h.ready hp).2.symm }
  · rename_i w h _
    have hp (hp : ((enabled != w.wanted) || parted w.log) = false) :
        enabled = w.wanted ∧ parted w.log = false := by simpa using hp
    exact
      { last := h.last
        available := h.available
        present := h.present
        absent := h.absent
        policy := fun hl => (h.ready (hp hl).2).1.trans (h.ready (hp hl).2).2.symm
        radio := fun hl => (hp hl).1.symm.trans (h.ready (hp hl).2).2.symm }

/-- RF is disabled and the engine's flag is down, or the copies are apart from now on. -/
theorem failRadioClosed_agree :
    ⦃fun w => ⌜Wired w⌝⦄ failRadioClosed C ⦃post⟨fun _ w => ⌜Agree w⌝, fun _ w => ⌜Standing w⌝⟩⦄ := by
  have queue (cmd : ℕ) := trySend_toward cmd false
  have complete : Keeps Agree Standing (callEngine C .sendComplete) :=
    callEngine_flags_seen agree_seen rfl
  have reply := reply_seen agree_seen
  unfold failRadioClosed setPolicy allocCmd emitErr
  mvcgen [queue, complete, reply]
  · rename_i w h _ _ _ _
    exact
      { last := fun p hp => by
          obtain rfl := Option.some.inj hp
          rfl
        available := h.available
        present := h.present
        absent := h.absent
        hardware := fun _ => rfl
        ready := fun hp => ⟨rfl, by
          have hp : (w.engine.radioOn || parted w.log) = false := hp
          exact (Bool.or_eq_false_iff.mp hp).1⟩ }
  all_goals
    have h : Agree _ := ‹_›
    exact h.of_view rfl

/-! ### Commits and the policy -/

section

variable {P : World → Prop} (hP : Seen P)

include hP

theorem restage_seen : Keeps P Standing restage := by
  have stage : Keeps P Standing stageForCommit := stageForCommit_keeps fun _ _ h => hP.view h rfl rfl
  unfold restage
  mvcgen [stage]

/-- A commit that fails closes RF. -/
theorem commit_seen :
    ⦃fun w => ⌜P w⌝⦄ commit C
    ⦃post⟨fun ok w => ⌜if ok then P w else Agree w⌝, fun _ w => ⌜Standing w⌝⟩⦄ := by
  have stage := restage_seen hP
  have wait := await_seen hP
  have done : Keeps P Standing (callEngine C .commitOk) := callEngine_flags_seen hP rfl
  have discard : Keeps P Standing (callEngine C .discardStaged) := callEngine_flags_seen hP rfl
  have fault : Keeps P Standing (callEngine C .markFault) := callEngine_seen hP fun _ => ⟨rfl, rfl⟩
  have close := failRadioClosed_agree (C := C)
  unfold commit
  mvcgen [stage, wait, done, discard, fault, close]
  all_goals
    have h : P _ := ‹_›
    first
      | exact h
      | exact hP.view h rfl rfl
      | exact (hP.wired h).of_view rfl

end

theorem commit_agree : Keeps Agree Standing (commit C) :=
  triple_mono (commit_seen agree_seen) (fun _ h => h) (fun ok _ h => by cases ok <;> exact h) fun _ h => h

/-- Without a radio the engine's flag is down. -/
theorem Wired.hardware {w : World} (h : Wired w) (ha : w.hwPresent = false) : w.engine.radioOn = false :=
  Bool.eq_false_iff.mpr fun hon => by
    rw [h.present hon] at ha
    cases ha

/-- The gate takes the engine's flag. -/
theorem syncPolicy_wired (enabled : Bool) :
    ⦃fun w => ⌜Wired w ∧ w.engine.radioOn = enabled⌝⦄ syncPolicy
    ⦃post⟨fun _ w => ⌜Toward enabled w⌝, fun _ w => ⌜Standing w⌝⟩⦄ := by
  unfold syncPolicy setPolicy
  mvcgen
  · rename_i w h cur _ _ _
    obtain ⟨h, hon⟩ := h
    exact
      { last := fun p hp => by
          obtain rfl := Option.some.inj hp
          rfl
        available := h.available
        present := h.present
        absent := h.absent
        hardware := fun ha => hon.symm.trans (h.hardware ha)
        ready := fun _ => ⟨hon, hon⟩ }
  · rename_i w h cur hc
    obtain ⟨h, hon⟩ := h
    have hlast : w.lastPolicy = some cur := not_not.mp hc
    exact
      { h with
        hardware := fun ha => hon.symm.trans (h.hardware ha)
        ready := fun _ => ⟨(h.last cur hlast).symm.trans hon, hon⟩ }

theorem syncPolicy_agree : Keeps Agree Standing syncPolicy := by
  unfold syncPolicy setPolicy
  mvcgen
  rename_i w h cur _ _ _
  exact
    { last := fun p hp => by
        obtain rfl := Option.some.inj hp
        rfl
      available := h.available
      present := h.present
      absent := h.absent
      policy := fun _ => rfl
      radio := h.radio }

/-- The moves of the runtime keep the copies in agreement. -/
theorem agree_moves (C : Crypto) : MovesKeep C Agree Standing where
  stands _ h := .inr h
  stood h := h.imp id fun h => h.of_view rfl
  scratch h hw := by
    simp only [World.core, Prod.mk.injEq] at hw
    obtain ⟨⟨he, -, -, -, -, -, -, hl⟩, hp, hb, -, hlog⟩ := hw
    refine h.of_view ?_
    simp only [World.enableView, he, hl, hp, hb, hlog]
  pop h _ := h.of_view rfl
  flights _ _ h := h.of_view rfl
  accepted _ _ h := h.of_view rfl
  cleared _ h := h.of_view rfl
  probed _ h := h.of_view rfl
  kept hx h := h.of_view (by
    simp only [World.enableView, World.record, parted, List.any_cons, parts_kept hx, Bool.false_or])
  wait := await_seen agree_seen
  alloc := allocCmd_seen agree_seen
  call op hop := callEngine_flags_seen agree_seen (by cases op <;> first | rfl | cases hop)
  keyed op hop := callEngine_flags_seen agree_seen (by cases op <;> first | rfl | cases hop)
  stage := stageForCommit_keeps fun _ _ h => h.of_view rfl
  sync := syncPolicy_agree
  queue _ use hc := trySend_agree hc use
  reply r ends _ := reply_seen agree_seen r ends
  commit := commit_agree
  close := triple_mono failRadioClosed_agree (fun _ h => h.toWired) (fun _ _ h => h) fun _ h => h

/-! ### `radio_set` -/

theorem commitReply_agree : Keeps Agree Standing commitReply := by
  have reply := reply_seen agree_seen
  unfold commitReply
  mvcgen [reply]
  all_goals
    have h : Agree _ := ‹_›
    exact h.of_view rfl

/-- Without a radio the flag goes down, and there is nothing to tell. -/
theorem Toward.agree {enabled : Bool} {w : World} (h : Toward enabled w) (ha : w.hwPresent = false) :
    Agree w where
  toWired := h.toWired
  policy hp := (h.ready hp).1.trans (h.ready hp).2.symm
  radio _ := (h.absent ha).trans (h.toWired.hardware ha).symm

theorem controlSetRadio_agree (id : UInt64) (enabled : Bool) :
    ⦃fun w => ⌜Toggled enabled w⌝⦄ controlSetRadio C id enabled
    ⦃post⟨fun _ w => ⌜Agree w⌝, fun _ w => ⌜Standing w⌝⟩⦄ := by
  have commit := commit_seen (C := C) (toggled_seen enabled)
  have reply := reply_seen agree_seen
  have sync := syncPolicy_wired enabled
  have set (cmd : ℕ) := trySend_toward cmd enabled
  have wait := barrier_keeps (agree_moves C).relay
  have clear := clearInFlight_keeps (agree_moves C).free enabled
  have owed := commitReply_agree
  unfold controlSetRadio emitErr allocCmd
  mvcgen [commit, reply, sync, set, wait, clear, owed]
  · rename_i ok hok w h
    rwa [if_neg (by simpa using hok)] at h
  · rename_i ok hok _ hen w h t
    rw [if_pos (by simpa using hok)] at h
    exact ⟨h.toWired.of_view rfl, h.on⟩
  · rename_i h _ _
    exact { h.toWired.of_view rfl with hardware := h.hardware, ready := h.ready }
  · rename_i h _ ha
    exact h.agree (Bool.eq_false_iff.mpr ha)
  · rename_i ok hok _ hen w h
    rw [if_pos (by simpa using hok)] at h
    exact ⟨h.toWired, h.on⟩
  · rename_i h _ _
    exact { h.toWired.of_view rfl with hardware := h.hardware, ready := h.ready }
  · rename_i h _ ha
    exact h.agree (Bool.eq_false_iff.mpr ha)

/-! ### The lines of the host -/

/-- With a commit owed: a `radio_set` has moved the engine's flag only. -/
structure Owed (w : World) : Prop where
  radio : ∀ id enabled, w.stagedReply = some (.radioSet id enabled) →
    Wired w ∧ w.engine.radioOn = enabled
  other : (∀ id enabled, w.stagedReply ≠ some (.radioSet id enabled)) → Agree w

theorem Owed.of_agree {w w' : World} (h : Agree w) (hv : w'.enableView = w.enableView)
    (hn : ∀ id enabled, w'.stagedReply ≠ some (.radioSet id enabled)) : Owed w' where
  radio id enabled hs := absurd hs (hn id enabled)
  other _ := h.of_view hv

/-- What a line leaves. -/
def Leaves (o : Outcome) (w : World) : Prop :=
  match o with
  | .needsCommit => Owed w
  | _ => Agree w

theorem controlSetBlocked_agree (id : UInt64) : Keeps Agree Standing (controlSetBlocked C id) := by
  have commit := commit_agree (C := C)
  have reply := reply_seen agree_seen
  have sync := syncPolicy_agree
  have wait := barrier_keeps (agree_moves C).relay
  have owed := commitReply_agree
  unfold controlSetBlocked emitErr
  mvcgen [commit, reply, sync, wait, owed]

theorem onNeedsCommit_agree :
    ⦃fun w => ⌜Owed w⌝⦄ onNeedsCommit C ⦃post⟨fun _ w => ⌜Agree w⌝, fun _ w => ⌜Standing w⌝⟩⦄ := by
  have radio := controlSetRadio_agree (C := C)
  have blocked := controlSetBlocked_agree (C := C)
  have delete := controlDelete_keeps (agree_moves C).relay
  have settings := commitSettings_keeps (agree_moves C).configs
  have wifi := commitWifi_keeps (agree_moves C).configs
  have reply := reply_seen agree_seen
  have commit := commit_agree (C := C)
  have owed := commitReply_agree
  unfold onNeedsCommit emitErr
  mvcgen [radio, blocked, delete, settings, wifi, reply, commit, owed]
  case vc1 =>
    rename_i w h _ id enabled hs
    obtain ⟨hw, hon⟩ := h.radio id enabled hs
    exact { hw.of_view rfl with control := rfl, on := hon }
  case vc5 =>
    have h : Agree _ := ‹_›
    exact h.of_view rfl
  all_goals
    have h : Owed _ := ‹_›
    exact h.other (by simp_all)

theorem Leaves.agree {o : Outcome} {w : World} (h : Leaves o w) (ho : o ≠ .needsCommit) : Agree w := by
  cases o with
  | needsCommit => exact absurd rfl ho
  | _ => exact h

theorem Leaves.of_view {o : Outcome} {w w' : World} (h : Leaves o w) (hv : w'.enableView = w.enableView)
    (hs : w'.stagedReply = w.stagedReply) : Leaves o w' := by
  cases o with
  | needsCommit =>
      have h : Owed w := h
      exact
        { radio := fun id on ho => by
            obtain ⟨hw, hon⟩ := h.radio id on (hs ▸ ho)
            refine ⟨hw.of_view hv, Eq.trans ?_ hon⟩
            simp only [World.enableView, Prod.mk.injEq] at hv
            exact hv.2.2.2.1
          other := fun hn => (h.other (hs ▸ hn)).of_view hv }
  | _ => exact Agree.of_view h hv

theorem leaves_of_agree {o : Outcome} {w : World} (h : o ≠ .needsCommit ∧ Agree w) : Leaves o w := by
  cases o with
  | needsCommit => exact absurd rfl h.1
  | _ => exact h.2

theorem onUsbOutcome_agree (o : Outcome) :
    ⦃fun w => ⌜Leaves o w⌝⦄ onUsbOutcome C o
    ⦃post⟨fun _ w => ⌜Agree w⌝, fun _ w => ⌜Standing w⌝⟩⦄ := by
  have leaves {m : Async Outcome} (h : Ends Agree Standing m) :
      ⦃fun w => ⌜Agree w⌝⦄ m ⦃post⟨fun o w => ⌜Leaves o w⌝, fun _ w => ⌜Standing w⌝⟩⦄ :=
    triple_mono h (fun _ h => h) (fun _ _ h => leaves_of_agree h) fun _ h => h
  have trng := leaves (driveTrngOp_ends (agree_moves C).idle)
  have send := leaves (driveSendPrep_ends (agree_moves C).quiet.toSendsKeep)
  have ping := leaves (drivePingPrep_ends (agree_moves C).quiet.toPingKeep)
  have commit := onNeedsCommit_agree (C := C)
  have reply := reply_seen agree_seen
  unfold onUsbOutcome
  mvcgen [trng, send, ping, commit, reply]
  all_goals
    have h : Leaves _ _ := ‹_›
    subst_vars
    first
      | exact h
      | exact Leaves.agree h (by simp_all)
      | exact Agree.of_view (Leaves.agree h nofun) rfl

theorem called_agree {w : World} {op : Op} (h : Agree w) (hop : op.movesFlags = false) :
    Agree (w.called C op) :=
  triple_iff.mp (callEngine_flags_seen agree_seen hop) w h

/-- The engine's flag moves first. -/
theorem called_setRadio {w : World} (h : Agree w) (enabled : Bool) :
    if (step C w.engine (.setRadio enabled)).2.succeeded then
      Wired (w.called C (.setRadio enabled)) ∧ (w.called C (.setRadio enabled)).engine.radioOn = enabled
    else Agree (w.called C (.setRadio enabled)) := by
  rcases setRadio_spec C w.engine enabled with ⟨x, hx⟩ | ⟨e, he, hon, hup, hav⟩
  · rw [World.called, hx]
    exact h.of_view rfl
  · rw [World.called, he]
    refine ⟨?_, hon⟩
    exact
      { last := h.last
        available := hav.trans h.available
        present := fun ho => h.available.symm.trans (hup (hon.symm.trans ho))
        absent := h.absent }

/-- What a request may do to the flags. -/
theorem Request.op_flags {req : Request} {op : Op} (h : req.op = some op) :
    op.movesFlags = false ∨ ∃ enabled, op = .setRadio enabled := by
  cases req with
  | timeSet secs confirm =>
      cases secs with
      | none => cases h
      | some secs => exact .inl (Option.some.inj h ▸ rfl)
  | radioSet enabled =>
      cases enabled with
      | none => cases h
      | some enabled => exact .inr ⟨enabled, (Option.some.inj h).symm⟩
  | radioArmNextBoot => exact .inl (Option.some.inj h ▸ rfl)
  | block c =>
      cases c with
      | none => cases h
      | some c => exact .inl (Option.some.inj h ▸ rfl)
  | unblock c =>
      cases c with
      | none => cases h
      | some c => exact .inl (Option.some.inj h ▸ rfl)
  | contactDelete c =>
      cases c with
      | none => cases h
      | some c => exact .inl (Option.some.inj h ▸ rfl)
  | pairProof => exact .inl (Option.some.inj h ▸ rfl)
  | pairConfirm => exact .inl (Option.some.inj h ▸ rfl)
  | pairImport record replace sasMatch =>
      cases record with
      | none => cases h
      | some record => exact .inl (Option.some.inj h ▸ rfl)
  | _ => cases h

theorem copied_view (w : World) : w.copied.enableView = w.enableView := by
  unfold World.copied
  split
  · rfl
  · rfl

theorem copied_engine (w : World) : w.copied.engine = w.engine := by
  unfold World.copied
  split
  · rfl
  · rfl

theorem dispatch_agree (id : UInt64) (req : Request) :
    ⦃fun w => ⌜Agree w⌝⦄ dispatch C id req
    ⦃post⟨fun o w => ⌜Leaves o w⌝, fun _ w => ⌜Standing w⌝⟩⦄ := by
  refine triple_iff.mpr fun w h => ?_
  obtain ⟨o, w', hrun, hd⟩ := dispatch_cases C id req w
  rw [hrun]
  cases hd with
  | closed hh ho => exact h
  | light hh ho hw =>
      refine leaves_of_agree ⟨?_, (agree_moves C).scratch h hw⟩
      rintro rfl
      cases ho
  | settings hh ho hw =>
      rename_i owed
      have hw' : Agree w' := (agree_moves C).scratch (h.of_view rfl : Agree (w.owing owed)) hw
      refine Owed.of_agree hw' rfl fun id enabled hs => ?_
      simp only [World.core, Prod.mk.injEq] at hw
      obtain ⟨⟨-, -, -, hr, -⟩, -⟩ := hw
      obtain rfl : owed = .radioSet id enabled := Option.some.inj (hr.symm.trans hs)
      cases ho
  | refused hop hh hout =>
      rcases Request.op_flags hop with hf | ⟨enabled, rfl⟩
      · exact called_agree h hf
      · have hc := called_setRadio (C := C) h enabled
        rwa [hout, if_neg Bool.false_ne_true] at hc
  | owes hop hh hout ho =>
      rename_i op owed
      rcases Request.op_flags hop with hf | ⟨enabled, rfl⟩
      · refine Owed.of_agree (called_agree (C := C) h hf) (copied_view _) fun id' enabled hs => ?_
        obtain rfl : owed = .radioSet id' enabled := Option.some.inj hs
        cases op with
        | setRadio => cases hf
        | _ => cases ho
      · have hc := called_setRadio (C := C) h enabled
        rw [hout, if_pos rfl] at hc
        obtain rfl : .radioSet id enabled = owed := Option.some.inj ho
        exact
          { radio := fun id' on hs => by
              obtain ⟨rfl, rfl⟩ := StagedReply.radioSet.inj (Option.some.inj hs)
              exact ⟨hc.1.of_view (copied_view _), (congrArg Engine.radioOn (copied_engine _)).trans hc.2⟩
            other := fun hn => absurd rfl (hn _ _) }
  | answers hop hh hout ho =>
      rcases Request.op_flags hop with hf | ⟨enabled, rfl⟩
      · exact (called_agree (C := C) h hf).of_view (copied_view _)
      · cases ho

theorem dispatchLine_agree (line : Line) :
    ⦃fun w => ⌜Agree w⌝⦄ dispatchLine C line
    ⦃post⟨fun o w => ⌜Leaves o w⌝, fun _ w => ⌜Standing w⌝⟩⦄ := by
  have dispatch := dispatch_agree (C := C)
  unfold dispatchLine
  mvcgen [dispatch]
  all_goals
    have h : Agree _ := ‹_›
    exact h.of_view rfl

theorem onLine_agree (line : Line) : Keeps Agree Standing (onLine C line) := by
  have dispatch := dispatchLine_agree (C := C) line
  have outcome := onUsbOutcome_agree (C := C)
  unfold onLine
  mvcgen [dispatch, outcome]
  have h : Leaves _ _ := ‹_›
  exact h.of_view rfl rfl

end

/-! ### Runs -/

/-- The engine boots with its flag down. -/
theorem bootEngine_flags (C : Crypto) (stored : Option (List UInt8)) (uid : Bytes 8) (hw : Bool) :
    (bootEngine C stored uid hw).1.radioOn = false ∧
      (bootEngine C stored uid hw).1.radioAvailable = hw := by
  have identity {e : Engine} (h : e.radioOn = false) :
      ((e.setIdentity uid).setRadioAvailable hw).radioOn = false ∧
        ((e.setIdentity uid).setRadioAvailable hw).radioAvailable = hw := by
    have hid : (e.setIdentity uid).radioOn = false := by
      have hop : (Op.setIdentity uid).movesFlags = false := rfl
      have hf : (e.setIdentity uid).flags = e.flags := step_flags C e hop
      simp only [Engine.flags, Prod.mk.injEq] at hf
      exact hf.2.1.trans h
    cases hw with
    | false => exact ⟨rfl, rfl⟩
    | true => exact ⟨hid, rfl⟩
  unfold bootEngine
  cases stored with
  | none => exact identity rfl
  | some bytes =>
      dsimp only
      cases hr : (Engine.new false).restore C bytes with
      | error x => exact identity rfl
      | ok r =>
          simp only [Engine.restore, bind_eq_ok, pure_eq_ok] at hr
          obtain ⟨v, -, rfl⟩ := hr
          exact identity rfl

theorem boot_agree (C : Crypto) (stored : Option (List UInt8)) (uid : Bytes 8) (hw : Bool) :
    Agree (.boot C stored uid hw) where
  last := nofun
  available := (bootEngine_flags C stored uid hw).2
  present h := by
    rw [show (World.boot C stored uid hw).engine.radioOn = false from
      (bootEngine_flags C stored uid hw).1] at h
    cases h
  absent _ := rfl
  policy _ := (bootEngine_flags C stored uid hw).1.symm
  radio _ := (bootEngine_flags C stored uid hw).1.symm

/-- **The enable state is coherent.**  In a run in which `fail_radio_closed` is never entered with the
engine's flag up, and no command that would move the task's flag is refused, the three copies agree
whenever the command queue is empty and no `radio_set` is under way. -/
theorem enable_coherent (C : Crypto) (stored : Option (List UInt8)) (uid : Bytes 8) (hw : Bool)
    (is : List Input) :
    let w := run (World.step C) (.boot C stored uid hw) is
    parted w.log = false → w.cmds = [] → w.control = false →
      w.policy.enabled = w.engine.radioOn ∧ w.radio.enabled = w.engine.radioOn := by
  intro w hp hc hctl
  have h : Standing w := run_stands (agree_moves C).relay is (fun _ _ l _ => onLine_agree l) rfl
    (boot_agree C stored uid hw)
  have h : Agree w := h.resolve_left (by rw [hctl]; exact Bool.false_ne_true)
  have hw : w.wanted = w.radio.enabled := by rw [Bus.wanted, hc, List.foldl_nil]
  exact ⟨h.policy hp, hw.symm.trans (h.radio hp)⟩

namespace Sample

/-- The radio is on, and reports a fault; the fault is handled, and the radio task takes the command
that this queues. -/
def faulted : List Input :=
  [ switchOn,
    { turn := .sleep, wakes := [wake [.radio (.received .fault), go]] },
    { turn := .radioEvt, wakes := [] },
    { turn := .sleep, wakes := [wake [take, go, go, go]] },
    { turn := .radioEvt, wakes := [] } ]

end Sample

/-- After a fault the engine's flag is up, and the two others down. -/
theorem fault_parts :
    let w := run (World.step Sample.crypto) (.boot Sample.crypto none (Sample.bytes8 1) true) Sample.faulted
    w.cmds = [] ∧ w.evts.length = 0 ∧ w.control = false ∧ w.engine.radioOn = true ∧
      w.policy.enabled = false ∧ w.radio.enabled = false := by
  decide +kernel

/-- Without the fault they agree. -/
theorem enable_coherent_sample :
    let w := run (World.step Sample.crypto) (.boot Sample.crypto none (Sample.bytes8 1) true) [Sample.switchOn]
    w.policy.enabled = w.engine.radioOn ∧ w.radio.enabled = w.engine.radioOn :=
  enable_coherent Sample.crypto none (Sample.bytes8 1) true [Sample.switchOn] (by decide +kernel)
    (by decide +kernel) (by decide +kernel)

end LoraMesh
