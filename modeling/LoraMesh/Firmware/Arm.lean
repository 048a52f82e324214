import LoraMesh.Firmware.FailClosed

/-!
# Firmware — Arm

The one-shot arm over the boots of the radio image (`firmware/src/main.rs`): a stored flag by which
the next boot is to switch the radio on.  No part of the image consumes it.

* `run_stays_off`: without a host the radio stays off.
* `boots_lawful`: exactly which boots treat the arm as they should.
-/

namespace LoraMesh

open Std.Do

set_option mvcgen.warning false

/-! ### Without a host -/

/-- The radio is off. -/
def World.RadioOff (w : World) : Prop := w.engine.radioOn = false

section

variable {C : Crypto}

theorem callEngine_off (op : Op) (hop : op.movesFlags = false) :
    Keeps World.RadioOff World.RadioOff (callEngine C op) := by
  refine triple_iff.mpr fun w hw => ?_
  have hoff : (step C w.engine op).1.radioOn = w.engine.radioOn :=
    congrArg (fun f => f.2.1) (step_flags C w.engine hop)
  exact hoff.trans hw

theorem syncPolicy_off : Keeps World.RadioOff World.RadioOff syncPolicy := by
  unfold syncPolicy setPolicy
  mvcgen

theorem failRadioClosed_off : Keeps World.RadioOff World.RadioOff (failRadioClosed C) := by
  have complete := callEngine_off (C := C) .sendComplete rfl
  unfold failRadioClosed setPolicy allocCmd trySend emitErr reply
  mvcgen [complete]

theorem commit_off : Keeps World.RadioOff World.RadioOff (commit C) := by
  have wait : Keeps World.RadioOff World.RadioOff await :=
    await_keeps (fun _ _ h => h) (fun _ _ h => h) (fun _ _ h => h) fun _ _ h => h
  have stage : Keeps World.RadioOff World.RadioOff stageForCommit :=
    stageForCommit_keeps fun _ _ h => h
  have ok := callEngine_off (C := C) .commitOk rfl
  have discard := callEngine_off (C := C) .discardStaged rfl
  have fault : Keeps World.RadioOff World.RadioOff (callEngine C .markFault) :=
    triple_iff.mpr fun _ hw => hw
  have close := failRadioClosed_off (C := C)
  unfold commit restage
  mvcgen [wait, stage, ok, discard, fault, close]

/-- No move but a line of the host switches the radio on. -/
theorem off_moves (C : Crypto) : MovesKeep C World.RadioOff World.RadioOff where
  stands _ h := h
  stood h := h
  scratch h hw := by
    simp only [World.core, Prod.mk.injEq] at hw
    rw [World.RadioOff, hw.1.1]
    exact h
  pop h _ := h
  flights _ _ h := h
  accepted _ _ h := h
  cleared _ h := h
  probed _ h := h
  kept _ h := h
  wait := await_keeps (fun _ _ h => h) (fun _ _ h => h) (fun _ _ h => h) fun _ _ h => h
  alloc := triple_iff.mpr fun _ h => h
  call op hop := callEngine_off op (by cases op <;> first | rfl | cases hop)
  keyed op hop := callEngine_off op (by cases op <;> first | rfl | cases hop)
  stage := stageForCommit_keeps fun _ _ h => h
  sync := syncPolicy_off
  queue cmd use _ := by
    unfold trySend
    mvcgen
  reply _ _ _ := triple_iff.mpr fun _ h => h
  commit := commit_off
  close := failRadioClosed_off

/-- The inputs of a run bring no line of a host. -/
def HostFree (is : List Input) : Prop := ∀ i ∈ is, ∀ line, i.turn ≠ .usb line

/-- Without a host the radio stays off. -/
theorem run_stays_off {w : World} (hs : w.suspended = false) (hw : w.engine.radioOn = false)
    {is : List Input} (hfree : HostFree is) : (run (World.step C) w is).engine.radioOn = false :=
  run_stands (off_moves C).relay is (fun i hi line hl => absurd hl (hfree i hi line)) hs hw

end

/-! ### Boots -/

/-- The arm of the record in flash. -/
def armedIn (stored : Option (List UInt8)) : Bool :=
  match stored with
  | some bytes =>
    match decodeView bytes with
    | .ok v => v.armedNextBoot
    | .error _ => false
  | none => false

/-- The record in flash after these happenings. -/
def flash (stored : Option (List UInt8)) : List Happening → Option (List UInt8)
  | [] => stored
  | .stored bytes _ true :: _ => some bytes
  | _ :: log => flash stored log

/-- A boot: the record that it finds, its identity, and whether the radio initialises. -/
structure Boot where
  stored : Option (List UInt8)
  uid : Bytes 8
  hw : Bool

namespace Boot

variable (C : Crypto) (b : Boot)

def world : World := .boot C b.stored b.uid b.hw

/-- The boot treats the arm as a one-shot: with a radio that initialises, an arm found is cleared in
flash and the radio comes on, with no host; without one the radio stays off, and the flag in memory
is the one in flash; and with no arm found the radio stays off. -/
structure Lawful : Prop where
  fires : b.hw = true → armedIn b.stored = true → ∃ is, HostFree is ∧
    armedIn (flash b.stored (run (World.step C) (b.world C) is).log) = false ∧
    (run (World.step C) (b.world C) is).engine.radioOn = true
  absent : b.hw = false → (b.world C).engine.armedNextBoot = armedIn b.stored ∧
    ∀ is, HostFree is → (run (World.step C) (b.world C) is).engine.radioOn = false
  unarmed : armedIn b.stored = false →
    ∀ is, HostFree is → (run (World.step C) (b.world C) is).engine.radioOn = false

/-- The boot switches nothing on, and keeps the arm in memory if there is a radio. -/
theorem world_armed : (b.world C).engine.armedNextBoot = (b.hw && armedIn b.stored) := by
  obtain ⟨stored, uid, hw⟩ := b
  have hidentity (e : Engine) : (e.setIdentity uid).armedNextBoot = e.armedNextBoot := by
    unfold Engine.setIdentity
    split
    · rfl
    · rfl
  have havailable (e : Engine) : (e.setRadioAvailable hw).armedNextBoot = (hw && e.armedNextBoot) := by
    cases hw <;> rfl
  change ((bootEngine C stored uid hw).1).armedNextBoot = _
  unfold bootEngine armedIn
  cases stored with
  | none => exact (havailable _).trans (congrArg (hw && ·) (hidentity _))
  | some bytes =>
      dsimp only
      unfold Engine.restore
      cases decodeView bytes with
      | error x => exact (havailable _).trans (congrArg (hw && ·) (hidentity _))
      | ok v => exact (havailable _).trans (congrArg (hw && ·) (hidentity _))

theorem stays_off {is : List Input} (hfree : HostFree is) :
    (run (World.step C) (b.world C) is).engine.radioOn = false :=
  run_stays_off rfl (bootEngine_flags C b.stored b.uid b.hw).1 hfree

theorem lawful_iff : b.Lawful C ↔ armedIn b.stored = false := by
  constructor
  · intro h
    cases harm : armedIn b.stored with
    | false => rfl
    | true =>
        cases hhw : b.hw with
        | true =>
            obtain ⟨is, hfree, -, hon⟩ := h.fires hhw harm
            rw [b.stays_off C hfree] at hon
            cases hon
        | false =>
            have hflag := (h.absent hhw).1
            rw [b.world_armed, hhw, harm] at hflag
            cases hflag
  · intro h
    refine ⟨fun _ harm => ?_, fun hhw => ⟨?_, fun _ hfree => b.stays_off C hfree⟩,
      fun _ _ hfree => b.stays_off C hfree⟩
    · rw [h] at harm
      cases harm
    · rw [b.world_armed, h, Bool.and_false]

end Boot

/-- One boot, and what runs from it to the next reset; a reset at an `await` may let a write that is
under way land. -/
structure Life where
  uid : Bytes 8
  hw : Bool
  inputs : List Input
  landed : Option (List UInt8)

/-- The boots of these lives, the first of which finds `stored`. -/
def boots (C : Crypto) (stored : Option (List UInt8)) : List Life → List Boot
  | [] => []
  | l :: lives =>
    let b : Boot := { stored, uid := l.uid, hw := l.hw }
    let w := run (World.step C) (b.world C) l.inputs
    let kept := flash stored w.log
    b :: boots C (if w.suspended then l.landed.or kept else kept) lives

/-- **The boot arm.**  Over any number of boots, whatever runs between, each treats the arm as a
one-shot exactly when none finds an arm. -/
theorem boots_lawful (C : Crypto) (stored : Option (List UInt8)) (lives : List Life) :
    (∀ b ∈ boots C stored lives, b.Lawful C) ↔ ∀ b ∈ boots C stored lives, armedIn b.stored = false :=
  forall₂_congr fun b _ => b.lawful_iff C

namespace Sample

/-- The host provisions the node, arms the next boot, and each is committed. -/
def arming : Life where
  uid := bytes8 1
  hw := true
  inputs :=
    [ { turn := .usb (.request 1 (.provision (some 1))), wakes := [wake []] },
      { turn := .advanceTime, wakes := [wake []] },
      { turn := .usb (.request 2 .radioArmNextBoot), wakes := [] },
      { turn := .advanceTime, wakes := [wake []] } ]
  landed := none

/-- The next boot. -/
def armed : Life where
  uid := bytes8 1
  hw := true
  inputs := []
  landed := none

end Sample

/-- The boot after an arm was committed leaves the radio off. -/
theorem boot_ignores_arm :
    (boots Sample.crypto none [Sample.arming, Sample.armed]).map (fun b => armedIn b.stored) =
        [false, true] ∧
      ¬ ∀ b ∈ boots Sample.crypto none [Sample.arming, Sample.armed], b.Lawful Sample.crypto := by
  have harm : (boots Sample.crypto none [Sample.arming, Sample.armed]).map (fun b => armedIn b.stored) =
      [false, true] := by
    decide +kernel
  refine ⟨harm, fun hall => ?_⟩
  have hnone : ∀ b ∈ boots Sample.crypto none [Sample.arming, Sample.armed], armedIn b.stored = false :=
    fun b hb => (b.lawful_iff Sample.crypto).mp (hall b hb)
  have hfound : true ∈ (boots Sample.crypto none [Sample.arming, Sample.armed]).map
      (fun b => armedIn b.stored) := by
    rw [harm]
    exact List.mem_cons_of_mem false List.mem_cons_self
  obtain ⟨b, hb, hbt⟩ := List.mem_map.mp hfound
  rw [hnone b hb] at hbt
  cases hbt

end LoraMesh
