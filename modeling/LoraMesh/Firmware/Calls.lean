import LoraMesh.Lib.Async
import LoraMesh.Firmware.World

/-!
# Firmware — Calls

What the runtime relies on of a wait and of an engine call.

* `await_keeps`: what the clock and every move of the radio task keep, a wait keeps.
* `step_flags`: every call but four leaves the fault flag and the radio flags as they are.
-/

namespace LoraMesh

open Std.Do

/-! ### Waits -/

section

variable {P : World → Prop}

theorem envStep_keeps (tick : ∀ w ticks, P w → P { w with now := w.now + ticks })
    (bus : ∀ w i, P w → P { w with toBus := (w.toBus.step i).1 })
    (triggered : ∀ w t, P w → P (w.record (.triggered t))) (w : World) (e : Env) (h : P w) :
    P (w.envStep e) := by
  cases e with
  | tick ticks => exact tick w ticks h
  | radio i =>
      have hb := bus w i h
      by_cases hw : w.hwPresent
      · simp only [World.envStep, hw, if_true]
        split
        · exact triggered _ _ hb
        · exact hb
      · simpa only [World.envStep, if_neg hw] using h

/-- What the clock and every move of the radio task keep, a wait keeps. -/
theorem await_keeps (wakes : ∀ w ks, P w → P { w with wakes := ks })
    (tick : ∀ w ticks, P w → P { w with now := w.now + ticks })
    (bus : ∀ w i, P w → P { w with toBus := (w.toBus.step i).1 })
    (triggered : ∀ w t, P w → P (w.record (.triggered t))) :
    ⦃fun w => ⌜P w⌝⦄ await ⦃post⟨fun _ w => ⌜P w⌝, fun _ w => ⌜P w⌝⟩⦄ := by
  refine triple_iff.mpr fun w h => ?_
  have hrun (k : Wake) (ks : List Wake) : P (run World.envStep { w with wakes := ks } k.env) :=
    run_invariant_of_all (envStep_keeps tick bus triggered) k.env (wakes w ks h)
  cases hk : w.wakes with
  | nil => simpa only [OptionT.run, await, hk] using h
  | cons k ks =>
      have hk : await.run w = (k.answer, run World.envStep { w with wakes := ks } k.env) := by
        simp only [OptionT.run, await, hk]
      rw [hk]
      cases k.answer with
      | none => exact hrun k ks
      | some a => exact hrun k ks

end

/-! ### The flags -/

/-- The fault flag, the radio flag, and whether there is a radio. -/
def Engine.flags (e : Engine) : Bool × Bool × Bool := (e.fault, e.radioOn, e.radioAvailable)

/-- The calls that may move a flag. -/
def Op.movesFlags : Op → Bool
  | .markFault => true
  | .setRadioAvailable _ => true
  | .setRadio _ => true
  | .restore _ => true
  | _ => false

/-- The engine calls that read or write the relay cache. -/
def Op.relays : Op → Bool
  | .onFrame _ _ _ => true
  | .noteOrigin _ _ => true
  | _ => false

/-- What all other calls leave. -/
def Engine.fixed (e : Engine) : (Bool × Bool × Bool) × RelayCache := (e.flags, e.relayCache)

section

variable {C : Crypto} {e : Engine}

theorem settle_fixed {α : Type} {r : Except EngineError (Engine × α)} {f : Except EngineError α → Output}
    (h : ∀ e' a, r = .ok (e', a) → e'.fixed = e.fixed) : (answer f (settle e r)).1.fixed = e.fixed := by
  cases r with
  | error x => rfl
  | ok x => exact h x.1 x.2 rfl

theorem advanceAll_fixed (n : UInt32) (is : List Slot) :
    ∀ e : Engine, (Engine.advanceAll n is e).1.fixed = e.fixed := by
  induction is with
  | nil => exact fun _ => rfl
  | cons i is ih =>
      intro e
      rw [Engine.advanceAll]
      split
      · split
        · exact ih _
        · rfl
      · exact ih e

theorem setTimeConfirmed_fixed (s : UInt64) (confirmed : Bool) :
    (e.setTimeConfirmed s confirmed).1.fixed = e.fixed := by
  unfold Engine.setTimeConfirmed
  split
  · rfl
  split
  · rfl
  rename_i n _
  split
  · rfl
  split
  · rfl
  have h := advanceAll_fixed n (List.finRange maxContacts) e
  split
  · rename_i heq; rwa [heq] at h
  · rename_i heq; rwa [heq] at h

theorem advanceTime_fixed (now : UInt64) : (e.advanceTime now).1.fixed = e.fixed := by
  unfold Engine.advanceTime
  split
  · rfl
  dsimp only
  split
  · rfl
  split
  · rfl
  split
  · rfl
  rename_i next _
  split
  · have h := setTimeConfirmed_fixed (e := { e with monoS := now }) next false
    unfold Engine.setTime
    split
    · rename_i heq; rwa [heq] at h
    · rename_i heq; rwa [heq] at h
  · rfl

theorem buildAck_fixed (slot : Slot) (h : Header) (pid : UInt32) :
    (e.buildAck C slot h pid).1.fixed = e.fixed := by
  unfold Engine.buildAck
  split
  · rfl
  dsimp only
  split
  · rfl
  split
  · rfl
  · rfl

theorem transit_flags (frame : List UInt8) (h : Header) (hlen : minFrameLen ≤ frame.length) (now : UInt64) :
    (e.transit C frame h hlen now).1.flags = e.flags := by
  unfold Engine.transit
  dsimp only
  split
  · rfl
  split
  · split
    · rfl
    · rfl
  · rfl

theorem acceptBody_fixed (slot : Slot) (win : Fin 3) (h : Header) (pt : List UInt8) (pid : UInt32) :
    (e.acceptBody C slot win h pt pid).1.fixed = e.fixed := by
  unfold Engine.acceptBody
  split
  · rfl
  split
  · rfl
  split
  · unfold Engine.acceptData
    split
    · rename_i heq
      simp only [Engine.acceptInData, Prod.mk.injEq] at heq
      rw [buildAck_fixed, ← heq.2]
      rfl
    · rename_i heq
      simp only [Engine.acceptInData, Prod.mk.injEq] at heq
      rw [buildAck_fixed, ← heq.2]
      rfl
    · rename_i heq
      simp only [Engine.acceptInData, Prod.mk.injEq] at heq
      rw [← heq.2]
      rfl
  · unfold Engine.acceptAck
    dsimp only
    split
    · rename_i heq
      simp only [Engine.acceptInAck, Prod.mk.injEq] at heq
      obtain ⟨-, rfl⟩ := heq
      split
      · split
        · rfl
        · rfl
      · rfl
    · rename_i heq
      simp only [Engine.acceptInAck, Prod.mk.injEq] at heq
      rw [← heq.2]
      rfl

theorem onFrame_flags (frame : List UInt8) (now : UInt64) (pid : UInt32) :
    (e.onFrame C frame now pid).1.flags = e.flags := by
  unfold Engine.onFrame
  split
  swap
  · rfl
  split
  · rfl
  rename_i h body _
  split
  · rfl
  split
  · rfl
  split
  · exact transit_flags ..
  split
  · exact transit_flags ..
  obtain ⟨as, failed, r, hscan, -⟩ := scan_spec (C := C) h body (List.finRange maxContacts) e false
  rw [hscan]
  cases r with
  | none =>
      refine (transit_flags ..).trans ?_
      unfold Engine.countFailure
      split
      · rfl
      · rfl
  | some x => exact congrArg Prod.fst (acceptBody_fixed ..)

theorem Pairs.fixed {op : Op} {e' : Engine} {out : Output} (h : Pairs C e op e' out) :
    e'.fixed = e.fixed := by
  obtain ⟨⟨p', rfl, -⟩, -⟩ := h.spec
  rfl

theorem pairImport_fixed {record : List UInt8} {replace sasMatch : Bool} {e' : Engine}
    {o : PairImportOutcome} (h : e.pairImportSas C record replace sasMatch = .ok (e', o)) :
    e'.fixed = e.fixed := by
  obtain ⟨-, -, p, hp, hi | hi | ⟨rfl, hi⟩⟩ := pairImportSas_spec h
  · have h : Pairs C e (.pairImport record replace sasMatch) e' (.imported (.ok o)) := .offer hp hi
    exact h.fixed
  · have h : Pairs C e (.pairImport record replace sasMatch) e' (.imported (.ok o)) := .proof hp hi
    exact h.fixed
  · obtain ⟨c, -, rfl, -⟩ := importConfirm_spec hi
    rfl

theorem pairOffer_fixed {ephPriv ephPub challenge : Bytes 32} {e' : Engine} {r : List UInt8}
    (h : e.pairOffer C ephPriv ephPub challenge = .ok (e', r)) : e'.fixed = e.fixed := by
  have fresh (h : e.freshOffer C ephPriv ephPub challenge = .ok (e', r)) : e'.fixed = e.fixed := by
    obtain ⟨-, slot, -, rfl, -⟩ := freshOffer_spec h
    rfl
  simp only [Engine.pairOffer, bind_eq_ok] at h
  obtain ⟨-, -, -, -, h⟩ := h
  split at h
  · split at h
    · exact fresh h
    · simp only [pure_eq_ok, Prod.mk.injEq] at h
      exact h.1 ▸ rfl
  · exact fresh h

theorem pairProof_fixed {e' : Engine} {r : List UInt8} (h : e.pairProof C = .ok (e', r)) :
    e'.fixed = e.fixed := by
  simp only [Engine.pairProof, bind_eq_ok] at h
  obtain ⟨-, -, -, -, p, -, t, -, h⟩ := h
  split at h
  · simp only [pure_eq_ok, Prod.mk.injEq] at h
    exact h.1 ▸ rfl
  · obtain ⟨-, -, -, -, -, -, -, -, -, rfl⟩ := freshProof_spec h
    rfl

theorem pairConfirm_fixed {e' : Engine} {r : List UInt8} (h : e.pairConfirm C = .ok (e', r)) :
    e'.fixed = e.fixed := by
  simp only [Engine.pairConfirm, bind_eq_ok] at h
  obtain ⟨-, -, -, -, p, -, t, -, -, -, h⟩ := h
  split at h
  · simp only [pure_eq_ok, Prod.mk.injEq] at h
    exact h.1 ▸ rfl
  · obtain ⟨-, -, -, -, -, -, -, -, -, rfl⟩ := freshConfirm_spec h
    rfl

theorem sendEmit_fixed : (e.sendEmit C).1.fixed = e.fixed := by
  unfold Engine.sendEmit
  split
  · rfl
  dsimp only
  rw [refreshAliases_eq]
  split
  · rfl
  · rfl

theorem setBlocked_fixed {id : UInt8} {blocked : Bool} {e' : Engine} {o : BlockOutcome}
    (h : e.setBlocked id blocked = .ok (e', o)) : e'.fixed = e.fixed := by
  simp only [Engine.setBlocked, bind_eq_ok] at h
  obtain ⟨-, -, slot, -, h⟩ := h
  split at h
  · split at h
    · split at h
      · simp only [pure_eq_ok, Prod.mk.injEq] at h
        exact h.1 ▸ rfl
      · simp only [pure_eq_ok, Prod.mk.injEq] at h
        exact h.1 ▸ rfl
    · simp only [pure_eq_ok, Prod.mk.injEq] at h
      exact h.1 ▸ rfl
  · simp only [pure_eq_ok, Prod.mk.injEq] at h
    exact h.1 ▸ rfl

theorem commitOk_fixed : e.commitOk.fixed = e.fixed := by
  unfold Engine.commitOk
  split
  · rfl
  · rfl
  · rfl

end

/-- Every call but four, and those that relay, leaves the flags and the relay cache. -/
theorem step_fixed (C : Crypto) (e : Engine) {op : Op} (h : op.movesFlags = false)
    (hr : op.relays = false) : (step C e op).1.fixed = e.fixed := by
  cases op with
  | setMonoS => rfl
  | advanceTime now => exact advanceTime_fixed now
  | markFault => cases h
  | setRadioAvailable => cases h
  | setIdentity uid =>
      change (e.setIdentity uid).fixed = _
      unfold Engine.setIdentity
      split
      · rfl
      · rfl
  | provision label signPriv =>
      refine settle_fixed fun e' u h => ?_
      simp only [Engine.provision, bind_eq_ok, pure_eq_ok, Prod.mk.injEq] at h
      obtain ⟨-, -, -, -, -, -, rfl, -⟩ := h
      rfl
  | setTime s confirmed => exact setTimeConfirmed_fixed s confirmed
  | setRadio => cases h
  | armNextBoot =>
      refine settle_fixed fun e' u h => ?_
      simp only [Engine.armNextBoot, bind_eq_ok, pure_eq_ok, Prod.mk.injEq] at h
      obtain ⟨-, -, -, -, rfl, -⟩ := h
      rfl
  | consumeBootArm =>
      refine settle_fixed fun e' b h => ?_
      simp only [Engine.consumeBootArm, bind_eq_ok, pure_eq_ok, Prod.mk.injEq] at h
      obtain ⟨-, -, rfl, -⟩ := h
      split
      · rfl
      · rfl
  | pairOffer => exact settle_fixed fun _ _ h => pairOffer_fixed h
  | pairCancel => rfl
  | pairImport => exact settle_fixed fun _ _ h => pairImport_fixed h
  | pairProof => exact settle_fixed fun _ _ h => pairProof_fixed h
  | pairConfirm => exact settle_fixed fun _ _ h => pairConfirm_fixed h
  | sendBegin id text pid =>
      refine settle_fixed fun e' ps h => ?_
      simp only [Engine.sendBegin, bind_eq_ok, pure_eq_ok, Prod.mk.injEq] at h
      obtain ⟨-, -, -, -, slot, -, -, -, -, -, -, -, -, -, kind, -, rfl, -⟩ := h
      rfl
  | sendEmit => exact sendEmit_fixed
  | sendRetryEcho => rfl
  | sendComplete => rfl
  | onFrame => cases hr
  | noteOrigin => cases hr
  | deleteContact id =>
      refine settle_fixed fun e' u h => ?_
      simp only [Engine.deleteContact, bind_eq_ok, pure_eq_ok, Prod.mk.injEq] at h
      obtain ⟨-, -, slot, -, rfl, -⟩ := h
      rw [(dropSendTo_spec id).1]
      rfl
  | setBlocked => exact settle_fixed fun _ _ h => setBlocked_fixed h
  | commitOk => exact commitOk_fixed
  | discardStaged => rfl
  | restore => cases h

theorem noteOrigin_flags (C : Crypto) (e : Engine) (bytes : List UInt8) (now : UInt64) :
    (e.noteOrigin C bytes now).flags = e.flags := by
  unfold Engine.noteOrigin
  split
  · rfl
  · split
    · rfl
    · rfl

/-- Every call but four leaves the flags as they are. -/
theorem step_flags (C : Crypto) (e : Engine) {op : Op} (h : op.movesFlags = false) :
    (step C e op).1.flags = e.flags := by
  cases op with
  | onFrame frame now pid => exact onFrame_flags frame now pid
  | noteOrigin bytes now => exact noteOrigin_flags C e bytes now
  | restore => cases h
  | _ => exact congrArg Prod.fst (step_fixed C e h rfl)

/-- Every call but those that relay leaves the relay cache as it is. -/
theorem step_relayCache (C : Crypto) (e : Engine) {op : Op} (hr : op.relays = false) :
    (step C e op).1.relayCache = e.relayCache := by
  cases op with
  | restore bytes =>
      change (answer Output.unit (settle e (e.restore C bytes))).1.relayCache = e.relayCache
      cases h : e.restore C bytes with
      | error x => rfl
      | ok r =>
          simp only [Engine.restore, bind_eq_ok, pure_eq_ok] at h
          obtain ⟨v, -, rfl⟩ := h
          rfl
  | markFault => rfl
  | setRadioAvailable available =>
      cases available with
      | false => rfl
      | true => rfl
  | setRadio enabled =>
      change (answer Output.unit (settle e (e.setRadio enabled))).1.relayCache = e.relayCache
      cases h : e.setRadio enabled with
      | error x => rfl
      | ok r =>
          simp only [Engine.setRadio, bind_eq_ok, require_eq_ok, pure_eq_ok] at h
          obtain ⟨-, -, -, -, rfl⟩ := h
          cases enabled with
          | false => rfl
          | true => rfl
  | _ => exact congrArg Prod.snd (step_fixed C e rfl hr)

/-- A `setRadio` that succeeds moves the radio flag, up only if there is a radio; one that fails
moves nothing. -/
theorem setRadio_spec (C : Crypto) (e : Engine) (enabled : Bool) :
    (∃ x, step C e (.setRadio enabled) = (e, .unit (.error x))) ∨
      ∃ e', step C e (.setRadio enabled) = (e', .unit (.ok ())) ∧ e'.radioOn = enabled ∧
        (enabled = true → e.radioAvailable = true) ∧ e'.radioAvailable = e.radioAvailable := by
  cases h : e.setRadio enabled with
  | error x => exact .inl ⟨x, by simp only [step, h, settle, answer]⟩
  | ok r =>
      refine .inr ⟨r.1, by simp only [step, h, settle, answer], ?_⟩
      simp only [Engine.setRadio, bind_eq_ok, require_eq_ok, pure_eq_ok, Bool.not_eq_true',
        Bool.and_eq_false_iff, Bool.not_eq_false'] at h
      obtain ⟨-, -, -, hav, rfl⟩ := h
      cases enabled with
      | false => exact ⟨rfl, fun hon => (by cases hon), rfl⟩
      | true => exact ⟨rfl, fun _ => hav.resolve_left fun hon => (by cases hon), rfl⟩

end LoraMesh
