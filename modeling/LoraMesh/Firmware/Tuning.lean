import LoraMesh.Firmware.Echoes

/-!
# Firmware — Tuning

The settings, and the constants that the runtime and the radio task go by.  What happened between two
points of a run is told by the log between them, and how long it took by the clock at both.

* `Pace`: the attempts of the last send, what the relaying did, and the clock.
* `settings_obeyed`: with settings that the constants satisfy, each of them is obeyed.
-/

namespace LoraMesh

open Std.Do

set_option mvcgen.warning false

/-! ### What happened, by the log -/

/-- A send begins. -/
def Happening.begins : Happening → Bool
  | .engine (.sendBegin _ _ _) _ _ => true
  | _ => false

/-- The DATA transmissions of the last send. -/
def attempts : List Happening → ℕ
  | [] => 0
  | x :: log => if x.begins then 0 else if x.sends.isSome then attempts log + 1 else attempts log

/-- A forward was scheduled. -/
def scheduled : List Happening → Bool
  | [] => false
  | x :: log => x.forwards.isSome || scheduled log

/-- A forward that was scheduled was handed to the radio. -/
def relayed : List Happening → Bool
  | [] => false
  | x :: log => x.hands.isSome && scheduled log || relayed log

/-- All but the first `mark` happenings. -/
def recent (mark : ℕ) (log : List Happening) : List Happening := log.take (log.length - mark)

theorem recent_cons {mark : ℕ} {log : List Happening} (h : mark ≤ log.length) (x : Happening) :
    recent mark (x :: log) = x :: recent mark log := by
  unfold recent
  rw [List.length_cons, Nat.succ_sub h, List.take_succ_cons]

theorem recent_self (log : List Happening) : recent log.length log = [] := by
  rw [recent, Nat.sub_self, List.take_zero]

/-! ### The pace of a run -/

/-- The attempts of the last send, and those since a mark; whether since then a forward was scheduled
and handed on; the clock, the send in flight and the forward that waits. -/
structure Pace where
  total : ℕ
  recent : ℕ
  scheduled : Bool
  relayed : Bool
  now : ℕ
  send : Option InFlight
  forward : Option PendingForward

def World.pace (mark : ℕ) (w : World) : Pace where
  total := attempts w.log
  recent := attempts (LoraMesh.recent mark w.log)
  scheduled := LoraMesh.scheduled (LoraMesh.recent mark w.log)
  relayed := LoraMesh.relayed (LoraMesh.recent mark w.log)
  now := w.now
  send := w.send
  forward := w.forward

namespace Pace

/-- The pace after one more happening. -/
def after (p : Pace) (x : Happening) : Pace :=
  { p with
    total := if x.begins then 0 else if x.sends.isSome then p.total + 1 else p.total
    recent := if x.begins then 0 else if x.sends.isSome then p.recent + 1 else p.recent
    scheduled := x.forwards.isSome || p.scheduled
    relayed := x.hands.isSome && p.scheduled || p.relayed }

theorem after_engine (p : Pace) (op : Op) (out : Output) (anew : Bool) :
    p.after (.engine op out anew) = p.after (.engine op out false) := by
  cases op <;> rfl

end Pace

theorem World.pace_record {mark : ℕ} {w : World} (h : mark ≤ w.log.length) (x : Happening) :
    (w.record x).pace mark = (w.pace mark).after x := by
  simp only [pace, record, Pace.after, recent_cons h, attempts, scheduled, relayed]

/-- A happening that counts for nothing here, but may begin a send. -/
def Happening.idle (x : Happening) : Bool := x.sends.isNone && x.forwards.isNone && x.hands.isNone

/-- What holds of the pace holds of it later, and when a send begins; where the runtime stands at an
`await`, `G` does. -/
structure Lasting (F G : Pace → Prop) : Prop where
  loose : ∀ p, F p → G p
  tick : ∀ {p} ticks, F p → F { p with now := p.now + ticks }
  begun : ∀ {p}, F p → F { p with total := 0, recent := 0 }

/-- And when the send in flight or the forward that waits is dropped. -/
structure Droppable (F : Pace → Prop) : Prop where
  send : ∀ {p}, F p → F { p with send := none }
  forward : ∀ {p}, F p → F { p with forward := none }

/-! ### CAD attempts -/

/-- The CAD attempts of a transmission are numbered below the bound. -/
def TxNext.Bounded : TxNext → Prop
  | .wait (.cad n _) => n < cadMaxAttempts
  | _ => True

def Work.Bounded : Work → Prop
  | .transmitting _ _ _ _ p => TxNext.Bounded (.wait p)
  | _ => True

theorem bounded_attempt (gate : Bool) {n : ℕ} (h : n < cadMaxAttempts) (backoff : ℕ) :
    (txAttempt gate n backoff).2.Bounded := by
  cases gate with
  | false => trivial
  | true => exact h

theorem bounded_gate (gate : Bool) : (txGate gate).2.Bounded := by
  cases gate with
  | false => trivial
  | true => trivial

theorem bounded_begin (gate : Bool) (frame : AirFrame) (jitterMs : ℕ) (mdltn : Bool) :
    (txBegin gate frame jitterMs mdltn).2.Bounded := by
  unfold txBegin
  split
  · trivial
  split
  · trivial
  split
  · trivial
  · exact bounded_attempt gate (Nat.succ_pos 4) _

theorem bounded_resume (gate : Bool) (d : Driver) (p : TxPoint) : (txResume gate d p).2.Bounded := by
  cases p with
  | cad n backoff =>
      cases d with
      | ok => exact bounded_gate gate
      | again =>
          unfold txResume
          dsimp only
          split
          · trivial
          · trivial
      | failed => trivial
  | pause n backoff =>
      unfold txResume
      dsimp only
      split
      · rename_i h
        exact bounded_attempt gate h _
      · exact bounded_gate gate
  | prepare => cases d <;> trivial
  | trigger => cases d <;> trivial
  | irq => cases d <;> trivial

namespace Bus

theorem bounded_tx (b : Bus) (id : ℕ) (frame : AirFrame) (contact : Option UInt8) (token : TxToken)
    {r : List TxMark × TxNext} (h : r.2.Bounded) : (b.tx id frame contact token r).1.radio.work.Bounded := by
  obtain ⟨marks, next⟩ := r
  cases next with
  | wait p => exact h
  | done result attempted => trivial

theorem bounded_probe (b : Bus) (id : ℕ) (n : ProbeNext) : (b.probe id n).radio.work.Bounded := by
  cases n with
  | wait => trivial
  | done => trivial

theorem bounded_handle (b : Bus) (mdltn : Bool) (cmd : RadioCmd) :
    (b.handleCmd mdltn cmd).1.radio.work.Bounded := by
  cases cmd with
  | setEnabled id enabled => cases enabled <;> trivial
  | barrier => trivial
  | tx id frame jitterMs contact token => exact bounded_tx b id frame contact token (bounded_begin ..)
  | cadProbe => exact bounded_probe ..

theorem tryEvt_radio (b : Bus) (evt : RadioEvt) : (b.tryEvt evt).radio = b.radio := by
  unfold tryEvt
  split
  · rfl
  · rfl

/-- The radio task keeps the bound. -/
theorem bounded_step (b : Bus) (i : RadioIn) (h : b.radio.work.Bounded) : (b.step i).1.radio.work.Bounded := by
  unfold step
  split
  · split
    · trivial
    split
    · rw [tryEvt_radio]
      exact h
    · trivial
  · split <;> trivial
  · split
    · exact h
    · exact bounded_handle ..
  · split
    · exact h
    · exact bounded_handle ..
  · split <;> trivial
  · exact bounded_tx b _ _ _ _ (bounded_resume ..)
  · exact bounded_probe ..
  · split
    · trivial
    · exact h
  · exact h

end Bus

/-! ### Statements about the pace -/

/-- The pace since the mark satisfies `F`. -/
structure Paced (mark : ℕ) (F : Pace → Prop) (w : World) : Prop where
  marked : mark ≤ w.log.length
  bounded : w.radio.work.Bounded
  pace : F (w.pace mark)

section

variable {C : Crypto} {mark : ℕ} {F G : Pace → Prop} {w w' : World}

theorem Paced.mono (h : Paced mark F w) (hFG : ∀ p, F p → G p) : Paced mark G w :=
  ⟨h.marked, h.bounded, hFG _ h.pace⟩

theorem Paced.of_view (h : Paced mark F w) (hv : w'.liveView = w.liveView) : Paced mark F w' := by
  simp only [World.liveView, Prod.mk.injEq] at hv
  obtain ⟨-, hn, hs, -, hf, hr, hl⟩ := hv
  refine ⟨hl ▸ h.marked, hr ▸ h.bounded, ?_⟩
  have hpace : w'.pace mark = w.pace mark := by
    simp only [World.pace, hn, hs, hf, hl]
  rw [hpace]
  exact h.pace

theorem Paced.record (h : Paced mark F w) {x : Happening} (hx : F ((w.pace mark).after x)) :
    Paced mark F (w.record x) :=
  ⟨h.marked.trans (Nat.le_succ _), h.bounded, (World.pace_record h.marked x).symm ▸ hx⟩

/-- An engine call. -/
theorem Paced.called (h : Paced mark F w) {op : Op}
    (hx : G ((w.pace mark).after (.engine op (step C w.engine op).2 false))) :
    Paced mark G (w.called C op) :=
  ⟨h.marked.trans (Nat.le_succ _), h.bounded, by
    have hpace := World.pace_record (w := { w with engine := (step C w.engine op).1 }) h.marked
      (.engine op (step C w.engine op).2 (w.staged.isSome &&
        decide ((step C w.engine op).1.pendingPersist ≠ w.engine.pendingPersist)))
    rw [Pace.after_engine] at hpace
    exact (congrArg G hpace).mpr hx⟩

theorem Lasting.idle (hF : Lasting F G) {p : Pace} (hp : F p) {x : Happening} (hx : x.idle = true) :
    F (p.after x) := by
  simp only [Happening.idle, Bool.and_eq_true, Option.isNone_iff_eq_none] at hx
  obtain ⟨⟨hs, hf⟩, hh⟩ := hx
  unfold Pace.after
  rw [hs, hf, hh]
  cases hb : x.begins with
  | true => exact hF.begun hp
  | false => exact hp

/-- A happening that is idle. -/
theorem Paced.idle (h : Paced mark F w) (hF : Lasting F G) {x : Happening} (hx : x.idle = true) :
    Paced mark F (w.record x) :=
  h.record (hF.idle h.pace hx)

theorem Happening.idle_of_tracked {x : Happening} (hx : x.tracked = false) : x.idle = true := by
  cases x with
  | queued cmd use valid =>
      cases use with
      | data => cases hx
      | ack => cases hx
      | forward => cases hx
      | control => cases cmd <;> rfl
      | probe => cases cmd <;> rfl
  | _ => first | rfl | cases hx

theorem paced_frame (C : Crypto) (mark : ℕ) (hF : Lasting F G) : LiveFrame C (Paced mark F) (Paced mark G) where
  stands _ h := h.mono hF.loose
  view h hv := h.of_view hv
  record h hx := h.idle hF (Happening.idle_of_tracked hx)
  tick ticks h := ⟨h.marked, h.bounded, hF.tick ticks h.pace⟩
  radio i h := ⟨h.marked, Bus.bounded_step _ i h.bounded, h.pace⟩
  call := by
    intro w op h hop
    have hnone : (step C w.engine op).2.forwards = none :=
      step_forwards w.engine fun frame now pid heq => by rw [heq] at hop; cases hop
    refine h.called (hF.idle h.pace ?_)
    change (Option.isNone _ && Option.isNone (step C w.engine op).2.forwards && _) = true
    rw [hnone]
    rfl

end

/-! ### The constants -/

section

variable (t₀ : ℕ)

/-- What holds at every `await`. -/
structure Loose (p : Pace) : Prop where
  later : t₀ ≤ p.now
  few : p.total ≤ maxTx
  apart : t₀ + (p.recent - 1) * ackWait ≤ p.now
  held : p.relayed = true → t₀ + relayDelayMinMs * ticksPerMs ≤ p.now

/-- The send in flight counts its attempts, and is due well after the last. -/
structure Counted (p : Pace) : Prop extends Loose t₀ p where
  counted : ∀ s, p.send = some s → p.total ≤ s.txCount
  deadline : ∀ s, p.send = some s → p.recent ≠ 0 → t₀ + p.recent * ackWait ≤ s.deadline

/-- And the forward that waits is due well after it was scheduled. -/
structure Tuned (p : Pace) : Prop extends Counted t₀ p where
  due : p.scheduled = true → ∀ f, p.forward = some f → f.cmdId = none →
    t₀ + relayDelayMinMs * ticksPerMs ≤ f.due

/-- No send is in flight, and the last has made at most `k` attempts. -/
structure Clear (k : ℕ) (p : Pace) : Prop extends Tuned t₀ p where
  idle : p.send = none
  below : p.total ≤ k

/-- And may make another. -/
structure Ready (k : ℕ) (p : Pace) : Prop extends Clear t₀ k p where
  past : p.recent ≠ 0 → t₀ + p.recent * ackWait ≤ p.now

/-- A forward due at `d` has been taken. -/
structure Taken (d : ℕ) (p : Pace) : Prop extends Tuned t₀ p where
  after : p.scheduled = true → t₀ + relayDelayMinMs * ticksPerMs ≤ d
  past : d ≤ p.now

end

section

variable {t₀ : ℕ} {p : Pace}

theorem Loose.tick (h : Loose t₀ p) (ticks : ℕ) : Loose t₀ { p with now := p.now + ticks } where
  later := h.later.trans (Nat.le_add_right _ _)
  few := h.few
  apart := h.apart.trans (Nat.le_add_right _ _)
  held hr := (h.held hr).trans (Nat.le_add_right _ _)

theorem Loose.begun (h : Loose t₀ p) : Loose t₀ { p with total := 0, recent := 0 } where
  later := h.later
  few := Nat.zero_le _
  apart := by
    rw [Nat.zero_sub, Nat.zero_mul]
    exact h.later
  held := h.held

theorem Counted.tick (h : Counted t₀ p) (ticks : ℕ) : Counted t₀ { p with now := p.now + ticks } where
  toLoose := h.toLoose.tick ticks
  counted := h.counted
  deadline := h.deadline

theorem Counted.begun (h : Counted t₀ p) : Counted t₀ { p with total := 0, recent := 0 } where
  toLoose := h.toLoose.begun
  counted _ _ := Nat.zero_le _
  deadline _ _ hr := absurd rfl hr

theorem lasting_counted (t₀ : ℕ) : Lasting (Counted t₀) (Loose t₀) where
  loose _ h := h.toLoose
  tick ticks h := h.tick ticks
  begun h := h.begun

theorem Tuned.tick (h : Tuned t₀ p) (ticks : ℕ) : Tuned t₀ { p with now := p.now + ticks } where
  toCounted := h.toCounted.tick ticks
  due := h.due

theorem Tuned.begun (h : Tuned t₀ p) : Tuned t₀ { p with total := 0, recent := 0 } where
  toCounted := h.toCounted.begun
  due := h.due

theorem Tuned.dropSend (h : Tuned t₀ p) : Tuned t₀ { p with send := none } where
  toLoose := ⟨h.later, h.few, h.apart, h.held⟩
  counted := nofun
  deadline := nofun
  due := h.due

theorem Tuned.dropForward (h : Tuned t₀ p) : Tuned t₀ { p with forward := none } where
  toCounted := ⟨⟨h.later, h.few, h.apart, h.held⟩, h.counted, h.deadline⟩
  due := nofun

theorem lasting_tuned (t₀ : ℕ) : Lasting (Tuned t₀) (Loose t₀) where
  loose _ h := h.toLoose
  tick ticks h := h.tick ticks
  begun h := h.begun

theorem droppable_tuned (t₀ : ℕ) : Droppable (Tuned t₀) where
  send h := h.dropSend
  forward h := h.dropForward

theorem lasting_clear (t₀ k : ℕ) : Lasting (Clear t₀ k) (Loose t₀) where
  loose _ h := h.toLoose
  tick ticks h := ⟨h.toTuned.tick ticks, h.idle, h.below⟩
  begun h := ⟨h.toTuned.begun, h.idle, Nat.zero_le _⟩

theorem droppable_clear (t₀ k : ℕ) : Droppable (Clear t₀ k) where
  send h := ⟨h.toTuned.dropSend, rfl, h.below⟩
  forward h := ⟨h.toTuned.dropForward, h.idle, h.below⟩

theorem lasting_ready (t₀ k : ℕ) : Lasting (Ready t₀ k) (Loose t₀) where
  loose _ h := h.toLoose
  tick ticks h := ⟨(lasting_clear t₀ k).tick ticks h.toClear, fun hr => (h.past hr).trans (Nat.le_add_right _ _)⟩
  begun h := ⟨(lasting_clear t₀ k).begun h.toClear, fun hr => absurd rfl hr⟩

theorem droppable_ready (t₀ k : ℕ) : Droppable (Ready t₀ k) where
  send h := ⟨(droppable_clear t₀ k).send h.toClear, h.past⟩
  forward h := ⟨(droppable_clear t₀ k).forward h.toClear, h.past⟩

theorem lasting_taken (t₀ d : ℕ) : Lasting (Taken t₀ d) (Loose t₀) where
  loose _ h := h.toLoose
  tick ticks h := ⟨h.toTuned.tick ticks, h.after, h.past.trans (Nat.le_add_right _ _)⟩
  begun h := ⟨h.toTuned.begun, h.after, h.past⟩

/-- An attempt. -/
theorem Ready.attempt {k : ℕ} (h : Ready t₀ k p) (hk : k < maxTx) :
    Clear t₀ (k + 1) { p with total := p.total + 1, recent := p.recent + 1 } where
  later := h.later
  few := (Nat.succ_le_succ h.below).trans hk
  apart := by
    have hpast := h.past
    have hlater := h.later
    change t₀ + (p.recent + 1 - 1) * ackWait ≤ p.now
    rw [Nat.add_sub_cancel]
    by_cases hr : p.recent = 0
    · rw [hr, Nat.zero_mul]
      exact hlater
    · exact hpast hr
  held := h.held
  counted := by
    intro s hs
    change p.send = some s at hs
    rw [h.idle] at hs
    cases hs
  deadline := by
    intro s hs
    change p.send = some s at hs
    rw [h.idle] at hs
    cases hs
  due := h.due
  idle := h.idle
  below := Nat.succ_le_succ h.below

/-- A send is in flight after an attempt. -/
theorem Clear.inFlight {k : ℕ} (h : Clear t₀ k p) {s : InFlight} (hc : s.txCount = k)
    (hd : s.deadline = p.now + ackWait) : Tuned t₀ { p with send := some s } where
  toLoose := ⟨h.later, h.few, h.apart, h.held⟩
  counted := by
    rintro _ ⟨⟩
    rw [hc]
    exact h.below
  deadline := by
    rintro _ ⟨⟩ -
    rw [hd]
    change t₀ + p.recent * ackWait ≤ p.now + ackWait
    calc t₀ + p.recent * ackWait ≤ t₀ + (p.recent - 1 + 1) * ackWait :=
          Nat.add_le_add_left (Nat.mul_le_mul_right _ (Nat.le_add_of_sub_le (Nat.le_refl _))) t₀
      _ = t₀ + (p.recent - 1) * ackWait + ackWait := by rw [Nat.succ_mul, Nat.add_assoc]
      _ ≤ p.now + ackWait := Nat.add_le_add_right h.apart _
  due := h.due

end

/-! ### The programs -/

section

variable {C : Crypto} {mark t₀ : ℕ} {F G : Pace → Prop}

theorem Paced.drop {w : World} (h : Paced mark F w) (hd : Droppable F) :
    Paced mark F { w with send := none, forward := none } :=
  ⟨h.marked, h.bounded, hd.forward (hd.send h.pace)⟩

/-- A send goes on after an attempt. -/
theorem Paced.inFlight {k : ℕ} {w : World} (h : Paced mark (Clear t₀ k) w) {s : InFlight}
    (hc : s.txCount = k) (hd : s.deadline = w.now + ackWait) :
    Paced mark (Tuned t₀) { w with send := some s } :=
  ⟨h.marked, h.bounded, h.pace.inFlight hc hd⟩

/-- No send is in flight. -/
theorem Paced.clear {w : World} (h : Paced mark (Tuned t₀) w) (hs : ¬ w.send.isSome = true) :
    Paced mark (Clear t₀ maxTx) w :=
  ⟨h.marked, h.bounded, h.pace, Option.not_isSome_iff_eq_none.mp hs, h.pace.few⟩

theorem Paced.ready {k : ℕ} {w : World} (h : Paced mark (Ready t₀ k) w) : Paced mark (Tuned t₀) w :=
  h.mono fun _ h => h.toTuned

/-- A send in flight at its deadline may make another attempt. -/
theorem Paced.overdue {w : World} (h : Paced mark (Tuned t₀) w) {s : InFlight} (hs : w.send = some s)
    (hd : s.deadline ≤ w.now) : Paced mark (Ready t₀ s.txCount) { w with send := none } :=
  ⟨h.marked, h.bounded, ⟨h.pace.dropSend, rfl, h.pace.counted s hs⟩,
    fun hr => (h.pace.deadline s hs hr).trans hd⟩

/-- And one that was transmitted waits anew. -/
theorem Paced.extended {w : World} (h : Paced mark (Tuned t₀) w) {s : InFlight} (hs : w.send = some s) :
    Paced mark (Tuned t₀) { w with send := some { s with deadline := w.now + ackWait } } := by
  have hclear : Paced mark (Clear t₀ s.txCount) { w with send := none } :=
    ⟨h.marked, h.bounded, h.pace.dropSend, rfl, h.pace.counted s hs⟩
  exact hclear.inFlight rfl rfl

theorem reply_paced (mark : ℕ) (hF : Lasting F G) (r : Reply) (ends : Option Flight) :
    Keeps (Paced mark F) (Paced mark G) (reply r ends) :=
  triple_iff.mpr fun _ hw => hw.idle hF rfl

theorem failRadioClosed_paced (hF : Lasting F G) (hd : Droppable F) :
    Keeps (Paced mark F) (Paced mark G) (failRadioClosed C) := by
  have hframe := paced_frame C mark hF
  have policy := hframe.policy
  have alloc := hframe.alloc
  have queue (cmd : RadioCmd) := hframe.queue cmd .control rfl
  have complete := hframe.calls .sendComplete rfl
  have reply := reply_paced mark hF
  unfold failRadioClosed emitErr
  mvcgen [policy, alloc, queue, complete, reply]
  all_goals
    have hw : Paced mark F _ := ‹_›
    first
      | exact hw.of_view rfl
      | exact hw.idle hF rfl
      | exact ⟨hw.marked, hw.bounded, hd.send hw.pace⟩
      | exact ⟨hw.marked, hw.bounded, hd.forward hw.pace⟩

theorem paced_quiet (C : Crypto) (mark : ℕ) (hF : Lasting F G) (hd : Droppable F) :
    LiveQuiet C (Paced mark F) (Paced mark G) where
  toLiveFrame := paced_frame C mark hF
  stood h := h.of_view rfl
  close := failRadioClosed_paced hF hd

end

section

variable (C : Crypto) (mark t₀ : ℕ) {F G : Pace → Prop}

theorem finishSend_paced (hF : Lasting F G) (hd : Droppable F) (r : Reply) :
    Keeps (Paced mark F) (Paced mark G) (finishSend C r) := by
  have hframe := paced_frame C mark hF
  have complete := hframe.calls .sendComplete rfl
  have reply := reply_paced mark hF
  unfold finishSend
  mvcgen [complete, reply]
  have hw : Paced mark F _ := ‹_›
  exact ⟨hw.marked, hw.bounded, hd.send hw.pace⟩

theorem clearInFlight_paced (hF : Lasting F G) (hd : Droppable F) (enabled : Bool) :
    Keeps (Paced mark F) (Paced mark G) (clearInFlight enabled) := by
  unfold clearInFlight
  mvcgen
  rename_i w hw _
  have hdrop : Paced mark F { w with send := none, forward := none } := hw.drop hd
  exact hdrop.idle hF rfl

theorem forwardDone_paced (hd : Droppable F) (id : ℕ) :
    Keeps (Paced mark F) (Paced mark G) (forwardDone id) := by
  refine triple_iff.mpr fun w hw => ?_
  rcases forwardDone_run id w with hrun | ⟨-, hrun⟩
  · rw [hrun]
    exact hw
  · rw [hrun]
    exact ⟨hw.marked, hw.bounded, hd.forward hw.pace⟩

/-! ### Sends -/

/-- A DATA frame is queued, or the queue is full. -/
theorem trySend_attempt {k : ℕ} (hk : k < maxTx) (cmd jitter : ℕ) (frame : AirFrame)
    (contact : Option UInt8) (token : TxToken) :
    ⦃fun w => ⌜Paced mark (Ready t₀ k) w⌝⦄ trySend (.tx cmd frame jitter contact token) .data
    ⦃post⟨fun _ w => ⌜Paced mark (Clear t₀ (k + 1)) w⌝, fun _ w => ⌜Paced mark (Loose t₀) w⌝⟩⦄ := by
  unfold trySend
  mvcgen
  · rename_i w hw _
    have hroom : Paced mark (Ready t₀ k) { w with cmds := w.cmds ++ [.tx cmd frame jitter contact token] } :=
      hw.of_view rfl
    exact ⟨hroom.marked.trans (Nat.le_succ _), hroom.bounded,
      (World.pace_record hroom.marked _).symm ▸ hroom.pace.attempt hk⟩
  · rename_i w hw _
    refine Paced.mono (hw.idle (lasting_ready t₀ k) rfl) fun p h => ?_
    exact ⟨h.toTuned, h.idle, h.below.trans (Nat.le_succ k)⟩

include C in
theorem mintAndSend_attempt {k : ℕ} (hk : k < maxTx) (frame : AirFrame) (jitter : ℕ)
    (contact : Option UInt8) :
    ⦃fun w => ⌜Paced mark (Ready t₀ k) w⌝⦄ mintAndSend frame jitter contact .data
    ⦃post⟨fun _ w => ⌜Paced mark (Clear t₀ (k + 1)) w⌝, fun _ w => ⌜Paced mark (Loose t₀) w⌝⟩⦄ := by
  have hframe := paced_frame C mark (lasting_ready t₀ k)
  have sync := hframe.sync
  have token := txToken_keeps (Paced mark (Ready t₀ k)) (Paced mark (Loose t₀)) contact
  have alloc := hframe.alloc
  have queue := trySend_attempt mark t₀ hk
  unfold mintAndSend
  mvcgen [sync, token, alloc, queue]

include C in
theorem jitter_paced (hF : Lasting F G) : Keeps (Paced mark F) (Paced mark G) jitter :=
  (paced_frame C mark hF).jitter

theorem queueTx_paced (id : UInt64) (contact : UInt8) (frame : OutgoingFrame) :
    ⦃fun w => ⌜Paced mark (Ready t₀ 0) w⌝⦄ queueTx C id contact frame
    ⦃post⟨fun _ w => ⌜Paced mark (Tuned t₀) w⌝, fun _ w => ⌜Paced mark (Loose t₀) w⌝⟩⦄ := by
  have hframe := paced_frame C mark (lasting_clear t₀ 1)
  have jit := jitter_paced C mark (lasting_ready t₀ 0)
  have mint := mintAndSend_attempt C mark t₀ (Nat.succ_pos 2)
  have complete := hframe.calls .sendComplete rfl
  have reply := hframe.replies
  unfold queueTx emitErr
  mvcgen [jit, mint, complete, reply]
  · rename_i w hw _
    exact Paced.idle (Paced.inFlight hw rfl rfl) (lasting_tuned t₀) rfl
  · exact fun hw => hw.mono fun p h => h.toTuned

/-- A send begins: it has made no attempt. -/
theorem sendBegin_paced (contact : UInt8) (text : List UInt8) (pid : UInt32) :
    ⦃fun w => ⌜Paced mark (Clear t₀ maxTx) w⌝⦄ callEngine C (.sendBegin contact text pid)
    ⦃post⟨fun _ w => ⌜Paced mark (Ready t₀ 0) w⌝, fun _ w => ⌜Paced mark (Loose t₀) w⌝⟩⦄ := by
  refine triple_iff.mpr fun w hw => hw.called ?_
  have hnone : (step C w.engine (.sendBegin contact text pid)).2.forwards = none :=
    step_forwards w.engine nofun
  have hbegun : (w.pace mark).after (.engine (.sendBegin contact text pid)
      (step C w.engine (.sendBegin contact text pid)).2 false) =
        { w.pace mark with total := 0, recent := 0 } := by
    simp only [Pace.after, Happening.forwards, hnone]
    rfl
  rw [hbegun]
  exact ⟨⟨hw.pace.toTuned.begun, hw.pace.idle, Nat.le_refl _⟩, fun hr => absurd rfl hr⟩

theorem driveSendPrep_paced : Ends (Paced mark (Tuned t₀)) (Paced mark (Loose t₀)) (driveSendPrep C) := by
  have wait := (paced_frame C mark (lasting_clear t₀ maxTx)).wait
  have begins := sendBegin_paced C mark t₀
  have hquiet := paced_quiet C mark (lasting_ready t₀ 0) (droppable_ready t₀ 0)
  have emit := hquiet.calls .sendEmit rfl
  have complete := hquiet.calls .sendComplete rfl
  have commit := hquiet.commits
  have queue := queueTx_paced C mark t₀
  unfold driveSendPrep fail
  mvcgen [wait, begins, emit, complete, commit, queue]
  case vc3 =>
    have hw : Paced mark (Tuned t₀) _ := ‹_›
    exact (hw.clear ‹_›).of_view rfl
  case vc4 =>
    have hw : Paced mark (Clear t₀ maxTx) _ := ‹_›
    exact hw.of_view rfl
  case vc10 =>
    have hw : Paced mark (Ready t₀ 0) _ := ‹_›
    exact hw.of_view rfl
  all_goals
    first
      | have hw : Paced mark (Ready t₀ 0) _ := ‹_›
        exact And.intro (fun ho => by cases ho) (hw.ready.of_view rfl)
      | have hw : Paced mark (Tuned t₀) _ := ‹_›
        exact And.intro (fun ho => by cases ho) (hw.of_view rfl)

theorem pollSend_paced : Keeps (Paced mark (Tuned t₀)) (Paced mark (Loose t₀)) (pollSend C) := by
  have retry (s : InFlight) := (paced_frame C mark (lasting_ready t₀ s.txCount)).calls .sendRetryEcho rfl
  have jit (s : InFlight) := jitter_paced C mark (lasting_ready t₀ s.txCount)
  have mint (s : InFlight) (hk : s.txCount < maxTx) := mintAndSend_attempt C mark t₀ hk
  have finish := finishSend_paced C mark (lasting_tuned t₀) (droppable_tuned t₀)
  unfold pollSend endSend
  mvcgen [retry, jit, mint, finish]
  case vc2 =>
    have hw : Paced mark (Tuned t₀) _ := ‹_›
    exact hw.overdue ‹_› ‹_›
  case vc8 =>
    have hw : Paced mark (Clear t₀ _) _ := ‹_›
    exact hw.inFlight rfl rfl
  case vc9 =>
    have hw : Paced mark (Clear t₀ _) _ := ‹_›
    exact hw.mono fun _ h => h.toTuned
  case vc12 =>
    have hw : Paced mark (Tuned t₀) _ := ‹_›
    exact ⟨hw.marked, hw.bounded, hw.pace.dropSend⟩
  all_goals
    have hw : Paced mark (Ready t₀ _) _ := ‹_›
    exact hw.ready

theorem onTxDone_paced (id : ℕ) (result : Except TxFault Unit) :
    Keeps (Paced mark (Tuned t₀)) (Paced mark (Loose t₀)) (onTxDone C id result) := by
  have finish := finishSend_paced C mark (lasting_tuned t₀) (droppable_tuned t₀)
  have forward := forwardDone_paced mark (G := Loose t₀) (droppable_tuned t₀)
  unfold onTxDone endSend
  mvcgen [finish, forward]
  have hw : Paced mark (Tuned t₀) _ := ‹_›
  exact hw.extended ‹_›

/-! ### Forwards -/

theorem trySend_paced (cmd : RadioCmd) (use : Use) (hF : Lasting F G)
    (hx : ∀ valid, (Happening.queued cmd use valid).idle = true) :
    Keeps (Paced mark F) (Paced mark G) (trySend cmd use) := by
  unfold trySend
  mvcgen
  · rename_i w hw _
    have hroom : Paced mark F { w with cmds := w.cmds ++ [cmd] } := hw.of_view rfl
    exact hroom.idle hF (hx _)
  · rename_i w hw _
    exact hw.idle hF rfl

theorem sendAckFrame_paced (ack : OutgoingFrame) :
    Keeps (Paced mark (Tuned t₀)) (Paced mark (Loose t₀)) (sendAckFrame C ack) := by
  have hframe := paced_frame C mark (lasting_tuned t₀)
  have jit := hframe.jitter
  have sync := hframe.sync
  have token := txToken_keeps (Paced mark (Tuned t₀)) (Paced mark (Loose t₀)) ack.contactId
  have alloc := hframe.alloc
  have note (bytes : List UInt8) (now : UInt64) :
      Keeps (Paced mark (Tuned t₀)) (Paced mark (Loose t₀)) (callEngine C (.noteOrigin bytes now)) :=
    triple_iff.mpr fun w hw => hw.called ((lasting_tuned t₀).idle hw.pace rfl)
  have queue (cmd jitter : ℕ) (frame : AirFrame) (contact : Option UInt8) (token : TxToken) :=
    trySend_paced mark (.tx cmd frame jitter contact token) .ack (lasting_tuned t₀) fun _ => rfl
  unfold sendAckFrame
  mvcgen [jit, sync, token, alloc, note, queue]

/-- A forward waits from when it was scheduled. -/
theorem Counted.schedule {t₀ : ℕ} {p : Pace} (h : Counted t₀ p) {f : PendingForward}
    (hd : p.now + relayDelayMinMs * ticksPerMs ≤ f.due) : Tuned t₀ { p with forward := some f } where
  toLoose := ⟨h.later, h.few, h.apart, h.held⟩
  counted := h.counted
  deadline := h.deadline
  due := by
    rintro - _ ⟨⟩ -
    exact (Nat.add_le_add_right h.later _).trans hd

include C in
theorem scheduleForward_paced (fwd : OutgoingFrame) :
    ⦃fun w => ⌜Paced mark (Counted t₀) w⌝⦄ scheduleForward fwd
    ⦃post⟨fun _ w => ⌜Paced mark (Tuned t₀) w⌝, fun _ w => ⌜Paced mark (Loose t₀) w⌝⟩⦄ := by
  have wait := (paced_frame C mark (lasting_counted t₀)).wait
  unfold scheduleForward
  mvcgen [wait]
  have hw : Paced mark (Counted t₀) _ := ‹_›
  refine ⟨hw.marked, hw.bounded, hw.pace.schedule ?_⟩
  exact Nat.add_le_add_left (Nat.mul_le_mul_right _ (Nat.le_add_right _ _)) _

/-- The engine has answered a received frame. -/
structure Decided (mark t₀ : ℕ) (out : Output) (w : World) : Prop where
  counted : Paced mark (Counted t₀) w
  tuned : out.forwards = none → Paced mark (Tuned t₀) w

theorem onFrame_paced (frame : List UInt8) (now : UInt64) (pid : UInt32) :
    ⦃fun w => ⌜Paced mark (Tuned t₀) w⌝⦄ callEngine C (.onFrame frame now pid)
    ⦃post⟨fun out w => ⌜Decided mark t₀ out w⌝, fun _ w => ⌜Paced mark (Loose t₀) w⌝⟩⦄ := by
  refine triple_iff.mpr fun w hw => ⟨hw.called ?_, fun hnone => hw.called ?_⟩
  · have hc := hw.pace.toCounted
    exact ⟨⟨hc.later, hc.few, hc.apart, hc.held⟩, hc.counted, hc.deadline⟩
  · refine (lasting_tuned t₀).idle hw.pace ?_
    change (Option.isNone _ && Option.isNone (step C w.engine (.onFrame frame now pid)).2.forwards && _) = true
    rw [hnone]
    rfl

theorem forwards_none {out : Output} (h : ∀ kind ack event, out = .incoming (kind, ack, event) → False) :
    out.forwards = none := by
  cases out with
  | incoming r => exact (h r.1 r.2.1 r.2.2 rfl).elim
  | _ => rfl

theorem onRx_paced (frame : AirFrame) :
    Keeps (Paced mark (Tuned t₀)) (Paced mark (Loose t₀)) (onRx C frame) := by
  have hquiet := paced_quiet C mark (lasting_tuned t₀) (droppable_tuned t₀)
  have wait := hquiet.wait
  have call := onFrame_paced C mark t₀
  have finish := finishSend_paced C mark (lasting_tuned t₀) (droppable_tuned t₀)
  have commit := hquiet.commits
  have pending := commitPending_keeps hquiet.idle
  have ack := sendAckFrame_paced C mark t₀
  have reply := hquiet.replies
  have forward := scheduleForward_paced C mark t₀
  unfold onRx
  mvcgen [wait, call, finish, commit, pending, ack, reply, forward]
  all_goals
    subst_vars
    have hw : Decided mark t₀ _ _ := ‹_›
    first
      | exact hw.tuned rfl
      | exact hw.counted
      | exact hw.tuned (forwards_none ‹_›)

theorem Taken.hand {t₀ d : ℕ} {p : Pace} (h : Taken t₀ d p) :
    Taken t₀ d { p with relayed := p.scheduled || p.relayed } where
  later := h.later
  few := h.few
  apart := h.apart
  held := by
    intro hr
    rcases (Bool.or_eq_true _ _).mp hr with hs | hr
    · exact (h.after hs).trans h.past
    · exact h.held hr
  counted := h.counted
  deadline := h.deadline
  due := h.due
  after := h.after
  past := h.past

/-- It waits again, or for its completion. -/
theorem Taken.wait {t₀ : ℕ} {p : Pace} {f f' : PendingForward} (h : Taken t₀ f.due p) (hd : f'.due = f.due) :
    Tuned t₀ { p with forward := some f' } where
  toLoose := ⟨h.later, h.few, h.apart, h.held⟩
  counted := h.counted
  deadline := h.deadline
  due := by
    rintro hs _ ⟨⟩ -
    rw [hd]
    exact h.after hs

/-- A forward is handed to the radio, or the queue is full. -/
theorem queueForward_paced (d cmd jitter : ℕ) (frame : AirFrame) (token : TxToken) :
    Keeps (Paced mark (Taken t₀ d)) (Paced mark (Loose t₀)) (trySend (.tx cmd frame jitter none token) .forward) := by
  unfold trySend
  mvcgen
  · rename_i w hw _
    have hroom : Paced mark (Taken t₀ d) { w with cmds := w.cmds ++ [.tx cmd frame jitter none token] } :=
      hw.of_view rfl
    exact hroom.record hroom.pace.hand
  · rename_i w hw _
    exact hw.idle (lasting_taken t₀ d) rfl

include C in
theorem pollForward_paced : Keeps (Paced mark (Tuned t₀)) (Paced mark (Loose t₀)) pollForward := by
  have hframe (f : PendingForward) := paced_frame C mark (lasting_taken t₀ f.due)
  have jit (f : PendingForward) := (hframe f).jitter
  have sync (f : PendingForward) := (hframe f).sync
  have token (f : PendingForward) :=
    txToken_keeps (Paced mark (Taken t₀ f.due)) (Paced mark (Loose t₀)) none
  have alloc (f : PendingForward) := (hframe f).alloc
  have queue (f : PendingForward) := queueForward_paced mark t₀ f.due
  unfold pollForward mintAndSend
  mvcgen [jit, sync, token, alloc, queue]
  case vc2 =>
    rename_i w hw fwd hfwd hready
    rw [Bool.and_eq_true, decide_eq_true_iff, Option.isNone_iff_eq_none] at hready
    exact ⟨hw.marked, hw.bounded, hw.pace.dropForward,
      fun hs => hw.pace.due hs fwd hfwd hready.1, hready.2⟩
  case vc11 =>
    have hw : Paced mark (Taken t₀ _) _ := ‹_›
    exact ⟨hw.marked, hw.bounded, hw.pace.wait rfl⟩

/-- The pings count for nothing here. -/
theorem paced_ping (hF : Lasting F G) (hd : Droppable F) : PingKeep C (Paced mark F) (Paced mark G) where
  toIdleKeep := (paced_quiet C mark hF hd).idle
  pings _ hw := ⟨hw.marked, hw.bounded, hw.pace⟩
  counted _ hw := hw.of_view rfl
  probed _ hw := hw.idle hF rfl
  begun _ hw := hw.idle hF rfl
  ended r _ := reply_paced mark hF r (some .ping)

theorem tuned_invariant : LiveInvariant C (Paced mark (Tuned t₀)) (Paced mark (Loose t₀)) where
  toLiveQuiet := paced_quiet C mark (lasting_tuned t₀) (droppable_tuned t₀)
  ends _ _ := triple_mono (finishSend_paced C mark (lasting_tuned t₀) (droppable_tuned t₀) _) (fun _ hw => hw.1)
    (fun _ _ hw => hw) fun _ hw => hw
  prep := driveSendPrep_paced C mark t₀
  retry := pollSend_paced C mark t₀
  pingPrep := drivePingPrep_ends (paced_ping C mark (lasting_tuned t₀) (droppable_tuned t₀))
  cadDone := onCadDone_keeps (paced_ping C mark (lasting_tuned t₀) (droppable_tuned t₀))
  txDone := onTxDone_paced C mark t₀
  receive := onRx_paced C mark t₀
  forward := pollForward_paced C mark t₀
  clear := clearInFlight_paced mark (lasting_tuned t₀) (droppable_tuned t₀)

end

/-! ### Runs -/

theorem World.pace_self (mark : ℕ) (w : World) :
    w.pace w.log.length = { w.pace mark with recent := 0, scheduled := false, relayed := false } := by
  unfold pace
  rw [recent_self]
  rfl

theorem Loose.rebase {t₀ : ℕ} {p : Pace} (h : Loose t₀ p) :
    Loose p.now { p with recent := 0, scheduled := false, relayed := false } where
  later := Nat.le_refl _
  few := h.few
  apart := by
    rw [Nat.zero_sub, Nat.zero_mul]
    exact Nat.le_refl _
  held := nofun

theorem Tuned.rebase {t₀ : ℕ} {p : Pace} (h : Tuned t₀ p) :
    Tuned p.now { p with recent := 0, scheduled := false, relayed := false } where
  toLoose := h.toLoose.rebase
  counted := h.counted
  deadline _ _ hr := absurd rfl hr
  due := nofun

theorem Paced.rebase {mark : ℕ} {F G : Pace → Prop} {w : World} (h : Paced mark F w)
    (hG : G { w.pace mark with recent := 0, scheduled := false, relayed := false }) :
    Paced w.log.length G w :=
  ⟨Nat.le_refl _, h.bounded, World.pace_self mark w ▸ hG⟩

/-- A boot with the settings that the storage owner has loaded. -/
def World.bootWith (C : Crypto) (stored : Option (List UInt8)) (uid : Bytes 8) (hw : Bool)
    (settings : Settings) : World :=
  { World.boot C stored uid hw with settings }

/-- From any point of a run to any later one. -/
theorem run_paced (C : Crypto) (stored : Option (List UInt8)) (uid : Bytes 8) (hw : Bool)
    (settings : Settings) (is₁ is₂ : List Input) :
    let w₁ := run (World.step C) (.bootWith C stored uid hw settings) is₁
    Paced w₁.log.length (Loose w₁.now) (run (World.step C) w₁ is₂) := by
  intro w₁
  have hapart : 0 + (0 - 1) * ackWait ≤ 0 := by rw [Nat.zero_sub, Nat.zero_mul]
  have hboot : Paced 0 (Tuned 0) (World.bootWith C stored uid hw settings) :=
    ⟨Nat.le_refl 0, trivial, ⟨⟨⟨Nat.le_refl 0, Nat.zero_le _, hapart, nofun⟩, nofun, nofun⟩, nofun⟩⟩
  have h₁ := (tuned_invariant C 0 0).holds rfl hboot is₁
  have h₂ : if w₁.suspended then Paced w₁.log.length (Loose w₁.now) w₁
      else Paced w₁.log.length (Tuned w₁.now) w₁ := by
    split at h₁
    · rename_i hs
      rw [if_pos hs]
      exact h₁.rebase h₁.pace.rebase
    · rename_i hs
      rw [if_neg hs]
      exact h₁.rebase h₁.pace.rebase
  have h := (tuned_invariant C _ _).carries h₂ is₂
  split at h
  · exact h
  · exact h.mono fun p h => h.toLoose

/-! ### The settings -/

/-- The settings govern the run from `w₁` to `w₂`, as they stand at its end: the attempts of a send,
their distance, the life of an entry of the relay cache, the delay of a forward, and the CAD attempts of
a transmission. -/
structure Governed (C : Crypto) (e : Engine) (w₁ w₂ : World) : Prop where
  attempts : attempts w₂.log ≤ w₂.settings.maxTx
  spacing : w₁.now + (LoraMesh.attempts (recent w₁.log.length w₂.log) - 1) *
    (w₂.settings.ackWaitS * ticksPerSec) ≤ w₂.now
  lifetime : ∀ a ∈ w₂.engine.relayCache.toList, a.occupied = true → ∃ t, Met C e w₂.log a.key t ∧
    a.expiresMs = satAdd64 t (UInt64.ofNat w₂.settings.relayTtlMs)
  delay : relayed (recent w₁.log.length w₂.log) = true →
    w₁.now + w₂.settings.relayJitterMs * ticksPerMs ≤ w₂.now
  cad : ∀ id frame contact token n backoff,
    w₂.radio.work = .transmitting id frame contact token (.cad n backoff) → n + 1 ≤ w₂.settings.cadAttempts

/-- The constants satisfy these settings. -/
structure Settings.Met (s : Settings) : Prop where
  maxTx : LoraMesh.maxTx ≤ s.maxTx
  ackWait : s.ackWaitS * ticksPerSec ≤ LoraMesh.ackWait
  relayTtl : s.relayTtlMs = relayCacheTtlMs.toNat
  relayJitter : s.relayJitterMs ≤ relayDelayMinMs
  cadAttempts : cadMaxAttempts ≤ s.cadAttempts

instance (s : Settings) : Decidable s.Met :=
  decidable_of_iff (LoraMesh.maxTx ≤ s.maxTx ∧ s.ackWaitS * ticksPerSec ≤ LoraMesh.ackWait ∧
      s.relayTtlMs = relayCacheTtlMs.toNat ∧ s.relayJitterMs ≤ relayDelayMinMs ∧ cadMaxAttempts ≤ s.cadAttempts)
    ⟨fun ⟨m, a, t, j, c⟩ => ⟨m, a, t, j, c⟩, fun ⟨m, a, t, j, c⟩ => ⟨m, a, t, j, c⟩⟩

namespace Sample

/-- A setting is written, and committed. -/
def tunes (key : SettingKey) (value : ℤ) : Input where
  turn := .usb (.request 9 (.settingsSet (some key) (some value)))
  wakes := [wake [], wake []]

/-- A send has waited for its ACK in vain. -/
def unanswered : List Input :=
  [{ turn := .sleep, wakes := [wake [.tick ackWait]] }, { turn := .pollTimeouts, wakes := [wake []] }]

end Sample

theorem not_governed {C : Crypto} {e : Engine} {w₁ w₂ : World} (h : w₂.settings.maxTx < attempts w₂.log) :
    ¬ Governed C e w₁ w₂ := fun hg => Nat.not_lt.mpr hg.attempts h

end LoraMesh
