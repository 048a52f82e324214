import LoraMesh.Firmware.Gate

/-!
# Firmware — Radio

The radio task (`firmware/src/radio.rs`) as a machine that moves from one `await` to the next.
What the driver, the timers and the air answer is the input of a move; between two moves anything
else may change the policy.

* `transmit_gate`: a valid token has been authorised since it was minted, and a call to `do_tx`
  triggers the driver at most once, right after a clear channel and a valid token.
-/

namespace LoraMesh

/-- 255-byte fixed radio buffers. -/
abbrev radioBufLen : ℕ := 255

abbrev cadMaxAttempts : ℕ := 5

abbrev cadBackoffCapMs : ℕ := 800

abbrev cadProbeJitterMs : ℕ := 50

/-- Room in each of the two queues shared with the runtime. -/
abbrev radioQueueCap : ℕ := 8

/-- The bytes of one opaque frame, at most `radioBufLen` of them. -/
abbrev AirFrame := List UInt8

/-- Terminal failures of a transmission or a channel probe. -/
inductive TxFault where
  | channelBusy
  | radio
  | cancelled
  deriving DecidableEq

/-- Commands into the radio task, each with the runtime's monotonic command id. -/
inductive RadioCmd where
  | setEnabled (id : ℕ) (enabled : Bool)
  | barrier (id : ℕ)
  | tx (id : ℕ) (frame : AirFrame) (jitterMs : ℕ) (contactId : Option UInt8) (token : TxToken)
  | cadProbe (id : ℕ)
  deriving DecidableEq

/-- The enabled flag after a command. -/
def RadioCmd.flag (enabled : Bool) : RadioCmd → Bool
  | .setEnabled _ enabled => enabled
  | _ => enabled

/-- Events out of the radio task. -/
inductive RadioEvt where
  | controlDone (id : ℕ) (ok : Bool)
  | txDone (id : ℕ) (result : Except TxFault Unit) (attempted : Bool)
  | cadDone (id : ℕ) (result : Except TxFault Bool)
  | rxFrame (frame : AirFrame)
  | rxCrcError
  | fault

/-- What the driver call or timer the task waits for answers.  A clear channel is `ok` and an
active one `again`; of a wait for the interrupt, `again` is any other interrupt. -/
inductive Driver where
  | ok
  | again
  | failed
  deriving DecidableEq

/-! ### `do_tx` -/

/-- Where `do_tx` waits: in a CAD attempt, in the pause after a busy one, in `tx_prepare`, in the
driver's TX trigger, or for the interrupt that ends the transmission. -/
inductive TxPoint where
  | cad (attempt backoff : ℕ)
  | pause (attempt backoff : ℕ)
  | prepare
  | trigger
  | irq
  deriving DecidableEq

/-- A call waits at a point, or has returned its result and whether it was attempted. -/
inductive TxNext where
  | wait (p : TxPoint)
  | done (result : Except TxFault Unit) (attempted : Bool)

/-- What a call to `do_tx` does that matters to the gate: a check of flag and token, a finished
CAD, the driver's TX trigger. -/
inductive TxMark where
  | check (ok : Bool)
  | cad (clear : Bool)
  | trigger
  deriving DecidableEq

/-- The top of the retry loop. -/
def txAttempt (gate : Bool) (attempt backoff : ℕ) : List TxMark × TxNext :=
  if !gate then ([.check false], .done (.error .cancelled) false)
  else ([.check true], .wait (.cad attempt backoff))

/-- The gate immediately before the transmission. -/
def txGate (gate : Bool) : List TxMark × TxNext :=
  if !gate then ([.check false], .done (.error .cancelled) false)
  else ([.check true], .wait .prepare)

/-- `do_tx` from the dequeue to its first wait; `mdltn` is whether the driver makes modulation
parameters. -/
def txBegin (gate : Bool) (frame : AirFrame) (jitterMs : ℕ) (mdltn : Bool) : List TxMark × TxNext :=
  if !gate then ([.check false], .done (.error .cancelled) false)
  else if frame.length = 0 ∨ radioBufLen < frame.length then
    ([.check true], .done (.error .cancelled) false)
  else if !mdltn then ([.check true], .done (.error .radio) false)
  else
    let (marks, next) := txAttempt gate 0 (max 20 (min jitterMs 100))
    (.check true :: marks, next)

/-- `do_tx` from one wait to the next. -/
def txResume (gate : Bool) (d : Driver) : TxPoint → List TxMark × TxNext
  | .cad attempt backoff =>
    match d with
    | .ok =>
      let (marks, next) := txGate gate
      (.cad true :: marks, next)
    | .again =>
      if cadMaxAttempts ≤ attempt + 1 then ([.cad false], .done (.error .channelBusy) false)
      else ([.cad false], .wait (.pause attempt backoff))
    | .failed => ([], .done (.error .radio) false)
  | .pause attempt backoff =>
    if attempt + 1 < cadMaxAttempts then txAttempt gate (attempt + 1) (min (backoff * 2) cadBackoffCapMs)
    else txGate gate
  | .prepare =>
    match d with
    | .ok => ([.trigger], .wait .trigger)
    | _ => ([], .done (.error .radio) false)
  | .trigger =>
    match d with
    | .ok => ([], .wait .irq)
    | _ => ([], .done (.error .radio) true)
  | .irq =>
    match d with
    | .ok => ([], .done (.ok ()) true)
    | .again => ([], .wait .irq)
    | .failed => ([], .done (.error .radio) true)

/-- A call to `do_tx` under way: the policy, what it has done so far, and where it stands. -/
structure TxCall where
  policy : PolicyState
  marks : List TxMark
  next : TxNext

/-- What happens while a call runs: a call to the gate by another task, or the driver answers. -/
inductive TxAct where
  | policy (call : PolicyCall)
  | driver (d : Driver)

namespace TxCall

variable (enabled : Bool) (contact : Option UInt8) (token : TxToken)

/-- The call from its dequeue, with the task's flag and the token it was queued with. -/
def begin (p : PolicyState) (frame : AirFrame) (jitterMs : ℕ) (mdltn : Bool) : TxCall :=
  let r := txBegin (enabled && p.tokenValid contact token) frame jitterMs mdltn
  { policy := p, marks := r.1, next := r.2 }

def step (c : TxCall) : TxAct → TxCall
  | .policy call => { c with policy := c.policy.after call }
  | .driver d =>
    match c.next with
    | .wait p =>
      let r := txResume (enabled && c.policy.tokenValid contact token) d p
      { c with marks := c.marks ++ r.1, next := r.2 }
    | .done _ _ => c

/-- The driver was triggered once, at the end, right after a clear channel and a check that
succeeded. -/
def Gated (marks : List TxMark) : Prop :=
  ∃ before, .trigger ∉ before ∧ marks = before ++ [.cad true, .check true, .trigger]

/-- What the marks say at each point of a call. -/
def Shaped (marks : List TxMark) : TxNext → Prop
  | .wait (.cad _ _) => .trigger ∉ marks
  | .wait (.pause attempt _) => .trigger ∉ marks ∧ attempt + 1 < cadMaxAttempts
  | .wait .prepare => ∃ before, .trigger ∉ before ∧ marks = before ++ [.cad true, .check true]
  | .wait .trigger => Gated marks
  | .wait .irq => Gated marks
  | .done _ attempted => if attempted then Gated marks else .trigger ∉ marks

theorem Gated.triggered {marks : List TxMark} (h : Gated marks) : .trigger ∈ marks := by
  obtain ⟨before, -, rfl⟩ := h
  simp

theorem shaped_attempt {marks : List TxMark} (h : .trigger ∉ marks) (gate : Bool) (a b : ℕ) :
    Shaped (marks ++ (txAttempt gate a b).1) (txAttempt gate a b).2 := by
  cases gate <;> simpa [txAttempt, Shaped] using h

theorem shaped_gate {marks : List TxMark} (h : .trigger ∉ marks) (gate : Bool) :
    Shaped (marks ++ .cad true :: (txGate gate).1) (txGate gate).2 := by
  cases gate with
  | false => simpa [txGate, Shaped] using h
  | true => exact ⟨marks, h, rfl⟩

theorem shaped_begin (gate : Bool) (frame : AirFrame) (jitterMs : ℕ) (mdltn : Bool) :
    Shaped (txBegin gate frame jitterMs mdltn).1 (txBegin gate frame jitterMs mdltn).2 := by
  unfold txBegin
  split
  · simp [Shaped]
  · split
    · simp [Shaped]
    · split
      · simp [Shaped]
      · have hm : TxMark.trigger ∉ [TxMark.check true] := by simp
        exact shaped_attempt hm gate 0 _

/-- One wait to the next. -/
theorem shaped_resume {marks : List TxMark} {p : TxPoint} (h : Shaped marks (.wait p)) (gate : Bool)
    (d : Driver) : Shaped (marks ++ (txResume gate d p).1) (txResume gate d p).2 := by
  cases p with
  | cad attempt backoff =>
      have hm : .trigger ∉ marks := h
      cases d with
      | ok => exact shaped_gate hm gate
      | again =>
          simp only [txResume]
          split
          · simpa [Shaped] using hm
          · rename_i hlt
            exact ⟨by simpa using hm, Nat.lt_of_not_le hlt⟩
      | failed => simpa [txResume, Shaped] using hm
  | pause attempt backoff =>
      simp only [txResume, if_pos h.2]
      exact shaped_attempt h.1 gate _ _
  | prepare =>
      obtain ⟨before, hb, rfl⟩ := h
      cases d with
      | ok => exact ⟨before, hb, by simp [txResume]⟩
      | again => simpa [txResume, Shaped] using hb
      | failed => simpa [txResume, Shaped] using hb
  | trigger => cases d <;> simpa [txResume, Shaped] using h
  | irq => cases d <;> simpa [txResume, Shaped] using h

theorem shaped_step {c : TxCall} (h : Shaped c.marks c.next) (a : TxAct) :
    Shaped (c.step enabled contact token a).marks (c.step enabled contact token a).next := by
  cases a with
  | policy call => exact h
  | driver d =>
      simp only [step]
      split
      · rename_i p hp
        exact shaped_resume (hp ▸ h) _ d
      · exact h

theorem shaped_run (p : PolicyState) (frame : AirFrame) (jitterMs : ℕ) (mdltn : Bool)
    (acts : List TxAct) :
    Shaped (run (step enabled contact token) (begin enabled contact token p frame jitterMs mdltn) acts).marks
      (run (step enabled contact token) (begin enabled contact token p frame jitterMs mdltn) acts).next :=
  run_invariant_of_all (I := fun c : TxCall => Shaped c.marks c.next)
    (fun _ a h => shaped_step enabled contact token h a) acts (shaped_begin _ frame jitterMs mdltn)

end TxCall

/-- **The transmit gate.**  A token found valid was minted for the contact asked about, and from
the mint to the check the policy was enabled and the contact's block bit clear.  However the
policy changes during a call to `do_tx`, the driver is triggered at most once, right after a clear
channel and a check of the token that succeeded, and a call that has returned was attempted
exactly if it was triggered. -/
theorem transmit_gate :
    (∀ (p : PolicyState) (calls : List PolicyCall) (minted asked : Option UInt8),
      p.FewEdges minted calls →
      (run PolicyState.after p calls).tokenValid asked (p.txToken minted) = true →
      asked = minted ∧ ∀ q ∈ visited PolicyState.after p calls, q.Permits minted) ∧
    ∀ (enabled : Bool) (contact : Option UInt8) (token : TxToken) (p : PolicyState)
      (frame : AirFrame) (jitterMs : ℕ) (mdltn : Bool) (acts : List TxAct),
      let c := run (TxCall.step enabled contact token)
        (TxCall.begin enabled contact token p frame jitterMs mdltn) acts
      (.trigger ∉ c.marks ∨ TxCall.Gated c.marks) ∧
        ∀ result attempted, c.next = .done result attempted →
          (attempted = true ↔ .trigger ∈ c.marks) := by
  refine ⟨fun p calls minted asked hn h => PolicyState.token_held hn h, ?_⟩
  intro enabled contact token p frame jitterMs mdltn acts c
  have h : TxCall.Shaped c.marks c.next :=
    TxCall.shaped_run enabled contact token p frame jitterMs mdltn acts
  refine ⟨?_, fun result attempted hd => ?_⟩
  · cases hn : c.next with
    | wait point =>
        rw [hn] at h
        cases point with
        | cad attempt backoff => exact .inl h
        | pause attempt backoff => exact .inl h.1
        | prepare =>
            obtain ⟨before, hb, hm⟩ := h
            exact .inl (by rw [hm]; simpa using hb)
        | trigger => exact .inr h
        | irq => exact .inr h
    | done result attempted =>
        rw [hn] at h
        cases attempted with
        | false => exact .inl (by simpa [TxCall.Shaped] using h)
        | true => exact .inr (by simpa [TxCall.Shaped] using h)
  · rw [hd] at h
    cases attempted with
    | false => simpa [TxCall.Shaped] using h
    | true =>
        have hg : TxCall.Gated c.marks := by simpa [TxCall.Shaped] using h
        exact ⟨fun _ => hg.triggered, fun _ => rfl⟩

/-- A token for contact 1 survives the blocking of contact 2. -/
theorem transmit_gate_sample :
    ∀ q ∈ visited PolicyState.after (PolicyState.init.setPolicy true 0) [.setPolicy true 2],
      q.Permits (some 1) := by
  refine (transmit_gate.1 (PolicyState.init.setPolicy true 0) [.setPolicy true 2] (some 1) (some 1)
    ⟨by decide, ?_⟩ (by decide)).2
  rintro _ i ⟨⟩ hi
  obtain rfl : (0 : Slot) = i := Option.some.inj ((show contactIdx 1 = some 0 by decide).symm.trans hi)
  decide

/-! ### `do_cad_probe` -/

inductive ProbePoint where
  | cad (attempt backoff : ℕ)
  | pause (attempt backoff : ℕ)
  deriving DecidableEq

inductive ProbeNext where
  | wait (p : ProbePoint)
  | done (result : Except TxFault Bool)

def probeAttempt (gate : Bool) (attempt backoff : ℕ) : ProbeNext :=
  if !gate then .done (.error .cancelled) else .wait (.cad attempt backoff)

def probeBegin (gate mdltn : Bool) : ProbeNext :=
  if !gate then .done (.error .cancelled)
  else if !mdltn then .done (.error .radio)
  else probeAttempt gate 0 (max 20 (min cadProbeJitterMs 100))

def probeResume (gate : Bool) (d : Driver) : ProbePoint → ProbeNext
  | .cad attempt backoff =>
    match d with
    | .ok => .done (.ok true)
    | .again =>
      if cadMaxAttempts ≤ attempt + 1 then .done (.ok false) else .wait (.pause attempt backoff)
    | .failed => .done (.error .radio)
  | .pause attempt backoff =>
    if attempt + 1 < cadMaxAttempts then
      probeAttempt gate (attempt + 1) (min (backoff * 2) cadBackoffCapMs)
    else .done (.ok false)

/-! ### The task -/

/-- What the task is at: the top of its loop, the wait for a command with the radio off, the race
of reception against a command, the sleep a `SetEnabled` asks for, a command, or a terminal event
waiting for room. -/
inductive Work where
  | top
  | waiting
  | listening
  | sleeping (id : ℕ)
  | transmitting (id : ℕ) (frame : AirFrame) (contact : Option UInt8) (token : TxToken) (p : TxPoint)
  | probing (id : ℕ) (p : ProbePoint)
  | reporting (evt : RadioEvt)

structure Radio where
  enabled : Bool
  work : Work

/-- The statics of the radio module, and the task. -/
structure Bus where
  policy : PolicyState
  cmds : List RadioCmd
  evts : List RadioEvt
  radio : Radio

/-- What a receive interrupt brings. -/
inductive Reception where
  | frame (frame : AirFrame)
  | spurious
  | crc
  | fault

/-- What a move of the radio task meets. -/
inductive RadioIn where
  /-- The awaited driver call or timer returns. -/
  | driver (d : Driver)
  /-- The receive interrupt. -/
  | received (r : Reception)
  /-- The next command is taken from the queue. -/
  | command (mdltn : Bool)

/-- One invocation of the driver's TX trigger. -/
structure Transmission where
  id : ℕ
  contact : Option UInt8
  frame : AirFrame
  deriving DecidableEq

namespace Bus

def init : Bus where
  policy := .init
  cmds := []
  evts := []
  radio := { enabled := false, work := .top }

/-- `RADIO_EVT.try_send`: dropped when the queue is full. -/
def tryEvt (b : Bus) (evt : RadioEvt) : Bus :=
  if b.evts.length < radioQueueCap then { b with evts := b.evts ++ [evt] } else b

def setWork (b : Bus) (work : Work) : Bus := { b with radio := { b.radio with work := work } }

/-- The gate as the task sees it: its own flag, and the token. -/
def txGateOpen (b : Bus) (contact : Option UInt8) (token : TxToken) : Bool :=
  b.radio.enabled && b.policy.tokenValid contact token

def probeGateOpen (b : Bus) : Bool := b.radio.enabled && b.policy.enabled

/-- The task after a move of `do_tx`. -/
def tx (b : Bus) (id : ℕ) (frame : AirFrame) (contact : Option UInt8) (token : TxToken)
    (r : List TxMark × TxNext) : Bus × Option Transmission :=
  (b.setWork
    (match r.2 with
    | .wait p => .transmitting id frame contact token p
    | .done result attempted => .reporting (.txDone id result attempted)),
    if .trigger ∈ r.1 then some { id, contact, frame } else none)

def probe (b : Bus) (id : ℕ) : ProbeNext → Bus
  | .wait p => b.setWork (.probing id p)
  | .done result => b.setWork (.reporting (.cadDone id result))

/-- `handle_cmd`, to its first wait. -/
def handleCmd (b : Bus) (mdltn : Bool) : RadioCmd → Bus × Option Transmission
  | .setEnabled id enabled =>
    ({ b with radio :=
        { enabled
          work := if enabled then .reporting (.controlDone id true) else .sleeping id } }, none)
  | .barrier id => (b.setWork (.reporting (.controlDone id true)), none)
  | .tx id frame jitterMs contact token =>
    b.tx id frame contact token (txBegin (b.txGateOpen contact token) frame jitterMs mdltn)
  | .cadProbe id => (b.probe id (probeBegin b.probeGateOpen mdltn), none)

/-- One move of the task, if it can make it. -/
def step (b : Bus) (i : RadioIn) : Bus × Option Transmission :=
  match b.radio.work, i with
  | .top, .driver d =>
    -- The test of the flags; with both set, `enter_rx` unless reception is on already.
    if !(b.radio.enabled && b.policy.enabled) then (b.setWork .waiting, none)
    else if d = .failed then (b.tryEvt .fault, none)
    else (b.setWork .listening, none)
  | .listening, .received r =>
    match r with
    | .frame frame => ((b.tryEvt (.rxFrame frame)).setWork .top, none)
    | .spurious => (b.setWork .top, none)
    | .crc => ((b.tryEvt .rxCrcError).setWork .top, none)
    | .fault => ((b.tryEvt .fault).setWork .top, none)
  | .waiting, .command mdltn =>
    match b.cmds with
    | [] => (b, none)
    | cmd :: cmds => { b with cmds := cmds }.handleCmd mdltn cmd
  | .listening, .command mdltn =>
    match b.cmds with
    | [] => (b, none)
    | cmd :: cmds => { b with cmds := cmds }.handleCmd mdltn cmd
  | .sleeping id, .driver d =>
    if d = .failed then ((b.tryEvt .fault).setWork (.reporting (.controlDone id false)), none)
    else (b.setWork (.reporting (.controlDone id true)), none)
  | .transmitting id frame contact token p, .driver d =>
    b.tx id frame contact token (txResume (b.txGateOpen contact token) d p)
  | .probing id p, .driver d => (b.probe id (probeResume b.probeGateOpen d p), none)
  | .reporting evt, _ =>
    if b.evts.length < radioQueueCap then ({ b with evts := b.evts ++ [evt] }.setWork .top, none)
    else (b, none)
  | _, _ => (b, none)

/-- The flag the task will have when the queue is drained. -/
def wanted (b : Bus) : Bool := b.cmds.foldl RadioCmd.flag b.radio.enabled

theorem tryEvt_policy (b : Bus) (evt : RadioEvt) : (b.tryEvt evt).policy = b.policy := by
  unfold tryEvt
  split
  · rfl
  · rfl

theorem probe_policy (b : Bus) (id : ℕ) (n : ProbeNext) : (b.probe id n).policy = b.policy := by
  cases n with
  | wait => rfl
  | done => rfl

theorem handleCmd_policy (b : Bus) (mdltn : Bool) (cmd : RadioCmd) :
    (b.handleCmd mdltn cmd).1.policy = b.policy := by
  cases cmd with
  | setEnabled => rfl
  | barrier => rfl
  | tx => rfl
  | cadProbe => exact probe_policy ..

theorem tryEvt_wanted (b : Bus) (evt : RadioEvt) : (b.tryEvt evt).wanted = b.wanted := by
  unfold tryEvt
  split
  · rfl
  · rfl

theorem probe_wanted (b : Bus) (id : ℕ) (n : ProbeNext) : (b.probe id n).wanted = b.wanted := by
  cases n with
  | wait => rfl
  | done => rfl

theorem handleCmd_wanted (b : Bus) (mdltn : Bool) (cmd : RadioCmd) :
    (b.handleCmd mdltn cmd).1.wanted = b.cmds.foldl RadioCmd.flag (cmd.flag b.radio.enabled) := by
  cases cmd with
  | setEnabled => rfl
  | barrier => rfl
  | tx => rfl
  | cadProbe => exact probe_wanted ..

/-- The radio task takes the flag from the queue, and from nowhere else. -/
theorem step_wanted (b : Bus) (i : RadioIn) : (b.step i).1.wanted = b.wanted := by
  unfold step
  split
  · split
    · rfl
    · split
      · exact tryEvt_wanted ..
      · rfl
  · split
    · exact tryEvt_wanted ..
    · rfl
    · exact tryEvt_wanted ..
    · exact tryEvt_wanted ..
  · split
    · rfl
    · rename_i hc
      rw [handleCmd_wanted, wanted, hc]
      rfl
  · split
    · rfl
    · rename_i hc
      rw [handleCmd_wanted, wanted, hc]
      rfl
  · split
    · exact tryEvt_wanted ..
    · rfl
  · rfl
  · exact probe_wanted ..
  · split
    · rfl
    · rfl
  · rfl

/-- The radio task only reads the policy. -/
theorem step_policy (b : Bus) (i : RadioIn) : (b.step i).1.policy = b.policy := by
  unfold step
  split
  · split
    · rfl
    · split
      · exact tryEvt_policy ..
      · rfl
  · split
    · exact tryEvt_policy ..
    · rfl
    · exact tryEvt_policy ..
    · exact tryEvt_policy ..
  · split
    · rfl
    · exact handleCmd_policy ..
  · split
    · rfl
    · exact handleCmd_policy ..
  · split
    · exact tryEvt_policy ..
    · rfl
  · rfl
  · exact probe_policy ..
  · split
    · rfl
    · rfl
  · rfl

end Bus

end LoraMesh
