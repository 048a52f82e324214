import LoraMesh.Firmware.Usb

/-!
# Firmware — Runtime

The runtime task of the radio image (`firmware/src/runtime.rs`, its loop in
`firmware/src/main.rs`): commits, policy gating, the send in flight with its retries, relaying,
and the control operations that wait for the radio task.  A run feeds the task turns of its loop,
each with what its `await`s meet; the loop's own order of turns is one of the runs.
-/

namespace LoraMesh

abbrev ticksPerMs : ℕ := 1000

abbrev ticksPerSec : ℕ := 1000000

abbrev maxTx : ℕ := 3

abbrev ackWait : ℕ := 12 * ticksPerSec

abbrev relayDelayMinMs : ℕ := 100

abbrev relayDelayMaxMs : ℕ := 300

/-- The bound of a wait for a control command. -/
abbrev controlWait : ℕ := 2000 * ticksPerMs

def airFromOutgoing (f : OutgoingFrame) : AirFrame := f.bytes.take radioBufLen

/-- `next_packet_id`: the next pseudo-random packet id, stirred with a TRNG word. -/
def nextPacketId (pktNext word : UInt32) : UInt32 :=
  let x := (pktNext ||| 1) ^^^ word
  let x := x ^^^ (x <<< 13)
  let x := x ^^^ (x >>> 17)
  let x := x ^^^ (x <<< 5)
  if x = 0 then 1 else x

/-- The x25519 base point. -/
def x25519Base : Bytes 32 := ⟨9 :: List.replicate 31 0, rfl⟩

section

variable (C : Crypto)

def emitErr (id : UInt64) (code : ErrCode) (ends : Option Flight) : Async Unit := reply (.err id code) ends

/-- Disable RF, clear pending work, fail deferred operations. -/
def failRadioClosed : Async Unit := do
  modify fun w => w.record (.failClosed w.engine.radioOn w.ping.isSome)
  let w ← get
  let mask := w.blockedMask
  setPolicy false mask
  modify fun w => { w with lastPolicy := some (false, mask) }
  let cmd ← allocCmd
  let _ ← trySend (.setEnabled cmd false) .control
  match (← get).send with
  | some send =>
    modify fun w => { w with send := none }
    let _ ← callEngine C .sendComplete
    emitErr send.replyId .storageFault (some .send)
  | none => pure ()
  modify fun w => { w with ping := none, forward := none }

/-- Stage, if nothing is. -/
def restage : Async Unit := do
  let w ← get
  if w.staged.isNone then stageForCommit

/-- Hand the staged snapshot to the storage owner and await its verdict. -/
def commit : Async Bool := do
  restage
  let w ← get
  match w.staged with
  | none => return true
  | some bytes =>
    set { w with staged := none }
    let k ← await
    modify fun w => w.record (.stored bytes w.engine.pendingPersist k.stored)
    if k.stored then
      let _ ← callEngine C .commitOk
      return true
    let _ ← callEngine C .discardStaged
    let _ ← callEngine C .markFault
    modify fun w => { w with health := .fault }
    failRadioClosed C
    return false

/-- Commit what the engine has staged, whatever comes of it. -/
def commitPending : Async Unit := do
  if (← get).engine.pendingPersist.isSome then
    let _ ← commit C

/-- Commit the settings record; on a storage fault the live settings fall back to the defaults. -/
def commitSettings : Async Bool := do
  let w ← get
  let k ← await
  if k.stored then
    modify (·.record (.keptSettings w.settings))
    return true
  modify fun w => { w with settings := .default, settingsTxPending := false }
  return false

/-- Publish the credential that is stored, unless it is a forget, and clear the secret. -/
def World.publishWifi (w : World) : World :=
  let isForget :=
    match w.stagedReply with
    | some (.wifiForget _) => true
    | _ => false
  let staged := w.stagedWifi
  let w :=
    { w with
      wifiSsidLen := if isForget then 0 else (staged.map fun c => c.1.length).getD w.wifiSsidLen
      stagedWifi := none }
  match staged with
  | some c => if isForget then w else w.record (.published c)
  | none => w

/-- Commit the WiFi credential, or the zeroed record of a forget. -/
def commitWifi : Async Bool := do
  let w ← get
  let k ← await
  if !k.stored then return false
  modify (·.record (.keptWifi w.stagedWifi))
  modify World.publishWifi
  return true

/-- Write the policy from the engine when it has changed since it was last written. -/
def syncPolicy : Async Unit := do
  let w ← get
  let cur := (w.engine.radioOn, w.blockedMask)
  if w.lastPolicy ≠ some cur then
    setPolicy cur.1 cur.2
    modify fun w => { w with lastPolicy := some cur }

/-- `radio::tx_token`. -/
def txToken (contact : Option UInt8) : Async TxToken := do return (← get).policy.txToken contact

/-- Mint a token under the synchronised policy and queue one transmission. -/
def mintAndSend (frame : AirFrame) (jitter : ℕ) (contact : Option UInt8) (use : Use) :
    Async (ℕ × Bool) := do
  syncPolicy
  let token ← txToken contact
  let cmd ← allocCmd
  let ok ← trySend (.tx cmd frame jitter contact token) use
  return (cmd, ok)

/-- The listen-before-talk jitter, in milliseconds. -/
def jitter : Async ℕ := do return (← await).word.toNat % 81 + 20

/-- Queue the first DATA transmission of a send, which is then in flight. -/
def queueTx (replyId : UInt64) (contact : UInt8) (frame : OutgoingFrame) : Async Unit := do
  let j ← jitter
  let (cmd, ok) ← mintAndSend (airFromOutgoing frame) j (some contact) .data
  if ok then
    modify fun w =>
      let send : InFlight :=
        { replyId, contactId := contact, txCount := 1, deadline := w.now + ackWait, cmdId := cmd }
      { w with send := some send }.record (.accepted .send replyId)
  else
    let _ ← callEngine C .sendComplete
    emitErr replyId .busy none

/-- Stage and commit a validated send, queue the first TX, defer the reply. -/
def driveSendPrep : Async Outcome := do
  let w ← get
  set { w with pendingOp := none }
  match w.pendingOp with
  | some (.sendPrep id contact) =>
    if !w.engine.radioOn then
      modify fun w => { w with sendText := [] }
      return .inline (.err id .radioUnavailable)
    if w.send.isSome then
      modify fun w => { w with sendText := [] }
      return .inline (.err id .busy)
    let k ← await
    let w ← get
    let pid := nextPacketId w.pktNext k.word
    set { w with pktNext := pid }
    match ← callEngine C (.sendBegin contact w.sendText pid) with
    | .send (.ok _) =>
      if !(← commit C) then
        modify fun w => { w with sendText := [] }
        return .inline (.err id .storageFault)
      match ← callEngine C .sendEmit with
      | .frame (.ok frame) =>
        if !(← commit C) then
          modify fun w => { w with sendText := [] }
          return .inline (.err id .storageFault)
        modify fun w => { w with sendText := [] }
        queueTx C id contact frame
        return .silent
      | .frame (.error e) =>
        let _ ← callEngine C .sendComplete
        modify fun w => { w with sendText := [] }
        return fail id e
      | _ => return .silent
    | .send (.error e) =>
      modify fun w => { w with sendText := [] }
      return fail id e
    | _ => return .silent
  | _ => return .silent

def driveTrngOp : Async Outcome := do
  let w ← get
  set { w with pendingOp := none }
  match w.pendingOp with
  | some (.provision id label) =>
    let k ← await
    completeProvision C id label k.bytes
  | some (.pairOffer id) =>
    let priv ← await
    let challenge ← await
    completePairOffer C id priv.bytes (C.x25519 priv.bytes x25519Base) challenge.bytes
  | _ => return .silent

def drivePingPrep : Async Outcome := do
  let w ← get
  set { w with pendingOp := none }
  match w.pendingOp with
  | some (.pingPrep id count) =>
    if w.ping.isSome then return .inline (.err id .busy)
    let cmd ← allocCmd
    if ← trySend (.cadProbe cmd) .probe then
      modify fun w =>
        let ping : PingInFlight := { replyId := id, remaining := count, clear := 0, cmdId := cmd }
        { w with ping := some ping }.record (.accepted .ping id)
      return .silent
    else return .inline (.err id .busy)
  | _ => return .silent

/-! ### Radio events -/

/-- End the send in flight with its reply. -/
def finishSend (r : Reply) : Async Unit := do
  modify fun w => { w with send := none }
  let _ ← callEngine C .sendComplete
  reply r (some .send)

def endSend (send : InFlight) (code : ErrCode) : Async Unit := finishSend C (.err send.replyId code)

/-- A forward or ACK completion is accounting only. -/
def forwardDone (id : ℕ) : Async Unit :=
  modify fun w =>
    match w.forward with
    | some fwd => if fwd.cmdId = some id then { w with forward := none } else w
    | none => w

/-- The forward with the command is done, or nothing changes. -/
theorem forwardDone_run (id : ℕ) (w : World) :
    (forwardDone id).run w = (some (), w) ∨
      (∃ fwd, w.forward = some fwd ∧ fwd.cmdId = some id) ∧
        (forwardDone id).run w = (some (), { w with forward := none }) := by
  have hrun : (forwardDone id).run w = (some (),
      match w.forward with
      | some fwd => if fwd.cmdId = some id then { w with forward := none } else w
      | none => w) := rfl
  rw [hrun]
  split
  · rename_i fwd hfwd
    split
    · rename_i hid
      exact .inr ⟨⟨fwd, hfwd, hid⟩, rfl⟩
    · exact .inl rfl
  · exact .inl rfl

def onTxDone (id : ℕ) (result : Except TxFault Unit) : Async Unit := do
  let w ← get
  match w.send with
  | some send =>
    if send.cmdId = id then
      match result with
      | .ok () => set { w with send := some { send with deadline := w.now + ackWait } }
      | .error .channelBusy => endSend C send .channelBusy
      | .error .cancelled =>
        endSend C send (if w.contactBlocked send.contactId then .contactBlocked else .busy)
      | .error .radio => endSend C send .radio
    else forwardDone id
  | none => forwardDone id

/-- End the ping in flight with a reply. -/
def endPing (r : Reply) : Async Unit := do
  modify fun w => { w with ping := none }
  reply r (some .ping)

def onCadDone (id : ℕ) (result : Except TxFault Bool) : Async Unit := do
  let w ← get
  match w.ping with
  | some ping =>
    if ping.cmdId = id then
      match result with
      | .ok clear =>
        modify (·.record (.probed clear))
        let ping :=
          { ping with
            clear := if clear then ping.clear + 1 else ping.clear
            remaining := ping.remaining - 1 }
        if ping.remaining = 0 then
          endPing (.ok ping.replyId (.ping w.pingCount ping.clear))
          modify fun w => { w with pingCount := 0 }
        else
          let cmd ← allocCmd
          if ← trySend (.cadProbe cmd) .probe then
            modify fun w => { w with ping := some { ping with cmdId := cmd } }
          else endPing (.err ping.replyId .busy)
      | .error .cancelled =>
        endPing (.err ping.replyId (if w.engine.radioOn then .busy else .radioUnavailable))
      | .error _ => endPing (.err ping.replyId .radio)
    else pure ()
  | none => pure ()

/-- Queue an ACK; a full queue drops it. -/
def sendAckFrame (ack : OutgoingFrame) : Async Unit := do
  let j ← jitter
  syncPolicy
  let token ← txToken ack.contactId
  let cmd ← allocCmd
  let w ← get
  let _ ← callEngine C (.noteOrigin ack.bytes (UInt64.ofNat (w.now / ticksPerMs)))
  let _ ← trySend (.tx cmd (airFromOutgoing ack) j ack.contactId token) .ack

def scheduleForward (fwd : OutgoingFrame) : Async Unit := do
  let k ← await
  let delay := relayDelayMinMs + k.word.toNat % (relayDelayMaxMs - relayDelayMinMs + 1)
  modify fun w =>
    let forward : PendingForward :=
      { frame := airFromOutgoing fwd, due := w.now + delay * ticksPerMs, cmdId := none }
    { w with forward := some forward }

def onRx (frame : AirFrame) : Async Unit := do
  let w ← get
  let nowMs := UInt64.ofNat (w.now / ticksPerMs)
  let k ← await
  match ← callEngine C (.onFrame frame nowMs k.word) with
  | .incoming (kind, outAck, event) =>
    match kind with
    | .deliver _ _ =>
      if !(← commit C) then return
      match outAck with
      | some ack => sendAckFrame C ack
      | none => pure ()
      match event with
      | some (.received c epoch sequence text) => reply (.received c epoch sequence text) none
      | _ => pure ()
    | .reAck _ =>
      if !(← commit C) then return
      match outAck with
      | some ack => sendAckFrame C ack
      | none => pure ()
    | .ack c =>
      if !(← commit C) then return
      let w ← get
      match w.send with
      | some send =>
        if send.contactId = c then finishSend C (.ok send.replyId .acknowledged)
      | none => pure ()
    | .forward =>
      match outAck with
      | some fwd => scheduleForward fwd
      | none => pure ()
    | .ignore => commitPending C
  | _ => pure ()

def onRadioEvt (evt : RadioEvt) : Async Unit :=
  match evt with
  | .controlDone _ _ => pure ()
  | .txDone id result _ => onTxDone C id result
  | .cadDone id result => onCadDone id result
  | .rxFrame frame => onRx C frame
  | .rxCrcError => pure ()
  | .fault => failRadioClosed C

/-- Wait for the answer to one control command until a deadline, handling other radio events.
Each pass waits at least once, so there are at most `fuel` passes. -/
def waitLoop (want deadline : ℕ) : ℕ → Async Bool
  | 0 => fun w => (none, w)
  | fuel + 1 => do
    let w ← get
    if deadline ≤ w.now then return false
    let _ ← await
    let w ← get
    match w.evts with
    | [] =>
      if deadline ≤ w.now then return false
      waitLoop want deadline fuel
    | evt :: evts =>
      set { w with evts := evts }
      match evt with
      | .controlDone id ok =>
        if id = want then return ok
        waitLoop want deadline fuel
      | evt =>
        onRadioEvt C evt
        waitLoop want deadline fuel

def waitControl (want : ℕ) : Async Bool := do
  let w ← get
  if !w.hwPresent then return false
  waitLoop C want (w.now + controlWait) (w.wakes.length + 1)

/-! ### Timeouts -/

/-- The send in flight at its deadline: a retry, or its end. -/
def pollSend : Async Unit := do
  let w ← get
  match w.send with
  | some send =>
    if send.deadline ≤ w.now then
      set { w with send := none }
      if send.txCount < maxTx then
        match ← callEngine C .sendRetryEcho with
        | .frame (.ok frame) =>
          let j ← jitter
          let (cmd, ok) ← mintAndSend (airFromOutgoing frame) j (some send.contactId) .data
          if ok then
            modify fun w =>
              let send :=
                { send with txCount := send.txCount + 1, deadline := w.now + ackWait, cmdId := cmd }
              { w with send := some send }
          else endSend C send .busy
        | .frame (.error e) => endSend C send (engineCode e)
        | _ => pure ()
      else finishSend C (.ok send.replyId .unconfirmed)
  | none => pure ()

/-- The forward due: queued, or kept while the queue is full. -/
def pollForward : Async Unit := do
  let w ← get
  match w.forward with
  | some fwd =>
    if fwd.cmdId.isNone && decide (fwd.due ≤ w.now) then
      set { w with forward := none }
      let j ← jitter
      let (cmd, ok) ← mintAndSend fwd.frame j none .forward
      modify fun w => { w with forward := some { fwd with cmdId := if ok then some cmd else none } }
  | none => pure ()

def pollTimeouts : Async Unit := do
  pollSend C
  pollForward

/-! ### Control operations -/

/-- Queue a barrier and wait for it: whether it was queued, and answered in time. -/
def barrier : Async (Option Bool) := do
  let cmd ← allocCmd
  if ← trySend (.barrier cmd) .control then
    return some (← waitControl C cmd)
  else return none

/-- `radio_set(false)` drops what is in flight. -/
def clearInFlight (enabled : Bool) : Async Unit :=
  if enabled then pure ()
  else modify fun w => { w with send := none, forward := none }.record (.cleared w.send.isSome)

def controlSetRadio (id : UInt64) (enabled : Bool) : Async Unit := do
  if !(← commit C) then
    emitErr (← get).replyId .storageFault none
    return
  if enabled then modify fun w => { w with settingsTxPending := false }
  syncPolicy
  let w ← get
  if w.hwPresent then
    let cmd ← allocCmd
    if !(← trySend (.setEnabled cmd enabled) .control) then
      emitErr id .busy none
      return
    match ← barrier C with
    | none =>
      emitErr id .busy none
      return
    | some ok =>
      clearInFlight enabled
      if !ok then
        emitErr id .busy none
        return
  else clearInFlight enabled
  commitReply

def controlSetBlocked (id : UInt64) : Async Unit := do
  if !(← commit C) then
    emitErr (← get).replyId .storageFault none
    return
  syncPolicy
  let w ← get
  if w.hwPresent then
    match ← barrier C with
    | some true => pure ()
    | _ =>
      emitErr id .busy none
      return
  commitReply

/-- The delete branch of `on_usb_outcome`, up to its final commit; whether to go on. -/
def controlDelete (id : UInt64) : Async Bool := do
  if !(← commit C) then
    emitErr (← get).replyId .storageFault none
    return false
  syncPolicy
  let w ← get
  match w.send with
  | some send => endSend C send .busy
  | none => pure ()
  if w.hwPresent then
    match ← barrier C with
    | none =>
      emitErr id .busy none
      return false
    | some false =>
      emitErr id .storageFault none
      return false
    | some true => return true
  return true

/-- The `NeedsCommit` paths of `on_usb_outcome`. -/
def onNeedsCommit : Async Unit := do
  let w ← get
  let goOn ←
    match w.stagedReply with
    | some (.radioSet id enabled) => do
      set { w with control := true }
      controlSetRadio C id enabled
      modify fun w => { w with control := false }
      pure false
    | some (.block id _ _) => do
      controlSetBlocked C id
      pure false
    | some (.simple id) => controlDelete C id
    | some (.settingsSet _ _ _ _) => do
      let ok ← commitSettings
      if !ok then emitErr w.replyId .storageFault none
      pure ok
    | some (.wifiSet _) => do
      let ok ← commitWifi
      if !ok then emitErr w.replyId .storageFault none
      pure ok
    | some (.wifiForget _) => do
      let ok ← commitWifi
      if !ok then emitErr w.replyId .storageFault none
      pure ok
    | _ => pure true
  if goOn then
    if ← commit C then commitReply
    else emitErr (← get).replyId .storageFault none

/-- `on_usb_outcome`. -/
def onUsbOutcome (outcome : Outcome) : Async Unit := do
  let outcome ←
    match outcome with
    | .needsTrng => driveTrngOp C
    | .needsSendPrep => driveSendPrep C
    | .needsPingPrep => drivePingPrep
    | o => pure o
  match outcome with
  | .needsCommit => onNeedsCommit C
  | .inline r => reply r none
  | .needsRebootBootsel =>
    let w ← get
    set { w with pendingOp := some (.rebootBootsel w.replyId) }
    reply (.ok w.replyId .rebooting) none
  | _ => pure ()

/-- One line of the host, from the dispatch to its reply. -/
def onLine (line : Line) : Async Unit := do
  let outcome ← dispatchLine C line
  modify fun w =>
    w.record (.dispatched line
      (match outcome with
      | .needsCommit => w.staged
      | .inline (.ok _ _) => w.staged
      | _ => none))
  onUsbOutcome C outcome

/-! ### The task -/

def advanceTime : Async Unit := do
  let w ← get
  match ← callEngine C (.advanceTime (UInt64.ofNat (w.now / ticksPerSec))) with
  | .unit (.error _) => failRadioClosed C
  | _ => commitPending C

/-- A turn of the task's loop. -/
inductive LoopTurn where
  | advanceTime
  | usb (line : Line)
  | reboot
  | radioEvt
  | pollTimeouts
  | sleep

def turn : LoopTurn → Async Unit
  | .advanceTime => advanceTime C
  | .usb line => onLine C line
  | .reboot => do
    -- A confirmed reboot leaves the firmware after its pause.
    match (← get).pendingOp with
    | some (.rebootBootsel _) =>
      modify fun w => { w with pendingOp := none }
      let _ ← await
      fun w => (none, w)
    | _ => pure ()
  | .radioEvt => do
    let w ← get
    match w.evts with
    | [] => pure ()
    | evt :: evts =>
      set { w with evts := evts }
      onRadioEvt C evt
  | .pollTimeouts => pollTimeouts C
  | .sleep => do
    let _ ← await
    pure ()

/-- A turn, and what its `await`s meet. -/
structure Input where
  turn : LoopTurn
  wakes : List Wake

/-- One turn of a task that is not standing at an `await`. -/
def World.step (w : World) (i : Input) : World :=
  if w.suspended then w
  else
    match (turn C i.turn).run { w with wakes := i.wakes } with
    | (some (), w) => w
    | (none, w) => { w with suspended := true }

end

/-! ### Boot -/

/-- The engine after the boot load: restored from the record, or fresh; whether it was read. -/
def bootEngine (C : Crypto) (stored : Option (List UInt8)) (uid : Bytes 8) (hw : Bool) :
    Engine × StoreHealth :=
  let (e, health) :=
    match stored with
    | none => (Engine.new false, StoreHealth.unprovisioned)
    | some bytes =>
      match (Engine.new false).restore C bytes with
      | .ok (e, ()) => (e, .ready)
      | .error _ => (.new false, .fault)
  ((e.setIdentity uid).setRadioAvailable hw, health)

/-- The world as the runtime task starts. -/
def World.boot (C : Crypto) (stored : Option (List UInt8)) (uid : Bytes 8) (hw : Bool) : World where
  engine := (bootEngine C stored uid hw).1
  health := (bootEngine C stored uid hw).2
  pktNext := 0x243F6A88
  staged := none
  stagedReply := none
  pendingOp := none
  replyId := 0
  settings := .default
  settingsTxPending := false
  stagedWifi := none
  wifiConfigured := false
  wifiSsidLen := 0
  sendText := []
  pingCount := 0
  nextCmd := 1
  send := none
  ping := none
  forward := none
  lastPolicy := none
  hwPresent := hw
  toBus := .init
  now := 0
  control := false
  suspended := false
  wakes := []
  log := []

/-! ### Sample inputs -/

namespace Sample

def yes : Answer where
  stored := true
  word := 0
  bytes := .zero 32

/-- A wait in which this happens, and at its end all is well. -/
def wake (env : List Env) : Wake := { env, answer := some yes }

/-- A wait at the end of which the storage has failed. -/
def broken (env : List Env) : Wake := { env, answer := some { yes with stored := false } }

/-- The radio task goes on. -/
def go : Env := .radio (.driver .ok)

/-- The radio task takes a command. -/
def take : Env := .radio (.command true)

/-- The radio task receives a frame and listens on. -/
def hears (frame : AirFrame) : List Env := [.radio (.received (.frame frame)), go]

/-- The host switches the radio on, and the task starts to listen. -/
def switchOn : Input where
  turn := .usb (.request 1 (.radioSet (some true)))
  wakes := [wake [], wake [go, take, go, go, take, go], wake [go]]

/-- A frame of another mesh, with a hop left. -/
def foreign : AirFrame :=
  [1, 0, 0, 0, 0, 1, 0, 0, 0, 2, 0, 0, 0, 3, 1, 0, 0, 0, 0, 0, 0, 0, 0, 0, 0, 0, 1, 0, 234, 106]

end Sample

end LoraMesh
