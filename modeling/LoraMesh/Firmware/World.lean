import LoraMesh.Firmware.Radio
import LoraMesh.Engine.Op

/-!
# Firmware — World

What the runtime task of the radio image owns and shares (`firmware/src/runtime.rs`, the state of
`firmware/src/usb.rs`), and the tasks' common ground: a program of the runtime runs from one
`await` to the next, and at each `await` the radio task makes any moves and any time passes.

The world keeps a `log` of what happened, latest entry first; no program reads it.
-/

namespace LoraMesh

/-! ### The USB side -/

inductive StoreHealth where
  | unprovisioned
  | ready
  | fault
  deriving DecidableEq

/-- The error strings of the replies. -/
inductive ErrCode where
  | busy
  | channelBusy
  | contactBlocked
  | timeUnset
  | timeRollback
  | timeJumpNeedsConfirm
  | storageFault
  | radioMustBeOff
  | radioUnavailable
  | badRequest
  | unknownOp
  | unprovisioned
  | lineTooLong
  | alreadyProvisioned
  | sasMismatch
  | radio
  deriving DecidableEq

/-- `engine_err`. -/
def engineCode : EngineError → ErrCode
  | .badRequest => .badRequest
  | .unprovisioned => .unprovisioned
  | .storageFault => .storageFault
  | .timeUnset => .timeUnset
  | .timeRollback => .timeRollback
  | .timeJumpNeedsConfirm => .timeJumpNeedsConfirm
  | .busy => .busy
  | .contactBlocked => .contactBlocked
  | .radioMustBeOff => .radioMustBeOff
  | .radioUnavailable => .radioUnavailable
  | .unknownOp => .unknownOp
  | .pairingAbsent => .badRequest
  | .pairingExpired => .badRequest
  | .noSlot => .badRequest
  | .sasMismatch => .sasMismatch

/-- The keys of the settings table. -/
inductive SettingKey where
  | txPower
  | maxTx
  | ackWait
  | relayTtl
  | relayJitter
  | cadAttempts
  | syncWord
  deriving DecidableEq

structure Settings where
  txPowerDbm : ℕ
  maxTx : ℕ
  ackWaitS : ℕ
  relayTtlMs : ℕ
  relayJitterMs : ℕ
  cadAttempts : ℕ
  deriving DecidableEq

namespace Settings

def default : Settings where
  txPowerDbm := 2
  maxTx := 3
  ackWaitS := 12
  relayTtlMs := 8000
  relayJitterMs := 100
  cadAttempts := 5

/-- The range of a key that may be written. -/
def range : SettingKey → Option (ℕ × ℕ)
  | .txPower => none
  | .maxTx => some (1, 10)
  | .ackWait => some (1, 60)
  | .relayTtl => some (1000, 60000)
  | .relayJitter => some (20, 300)
  | .cadAttempts => some (1, 10)
  | .syncWord => none

def value (s : Settings) : SettingKey → ℕ
  | .txPower => s.txPowerDbm
  | .maxTx => s.maxTx
  | .ackWait => s.ackWaitS
  | .relayTtl => s.relayTtlMs
  | .relayJitter => s.relayJitterMs
  | .cadAttempts => s.cadAttempts
  | .syncWord => 0x12

/-- Set a key, clamped into its range; whether it was clamped. -/
def set (s : Settings) (key : SettingKey) (value : ℤ) : Option (Settings × Bool) :=
  (range key).map fun (lo, hi) =>
    let v := (max (lo : ℤ) (min value hi)).toNat
    (match key with
      | .txPower => { s with txPowerDbm := v }
      | .maxTx => { s with maxTx := v }
      | .ackWait => { s with ackWaitS := v }
      | .relayTtl => { s with relayTtlMs := v }
      | .relayJitter => { s with relayJitterMs := v }
      | .cadAttempts => { s with cadAttempts := v }
      | .syncWord => s, (v : ℤ) != value)

end Settings

/-- The result of a reply; the texts of the read-only reports are left out. -/
inductive Body where
  | report
  | provisioned (label : UInt8)
  | armedNextBoot
  | record (bytes : List UInt8)
  | imported (fingerprint : List UInt8) (contactId : Option UInt8)
  | deleted
  | blocked (blocked : Bool)
  | radioEnabled (enabled : Bool)
  | setting (key : SettingKey) (value : ℕ) (clamped : Bool)
  | wifi (configured : Bool) (ssidLen : ℕ)
  | acknowledged
  | unconfirmed
  | ping (probes clear : UInt8)
  | rebooting
  deriving DecidableEq

/-- A record handed to `USB_TX`, which drops it if it has no room. -/
inductive Reply where
  | ok (id : UInt64) (body : Body)
  | err (id : UInt64) (code : ErrCode)
  | received (contactId : UInt8) (epoch : UInt32) (sequence : UInt64) (text : List UInt8)
  deriving DecidableEq

/-- The reply owed once the staged commit completes. -/
inductive StagedReply where
  | status (id : UInt64)
  | simple (id : UInt64)
  | block (id : UInt64) (contactId : UInt8) (blocked : Bool)
  | radioSet (id : UInt64) (enabled : Bool)
  | settingsSet (id : UInt64) (key : SettingKey) (value : ℕ) (clamped : Bool)
  | wifiSet (id : UInt64)
  | wifiForget (id : UInt64)

/-- An operation the dispatch cannot complete alone. -/
inductive PendingOp where
  | provision (id : UInt64) (label : UInt8)
  | pairOffer (id : UInt64)
  | sendPrep (id : UInt64) (contactId : UInt8)
  | pingPrep (id : UInt64) (count : UInt8)
  | rebootBootsel (id : UInt64)

/-- What the dispatch did with one line. -/
inductive Outcome where
  | inline (r : Reply)
  | needsCommit
  | needsTrng
  | needsSendPrep
  | needsPingPrep
  | needsRebootBootsel
  | silent

/-- The operation of a line with its own fields, as the JSON reading leaves them: `none` is a
field that is absent or unreadable. -/
inductive Request where
  | status
  | contacts
  | provision (label : Option UInt8)
  | timeSet (unixSeconds : Option UInt64) (confirm : Bool)
  | timeStatus
  | radioSet (enabled : Option Bool)
  | radioArmNextBoot
  | ping (count : Option UInt8)
  | send (contactId : Option UInt8) (text : Option (List UInt8))
  | block (contactId : Option UInt8)
  | unblock (contactId : Option UInt8)
  | contactDelete (contactId : Option UInt8)
  | pairOffer
  | pairProof
  | pairConfirm
  | pairImport (record : Option (List UInt8)) (replace sasMatch : Bool)
  | settingsGet (key : Option (Option SettingKey))
  | settingsSet (key : Option SettingKey) (value : Option ℤ)
  | wifiStatus
  | wifiSet (ssid pass : Option (List UInt8))
  | wifiForget
  | rebootBootsel (confirm : Bool)
  | unknownOp
  deriving DecidableEq

/-- One line of the host. -/
inductive Line where
  | tooLong
  | malformed
  | request (id : UInt64) (req : Request)
  deriving DecidableEq

structure UsbState where
  engine : Engine
  health : StoreHealth
  pktNext : UInt32
  /-- Persist bytes awaiting the storage owner. -/
  staged : Option (List UInt8)
  stagedReply : Option StagedReply
  pendingOp : Option PendingOp
  replyId : UInt64
  settings : Settings
  settingsTxPending : Bool
  /-- The credential awaiting its commit, SSID and passphrase. -/
  stagedWifi : Option (List UInt8 × List UInt8)
  wifiConfigured : Bool
  wifiSsidLen : ℕ
  /-- `send_text[..send_len]`. -/
  sendText : List UInt8
  pingCount : UInt8

/-! ### The runtime -/

/-- Deferred secure send tracked across TX completions, ACK waits, retries. -/
structure InFlight where
  replyId : UInt64
  contactId : UInt8
  txCount : ℕ
  deadline : ℕ
  cmdId : ℕ

/-- Deferred CAD-only ping. -/
structure PingInFlight where
  replyId : UInt64
  remaining : UInt8
  clear : UInt8
  cmdId : ℕ

/-- Queued relay forward awaiting its listen delay. -/
structure PendingForward where
  frame : AirFrame
  due : ℕ
  cmdId : Option ℕ

structure Runtime extends UsbState where
  /-- The next command id: a monotonic counter, the source's of 64 bits. -/
  nextCmd : ℕ
  send : Option InFlight
  ping : Option PingInFlight
  forward : Option PendingForward
  lastPolicy : Option (Bool × UInt32)
  hwPresent : Bool

/-- A request that stays in flight after its line. -/
inductive Flight where
  | send
  | ping
  deriving DecidableEq

/-- What a queued command is for. -/
inductive Use where
  | data
  | ack
  | forward
  | control
  | probe
  deriving DecidableEq

/-- One thing that happened. -/
inductive Happening where
  /-- A line was dispatched, and left this snapshot to commit. -/
  | dispatched (line : Line) (snapshot : Option (List UInt8))
  /-- An engine operation; whether it staged anew while `usb.staged` held a copy. -/
  | engine (op : Op) (out : Output) (overStaged : Bool)
  /-- The storage owner was handed `bytes` while the engine's own snapshot was `pending`, and
  answered. -/
  | stored (bytes : List UInt8) (pending : Option (List UInt8)) (ok : Bool)
  | policy (enabled : Bool) (mask : UInt32)
  /-- A command was queued; of a transmission, whether its token was then valid. -/
  | queued (cmd : RadioCmd) (use : Use) (valid : Bool)
  /-- A command found the queue full; whether it would have moved the task's flag. -/
  | refused (cmd : RadioCmd) (use : Use) (lost : Bool)
  /-- `fail_radio_closed` was entered with this radio flag, and with or without a ping. -/
  | failClosed (radioOn ping : Bool)
  /-- A `radio_set(false)` dropped what was in flight, with or without a send. -/
  | cleared (send : Bool)
  /-- A send or ping was accepted. -/
  | accepted (f : Flight) (id : UInt64)
  | triggered (t : Transmission)
  /-- A probe of the ping in flight was answered. -/
  | probed (clear : Bool)
  /-- The storage owner has stored a settings record. -/
  | keptSettings (settings : Settings)
  /-- The storage owner has stored a WiFi record: a credential, or zeros. -/
  | keptWifi (credential : Option (List UInt8 × List UInt8))
  /-- A credential was handed to the WiFi task. -/
  | published (credential : List UInt8 × List UInt8)
  /-- A reply, and the request in flight it ends. -/
  | reply (r : Reply) (ends : Option Flight)

/-- What a host has configured is kept. -/
def Happening.kept : Happening → Bool
  | .keptSettings _ => true
  | .keptWifi _ => true
  | .published _ => true
  | _ => false

/-- Something another task or the clock does. -/
inductive Env where
  | tick (ticks : ℕ)
  | radio (i : RadioIn)

/-- What an awaited call answers the runtime: the storage owner's verdict, a TRNG word, TRNG
bytes. -/
structure Answer where
  stored : Bool
  word : UInt32
  bytes : Bytes 32

/-- What happens at one `await`; with no answer it has not returned yet. -/
structure Wake where
  env : List Env
  answer : Option Answer

structure World extends Runtime, Bus where
  /-- `Instant::now()`, in microseconds. -/
  now : ℕ
  /-- A control operation on the radio is under way. -/
  control : Bool
  /-- The runtime stands at an `await` that has not returned. -/
  suspended : Bool
  wakes : List Wake
  log : List Happening

/-- A program of the runtime: it runs to an answer, or stands at an `await`. -/
abbrev Async (α : Type) := OptionT (StateM World) α

namespace World

def record (w : World) (x : Happening) : World := { w with log := x :: w.log }

/-- One thing another task or the clock does.  Without hardware there is no radio task. -/
def envStep (w : World) : Env → World
  | .tick ticks => { w with now := w.now + ticks }
  | .radio i =>
    if w.hwPresent then
      let (b, t) := w.toBus.step i
      let w := { w with toBus := b }
      match t with
      | some t => w.record (.triggered t)
      | none => w
    else w

def blockedMask (w : World) : UInt32 :=
  (List.finRange maxContacts).foldl
    (fun mask i =>
      if (w.engine.contacts i).present && (w.engine.contacts i).blocked then
        mask ||| (1 <<< UInt32.ofNat i.1)
      else mask) 0

/-- `Engine::contact_blocked`. -/
def contactBlocked (w : World) (id : UInt8) : Bool :=
  match w.engine.slotOf id with
  | .ok i => (w.engine.contacts i).blocked
  | .error _ => false

end World

/-- Wait: the other tasks run, and the awaited call answers. -/
def await : Async Answer := fun w =>
  match w.wakes with
  | [] => (none, w)
  | k :: ks => (k.answer, run World.envStep { w with wakes := ks } k.env)

section Primitives

variable (C : Crypto)

/-- One call of an engine operation. -/
def callEngine (op : Op) : Async Output := do
  let w ← get
  let r := LoraMesh.step C w.engine op
  let anew := w.staged.isSome && decide (r.1.pendingPersist ≠ w.engine.pendingPersist)
  set ({ w with engine := r.1 }.record (.engine op r.2 anew))
  return r.2

end Primitives

/-- `radio::set_policy`. -/
def setPolicy (enabled : Bool) (mask : UInt32) : Async Unit :=
  modify fun w => { w with policy := w.policy.setPolicy enabled mask }.record (.policy enabled mask)

/-- A reply, and the request in flight it ends. -/
def reply (r : Reply) (ends : Option Flight) : Async Unit := modify (·.record (.reply r ends))

def allocCmd : Async ℕ := do
  let w ← get
  set { w with nextCmd := w.nextCmd + 1 }
  return w.nextCmd

/-- The token of a queued transmission is valid. -/
def World.cmdValid (w : World) : RadioCmd → Bool
  | .tx _ _ _ contact token => w.policy.tokenValid contact token
  | _ => false

/-- `RADIO_CMD.try_send`: refused when the queue is full. -/
def trySend (cmd : RadioCmd) (use : Use) : Async Bool := do
  let w ← get
  if w.cmds.length < radioQueueCap then
    set ({ w with cmds := w.cmds ++ [cmd] }.record (.queued cmd use (w.cmdValid cmd)))
    return true
  else
    set (w.record (.refused cmd use (cmd.flag w.wanted != w.wanted)))
    return false

end LoraMesh
