import LoraMesh.Engine.Send

/-!
# Engine — Receive

The receive path of the engine: which contact a frame authenticates for (`scan`), what its body
does there (`acceptData`, `acceptAck`), the acknowledgement, and the transit of everything else.
-/

namespace LoraMesh

inductive IncomingKind where
  | deliver (contactId textLen : UInt8)
  | reAck (contactId : UInt8)
  | ack (contactId : UInt8)
  | forward
  | ignore
  deriving DecidableEq

inductive NodeEvent where
  | received (contactId : UInt8) (epoch : UInt32) (sequence : UInt64) (text : List UInt8)
  | sendAcked (contactId : UInt8) (epoch : UInt32) (sequence : UInt64) (packetId : UInt32)
  deriving DecidableEq

inductive BlockOutcome where
  | blocked
  | unblocked
  | cancelledSend (ps : PendingSend)
  deriving DecidableEq

/-- What a received frame answers: its kind, a frame to transmit, an event. -/
abbrev Incoming := IncomingKind × Option OutgoingFrame × Option NodeEvent

def Incoming.ignored : Incoming := (.ignore, none, none)

/-- `a.saturating_add(1)` at `u32`. -/
def bump (a : UInt32) : UInt32 := satAdd32 a 1

/-- Replace one window. -/
def Contact.setData (c : Contact) (win : Fin 3) (w : ReplayWindow) : Contact :=
  { c with winData := Function.update c.winData win w }

def Contact.setAck (c : Contact) (win : Fin 3) (w : ReplayWindow) : Contact :=
  { c with winAck := Function.update c.winAck win w }

namespace Engine

section

variable (C : Crypto)

/-- Mark a frame of ours so that its echo is not forwarded. -/
def noteOrigin (e : Engine) (bytes : List UInt8) (nowMs : UInt64) : Engine :=
  match decodeFrame bytes with
  | .error _ => e
  | .ok (_, body) =>
    match cacheKeyOfFrame C bytes body with
    | none => e
    | some key => { e with relayCache := (e.relayCache.observe key nowMs).2 }

/-- Relay a frame that is not for us, once and while it has a hop left. -/
def transit (e : Engine) (frame : List UInt8) (h : Header) (hlen : minFrameLen ≤ frame.length)
    (nowMs : UInt64) : Engine × Incoming :=
  have hlen : 30 ≤ frame.length := hlen
  let key := cacheKey C (slice frame 0 headerLen (by simp only [headerLen]; omega))
    ((frame.drop headerLen).take (frame.length - 2 - headerLen))
  let r := e.relayCache.observe key nowMs
  let e := { e with relayCache := r.2 }
  match r.1 with
  | .duplicate => (e, .ignored)
  | .new =>
    if shouldForward h.hops false false then
      match prepareForward frame maxFrameLen with
      | .ok out =>
        (e, .forward, some { bytes := out, contactId := none, isAck := false, isRetryEcho := false
                             envelope := none }, none)
      | .error _ => (e, .ignored)
    else (e, .ignored)

/-- A fresh ACK under our current epoch, sequence and key; its reservation is staged. -/
def buildAck (e : Engine) (slot : Slot) (dataH : Header) (packetId : UInt32) :
    Engine × Option OutgoingFrame :=
  if !e.timeValid then (e, none) else
  let epoch := e.epoch
  match e.reservation slot .rxAccept with
  | none => (e, none)
  | some op =>
    let e := e.stagePersist op
    let v := (e.contacts slot).ackEnvelope C e.uid dataH packetId epoch
    match sealFrame C v (17 + tagLen) with
    | .error _ => (e, none)
    | .ok bytes =>
      let e := { e.setContact slot ((e.contacts slot).consume epoch) with
        persistedTxEpoch := max e.persistedTxEpoch epoch }
      (e.stagePersist (e.staged.getD .rxAccept),
        some { bytes, contactId := some (contactId slot), isAck := true, isRetryEcho := false
               envelope := some v })

/-- What the trial of one contact makes of a frame. -/
inductive Trial where
  | skip
  | badTag
  | opened (win : Fin 3) (plaintext : List UInt8)

/-- Try the frame under one contact: its window of the epoch, its aliases, its key, its body. -/
def tryContact (e : Engine) (slot : Slot) (h : Header) (body : List UInt8) : Trial :=
  let c := e.contacts slot
  if c.present then
    match position c.winEpochs h.epoch with
    | none => .skip
    | some win =>
      if be32 h.dst ≠ (c.ownAlias C e.uid h.epoch).1 ∨ be32 h.src ≠ (c.peerAlias C h.epoch).1 then .skip
      else
        match decryptData C (c.incomingKey C h.epoch) (nonce h.epoch h.sequence)
          (frameAad h (UInt8.ofNat body.length)) body (1 + maxTextLen) with
        | .error _ => .badTag
        | .ok plaintext =>
          match validateBody h.flags plaintext with
          | .error _ => .skip
          | .ok () => .opened win plaintext
  else .skip

/-- The aliases are refreshed of each contact whose windows cover the epoch. -/
def touchAliases (e : Engine) (slot : Slot) (h : Header) : Engine :=
  if (e.contacts slot).present ∧ (position (e.contacts slot).winEpochs h.epoch).isSome then
    e.refreshAliases C slot
  else e

/-- The first contact among `is` that the frame opens under, and whether a tag failed before. -/
def scan (h : Header) (body : List UInt8) :
    List Slot → Engine → Bool → Engine × Bool × Option (Slot × Fin 3 × List UInt8)
  | [], e, failed => (e, failed, none)
  | slot :: is, e, failed =>
    let e := e.touchAliases C slot h
    match e.tryContact C slot h body with
    | .skip => scan h body is e failed
    | .badTag => scan h body is e true
    | .opened win plaintext => (e, failed, some (slot, win, plaintext))

/-- Offer a sequence to a DATA window. -/
def acceptInData (e : Engine) (slot : Slot) (win : Fin 3) (seq : UInt64) : Verdict × Engine :=
  let c := e.contacts slot
  let r := (c.winData win).accept seq
  (r.1, e.setContact slot (c.setData win r.2))

def acceptInAck (e : Engine) (slot : Slot) (win : Fin 3) (seq : UInt64) : Verdict × Engine :=
  let c := e.contacts slot
  let r := (c.winAck win).accept seq
  (r.1, e.setContact slot (c.setAck win r.2))

def countReplay (e : Engine) : Engine := { e with replayDrops := bump e.replayDrops }

/-- An authenticated DATA body with its text. -/
def acceptData (e : Engine) (slot : Slot) (win : Fin 3) (h : Header) (text : List UInt8)
    (ackPacketId : UInt32) : Engine × Incoming :=
  match e.acceptInData slot win h.sequence with
  | (.accepted, e) =>
    let r := (e.stagePersist .rxAccept).buildAck C slot h ackPacketId
    (r.1, .deliver (contactId slot) (UInt8.ofNat text.length), r.2,
      some (.received (contactId slot) h.epoch h.sequence text))
  | (.duplicate, e) =>
    let r := (e.countReplay.stagePersist .none).buildAck C slot h ackPacketId
    (r.1, .reAck (contactId slot), r.2, none)
  | (.stale, e) => (e.countReplay, .ignored)

/-- An authenticated ACK body, whose sixteen bytes name the DATA it answers. -/
def acceptAck (e : Engine) (slot : Slot) (win : Fin 3) (h : Header) (ref : List UInt8) :
    Engine × Incoming :=
  let refEpoch := ofBe32 (ref.take 4)
  let refSeq := ofBe64 ((ref.drop 4).take 8)
  let refPid := ofBe32 ((ref.drop 12).take 4)
  match e.acceptInAck slot win h.sequence with
  | (.accepted, e) =>
    let e := e.stagePersist .rxAccept
    match e.pendingSend with
    | some ps =>
      if ps.contactId = contactId slot ∧ ps.epoch = refEpoch ∧ ps.sequence = refSeq
          ∧ ps.packetId = refPid then
        (e, .ack (contactId slot), none, some (.sendAcked (contactId slot) refEpoch refSeq refPid))
      else (e, .ignored)
    | none => (e, .ignored)
  | (_, e) => (e.countReplay, .ignored)

/-- An authenticated body. -/
def acceptBody (e : Engine) (slot : Slot) (win : Fin 3) (h : Header) (plaintext : List UInt8)
    (ackPacketId : UInt32) : Engine × Incoming :=
  if (e.contacts slot).blocked then (e, .ignored)
  else
    match plaintext with
    | [] => (e, .ignored)
    | b :: rest =>
      if b = bodyData then e.acceptData C slot win h rest ackPacketId
      else e.acceptAck slot win h rest

def countFailure (e : Engine) (failed : Bool) : Engine :=
  if failed then { e with authFailures := bump e.authFailures } else e

/-- Process one received frame. -/
def onFrame (e : Engine) (frame : List UInt8) (nowMs : UInt64) (ackPacketId : UInt32) :
    Engine × Incoming :=
  if hmin : minFrameLen ≤ frame.length then
    match decodeFrame frame with
    | .error _ => (e, .ignored)
    | .ok (h, body) =>
      if h.version ≠ versionSecure then (e, .ignored)
      else if h.hops > 1 then (e, .ignored)
      -- unprovisioned, faulted or timeless nodes still forward opaquely
      else if !e.provisioned || e.fault || !e.timeValid then e.transit C frame h hmin nowMs
      else if !inAcceptWindow h.epoch e.epoch then e.transit C frame h hmin nowMs
      else
        match scan C h body (List.finRange maxContacts) e false with
        | (e, _, some (slot, win, plaintext)) => e.acceptBody C slot win h plaintext ackPacketId
        | (e, failed, none) => (e.countFailure failed).transit C frame h hmin nowMs
  else (e, .ignored)

end

/-! ### Removal and blocking -/

/-- Forget the pending send if it is to this contact. -/
def dropSendTo (e : Engine) (id : UInt8) : Engine :=
  match e.pendingSend with
  | some ps => if ps.contactId = id then { e with pendingSend := none } else e
  | none => e

def deleteContact (e : Engine) (id : UInt8) : Except EngineError (Engine × Unit) := do
  e.checkUsable
  let slot ← e.slotOf id
  return (((e.clearContact slot).dropSendTo id).stagePersist .none, ())

def setBlocked (e : Engine) (id : UInt8) (blocked : Bool) :
    Except EngineError (Engine × BlockOutcome) := do
  e.checkUsable
  let slot ← e.slotOf id
  let e := (e.setContact slot { e.contacts slot with blocked }).stagePersist .none
  if blocked then
    match e.pendingSend with
    | some ps =>
      if ps.contactId = id then return ({ e with pendingSend := none }, .cancelledSend ps)
      else return (e, .blocked)
    | none => return (e, .blocked)
  else return (e, .unblocked)

end Engine

end LoraMesh
