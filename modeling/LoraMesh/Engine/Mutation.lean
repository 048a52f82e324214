import LoraMesh.Engine.Sound

/-!
# Engine — Mutation

The operations that can fail, as the source writes them: methods that mutate the engine one
assignment at a time, where what was assigned before a failure stays assigned.  The functions of
the earlier modules compute the same, and say of a failure only that it happened.

* `perform_eq_step`: each method does what the step function says.
* `failed_unchanged`: a method that fails leaves everything but the alias cache as it was.
-/

namespace LoraMesh

/-- A method on the engine. -/
abbrev Method := ExceptT EngineError (StateM Engine)

namespace Method

variable {α β : Type}

/-- The engine that a call leaves, and its result. -/
def call (x : Method α) (e : Engine) : Engine × Except EngineError α :=
  let (r, e) := (x.run).run e
  (e, r)

/-- What follows a result. -/
def after (e : Engine) (r : Except EngineError α) (k : α → Engine × Except EngineError β) :
    Engine × Except EngineError β :=
  match r with
  | .ok a => k a
  | .error x => (e, .error x)

theorem call_check (r : Except EngineError α) (f : α → Method β) (e : Engine) :
    ((liftM r : Method α) >>= f).call e = after e r fun a => (f a).call e := by
  cases r <;> rfl

theorem call_bind (x : Method α) (f : α → Method β) (e : Engine) :
    (x >>= f).call e = match x.call e with
      | (e', .ok a) => (f a).call e'
      | (e', .error err) => (e', .error err) := by
  rcases h : x.run.run e with ⟨r, e'⟩
  cases r <;> simp only [call, ExceptT.run_bind, StateT.run_bind, h] <;> rfl

theorem call_get (f : Engine → Method β) (e : Engine) :
    ((get : Method Engine) >>= f).call e = (f e).call e := rfl

theorem call_modify (g : Engine → Engine) (f : PUnit → Method β) (e : Engine) :
    ((modify g : Method PUnit) >>= f).call e = (f ⟨⟩).call (g e) := rfl

theorem call_pure (a : α) (e : Engine) : (pure a : Method α).call e = (e, .ok a) := rfl

theorem call_throw (x : EngineError) (e : Engine) : (throw x : Method α).call e = (e, .error x) := rfl

theorem call_ite {p : Prop} [Decidable p] (x y : Method α) (e : Engine) :
    (if p then x else y).call e = if p then x.call e else y.call e := by
  split <;> rfl

theorem settle_bind (e : Engine) (r : Except EngineError α)
    (k : α → Except EngineError (Engine × β)) :
    settle e (r >>= k) = after e r fun a => settle e (k a) := by
  cases r <;> rfl

theorem settle_pure (e e' : Engine) (a : α) : settle e (pure (e', a)) = (e', .ok a) := rfl

theorem settle_throw (e : Engine) (x : EngineError) :
    settle e (throw x : Except EngineError (Engine × α)) = (e, .error x) := rfl

theorem settle_ite {p : Prop} [Decidable p] (e : Engine) (x y : Except EngineError (Engine × α)) :
    settle e (if p then x else y) = if p then settle e x else settle e y := by
  split <;> rfl

theorem after_bind {γ : Type} (e : Engine) (r : Except EngineError α) (k : α → Except EngineError γ)
    (f : γ → Engine × Except EngineError β) :
    after e (r >>= k) f = after e r fun a => after e (k a) f := by
  cases r <;> rfl

theorem after_congr {e : Engine} {r : Except EngineError α} {f g : α → Engine × Except EngineError β}
    (h : ∀ a, r = .ok a → f a = g a) : after e r f = after e r g := by
  cases r with
  | error x => rfl
  | ok a => exact h a rfl

theorem after_okOr_some (e : Engine) (a : α) (x : EngineError)
    (f : α → Engine × Except EngineError β) : after e (okOr (some a) x) f = f a := rfl

theorem after_require_not (e : Engine) (p : Bool) (x : EngineError)
    (f : Unit → Engine × Except EngineError β) :
    after e (require (!p) x) f = if p then (e, .error x) else f () := by
  cases p <;> rfl

/-! ### Setup, time and radio -/

def provision (label : UInt8) (signPriv : Bytes 32) : Method Unit := do
  require (!(← get).fault) .storageFault
  require (!(← get).provisioned) .busy
  require (label != 0 && label ≤ 3) .badRequest
  modify fun e => { e with label }
  modify fun e => { e with signPriv }
  modify fun e => { e with signSet := true }
  modify fun e => { e with provisioned := true }
  modify (·.stagePersist .provision)

/-- Assign to fields of one contact. -/
def modifyContact (i : Slot) (f : Contact → Contact) : Method Unit :=
  modify fun e => e.setContact i (f (e.contacts i))

/-- One turn of the loop of `setTimeConfirmed`. -/
def advanceContact (newEpoch : UInt32) (i : Slot) : Method Unit := do
  let c := (← get).contacts i
  if c.present then
    let (anchor, init) ← mapErr (c.anchor.trustedAdvance newEpoch) .timeRollback
    modifyContact i fun c => { c with anchor }
    let nd := Engine.rotateWindows c.winEpochs init newEpoch c.winData
    let na := Engine.rotateWindows c.winEpochs init newEpoch c.winAck
    modifyContact i fun c => { c with winData := nd }
    modifyContact i fun c => { c with winAck := na }
    modifyContact i fun c => { c with winEpochs := slots newEpoch }
    modify fun e => { e with
      aliases := Function.update e.aliases i { e.aliases i with cachedEpoch := 0xFFFFFFFF } }

/-- What `setTimeConfirmed` checks before it changes anything. -/
def checkTime (e : Engine) (unixSeconds : UInt64) (confirmed : Bool) : Except EngineError UInt32 := do
  require (!e.fault) .storageFault
  let newEpoch ← okOr (epochOfUnix unixSeconds) .badRequest
  require (!decide (newEpoch < e.timeFloor)) .timeRollback
  require (!(!confirmed && e.timeValid && decide (satAdd32 e.epoch 1 < newEpoch)))
    .timeJumpNeedsConfirm
  return newEpoch

def setTimeConfirmed (unixSeconds : UInt64) (confirmed : Bool) : Method UInt32 := do
  let newEpoch ← checkTime (← get) unixSeconds confirmed
  (List.finRange maxContacts).forM (advanceContact newEpoch)
  modify fun e => { e with unixSeconds }
  modify fun e => { e with timeValid := true }
  modify fun e => { e with utcMonoS := e.monoS }
  modify (·.stagePersist (.time unixSeconds))
  return newEpoch

def setRadio (enabled : Bool) : Method Unit := do
  require (!(← get).fault) .storageFault
  require (!(enabled && !(← get).radioAvailable)) .radioUnavailable
  modify fun e => { e with radioOn := enabled }
  if !enabled then
    modify fun e => { e with pendingSend := none }
    modify fun e => { e with armedNextBoot := false }
  modify (·.stagePersist .none)

def armNextBoot : Method Unit := do
  (← get).checkUsable
  require (← get).radioAvailable .radioUnavailable
  modify fun e => { e with armedNextBoot := true }
  modify (·.stagePersist .none)

def consumeBootArm : Method Bool := do
  require (!(← get).fault) .storageFault
  let armed := (← get).armedNextBoot
  if armed then
    modify fun e => { e with armedNextBoot := false }
    modify (·.stagePersist .none)
  return armed && (← get).radioAvailable

theorem provision_call (label : UInt8) (signPriv : Bytes 32) (e : Engine) :
    (provision label signPriv).call e = settle e (e.provision label signPriv) := by
  unfold provision Engine.provision
  simp only [call_check, call_get, call_modify, settle_bind, settle_pure]
  rfl

theorem setContact_setContact (e : Engine) (i : Slot) (c c' : Contact) :
    (e.setContact i c).setContact i c' = e.setContact i c' := by
  simp only [Engine.setContact, Function.update_idem]

theorem setContact_contacts (e : Engine) (i : Slot) (c : Contact) :
    (e.setContact i c).contacts i = c := Function.update_self ..

theorem advanceContact_call (n : UInt32) (i : Slot) (e : Engine) :
    (advanceContact n i).call e =
      if (e.contacts i).present then
        match (e.contacts i).anchor.trustedAdvance n with
        | .ok (anchor, init) => (e.rotateSlot i anchor init n, .ok ())
        | .error _ => (e, .error .timeRollback)
      else (e, .ok ()) := by
  unfold advanceContact modifyContact
  simp only [call_check, call_get, call_modify, call_ite]
  split
  · cases (e.contacts i).anchor.trustedAdvance n with
    | error x => rfl
    | ok r =>
        obtain ⟨anchor, init⟩ := r
        simp only [mapErr, after, setContact_setContact, setContact_contacts]
        rfl
  · rfl

/-- The loop over the contacts. -/
theorem forM_advanceContact_call (n : UInt32) : ∀ (is : List Slot) (e : Engine),
    (is.forM (advanceContact n)).call e = Engine.advanceAll n is e
  | [], _ => rfl
  | i :: is, e => by
      have hcons : (i :: is).forM (advanceContact n) =
          advanceContact n i >>= fun _ => is.forM (advanceContact n) := rfl
      rw [hcons, call_bind, advanceContact_call, Engine.advanceAll]
      by_cases hp : (e.contacts i).present = true
      · rw [if_pos hp, if_pos hp]
        cases (e.contacts i).anchor.trustedAdvance n with
        | error x => rfl
        | ok r => exact forM_advanceContact_call n is _
      · rw [if_neg hp, if_neg hp]
        exact forM_advanceContact_call n is e

theorem setTimeConfirmed_after (e : Engine) (s : UInt64) (confirmed : Bool) :
    e.setTimeConfirmed s confirmed = after e (checkTime e s confirmed) fun n =>
      match Engine.advanceAll n (List.finRange maxContacts) e with
      | (e, .error x) => (e, .error x)
      | (e, .ok ()) => (Engine.stagePersist
          { e with unixSeconds := s, timeValid := true, utcMonoS := e.monoS } (.time s), .ok n) := by
  unfold Engine.setTimeConfirmed checkTime
  simp only [after_bind, after_require_not]
  split
  · rfl
  · cases epochOfUnix s with
    | none => rfl
    | some n =>
        simp only [okOr, after, decide_eq_true_eq]
        split
        · rfl
        · split <;> rfl

theorem setTimeConfirmed_call (s : UInt64) (confirmed : Bool) (e : Engine) :
    (setTimeConfirmed s confirmed).call e = e.setTimeConfirmed s confirmed := by
  rw [setTimeConfirmed_after, setTimeConfirmed, call_get, call_check]
  refine after_congr fun n _ => ?_
  rw [call_bind, forM_advanceContact_call]
  rcases Engine.advanceAll n (List.finRange maxContacts) e with ⟨e', r⟩
  cases r <;> rfl

theorem setRadio_call (enabled : Bool) (e : Engine) :
    (setRadio enabled).call e = settle e (e.setRadio enabled) := by
  unfold setRadio Engine.setRadio
  simp only [call_check, call_get, call_modify, settle_bind, settle_pure]
  cases enabled <;> rfl

theorem armNextBoot_call (e : Engine) : armNextBoot.call e = settle e e.armNextBoot := by
  unfold armNextBoot Engine.armNextBoot
  simp only [call_check, call_get, call_modify, settle_bind, settle_pure]
  rfl

theorem consumeBootArm_call (e : Engine) : consumeBootArm.call e = settle e e.consumeBootArm := by
  unfold consumeBootArm Engine.consumeBootArm
  simp only [call_check, call_get, settle_bind, settle_pure]
  cases e.armedNextBoot <;> rfl

/-! ### Pairing -/

/-- Assign to fields of the pending attempt. -/
def modifyPending (f : PendingPair → PendingPair) : Method Unit :=
  modify fun e => { e with pending := e.pending.map f }

def livePending : Method PendingPair := do
  let p ← okOr (← get).pending .pairingAbsent
  require (!isExpired p.startMonoS (← get).monoS) .pairingExpired
  return p

section

variable (C : Crypto)

def pairOffer (ephPriv ephPub challenge : Bytes 32) : Method (List UInt8) := do
  (← get).checkUsable
  (← get).requireRadioOff
  if let some p := (← get).pending then
    if !isExpired p.startMonoS (← get).monoS then
      return Engine.offerRecord p.ownOffer
  require (← get).signSet .unprovisioned
  let ed ← (← get).edPubkey C
  require (ephPub != .zero 32) .badRequest
  let payload := encodeOfferPayload { edPub := ed, ephPub, challenge }
  let slot ← okOr (← get).freeSlot .noSlot
  modify fun e => { e with
    pending := some
      { ownOffer := payload, ownEphPriv := ephPriv, peerOffer := none, peerIdentity := none
        transcript := none, ownRole := roleL, ownProof := none, peerProof := none
        ownConfirm := none, startMonoS := e.monoS, slot, replace := false } }
  return Engine.offerRecord payload

def importOffer (record : List UInt8) (replace : Bool) : Method PairImportOutcome := do
  let offer ← mapErr (decodeOfferRecord record) .badRequest
  let freeSlot := (← get).freeSlot
  let p ← okOr (← get).pending .pairingAbsent
  let own ← mapErr (decodeOfferPayload p.ownOffer.1) .storageFault
  mapErr (checkNotSelf own.edPub offer.edPub) .badRequest
  let e ← get
  require (!decide (∃ i, (e.contacts i).present ∧ (e.contacts i).edPeer = offer.edPub)) .badRequest
  let peerPayload := encodeOfferPayload offer
  let lr := Engine.orderPayloads p.ownOffer peerPayload
  let t := transcriptT C lr.1 lr.2
  let role := roleFor own.edPub offer.edPub
  let slot ← (if replace then .ok p.slot else okOr freeSlot .noSlot : Except EngineError Slot)
  modifyPending fun p => { p with peerOffer := some peerPayload }
  modifyPending fun p => { p with transcript := some t }
  modifyPending fun p => { p with ownRole := role }
  modifyPending fun p => { p with slot }
  modifyPending fun p => { p with replace }
  return { step := .needProof, fingerprint := transcriptFingerprint t, contactId := none }

/-- The proof that `pairProof` exports. -/
def buildProof (e : Engine) (p : PendingPair) (t : Bytes 32) :
    Except EngineError (Bytes proofRecordLen) := do
  let role := p.ownRole
  let keys ← Engine.setupKeys C p t
  require e.uidSet .unprovisioned
  let ct ← mapErr (encryptData C (Engine.setupKey keys role) Engine.setupNonce
    (Engine.proofAad t role) e.uid.1 proofCtLen) .storageFault
  if hct : ct.length = proofCtLen then
    let sig := C.edSign e.signPriv (Engine.proofMessage t role ct)
    mapErr (encodeProof { t, role, ct := ⟨ct, hct⟩, sig }) .badRequest
  else throw .storageFault

def pairProof : Method (List UInt8) := do
  (← get).checkUsable
  (← get).requireRadioOff
  let p ← livePending
  let t ← okOr p.transcript .badRequest
  match p.ownProof with
  | some saved => return saved.1
  | none =>
    let rec' ← buildProof C (← get) p t
    modifyPending fun p => { p with ownProof := some rec' }
    return rec'.1

/-- What `importProof` checks: the record, the identity it carries, and the transcript. -/
def checkProof (p : PendingPair) (record : List UInt8) :
    Except EngineError (Bytes proofRecordLen × Bytes 8 × Bytes 32) := do
  let proof ← mapErr (decodeProof record) .badRequest
  let t ← okOr p.transcript .badRequest
  require (proof.t == t) .badRequest
  require (proof.role != p.ownRole) .badRequest
  let peerPayload ← okOr p.peerOffer .badRequest
  let peer ← mapErr (decodeOfferPayload peerPayload.1) .badRequest
  require (C.edVerify peer.edPub (Engine.proofMessage proof.t proof.role proof.ct.1) proof.sig)
    .badRequest
  let keys ← Engine.setupKeys C p t
  let pt ← mapErr (decryptData C (Engine.setupKey keys proof.role) Engine.setupNonce
    (Engine.proofAad t proof.role) proof.ct.1 8) .badRequest
  if h : pt.length = 8 ∧ record.length = proofRecordLen then
    return (⟨record, h.2⟩, ⟨pt, h.1⟩, t)
  else throw .badRequest

def importProof (record : List UInt8) : Method PairImportOutcome := do
  let p ← okOr (← get).pending .pairingAbsent
  let (raw, pt, t) ← checkProof C p record
  modifyPending fun p => { p with peerProof := some raw }
  modifyPending fun p => { p with peerIdentity := some pt }
  return { step := .needConfirm, fingerprint := transcriptFingerprint t, contactId := none }

/-- The confirmation that `pairConfirm` exports. -/
def buildConfirm (p : PendingPair) (t : Bytes 32) : Except EngineError (Bytes confirmRecordLen) := do
  let ownProof ← okOr p.ownProof .badRequest
  let peerProof ← okOr p.peerProof .badRequest
  let digest := Engine.proofDigest C p.ownRole ownProof peerProof
  let root ← Engine.pairRoot C p t
  let mac := Engine.confirmMac C root t p.ownRole digest
  mapErr (encodeConfirmation { t, role := p.ownRole, mac }) .badRequest

def pairConfirm : Method (List UInt8) := do
  (← get).checkUsable
  (← get).requireRadioOff
  let p ← livePending
  let t ← okOr p.transcript .badRequest
  require p.peerProof.isSome .badRequest
  match p.ownConfirm with
  | some saved => return saved.1
  | none =>
    let rec' ← buildConfirm C p t
    modifyPending fun p => { p with ownConfirm := some rec' }
    return rec'.1

def activateContact (slot : Slot) (peerEd : Bytes 32) (peerId : Bytes 8) (root : Bytes 32)
    (role : UInt8) : Method Unit := do
  let epoch := (← get).epoch
  modify (·.clearContact slot)
  modifyContact slot fun c => { c with present := true }
  modifyContact slot fun c => { c with edPeer := peerEd }
  modifyContact slot fun c => { c with peerIdentity := peerId }
  modifyContact slot fun c => { c with root }
  modifyContact slot fun c => { c with trafficLr := deriveLabel C root labelTrafficLR }
  modifyContact slot fun c => { c with trafficRl := deriveLabel C root labelTrafficRL }
  modifyContact slot fun c => { c with addrSecret := deriveLabel C root labelAddress }
  modifyContact slot fun c => { c with role }
  modifyContact slot fun c => { c with anchor := ⟨epoch⟩ }
  modifyContact slot fun c => { c with winEpochs := slots epoch }

def importConfirm (record : List UInt8) : Method PairImportOutcome := do
  let p ← okOr (← get).pending .pairingAbsent
  let c ← Engine.checkConfirm C p record
  activateContact C p.slot c.peerEd c.peerId c.root p.ownRole
  modify (·.stagePersist (.pairActivate p.slot))
  return { step := .active, fingerprint := transcriptFingerprint c.t
           contactId := some (contactId p.slot) }

def pairImportSas (record : List UInt8) (replace sasMatch : Bool) : Method PairImportOutcome := do
  (← get).checkUsable
  (← get).requireRadioOff
  let _ ← livePending
  match record with
  | [] => throw .badRequest
  | type :: _ =>
    require (!(type == recordConfirm && !sasMatch)) .sasMismatch
    if type = recordOffer then importOffer C record replace
    else if type = recordProof then importProof C record
    else if type = recordConfirm then importConfirm C record
    else throw .badRequest

theorem pairOffer_call (ephPriv ephPub challenge : Bytes 32) (e : Engine) :
    (pairOffer C ephPriv ephPub challenge).call e =
      settle e (e.pairOffer C ephPriv ephPub challenge) := by
  unfold pairOffer Engine.pairOffer Engine.freshOffer
  simp only [call_check, call_get, settle_bind]
  cases hp : e.pending with
  | none =>
      simp only [call_check, call_get, call_modify, call_pure, settle_bind, settle_pure]
  | some p =>
      simp only [call_check, call_get, call_modify, call_pure, settle_bind, settle_pure, call_ite,
        settle_ite]
      cases isExpired p.startMonoS e.monoS <;> rfl

theorem importOffer_call {p : PendingPair} (record : List UInt8) (replace : Bool) {e : Engine}
    (hp : e.pending = some p) :
    (importOffer C record replace).call e = settle e (e.importOffer C p record replace) := by
  unfold importOffer Engine.importOffer modifyPending
  simp only [call_check, call_get, call_modify, call_pure, settle_bind, settle_pure, hp,
    after_okOr_some, Option.map_some]
  rfl

theorem livePending_bind {α : Type} (f : PendingPair → Method α) (e : Engine) :
    (livePending >>= f).call e = after e e.livePending fun p => (f p).call e := by
  rw [livePending, Engine.livePending]
  simp only [bind_assoc, pure_bind, call_check, call_get, after_bind]
  rfl

theorem freshProof_eq (e : Engine) (p : PendingPair) (t : Bytes 32) :
    e.freshProof C p t = do
      let rec' ← buildProof C e p t
      return ({ e with pending := some { p with ownProof := some rec' } }, rec'.1) := by
  unfold Engine.freshProof buildProof
  simp only [bind_assoc]
  refine bind_congr fun keys => bind_congr fun _ => bind_congr fun ct => ?_
  split
  · rfl
  · rfl

theorem pairProof_call (e : Engine) : (pairProof C).call e = settle e (e.pairProof C) := by
  unfold pairProof Engine.pairProof modifyPending
  simp only [call_check, call_get, settle_bind, livePending_bind]
  refine after_congr fun _ _ => after_congr fun _ _ => after_congr fun p hlive => ?_
  have hp := (livePending_ok hlive).1
  refine after_congr fun t _ => ?_
  cases p.ownProof with
  | some saved => rfl
  | none =>
      simp only [call_check, call_get, call_modify, call_pure, hp, Option.map_some, freshProof_eq,
        settle_bind, settle_pure]

theorem importProof_call {p : PendingPair} (record : List UInt8) {e : Engine}
    (hp : e.pending = some p) :
    (importProof C record).call e = settle e (e.importProof C p record) := by
  have heq : e.importProof C p record = do
      let (raw, pt, t) ← checkProof C p record
      return ({ e with pending := some { p with peerProof := some raw, peerIdentity := some pt } },
        { step := .needConfirm, fingerprint := transcriptFingerprint t, contactId := none }) := by
    unfold Engine.importProof checkProof
    simp only [bind_assoc]
    refine bind_congr fun proof => bind_congr fun t => bind_congr fun _ => bind_congr fun _ =>
      bind_congr fun _ => bind_congr fun _ => bind_congr fun _ => bind_congr fun _ =>
      bind_congr fun _ => ?_
    split
    · rename_i h
      rw [dif_pos (And.comm.mp h)]
      rfl
    · rename_i h
      rw [dif_neg fun h' => h (And.comm.mp h')]
      rfl
  rw [heq]
  unfold importProof modifyPending
  simp only [call_check, call_get, call_modify, call_pure, settle_bind, settle_pure, hp,
    after_okOr_some, Option.map_some]

theorem pairConfirm_call (e : Engine) : (pairConfirm C).call e = settle e (e.pairConfirm C) := by
  unfold pairConfirm Engine.pairConfirm modifyPending
  simp only [call_check, call_get, settle_bind, livePending_bind]
  refine after_congr fun _ _ => after_congr fun _ _ => after_congr fun p hlive => ?_
  have hp := (livePending_ok hlive).1
  refine after_congr fun t _ => after_congr fun _ _ => ?_
  cases p.ownConfirm with
  | some saved => rfl
  | none =>
      simp only [call_check, call_modify, call_pure, hp, Option.map_some, buildConfirm,
        Engine.freshConfirm, settle_bind, settle_pure, after_bind]

theorem clearContact_contacts (e : Engine) (i : Slot) :
    (e.clearContact i).contacts i = .empty := Function.update_self ..

theorem activateContact_bind {α : Type} (i : Slot) (peerEd : Bytes 32) (peerId : Bytes 8)
    (root : Bytes 32) (role : UInt8) (f : Unit → Method α) (e : Engine) :
    (activateContact C i peerEd peerId root role >>= f).call e =
      (f ()).call (e.activateContact C i peerEd peerId root role) := by
  unfold activateContact modifyContact
  simp only [bind_assoc, call_get, call_modify, setContact_setContact, setContact_contacts,
    clearContact_contacts]
  rfl

theorem importConfirm_call {p : PendingPair} (record : List UInt8) {e : Engine}
    (hp : e.pending = some p) :
    (importConfirm C record).call e = settle e (e.importConfirm C p record) := by
  unfold importConfirm Engine.importConfirm
  simp only [call_check, call_get, call_modify, call_pure, activateContact_bind, settle_bind,
    settle_pure, hp, after_okOr_some]

theorem pairImportSas_call (record : List UInt8) (replace sasMatch : Bool) (e : Engine) :
    (pairImportSas C record replace sasMatch).call e =
      settle e (e.pairImportSas C record replace sasMatch) := by
  unfold pairImportSas Engine.pairImportSas
  simp only [call_check, call_get, settle_bind, livePending_bind]
  refine after_congr fun _ _ => after_congr fun _ _ => after_congr fun p hlive => ?_
  have hp := (livePending_ok hlive).1
  cases record with
  | nil => rfl
  | cons type rest =>
      simp only [call_check, call_ite, call_throw, settle_bind, settle_ite, settle_throw,
        importOffer_call C _ _ hp, importProof_call C _ hp, importConfirm_call C _ hp]

/-! ### Sending, removal and blocking -/

def sendBegin (id : UInt8) (text : List UInt8) (packetId : UInt32) : Method PendingSend := do
  (← get).checkUsable
  require (← get).timeValid .timeUnset
  let slot ← (← get).slotOf id
  require (!((← get).contacts slot).blocked) .contactBlocked
  require (← get).pendingSend.isNone .busy
  require (!(text == [] || maxTextLen < text.length || !fromUtf8 text)) .badRequest
  let epoch := (← get).epoch
  require (!decide (epoch < ((← get).contacts slot).txEpochMax)) .timeRollback
  -- a spent block is extended, unless the counter is
  let op ← okOr ((← get).reservation slot .none) .storageFault
  modify (·.stagePersist op)
  modify fun e => { e with pendingText := text }
  let ps : PendingSend :=
    { contactId := id, epoch, sequence := ((← get).contacts slot).txNext, packetId }
  modify fun e => { e with pendingSend := some ps }
  return ps

def sendEmit : Method OutgoingFrame := do
  let (ps, slot) ← (← get).sendReady
  modify (·.refreshAliases C slot)
  let v := ((← get).contacts slot).dataEnvelope C (← get).uid ps (← get).pendingText
  let bytes ← sealFrame C v (1 + maxTextLen + tagLen)
  modifyContact slot fun c => { c with txNext := ps.sequence + 1 }
  modifyContact slot fun c => { c with txEpochMax := max c.txEpochMax ps.epoch }
  modify fun e => { e with persistedTxEpoch := max e.persistedTxEpoch ps.epoch }
  modify (·.stagePersist .none)
  modify fun e => { e with pendingSend := some ps }
  return { bytes, contactId := some ps.contactId, isAck := false, isRetryEcho := false
           envelope := some v }

def sendRetryEcho : Method OutgoingFrame := do
  (← get).sendRetryEcho C

/-- Clear the pending send if it is to this contact. -/
def dropSendTo (id : UInt8) : Method Unit := do
  if let some ps := (← get).pendingSend then
    if ps.contactId = id then
      modify fun e => { e with pendingSend := none }

def deleteContact (id : UInt8) : Method Unit := do
  (← get).checkUsable
  let slot ← (← get).slotOf id
  modify (·.clearContact slot)
  dropSendTo id
  modify (·.stagePersist .none)

def setBlocked (id : UInt8) (blocked : Bool) : Method BlockOutcome := do
  (← get).checkUsable
  let slot ← (← get).slotOf id
  modifyContact slot fun c => { c with blocked }
  modify (·.stagePersist .none)
  if blocked then
    if let some ps := (← get).pendingSend then
      if ps.contactId = id then
        modify fun e => { e with pendingSend := none }
        return .cancelledSend ps
    return .blocked
  else return .unblocked

theorem sendBegin_call (id : UInt8) (text : List UInt8) (packetId : UInt32) (e : Engine) :
    (sendBegin id text packetId).call e = settle e (e.sendBegin id text packetId) := by
  unfold sendBegin Engine.sendBegin
  simp only [call_check, call_get, call_modify, call_pure, settle_bind, settle_pure]
  rfl

theorem sendEmit_call (e : Engine) : (sendEmit C).call e = e.sendEmit C := by
  unfold sendEmit Engine.sendEmit modifyContact
  simp only [call_get, call_check, call_modify, call_pure, setContact_setContact, setContact_contacts]
  cases hready : e.sendReady with
  | error x => rfl
  | ok r =>
      obtain ⟨ps, slot⟩ := r
      obtain ⟨-, hps, -, hnext, -⟩ := sendReady_spec hready
      dsimp only [after]
      rw [refreshAliases_eq]
      generalize (e.refreshAliases C slot).aliases = as
      dsimp only
      cases sealFrame C ((e.contacts slot).dataEnvelope C e.uid ps e.pendingText)
          (1 + maxTextLen + tagLen) with
      | error x => rfl
      | ok bytes =>
          -- what is put in flight again is what was in flight
          rw [← hnext]
          simp only [Engine.stagePersist, Engine.setContact, Contact.consume, hps]

theorem sendRetryEcho_call (e : Engine) : (sendRetryEcho C).call e = (e, e.sendRetryEcho C) := by
  rw [sendRetryEcho, call_get]
  cases e.sendRetryEcho C <;> rfl

theorem deleteContact_call (id : UInt8) (e : Engine) :
    (deleteContact id).call e = settle e (e.deleteContact id) := by
  unfold deleteContact Engine.deleteContact dropSendTo
  simp only [call_check, call_get, call_modify, settle_bind, settle_pure, bind_assoc]
  refine after_congr fun _ _ => after_congr fun slot _ => ?_
  unfold Engine.dropSendTo
  cases (e.clearContact slot).pendingSend with
  | none => rfl
  | some ps =>
      dsimp only
      by_cases hid : ps.contactId = id
      · rw [if_pos hid, if_pos hid]
        rfl
      · rw [if_neg hid, if_neg hid]
        rfl

theorem setBlocked_call (id : UInt8) (blocked : Bool) (e : Engine) :
    (setBlocked id blocked).call e = settle e (e.setBlocked id blocked) := by
  unfold setBlocked Engine.setBlocked modifyContact
  simp only [call_check, call_get, call_modify, settle_bind]
  refine after_congr fun _ _ => after_congr fun slot _ => ?_
  generalize (e.setContact slot { e.contacts slot with blocked }).stagePersist .none = e'
  cases blocked with
  | false => rfl
  | true =>
      simp only [if_true, call_get]
      cases e'.pendingSend with
      | none => rfl
      | some ps =>
          dsimp only
          by_cases hid : ps.contactId = id
          · rw [if_pos hid, if_pos hid]
            rfl
          · rw [if_neg hid, if_neg hid]
            rfl

end

end Method

/-! ### Failures -/

/-- The operations whose failure the caller is told of, but for the reading of the clock. -/
def Op.fallible : Op → Bool
  | .provision .. | .setTime .. | .setRadio .. | .armNextBoot | .consumeBootArm => true
  | .pairOffer .. | .pairImport .. | .pairProof | .pairConfirm => true
  | .sendBegin .. | .sendEmit | .sendRetryEcho => true
  | .deleteContact .. | .setBlocked .. => true
  | _ => false

/-- A failure. -/
def Output.failed : Output → Bool
  | .unit r => !r.isOk
  | .hour r => !r.isOk
  | .armed r => !r.isOk
  | .record r => !r.isOk
  | .imported r => !r.isOk
  | .send r => !r.isOk
  | .frame r => !r.isOk
  | .block r => !r.isOk
  | .done | .incoming _ => false

section

variable (C : Crypto)

/-- One operation, each fallible one by its method. -/
def perform (e : Engine) : Op → Engine × Output
  | .provision label signPriv => answer .unit ((Method.provision label signPriv).call e)
  | .setTime s confirmed => answer .hour ((Method.setTimeConfirmed s confirmed).call e)
  | .setRadio enabled => answer .unit ((Method.setRadio enabled).call e)
  | .armNextBoot => answer .unit (Method.armNextBoot.call e)
  | .consumeBootArm => answer .armed (Method.consumeBootArm.call e)
  | .pairOffer ephPriv ephPub challenge =>
    answer .record ((Method.pairOffer C ephPriv ephPub challenge).call e)
  | .pairImport record replace sasMatch =>
    answer .imported ((Method.pairImportSas C record replace sasMatch).call e)
  | .pairProof => answer .record ((Method.pairProof C).call e)
  | .pairConfirm => answer .record ((Method.pairConfirm C).call e)
  | .sendBegin id text packetId => answer .send ((Method.sendBegin id text packetId).call e)
  | .sendEmit => answer .frame ((Method.sendEmit C).call e)
  | .sendRetryEcho => answer .frame ((Method.sendRetryEcho C).call e)
  | .deleteContact id => answer .unit ((Method.deleteContact id).call e)
  | .setBlocked id blocked => answer .block ((Method.setBlocked id blocked).call e)
  | op => step C e op

/-- The methods do what the functions say. -/
theorem perform_eq_step (e : Engine) (op : Op) : perform C e op = step C e op := by
  cases op <;>
    simp only [perform, step, Method.provision_call, Method.setTimeConfirmed_call,
      Method.setRadio_call, Method.armNextBoot_call, Method.consumeBootArm_call,
      Method.pairOffer_call, Method.pairImportSas_call, Method.pairProof_call,
      Method.pairConfirm_call, Method.sendBegin_call, Method.sendEmit_call,
      Method.sendRetryEcho_call, Method.deleteContact_call, Method.setBlocked_call, answer]

end

theorem settle_failed {α : Type} {e : Engine} {r : Except EngineError (Engine × α)}
    (h : (!(settle e r).2.isOk) = true) : (settle e r).1 = e := by
  cases r with
  | error x => rfl
  | ok a => cases h

/-- A set time fails in its checks alone: no contact refuses an hour that the floor permits, so the
loop over the contacts is not left half way. -/
theorem setTimeConfirmed_failed {e : Engine} {s : UInt64} {confirmed : Bool}
    (h : (!(e.setTimeConfirmed s confirmed).2.isOk) = true) : (e.setTimeConfirmed s confirmed).1 = e := by
  rw [Method.setTimeConfirmed_after] at h ⊢
  cases hcheck : Method.checkTime e s confirmed with
  | error x => rfl
  | ok n =>
      have hfloor : ¬ n < e.timeFloor := by
        simp only [Method.checkTime, bind_eq_ok, require_eq_ok, okOr_eq_ok, pure_eq_ok] at hcheck
        obtain ⟨_, -, _, -, _, hfloor, _, -, rfl⟩ := hcheck
        simpa only [Bool.not_eq_true', decide_eq_false_iff_not] using hfloor
      obtain ⟨cs, as, hrun, -⟩ := Engine.advanceAll_spec _ e (List.nodup_finRange maxContacts)
        fun i _ => Engine.not_lt_timeFloor hfloor i
      rw [hcheck, Method.after, hrun] at h
      cases h

/-- A frame that is not sealed leaves the aliases refreshed. -/
theorem sendEmit_failed {C : Crypto} {e : Engine} (h : (!(e.sendEmit C).2.isOk) = true) :
    ∃ as, (e.sendEmit C).1 = { e with aliases := as } := by
  unfold Engine.sendEmit at h ⊢
  split at h
  · exact ⟨e.aliases, rfl⟩
  rename_i ps slot _
  dsimp only at h ⊢
  rw [refreshAliases_eq] at h ⊢
  split at h
  · exact ⟨_, rfl⟩
  · cases h

/-- **A failure changes nothing.**  A method that fails leaves the engine as it was, but for the
cached aliases. -/
theorem failed_unchanged (C : Crypto) (e : Engine) (op : Op) (hop : op.fallible = true)
    (h : (perform C e op).2.failed = true) : ∃ as, (perform C e op).1 = { e with aliases := as } := by
  rw [perform_eq_step] at h ⊢
  have settled {α : Type} {r : Except EngineError (Engine × α)} (h : (!(settle e r).2.isOk) = true) :
      ∃ as, (settle e r).1 = { e with aliases := as } := ⟨e.aliases, settle_failed h⟩
  cases op with
  | provision => exact settled h
  | setTime => exact ⟨e.aliases, setTimeConfirmed_failed h⟩
  | setRadio => exact settled h
  | armNextBoot => exact settled h
  | consumeBootArm => exact settled h
  | pairOffer => exact settled h
  | pairImport => exact settled h
  | pairProof => exact settled h
  | pairConfirm => exact settled h
  | sendBegin => exact settled h
  | sendEmit => exact sendEmit_failed h
  | sendRetryEcho => exact ⟨e.aliases, rfl⟩
  | deleteContact => exact settled h
  | setBlocked => exact settled h
  | _ => cases hop

/-- A label that is none, refused. -/
theorem failed_unchanged_sample :
    ∃ as, (perform Sample.crypto (Engine.new true) (.provision 0 (.zero 32))).1 =
      { Engine.new true with aliases := as } :=
  failed_unchanged Sample.crypto (Engine.new true) (.provision 0 (.zero 32)) rfl rfl

end LoraMesh
