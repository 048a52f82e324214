import LoraMesh.Lib.Lockstep
import LoraMesh.Engine.Op

/-!
# Engine — Invisible

Unauthenticated traffic changes nothing at the endpoint: a run with frames put in anywhere that
authenticate for no contact goes as the run without them.

* `Engine.authenticates`: the receive path opens a frame under a present contact.
* `SameBut`: two engines that differ in what such frames leave behind, their `Hearsay`, alone.
* `step_same`: an operation takes engines that are the same but for it to ones that are.
* `unheard_invisible`: the two runs, step beside step.
-/

namespace LoraMesh

/-- What a frame that authenticates for no contact may leave behind: cached aliases, the relay
cache and the count of failed tags. -/
structure Hearsay where
  aliases : Slot → AliasSlot
  relayCache : RelayCache
  authFailures : UInt32

namespace Engine

def hearsay (e : Engine) : Hearsay := ⟨e.aliases, e.relayCache, e.authFailures⟩

/-- The engine with other hearsay. -/
def withHearsay (e : Engine) (x : Hearsay) : Engine :=
  { e with aliases := x.aliases, relayCache := x.relayCache, authFailures := x.authFailures }

end Engine

/-- The trial has opened the frame. -/
def Engine.Trial.opens : Engine.Trial → Bool
  | .opened _ _ => true
  | _ => false

/-- A received frame authenticates for a present contact: the node is in a state to try it, and
the contact has a window of its epoch, its aliases and its key, and the body is valid. -/
def Engine.authenticates (C : Crypto) (e : Engine) (frame : List UInt8) : Bool :=
  e.provisioned && !e.fault && e.timeValid &&
    match decodeFrame frame with
    | .ok (h, body) =>
      inAcceptWindow h.epoch e.epoch && decide (∃ slot, (e.tryContact C slot h body).opens = true)
    | .error _ => false

/-- The contact a received frame opens under: the first whose trial opens it. -/
def Engine.sender? (C : Crypto) (e : Engine) (frame : List UInt8) : Option Slot :=
  match decodeFrame frame with
  | .ok (h, body) => (List.finRange maxContacts).find? fun slot => (e.tryContact C slot h body).opens
  | .error _ => none

/-- The two engines differ in their hearsay alone. -/
def SameBut (e e' : Engine) : Prop := ∃ x, e' = e.withHearsay x

namespace SameBut

/-- Every other field is the same. -/
theorem of_rest {e e' : Engine} (h : e' = e.withHearsay e'.hearsay) : SameBut e e' := ⟨_, h⟩

theorem refl (e : Engine) : SameBut e e := .of_rest rfl

theorem symm {e e' : Engine} (h : SameBut e e') : SameBut e' e := by
  obtain ⟨x, rfl⟩ := h
  exact .of_rest rfl

theorem trans {e e' e'' : Engine} (h : SameBut e e') (h' : SameBut e' e'') : SameBut e e'' := by
  obtain ⟨x, rfl⟩ := h
  obtain ⟨y, rfl⟩ := h'
  exact ⟨y, rfl⟩

/-- What a caller is handed to commit. -/
theorem pendingPersist {e e' : Engine} (h : SameBut e e') : e'.pendingPersist = e.pendingPersist := by
  obtain ⟨x, rfl⟩ := h
  rfl

end SameBut

/-- A choice that two runs make alike. -/
theorem ite_alike {α : Type*} {R : α → α → Prop} {p : Prop} [Decidable p] {a a' b b' : α} (ha : p → R a a')
    (hb : ¬ p → R b b') : R (if p then a else b) (if p then a' else b') := by
  by_cases h : p
  · rw [if_pos h, if_pos h]
    exact ha h
  · rw [if_neg h, if_neg h]
    exact hb h

/-! ### Answers -/

/-- The same answer, and engines that are the same but for hearsay. -/
def SameBoth {α : Type} (r r' : Engine × α) : Prop := SameBut r.1 r'.1 ∧ r'.2 = r.2

theorem SameBoth.eq {α : Type} {r r' : Engine × α} (h : SameBoth r r') : ∃ x, r' = (r.1.withHearsay x, r.2) := by
  obtain ⟨⟨x, hx⟩, ha⟩ := h
  exact ⟨x, Prod.ext hx ha⟩

/-- `SameBoth` of an operation that answers an engine only when it succeeds. -/
inductive SameTry {α : Type} : Except EngineError (Engine × α) → Except EngineError (Engine × α) → Prop where
  | ok {e e' : Engine} {a : α} (h : SameBut e e') : SameTry (.ok (e, a)) (.ok (e', a))
  | error {x : EngineError} : SameTry (.error x) (.error x)

namespace SameTry

variable {α β : Type}

/-- A check that reads no hearsay, and what follows it. -/
theorem bind {g : Except EngineError β} {k k' : β → Except EngineError (Engine × α)}
    (hk : ∀ b, SameTry (k b) (k' b)) : SameTry (g >>= k) (g >>= k') := by
  cases g with
  | error x => exact .error
  | ok b => exact hk b

theorem settled {r r' : Except EngineError (Engine × α)} {e e' : Engine} (h : SameTry r r')
    (he : SameBut e e') (f : Except EngineError α → Output) :
    SameBoth (answer f (settle e r)) (answer f (settle e' r')) := by
  cases h with
  | ok h => exact ⟨h, rfl⟩
  | error => exact ⟨he, rfl⟩

end SameTry

variable {C : Crypto} {e : Engine} {x : Hearsay}

/-! ### Staging and the clock -/

@[simp] theorem withHearsay_contacts : (e.withHearsay x).contacts = e.contacts := rfl

@[simp] theorem withHearsay_staged : (e.withHearsay x).staged = e.staged := rfl

@[simp] theorem withHearsay_pending : (e.withHearsay x).pending = e.pending := rfl

@[simp] theorem withHearsay_pendingSend : (e.withHearsay x).pendingSend = e.pendingSend := rfl

@[simp] theorem withHearsay_sendReady : (e.withHearsay x).sendReady = e.sendReady := rfl

@[simp] theorem withHearsay_reservation (slot : Slot) (spare : StagedCommit) :
    (e.withHearsay x).reservation slot spare = e.reservation slot spare := rfl

theorem stagePersist_same {e e' : Engine} (h : SameBut e e') (op : StagedCommit) :
    SameBut (e.stagePersist op) (e'.stagePersist op) := by
  obtain ⟨x, rfl⟩ := h
  exact ⟨x, rfl⟩

theorem commitOk_same : SameBut e.commitOk (e.withHearsay x).commitOk := by
  rw [Engine.commitOk, Engine.commitOk, withHearsay_staged]
  cases e.staged with
  | none => exact ⟨x, rfl⟩
  | some kind =>
      cases kind with
      | txReserve slot n => exact ⟨x, rfl⟩
      | pairActivate slot => exact ⟨x, rfl⟩
      | _ => exact ⟨x, rfl⟩

theorem setRadioAvailable_same (available : Bool) :
    SameBut (e.setRadioAvailable available) ((e.withHearsay x).setRadioAvailable available) := by
  cases available with
  | true => exact ⟨x, rfl⟩
  | false => exact ⟨x, rfl⟩

theorem setIdentity_same (uid : Bytes 8) :
    SameBut (e.setIdentity uid) ((e.withHearsay x).setIdentity uid) := by
  exact ite_alike (fun _ => ⟨x, rfl⟩) fun _ => ⟨x, rfl⟩

/-- The rotation of the contacts, in the order of the slots. -/
theorem advanceAll_same (newEpoch : UInt32) (is : List Slot) : ∀ {e e' : Engine}, SameBut e e' →
    SameBoth (Engine.advanceAll newEpoch is e) (Engine.advanceAll newEpoch is e') := by
  induction is with
  | nil => exact fun h => ⟨h, rfl⟩
  | cons i is ih =>
      rintro e _ ⟨x, rfl⟩
      rw [Engine.advanceAll, Engine.advanceAll, withHearsay_contacts]
      refine ite_alike (fun _ => ?_) fun _ => ih ⟨x, rfl⟩
      cases (e.contacts i).anchor.trustedAdvance newEpoch with
      | error y => exact ⟨⟨x, rfl⟩, rfl⟩
      | ok r => exact ih (.of_rest rfl)

theorem setTimeConfirmed_same {e e' : Engine} (h : SameBut e e') (s : UInt64) (confirmed : Bool) :
    SameBoth (e.setTimeConfirmed s confirmed) (e'.setTimeConfirmed s confirmed) := by
  obtain ⟨x, rfl⟩ := h
  rw [Engine.setTimeConfirmed, Engine.setTimeConfirmed]
  refine ite_alike (fun _ => ⟨⟨x, rfl⟩, rfl⟩) fun _ => ?_
  cases epochOfUnix s with
  | none => exact ⟨⟨x, rfl⟩, rfl⟩
  | some newEpoch =>
      refine ite_alike (fun _ => ⟨⟨x, rfl⟩, rfl⟩) fun _ => ?_
      refine ite_alike (fun _ => ⟨⟨x, rfl⟩, rfl⟩) fun _ => ?_
      obtain ⟨y, hrun⟩ := (advanceAll_same newEpoch (List.finRange maxContacts)
        (⟨x, rfl⟩ : SameBut e (e.withHearsay x))).eq
      rw [hrun]
      obtain ⟨e₁, r⟩ := Engine.advanceAll newEpoch (List.finRange maxContacts) e
      cases r with
      | error z => exact ⟨⟨y, rfl⟩, rfl⟩
      | ok u => exact ⟨⟨y, rfl⟩, rfl⟩

/-- The hour that a time was set to is dropped. -/
theorem dropHour_same {r r' : Engine × Except EngineError UInt32} : SameBoth r r' →
    SameBoth
      (match r with
      | (e, .error x) => (e, Except.error x)
      | (e, .ok _) => (e, .ok ()))
      (match r' with
      | (e, .error x) => (e, Except.error x)
      | (e, .ok _) => (e, .ok ())) := by
  intro h
  obtain ⟨y, rfl⟩ := h.eq
  obtain ⟨e₁, r⟩ := r
  cases r with
  | error z => exact ⟨⟨y, rfl⟩, rfl⟩
  | ok n => exact ⟨⟨y, rfl⟩, rfl⟩

theorem advanceTime_same (now : UInt64) :
    SameBoth (e.advanceTime now) ((e.withHearsay x).advanceTime now) := by
  rw [Engine.advanceTime, Engine.advanceTime]
  refine ite_alike (fun _ => ⟨⟨x, rfl⟩, rfl⟩) fun _ => ite_alike (fun _ => ⟨⟨x, rfl⟩, rfl⟩) fun _ => ?_
  dsimp only
  have hutc : (e.withHearsay x).utcMonoS = e.utcMonoS := rfl
  have hunix : (e.withHearsay x).unixSeconds = e.unixSeconds := rfl
  rw [hutc, hunix]
  cases checkedSub64 now e.utcMonoS with
  | none => exact ⟨⟨x, rfl⟩, rfl⟩
  | some elapsed =>
      dsimp only
      cases (checkedAdd64 e.unixSeconds elapsed).filter fun s => (epochOfUnix s).isSome with
      | none => exact ⟨⟨x, rfl⟩, rfl⟩
      | some next =>
          dsimp only
          exact ite_alike (fun _ => dropHour_same (setTimeConfirmed_same ⟨x, rfl⟩ next false))
            fun _ => ⟨⟨x, rfl⟩, rfl⟩

theorem provision_same (label : UInt8) (signPriv : Bytes 32) :
    SameTry (e.provision label signPriv) ((e.withHearsay x).provision label signPriv) :=
  .bind fun _ => .bind fun _ => .bind fun _ => .ok ⟨x, rfl⟩

theorem setRadio_same (enabled : Bool) :
    SameTry (e.setRadio enabled) ((e.withHearsay x).setRadio enabled) := by
  refine .bind fun _ => .bind fun _ => ?_
  cases enabled with
  | true => exact .ok ⟨x, rfl⟩
  | false => exact .ok ⟨x, rfl⟩

theorem armNextBoot_same : SameTry e.armNextBoot (e.withHearsay x).armNextBoot :=
  .bind fun _ => .bind fun _ => .ok ⟨x, rfl⟩

theorem consumeBootArm_same : SameTry e.consumeBootArm (e.withHearsay x).consumeBootArm := by
  refine .bind fun _ => ?_
  have harm : (e.withHearsay x).armedNextBoot = e.armedNextBoot := rfl
  dsimp only
  rw [harm]
  cases e.armedNextBoot with
  | true => exact .ok ⟨x, rfl⟩
  | false => exact .ok ⟨x, rfl⟩

/-! ### Pairing -/

theorem freshOffer_same (ephPriv ephPub challenge : Bytes 32) :
    SameTry (e.freshOffer C ephPriv ephPub challenge)
      ((e.withHearsay x).freshOffer C ephPriv ephPub challenge) :=
  .bind fun _ => .bind fun _ => .bind fun _ => .bind fun _ => .ok ⟨x, rfl⟩

theorem pairOffer_same (ephPriv ephPub challenge : Bytes 32) :
    SameTry (e.pairOffer C ephPriv ephPub challenge)
      ((e.withHearsay x).pairOffer C ephPriv ephPub challenge) := by
  refine .bind fun _ => .bind fun _ => ?_
  rw [withHearsay_pending]
  cases e.pending with
  | none => exact freshOffer_same ephPriv ephPub challenge
  | some p =>
      exact ite_alike (fun _ => freshOffer_same ephPriv ephPub challenge) fun _ => .ok ⟨x, rfl⟩

theorem pairProof_same : SameTry (e.pairProof C) ((e.withHearsay x).pairProof C) := by
  refine .bind fun _ => .bind fun _ => .bind fun p => .bind fun t => ?_
  cases p.ownProof with
  | some saved => exact .ok ⟨x, rfl⟩
  | none =>
      refine .bind fun keys => .bind fun _ => .bind fun ct => ?_
      dsimp only
      split
      · exact .bind fun _ => .ok ⟨x, rfl⟩
      · exact .error

theorem pairConfirm_same : SameTry (e.pairConfirm C) ((e.withHearsay x).pairConfirm C) := by
  refine .bind fun _ => .bind fun _ => .bind fun p => .bind fun t => .bind fun _ => ?_
  cases p.ownConfirm with
  | some saved => exact .ok ⟨x, rfl⟩
  | none => exact .bind fun _ => .bind fun _ => .bind fun _ => .bind fun _ => .ok ⟨x, rfl⟩

theorem importOffer_same (p : PendingPair) (record : List UInt8) (replace : Bool) :
    SameTry (e.importOffer C p record replace) ((e.withHearsay x).importOffer C p record replace) :=
  .bind fun _ => .bind fun _ => .bind fun _ => .bind fun _ => .bind fun _ => .ok ⟨x, rfl⟩

theorem importProof_same (p : PendingPair) (record : List UInt8) :
    SameTry (e.importProof C p record) ((e.withHearsay x).importProof C p record) := by
  refine .bind fun proof => .bind fun t => .bind fun _ => .bind fun _ => .bind fun payload =>
    .bind fun peer => .bind fun _ => .bind fun keys => .bind fun pt => ?_
  split
  · exact .ok ⟨x, rfl⟩
  · exact .error

theorem importConfirm_same (p : PendingPair) (record : List UInt8) :
    SameTry (e.importConfirm C p record) ((e.withHearsay x).importConfirm C p record) :=
  .bind fun _ => .ok (.of_rest rfl)

theorem pairImportSas_same (record : List UInt8) (replace sasMatch : Bool) :
    SameTry (e.pairImportSas C record replace sasMatch)
      ((e.withHearsay x).pairImportSas C record replace sasMatch) := by
  refine .bind fun _ => .bind fun _ => .bind fun p => ?_
  cases record with
  | nil => exact .error
  | cons type rest =>
      exact .bind fun _ => ite_alike (fun _ => importOffer_same p _ replace) fun _ =>
        ite_alike (fun _ => importProof_same p _) fun _ => ite_alike (fun _ => importConfirm_same p _) fun _ => .error

/-! ### Sending and blocking -/

theorem sendBegin_same (id : UInt8) (text : List UInt8) (packetId : UInt32) :
    SameTry (e.sendBegin id text packetId) ((e.withHearsay x).sendBegin id text packetId) :=
  .bind fun _ => .bind fun _ => .bind fun _ => .bind fun _ => .bind fun _ => .bind fun _ =>
    .bind fun _ => .bind fun _ => .ok ⟨x, rfl⟩

theorem refreshAliases_same (slot : Slot) : SameBut e (e.refreshAliases C slot) := by
  rw [refreshAliases_eq]
  exact .of_rest rfl

theorem sendEmit_same : SameBoth (e.sendEmit C) ((e.withHearsay x).sendEmit C) := by
  rw [Engine.sendEmit, Engine.sendEmit, withHearsay_sendReady]
  cases e.sendReady with
  | error y => exact ⟨⟨x, rfl⟩, rfl⟩
  | ok r =>
      obtain ⟨ps, slot⟩ := r
      dsimp only
      obtain ⟨y, hy⟩ := refreshAliases_same (C := C) (e := e) slot
      obtain ⟨z, hz⟩ := refreshAliases_same (C := C) (e := e.withHearsay x) slot
      rw [hy, hz]
      have hu : (e.withHearsay y).uid = e.uid := rfl
      have ht : (e.withHearsay y).pendingText = e.pendingText := rfl
      have hu' : ((e.withHearsay x).withHearsay z).uid = e.uid := rfl
      have ht' : ((e.withHearsay x).withHearsay z).pendingText = e.pendingText := rfl
      simp only [withHearsay_contacts, hu, ht, hu', ht']
      cases sealFrame C ((e.contacts slot).dataEnvelope C e.uid ps e.pendingText)
          (1 + maxTextLen + tagLen) with
      | error err => exact ⟨⟨z, rfl⟩, rfl⟩
      | ok bytes => exact ⟨⟨z, rfl⟩, rfl⟩

theorem dropSendTo_same {e e' : Engine} (h : SameBut e e') (id : UInt8) :
    SameBut (e.dropSendTo id) (e'.dropSendTo id) := by
  obtain ⟨x, rfl⟩ := h
  rw [Engine.dropSendTo, Engine.dropSendTo, withHearsay_pendingSend]
  cases e.pendingSend with
  | none => exact ⟨x, rfl⟩
  | some ps =>
      exact ite_alike (fun _ => ⟨x, rfl⟩) fun _ => ⟨x, rfl⟩

theorem deleteContact_same (id : UInt8) :
    SameTry (e.deleteContact id) ((e.withHearsay x).deleteContact id) :=
  .bind fun _ => .bind fun _ => .ok (stagePersist_same (dropSendTo_same (.of_rest rfl) id) .none)

theorem setBlocked_same (id : UInt8) (blocked : Bool) :
    SameTry (e.setBlocked id blocked) ((e.withHearsay x).setBlocked id blocked) := by
  refine .bind fun _ => .bind fun slot => ?_
  cases blocked with
  | false => exact .ok ⟨x, rfl⟩
  | true =>
      have hsend (e : Engine) (c : Contact) :
          ((e.setContact slot c).stagePersist .none).pendingSend = e.pendingSend := rfl
      rw [if_pos rfl, if_pos rfl, hsend, hsend, withHearsay_pendingSend]
      cases e.pendingSend with
      | none => exact .ok ⟨x, rfl⟩
      | some ps =>
          dsimp only
          split
          · exact .ok ⟨x, rfl⟩
          · exact .ok ⟨x, rfl⟩

theorem noteOrigin_same {e e' : Engine} (h : SameBut e e') (bytes : List UInt8) (now : UInt64) :
    SameBut (e.noteOrigin C bytes now) (e'.noteOrigin C bytes now) := by
  obtain ⟨x, rfl⟩ := h
  rw [Engine.noteOrigin, Engine.noteOrigin]
  cases decodeFrame bytes with
  | error r => exact ⟨x, rfl⟩
  | ok d =>
      dsimp only
      cases cacheKeyOfFrame C bytes d.2 with
      | none => exact ⟨x, rfl⟩
      | some key => exact .of_rest rfl

theorem restore_same (bytes : List UInt8) :
    SameTry (e.restore C bytes) ((e.withHearsay x).restore C bytes) :=
  .bind fun _ => .ok ⟨⟨fun _ => .empty, x.relayCache, x.authFailures⟩, rfl⟩

/-! ### Receiving -/

theorem buildAck_same {e e' : Engine} (h : SameBut e e') (slot : Slot) (dataH : Header) (packetId : UInt32) :
    SameBoth (e.buildAck C slot dataH packetId) (e'.buildAck C slot dataH packetId) := by
  obtain ⟨x, rfl⟩ := h
  rw [Engine.buildAck, Engine.buildAck, withHearsay_reservation]
  refine ite_alike (fun _ => ⟨⟨x, rfl⟩, rfl⟩) fun _ => ?_
  cases e.reservation slot .rxAccept with
  | none => exact ⟨⟨x, rfl⟩, rfl⟩
  | some op =>
      have hc : ((e.withHearsay x).stagePersist op).contacts = e.contacts := rfl
      have hu : ((e.withHearsay x).stagePersist op).uid = e.uid := rfl
      have ht : (e.withHearsay x).epoch = e.epoch := rfl
      have hc' : (e.stagePersist op).contacts = e.contacts := rfl
      have hu' : (e.stagePersist op).uid = e.uid := rfl
      dsimp only
      rw [hc, hu, ht, hc', hu']
      cases sealFrame C ((e.contacts slot).ackEnvelope C e.uid dataH packetId e.epoch) (17 + tagLen) with
      | error y => exact ⟨⟨x, rfl⟩, rfl⟩
      | ok bytes => exact ⟨⟨x, rfl⟩, rfl⟩

theorem acceptData_same {e e' : Engine} (h : SameBut e e') (slot : Slot) (win : Fin 3) (hd : Header)
    (text : List UInt8) (packetId : UInt32) :
    SameBoth (e.acceptData C slot win hd text packetId) (e'.acceptData C slot win hd text packetId) := by
  obtain ⟨x, rfl⟩ := h
  have haccept : (e.withHearsay x).acceptInData slot win hd.sequence =
    ((e.acceptInData slot win hd.sequence).1, (e.acceptInData slot win hd.sequence).2.withHearsay x) := rfl
  rw [Engine.acceptData, Engine.acceptData, haccept]
  generalize e.acceptInData slot win hd.sequence = r
  obtain ⟨v, e₁⟩ := r
  cases v with
  | accepted =>
      obtain ⟨he, hf⟩ := buildAck_same (C := C) (stagePersist_same (⟨x, rfl⟩ : SameBut e₁ _) .rxAccept)
        slot hd packetId
      refine ⟨he, ?_⟩
      dsimp only
      rw [hf]
  | duplicate =>
      obtain ⟨he, hf⟩ := buildAck_same (C := C)
        (stagePersist_same (⟨x, rfl⟩ : SameBut e₁.countReplay (e₁.withHearsay x).countReplay) .none)
        slot hd packetId
      refine ⟨he, ?_⟩
      dsimp only
      rw [hf]
  | stale => exact ⟨⟨x, rfl⟩, rfl⟩

theorem acceptAck_same {e e' : Engine} (h : SameBut e e') (slot : Slot) (win : Fin 3) (hd : Header)
    (ref : List UInt8) : SameBoth (e.acceptAck slot win hd ref) (e'.acceptAck slot win hd ref) := by
  obtain ⟨x, rfl⟩ := h
  have haccept : (e.withHearsay x).acceptInAck slot win hd.sequence =
    ((e.acceptInAck slot win hd.sequence).1, (e.acceptInAck slot win hd.sequence).2.withHearsay x) := rfl
  rw [Engine.acceptAck, Engine.acceptAck, haccept]
  generalize e.acceptInAck slot win hd.sequence = r
  obtain ⟨v, e₁⟩ := r
  cases v with
  | accepted =>
      have hsend : ((e₁.withHearsay x).stagePersist .rxAccept).pendingSend = e₁.pendingSend := rfl
      have hsend' : (e₁.stagePersist .rxAccept).pendingSend = e₁.pendingSend := rfl
      dsimp only
      rw [hsend, hsend']
      cases e₁.pendingSend with
      | none => exact ⟨⟨x, rfl⟩, rfl⟩
      | some ps =>
          dsimp only
          split
          · exact ⟨⟨x, rfl⟩, rfl⟩
          · exact ⟨⟨x, rfl⟩, rfl⟩
  | duplicate => exact ⟨⟨x, rfl⟩, rfl⟩
  | stale => exact ⟨⟨x, rfl⟩, rfl⟩

theorem acceptBody_same {e e' : Engine} (h : SameBut e e') (slot : Slot) (win : Fin 3) (hd : Header)
    (plaintext : List UInt8) (packetId : UInt32) :
    SameBoth (e.acceptBody C slot win hd plaintext packetId)
      (e'.acceptBody C slot win hd plaintext packetId) := by
  have hc : e'.contacts = e.contacts := by
    obtain ⟨x, rfl⟩ := h
    rfl
  unfold Engine.acceptBody
  rw [hc]
  refine ite_alike (fun _ => ⟨h, rfl⟩) fun _ => ?_
  cases plaintext with
  | nil => exact ⟨h, rfl⟩
  | cons b rest =>
      exact ite_alike (fun _ => acceptData_same h slot win hd rest packetId) fun _ => acceptAck_same h slot win hd rest

theorem tryContact_same {e e' : Engine} (h : SameBut e e') (slot : Slot) (hd : Header) (body : List UInt8) :
    e'.tryContact C slot hd body = e.tryContact C slot hd body := by
  obtain ⟨x, rfl⟩ := h
  rfl

theorem touchAliases_same (slot : Slot) (hd : Header) : SameBut e (e.touchAliases C slot hd) := by
  rw [touchAliases_eq]
  exact .of_rest rfl

/-- The contacts are tried alike. -/
theorem scan_same (hd : Header) (body : List UInt8) (is : List Slot) : ∀ {e e' : Engine} (failed : Bool),
    SameBut e e' → SameBoth (Engine.scan C hd body is e failed) (Engine.scan C hd body is e' failed) := by
  induction is with
  | nil => exact fun _ h => ⟨h, rfl⟩
  | cons slot is ih =>
      intro e e' failed h
      have h' : SameBut (e.touchAliases C slot hd) (e'.touchAliases C slot hd) :=
        ((touchAliases_same slot hd).symm.trans h).trans (touchAliases_same slot hd)
      have htry := tryContact_same (C := C) h' slot hd body
      rw [Engine.scan, Engine.scan]
      rw [htry]
      cases (e.touchAliases C slot hd).tryContact C slot hd body with
      | skip => exact ih failed h'
      | badTag => exact ih true h'
      | opened win plaintext => exact ⟨h', rfl⟩

/-- A scan finds the first contact whose trial opens the frame. -/
theorem scan_first (hd : Header) (body : List UInt8) (is : List Slot) : ∀ (e : Engine) (failed : Bool),
    (Engine.scan C hd body is e failed).2.2.map Prod.fst =
      is.find? fun slot => (e.tryContact C slot hd body).opens := by
  induction is with
  | nil => exact fun _ _ => rfl
  | cons slot is ih =>
      intro e failed
      have htry (i : Slot) := tryContact_same (C := C) (touchAliases_same (C := C) (e := e) slot hd) i hd body
      -- the contacts after its aliases are refreshed are tried as before
      have hrest : (is.find? fun i => ((e.touchAliases C slot hd).tryContact C i hd body).opens) =
          is.find? fun i => (e.tryContact C i hd body).opens := by
        simp only [htry]
      rw [Engine.scan, List.find?_cons]
      rw [htry]
      cases ht : e.tryContact C slot hd body with
      | opened win plaintext => rfl
      | skip => exact (ih _ failed).trans hrest
      | badTag => exact (ih _ true).trans hrest

/-- A scan that finds nothing has tried every contact. -/
theorem scan_none (hd : Header) (body : List UInt8) (is : List Slot) (e : Engine) (failed : Bool)
    (hs : (Engine.scan C hd body is e failed).2.2 = none) : ∀ slot ∈ is,
      (e.tryContact C slot hd body).opens = false := by
  have hfirst := scan_first (C := C) hd body is e failed
  rw [hs] at hfirst
  simpa using hfirst.symm

/-! ### Frames that no contact opens -/

/-- The answer to a frame that is relayed or dropped: no event, and nothing of ours to transmit. -/
inductive Output.Relayed : Output → Prop where
  | ignored : Relayed (.incoming .ignored)
  | forwarded {f : OutgoingFrame} (hc : f.contactId = none) (he : f.envelope = none) :
      Relayed (.incoming (.forward, some f, none))

theorem transit_relayed (e : Engine) {frame : List UInt8} {hd : Header} {hlen : minFrameLen ≤ frame.length}
    {now : UInt64} : SameBut e (e.transit C frame hd hlen now).1 ∧
      (Output.incoming (e.transit C frame hd hlen now).2).Relayed := by
  rw [Engine.transit]
  split
  · exact ⟨.of_rest rfl, .ignored⟩
  · split
    · split
      · exact ⟨.of_rest rfl, .forwarded rfl rfl⟩
      · exact ⟨.of_rest rfl, .ignored⟩
    · exact ⟨.of_rest rfl, .ignored⟩

theorem countFailure_same (failed : Bool) : SameBut e (e.countFailure failed) := by
  cases failed with
  | true => exact .of_rest rfl
  | false => exact .refl e

theorem authenticates_iff {frame : List UInt8} {hd : Header} {body : List UInt8}
    (hdec : decodeFrame frame = .ok (hd, body)) :
    e.authenticates C frame = true ↔ (e.provisioned = true ∧ e.fault = false ∧ e.timeValid = true) ∧
      inAcceptWindow hd.epoch e.epoch = true ∧ ∃ slot, (e.tryContact C slot hd body).opens = true := by
  rw [Engine.authenticates, hdec]
  simp [and_assoc]

theorem authenticates_same {e e' : Engine} (h : SameBut e e') (frame : List UInt8) :
    e'.authenticates C frame = e.authenticates C frame := by
  obtain ⟨x, rfl⟩ := h
  rfl

/-- The state in which frames are tried at all. -/
theorem ready_iff : ¬ (!e.provisioned || e.fault || !e.timeValid) = true ↔
    e.provisioned = true ∧ e.fault = false ∧ e.timeValid = true := by
  simp [and_assoc]

/-- A frame that authenticates for no contact is relayed or dropped, and leaves hearsay alone. -/
theorem onFrame_unheard {frame : List UInt8} (now : UInt64) (packetId : UInt32)
    (h : e.authenticates C frame = false) : SameBut e (e.onFrame C frame now packetId).1 ∧
      (Output.incoming (e.onFrame C frame now packetId).2).Relayed := by
  have hignored : SameBut e e ∧ (Output.incoming .ignored).Relayed := ⟨.refl e, .ignored⟩
  rw [Engine.onFrame]
  split
  swap
  · exact hignored
  split
  · exact hignored
  rename_i hd body hdec
  split
  · exact hignored
  split
  · exact hignored
  split
  · exact transit_relayed e
  rename_i hready
  split
  · exact transit_relayed e
  rename_i hwin
  obtain ⟨as, failed, r, hscan, hfound⟩ := scan_spec (C := C) hd body (List.finRange maxContacts) e false
  rw [hscan]
  cases r with
  | none =>
      obtain ⟨he, hr⟩ := transit_relayed (({ e with aliases := as } : Engine).countFailure failed)
      exact ⟨(SameBut.trans (.of_rest rfl) (countFailure_same failed)).trans he, hr⟩
  | some x =>
      -- what the scan found authenticates
      obtain ⟨slot, win, plaintext⟩ := x
      have hopens : (e.tryContact C slot hd body).opens = true := by
        rw [hfound slot win plaintext rfl]
        rfl
      have hyes := (authenticates_iff hdec).mpr ⟨ready_iff.mp hready, by simpa using hwin, slot, hopens⟩
      rw [h] at hyes
      cases hyes

/-- A frame of a blocked contact leaves hearsay alone. -/
theorem onFrame_blocked {frame : List UInt8} (now : UInt64) (packetId : UInt32) {slot : Slot}
    (hs : e.sender? C frame = some slot) (hb : (e.contacts slot).blocked = true) :
    SameBut e (e.onFrame C frame now packetId).1 := by
  rw [Engine.onFrame]
  split
  swap
  · exact .refl e
  split
  · exact .refl e
  rename_i hd body hdec
  split
  · exact .refl e
  split
  · exact .refl e
  split
  · exact (transit_relayed e).1
  split
  · exact (transit_relayed e).1
  obtain ⟨as, failed, r, hscan, -⟩ := scan_spec (C := C) hd body (List.finRange maxContacts) e false
  have hfirst := scan_first (C := C) hd body (List.finRange maxContacts) e false
  rw [Engine.sender?, hdec] at hs
  replace hfirst := hfirst.trans hs
  rw [hscan] at hfirst ⊢
  cases r with
  | none => cases hfirst
  | some found =>
      obtain ⟨i, win, plaintext⟩ := found
      cases hfirst
      have hb' : (({ e with aliases := as } : Engine).contacts i).blocked = true := hb
      dsimp only
      unfold Engine.acceptBody
      rw [if_pos hb']
      exact .of_rest rfl

/-- A frame that authenticates for a contact is answered alike. -/
theorem onFrame_heard {e e' : Engine} (hs : SameBut e e') {frame : List UInt8} (now : UInt64)
    (packetId : UInt32) (h : e.authenticates C frame = true) :
    SameBoth (e.onFrame C frame now packetId) (e'.onFrame C frame now packetId) := by
  have h' := (authenticates_same hs frame).trans h
  rw [Engine.onFrame, Engine.onFrame]
  by_cases hmin : minFrameLen ≤ frame.length
  swap
  · rw [dif_neg hmin, dif_neg hmin]
    exact ⟨hs, rfl⟩
  rw [dif_pos hmin, dif_pos hmin]
  cases hdec : decodeFrame frame with
  | error r => exact ⟨hs, rfl⟩
  | ok r =>
      obtain ⟨hd, body⟩ := r
      obtain ⟨hready, hwin, slot, hopens⟩ := (authenticates_iff hdec).mp h
      obtain ⟨hready', hwin', -⟩ := (authenticates_iff hdec).mp h'
      refine ite_alike (fun _ => ⟨hs, rfl⟩) fun _ => ite_alike (fun _ => ⟨hs, rfl⟩) fun _ => ?_
      rw [if_neg (ready_iff.mpr hready), if_neg (ready_iff.mpr hready'), if_neg (by simp [hwin]),
        if_neg (by simp [hwin'])]
      obtain ⟨y, hscan⟩ := (scan_same (C := C) hd body (List.finRange maxContacts) false hs).eq
      have hnone := scan_none (C := C) hd body (List.finRange maxContacts) e false
      rw [hscan]
      generalize Engine.scan C hd body (List.finRange maxContacts) e false = r at hnone ⊢
      obtain ⟨e₁, failed, found⟩ := r
      cases found with
      | none => exact absurd hopens (by simp [hnone rfl slot (List.mem_finRange slot)])
      | some found => exact acceptBody_same ⟨y, rfl⟩ found.1 found.2.1 hd found.2.2 packetId

/-! ### Operations -/

/-- A frame received that authenticates for no contact. -/
def Unheard (C : Crypto) (e : Engine) : Op → Prop
  | .onFrame frame _ _ => e.authenticates C frame = false
  | _ => False

instance (C : Crypto) (e : Engine) : (op : Op) → Decidable (Unheard C e op)
  | .onFrame frame _ _ => inferInstanceAs (Decidable (e.authenticates C frame = false))
  | .setMonoS _ | .advanceTime _ | .markFault | .setRadioAvailable _ | .setIdentity _ | .provision _ _
  | .setTime _ _ | .setRadio _ | .armNextBoot | .consumeBootArm | .pairOffer _ _ _ | .pairCancel
  | .pairImport _ _ _ | .pairProof | .pairConfirm | .sendBegin _ _ _ | .sendEmit | .sendRetryEcho
  | .sendComplete | .noteOrigin _ _ | .deleteContact _ | .setBlocked _ _ | .commitOk | .discardStaged
  | .restore _ => .isFalse id

/-- The operation answers the same in both, but to a frame that authenticates for no contact,
which each relays or drops. -/
def SameAnswer (C : Crypto) (e e' : Engine) (op : Op) : Prop :=
  (step C e' op).2 = (step C e op).2 ∨
    Unheard C e op ∧ (step C e op).2.Relayed ∧ (step C e' op).2.Relayed

/-- What one operation does to two engines that are the same but for hearsay. -/
theorem step_same {e e' : Engine} (h : SameBut e e') (op : Op) :
    SameBut (step C e op).1 (step C e' op).1 ∧ SameAnswer C e e' op := by
  have both {op : Op} (hb : SameBoth (step C e op) (step C e' op)) :
      SameBut (step C e op).1 (step C e' op).1 ∧ SameAnswer C e e' op := ⟨hb.1, .inl hb.2⟩
  obtain ⟨x, rfl⟩ := h
  have hx : SameBut e (e.withHearsay x) := ⟨x, rfl⟩
  cases op with
  | setMonoS now => exact both ⟨⟨x, rfl⟩, rfl⟩
  | advanceTime now => exact both ⟨(advanceTime_same now).1, congrArg Output.unit (advanceTime_same now).2⟩
  | markFault => exact both ⟨⟨x, rfl⟩, rfl⟩
  | setRadioAvailable available => exact both ⟨setRadioAvailable_same available, rfl⟩
  | setIdentity uid => exact both ⟨setIdentity_same uid, rfl⟩
  | provision label signPriv => exact both ((provision_same label signPriv).settled hx _)
  | setTime s confirmed =>
      have ht := setTimeConfirmed_same hx s confirmed
      exact both ⟨ht.1, congrArg Output.hour ht.2⟩
  | setRadio enabled => exact both ((setRadio_same enabled).settled hx _)
  | armNextBoot => exact both (armNextBoot_same.settled hx _)
  | consumeBootArm => exact both (consumeBootArm_same.settled hx _)
  | pairOffer ephPriv ephPub challenge =>
      exact both ((pairOffer_same ephPriv ephPub challenge).settled hx _)
  | pairCancel => exact both ⟨⟨x, rfl⟩, rfl⟩
  | pairImport record replace sasMatch =>
      exact both ((pairImportSas_same record replace sasMatch).settled hx _)
  | pairProof => exact both (pairProof_same.settled hx _)
  | pairConfirm => exact both (pairConfirm_same.settled hx _)
  | sendBegin id text packetId => exact both ((sendBegin_same id text packetId).settled hx _)
  | sendEmit => exact both ⟨sendEmit_same.1, congrArg Output.frame sendEmit_same.2⟩
  | sendRetryEcho => exact both ⟨hx, rfl⟩
  | sendComplete => exact both ⟨⟨x, rfl⟩, rfl⟩
  | onFrame frame now packetId =>
      cases ha : e.authenticates C frame with
      | true =>
          have hb := onFrame_heard hx now packetId ha
          exact both ⟨hb.1, congrArg Output.incoming hb.2⟩
      | false =>
          -- both relay or drop it, each by its own cache
          obtain ⟨he, hr⟩ := onFrame_unheard now packetId ha
          obtain ⟨he', hr'⟩ := onFrame_unheard now packetId
            ((authenticates_same hx frame).trans ha)
          exact ⟨(he.symm.trans hx).trans he', .inr ⟨ha, hr, hr'⟩⟩
  | noteOrigin bytes now => exact both ⟨noteOrigin_same hx bytes now, rfl⟩
  | deleteContact id => exact both ((deleteContact_same id).settled hx _)
  | setBlocked id blocked => exact both ((setBlocked_same id blocked).settled hx _)
  | commitOk => exact both ⟨commitOk_same, rfl⟩
  | discardStaged => exact both ⟨⟨x, rfl⟩, rfl⟩
  | restore bytes => exact both ((restore_same bytes).settled hx _)

/-- A frame put in leaves the engine the same but for hearsay. -/
theorem step_unheard {op : Op} (h : Unheard C e op) : SameBut e (step C e op).1 := by
  cases op with
  | onFrame frame now packetId => exact (onFrame_unheard now packetId h).1
  | _ => exact h.elim

/-- The states of the two runs: the same but for hearsay, with the same bytes to commit. -/
def SameState (e e' : Engine) : Prop := SameBut e e' ∧ e'.pendingPersist = e.pendingPersist

/-- From any engine, a run with frames put in that authenticate for no contact goes as the run
without them. -/
theorem unheard_invisible (C : Crypto) (e : Engine) (calls : List (Call Op))
    (h : Along (onInput fun e op => (step C e op).1) (OnExtra (Unheard C)) e calls) :
    Lockstep (fun e op => (step C e op).1) SameState (SameAnswer C) e e calls := by
  have state {e e' : Engine} (h : SameBut e e') : SameState e e' := ⟨h, h.pendingPersist⟩
  refine lockstep_of_unwinding (fun s t op hst => ?_) (fun s t op hst => ?_) (fun s t op hst hop => ?_)
    calls (state (.refl e)) h
  · exact state (step_same hst.1 op).1
  · exact (step_same hst.1 op).2
  · exact state ((step_unheard hop).symm.trans hst.1)

namespace Sample

/-- A frame for nobody. -/
def stray : List UInt8 :=
  ((encodeFrame
    { version := versionSecure, flags := 0, dst := 1, src := 2, packetId := 3, hops := 1, epoch := 2
      sequence := 5 } [] maxFrameLen).toOption).getD []

/-- The sample device, paired and with the time set. -/
def listening : Engine :=
  after (.new true) (setup 1 ++ ceremony 1 ++ [.commitOk, .setTime 7200 false, .commitOk])

/-- It sends a text, the stray frame around each step. -/
def strays : List (Call Op) :=
  [.extra (.onFrame stray 5 7), .own (.sendBegin 1 (ascii "hi") 9), .extra (.onFrame stray 6 7), .own .commitOk,
    .own .sendEmit, .own (.onFrame stray 9000 7)]

end Sample

theorem unheard_invisible_sample :
    Lockstep (fun e op => (step Sample.crypto e op).1) SameState (SameAnswer Sample.crypto) Sample.listening
      Sample.listening Sample.strays :=
  unheard_invisible Sample.crypto Sample.listening Sample.strays (by decide +kernel)

end LoraMesh
