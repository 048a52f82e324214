import LoraMesh.Core.Transparency
import LoraMesh.Engine.Agreement
import LoraMesh.Engine.Hours
import LoraMesh.Engine.Invisible
import LoraMesh.Engine.Retry
import LoraMesh.Engine.Timekeeping

/-!
# Engine — Passage

A text arrives.  One of two mates emits it; its frame reaches the other unchanged or relayed once,
and so does the answer.

* `Mates.opens`: what one seals, the other opens, relayed or not.
* `onFrame_opened`: a frame that opens for a contact, and for no other, is answered from its body.
* `passage_complete`: the text is delivered and acknowledged, and the acknowledgement ends the send,
  whatever the sender did meanwhile that leaves the send in flight.
-/

namespace LoraMesh

open Engine (position)

/-! ### On the way -/

/-- A frame as it arrives: unchanged, or forwarded by one relay. -/
def Passed (frame arrived : List UInt8) : Prop := arrived = frame ∨ prepareForward frame maxFrameLen = .ok arrived

section Seal

variable {C : Crypto}

/-- A sealed frame is that of its header around the ciphertext. -/
theorem sealFrame_frameBytes {v : Envelope} {cap : ℕ} {bytes : List UInt8} (h : sealFrame C v cap = .ok bytes) :
    ∃ ct, encryptData C v.key (nonce v.header.epoch v.header.sequence)
        (frameAad v.header (UInt8.ofNat (v.plaintext.length + tagLen))) v.plaintext cap = .ok ct ∧
      bytes = frameBytes v.header ct ∧ headerLen + ct.length + crcLen ≤ maxFrameLen := by
  simp only [sealFrame, bind_eq_ok, mapErr_eq_ok] at h
  obtain ⟨ct, hct, henc⟩ := h
  rw [encodeFrame_eq] at henc
  split at henc
  · cases henc
  · rename_i hlen
    cases henc
    exact ⟨ct, hct, rfl, Nat.not_lt.mp fun hgt => hlen (.inl hgt)⟩

theorem encryptData_length {key : Bytes 32} {n : Bytes 12} {aad p ct : List UInt8} {cap : ℕ}
    (h : encryptData C key n aad p cap = .ok ct) : ct.length = p.length + tagLen := by
  unfold encryptData at h
  split at h
  · cases h
  · cases h
    rw [List.length_append, C.length_encryptInPlace, Bytes.length_val]

/-- What a body allows of the flags, and its length. -/
theorem validateBody_ok {flags : UInt8} {body : List UInt8} (h : validateBody flags body = .ok ()) :
    flags &&& ~~~flagsValidMask = 0 ∧ body.length ≤ 1 + maxTextLen := by
  unfold validateBody at h
  split at h
  · cases h
  rename_i b text
  split at h
  · rename_i hdata
    rw [hdata.2]
    split at h
    · cases h
    · rename_i htext
      have hlen : text.length ≤ maxTextLen := Nat.not_lt.mp fun hgt => htext (.inr (.inl hgt))
      exact ⟨by decide, by rw [List.length_cons, Nat.add_comm]; exact Nat.add_le_add_left hlen 1⟩
  · split at h
    · rename_i hack
      rw [hack.2.1, hack.2.2]
      exact ⟨by decide, by decide⟩
    · cases h

/-- A passed frame decodes to what was sent, but for the hop. -/
theorem Passed.decodes {hd : Header} {body arrived : List UInt8} (h : Passed (frameBytes hd body) arrived)
    (he : Encodable hd body) (hh : hd.hops = 1) :
    ∃ hops : UInt8, hops ≤ 1 ∧ decodeFrame arrived = .ok ({ hd with hops }, body) := by
  rcases h with rfl | h
  · refine ⟨1, UInt8.le_refl 1, decodeFrame_iff.mpr ⟨?_, ?_⟩⟩
    · rw [← hh]
      exact he
    · rw [← hh]
  · have hlen : (frameBytes hd body).length ≤ maxFrameLen := by
      rw [length_frameBytes]
      exact he.length
    rw [prepareForward_frameBytes he hh hlen] at h
    cases h
    exact ⟨0, by decide, decodeFrame_iff.mpr ⟨he.spent, rfl⟩⟩

/-- What the trial of a contact asks of a frame. -/
theorem tryContact_opened {e : Engine} {slot : Slot} {hd : Header} {body plaintext : List UInt8} {win : Fin 3}
    (hp : (e.contacts slot).present = true) (hwin : position (e.contacts slot).winEpochs hd.epoch = some win)
    (hdst : be32 hd.dst = ((e.contacts slot).ownAlias C e.uid hd.epoch).1)
    (hsrc : be32 hd.src = ((e.contacts slot).peerAlias C hd.epoch).1)
    (hdec : decryptData C ((e.contacts slot).incomingKey C hd.epoch) (nonce hd.epoch hd.sequence)
      (frameAad hd (UInt8.ofNat body.length)) body (1 + maxTextLen) = .ok plaintext)
    (hv : validateBody hd.flags plaintext = .ok ()) : e.tryContact C slot hd body = .opened win plaintext := by
  have haliases : ¬ (be32 hd.dst ≠ ((e.contacts slot).ownAlias C e.uid hd.epoch).1 ∨
      be32 hd.src ≠ ((e.contacts slot).peerAlias C hd.epoch).1) :=
    not_or.mpr ⟨not_not.mpr hdst, not_not.mpr hsrc⟩
  rw [Engine.tryContact, if_pos hp, hwin]
  dsimp only
  rw [if_neg haliases, hdec]
  dsimp only
  rw [hv]

end Seal

/-! ### Mates over time -/

namespace Mates

variable {C : Crypto} {base : Bytes 32} {e e₂ e' : Engine} {i i' : Slot}

/-- A contact carried on has the same mate. -/
theorem carried (h : Mates e i e' i') (hc : (e.contacts i).Carried (e₂.contacts i)) (hu : e₂.uid = e.uid) :
    Mates e₂ i e' i' := by
  refine ⟨⟨hc.present', h.present.2⟩, ⟨?_, ?_⟩, ?_, ?_, ?_, ?_, ?_⟩
  · rw [hc.peerIdentity, h.identity.1]
  · rw [hu, h.identity.2]
  · rw [hc.role]
    exact h.roles
  · rw [hc.root, h.root]
  · rw [hc.trafficLr, h.trafficLr]
  · rw [hc.trafficRl, h.trafficRl]
  · rw [hc.addrSecret, h.addrSecret]

/-- An operation that leaves the send in flight leaves its contact the mate it is. -/
theorem leaves (h : Mates e i e' i') {v : Envelope} {ps : PendingSend} {op : Op} (hh : e.Holds C v ps i)
    (hl : e.Leaves C op) : Mates (step C e op).1 i e' i' := by
  cases hop : op.keeps with
  | true => exact h.carried (hl.carried hh hop) hl.uid
  | false =>
      cases op with
      | restore bytes =>
          rw [Engine.restore_leaves hh.pendingSend hl]
          exact h
      | _ => cases hop

/-- So does a run of them. -/
theorem leaves_run {v : Envelope} {ps : PendingSend} (ops : List Op) : ∀ {e : Engine}, Mates e i e' i' →
    e.Holds C v ps i → Along (fun e op => (step C e op).1) (Engine.Leaves C) e ops →
      Mates (run (fun e op => (step C e op).1) e ops) i e' i' ∧
        (run (fun e op => (step C e op).1) e ops).Holds C v ps i := by
  induction ops with
  | nil => exact fun h hh _ => ⟨h, hh⟩
  | cons op ops ih => exact fun h hh hl => ih (h.leaves hh hl.1) (hh.step hl.1) hl.2

/-- What one seals for the other opens there, relayed or not. -/
theorem opens (hc : Honest C base) (h : Mates e i e' i') {flags : UInt8} {packetId epoch : UInt32}
    {sequence : UInt64} {plaintext bytes arrived : List UInt8} {cap : ℕ}
    (hs : sealFrame C ((e.contacts i).envelope C e.uid flags packetId epoch sequence plaintext) cap = .ok bytes)
    (hv : validateBody flags plaintext = .ok ()) (hp : Passed bytes arrived) (ha : e'.Aligned)
    (ht : e'.timeValid = true) (hw : inAcceptWindow epoch e'.epoch = true) :
    ∃ hd body win, hd.hops ≤ 1 ∧
      { hd with hops := 1 } = ((e.contacts i).envelope C e.uid flags packetId epoch sequence plaintext).header ∧
      decodeFrame arrived = .ok (hd, body) ∧ position (e'.contacts i').winEpochs epoch = some win ∧
      e'.tryContact C i' hd body = .opened win plaintext := by
  obtain ⟨hflags, hlen⟩ := validateBody_ok hv
  obtain ⟨ct, hct, rfl, hfits⟩ := sealFrame_frameBytes hs
  have hctlen := encryptData_length hct
  obtain ⟨hops, hhops, hdec⟩ := hp.decodes ⟨.inr rfl, hflags, (by decide : (1 : UInt8) ≤ 1), hfits, fun hlab => by cases hlab⟩ rfl
  obtain ⟨win, hwin⟩ := position_of_inAcceptWindow hw
  rw [← (ha ht i' h.present.2).2] at hwin
  refine ⟨_, ct, win, hhops, rfl, hdec, hwin, ?_⟩
  have hdst : be32 (ofBe32 ((e.contacts i).peerAlias C epoch).1) = ((e'.contacts i').ownAlias C e'.uid epoch).1 := by
    rw [be32_ofBe32 (Bytes.length_val _), h.symm.ownAlias]
  have hsrc : be32 (ofBe32 ((e.contacts i).ownAlias C e.uid epoch).1) = ((e'.contacts i').peerAlias C epoch).1 := by
    rw [be32_ofBe32 (Bytes.length_val _), h.ownAlias]
  have hopen : decryptData C ((e'.contacts i').incomingKey C epoch) (nonce epoch sequence)
      (frameAad { ((e.contacts i).envelope C e.uid flags packetId epoch sequence plaintext).header with hops }
        (UInt8.ofNat ct.length)) ct (1 + maxTextLen) = .ok plaintext := by
    rw [← h.outgoingKey, hctlen]
    exact hc.decryptData_encryptData hct hlen
  exact tryContact_opened h.present.2 hwin hdst hsrc hopen hv

end Mates

/-! ### At the endpoint -/

section Endpoint

variable {C : Crypto} {e : Engine} {slot : Slot} {hd : Header}

/-- The engine takes frames of an hour from the contact in a slot, and this one opens for no
other. -/
structure Engine.Receptive (C : Crypto) (e : Engine) (slot : Slot) (epoch : UInt32) (frame : List UInt8) : Prop where
  provisioned : e.provisioned = true
  fault : e.fault = false
  timeValid : e.timeValid = true
  hour : inAcceptWindow epoch e.epoch = true
  unblocked : (e.contacts slot).blocked = false
  alone : ∀ hd body, decodeFrame frame = .ok (hd, body) → ∀ i,
    (e.tryContact C i hd body).opens = true → i = slot

/-- A frame that opens for one contact is answered from its body. -/
theorem onFrame_opened {frame body plaintext : List UInt8} {win : Fin 3} (now : UInt64) (packetId : UInt32)
    (hr : e.Receptive C slot hd.epoch frame) (hdec : decodeFrame frame = .ok (hd, body))
    (hver : hd.version = versionSecure) (hhops : hd.hops ≤ 1) (ho : e.tryContact C slot hd body = .opened win plaintext) :
    ∃ as, e.onFrame C frame now packetId =
      ({ e with aliases := as } : Engine).acceptBody C slot win hd plaintext packetId := by
  have hmin : minFrameLen ≤ frame.length := by
    rw [(decodeFrame_length hdec).1]
    exact Nat.add_le_add_right (Nat.le_add_right _ _) _
  obtain ⟨as, failed, r, hscan, hfound⟩ := scan_spec (C := C) hd body (List.finRange maxContacts) e false
  refine ⟨as, ?_⟩
  have hready := ready_iff.mpr ⟨hr.provisioned, hr.fault, hr.timeValid⟩
  rw [Engine.onFrame, dif_pos hmin, hdec]
  dsimp only
  rw [if_neg (not_not.mpr hver), if_neg (UInt8.not_lt.mpr hhops), if_neg hready, if_neg (by rw [hr.hour]; decide), hscan]
  cases r with
  | none =>
      have hnone := scan_none (C := C) hd body (List.finRange maxContacts) e false (by rw [hscan])
      have hopens := hnone slot (List.mem_finRange slot)
      rw [ho] at hopens
      cases hopens
  | some found =>
      obtain ⟨i, win', plaintext'⟩ := found
      have hi := hfound i win' plaintext' rfl
      have heq : i = slot := hr.alone hd body hdec i (by rw [hi]; rfl)
      rw [heq, ho] at hi
      cases hi
      rw [heq]

/-- A text from an unblocked contact that its window accepts is delivered and answered. -/
theorem acceptBody_data (hd : Header) (win : Fin 3) (text : List UInt8) (packetId : UInt32)
    (hb : (e.contacts slot).blocked = false) (ht : e.timeValid = true)
    (hw : (((e.contacts slot).winData win).accept hd.sequence).1 = .accepted)
    (hr : (e.reservation slot .rxAccept).isSome = true) :
    ∃ ack, (e.acceptBody C slot win hd (bodyData :: text) packetId).2 = (.deliver (contactId slot) (UInt8.ofNat text.length),
        some ack, some (.received (contactId slot) hd.epoch hd.sequence text)) ∧
      sealFrame C ((e.contacts slot).ackEnvelope C e.uid hd packetId e.epoch) (17 + tagLen) = .ok ack.bytes := by
  obtain ⟨op, hop⟩ := Option.isSome_iff_exists.mp hr
  cases hacc : ((e.contacts slot).winData win).accept hd.sequence with
  | mk v w =>
      rw [hacc] at hw
      cases hw
      obtain ⟨bytes, hseal⟩ : ∃ bytes, sealFrame C ((e.contacts slot).ackEnvelope C e.uid hd packetId e.epoch)
          (17 + tagLen) = .ok bytes := sealFrame_ack
      -- the state that answers: the window moved, the reception staged
      have hmoved : e.acceptInData slot win hd.sequence = (.accepted, e.setContact slot ((e.contacts slot).setData win w)) := by
        rw [Engine.acceptInData, hacc]
      obtain ⟨e₁, he₁⟩ : ∃ e₁, e₁ = (e.setContact slot ((e.contacts slot).setData win w)).stagePersist .rxAccept := ⟨_, rfl⟩
      have hself : e₁.contacts slot = (e.contacts slot).setData win w := by
        rw [he₁]
        exact Function.update_self _ _ _
      have htime : ¬ (!e₁.timeValid) = true := by
        rw [he₁]
        show ¬ (!e.timeValid) = true
        rw [ht]
        decide
      have hres : e₁.reservation slot .rxAccept = some op := by
        rw [Engine.reservation, hself]
        exact hop
      have hseal' : sealFrame C (((e₁.stagePersist op).contacts slot).ackEnvelope C (e₁.stagePersist op).uid hd packetId
          e₁.epoch) (17 + tagLen) = .ok bytes := by
        show sealFrame C ((e₁.contacts slot).ackEnvelope C e₁.uid hd packetId e₁.epoch) (17 + tagLen) = .ok bytes
        rw [hself, he₁]
        exact hseal
      refine ⟨⟨bytes, some (contactId slot), true, false, some (((e₁.stagePersist op).contacts slot).ackEnvelope C
        (e₁.stagePersist op).uid hd packetId e₁.epoch)⟩, ?_, hseal⟩
      unfold Engine.acceptBody
      rw [if_neg (by rw [hb]; decide)]
      dsimp only
      rw [if_pos rfl, Engine.acceptData, hmoved]
      dsimp only
      rw [← he₁, Engine.buildAck, if_neg htime]
      dsimp only
      rw [hres]
      dsimp only
      rw [hseal']

/-- The acknowledgement of the send in flight, from an unblocked contact, that its window accepts. -/
theorem acceptBody_ack {win : Fin 3} {dataH : Header} {packetId : UInt32} {ps : PendingSend}
    (hb : (e.contacts slot).blocked = false)
    (hw : (((e.contacts slot).winAck win).accept hd.sequence).1 = .accepted) (hps : e.pendingSend = some ps)
    (hid : ps.contactId = contactId slot) (hepoch : dataH.epoch = ps.epoch) (hseq : dataH.sequence = ps.sequence)
    (hpid : dataH.packetId = ps.packetId) :
    (e.acceptBody C slot win hd (Contact.ackBody dataH) packetId).2 =
      (.ack (contactId slot), none, some (.sendAcked (contactId slot) ps.epoch ps.sequence ps.packetId)) := by
  have hlen := length_be32 dataH.epoch
  have hlen' := length_be64 dataH.sequence
  have hlen'' := length_be32 dataH.packetId
  have htake : (be32 dataH.epoch ++ (be64 dataH.sequence ++ be32 dataH.packetId)).take 4 = be32 dataH.epoch :=
    List.take_left' hlen
  have hdrop : (be32 dataH.epoch ++ (be64 dataH.sequence ++ be32 dataH.packetId)).drop 4 =
      be64 dataH.sequence ++ be32 dataH.packetId := List.drop_left' hlen
  have hdrop' : (be32 dataH.epoch ++ (be64 dataH.sequence ++ be32 dataH.packetId)).drop 12 = be32 dataH.packetId := by
    rw [← List.append_assoc]
    exact List.drop_left' (by rw [List.length_append, hlen, hlen'])
  have htake' : (be64 dataH.sequence ++ be32 dataH.packetId).take 8 = be64 dataH.sequence := List.take_left' hlen'
  have htake'' : (be32 dataH.packetId).take 4 = be32 dataH.packetId := List.take_of_length_le (le_of_eq hlen'')
  cases hacc : ((e.contacts slot).winAck win).accept hd.sequence with
  | mk v w =>
      rw [hacc] at hw
      cases hw
      have hmoved : e.acceptInAck slot win hd.sequence = (.accepted, e.setContact slot ((e.contacts slot).setAck win w)) := by
        rw [Engine.acceptInAck, hacc]
      have hsend : ((e.setContact slot ((e.contacts slot).setAck win w)).stagePersist .rxAccept).pendingSend = some ps := hps
      unfold Engine.acceptBody
      rw [if_neg (by rw [hb]; decide), Contact.ackBody]
      dsimp only
      rw [if_neg (by decide), Engine.acceptAck, hmoved]
      dsimp only
      rw [hsend, htake, hdrop, hdrop', htake', htake'', ofBe32_be32, ofBe64_be64, ofBe32_be32, hepoch, hseq, hpid]
      dsimp only
      rw [if_pos ⟨hid, rfl, rfl, rfl⟩]

end Endpoint

/-! ### From a new engine -/

namespace Engine

/-- The engine is what operations make of a new one. -/
def Reached (C : Crypto) (e : Engine) : Prop :=
  ∃ available ops, e = run (fun e op => (step C e op).1) (new available) ops

/-- The text of a send in flight is one that may be sent. -/
def Worded (e : Engine) : Prop :=
  ∀ ps, e.pendingSend = some ps → validateBody flagWantAck (bodyData :: e.pendingText) = .ok ()

variable {C : Crypto} {e : Engine}

theorem validateBody_text {text : List UInt8} (h : text ≠ [] ∧ text.length ≤ maxTextLen ∧ fromUtf8 text = true) :
    validateBody flagWantAck (bodyData :: text) = .ok () := by
  have hok : ¬ (text = [] ∨ text.length > maxTextLen ∨ fromUtf8 text = false) := by
    rintro (hn | hl | hu)
    · exact h.1 hn
    · exact Nat.not_lt.mpr h.2.1 hl
    · cases hu.symm.trans h.2.2
  rw [validateBody, if_pos ⟨rfl, rfl⟩, if_neg hok]

theorem worded_moves {e' : Engine} {op : Op} {out : Output} (h : e.Worded) (hm : Moves C e op e' out) : e'.Worded := by
  have kept (ht : e'.pendingText = e.pendingText) (hs : e'.pendingSend = e.pendingSend ∨ e'.pendingSend = none) :
      e'.Worded := by
    intro ps hps
    rcases hs with hsame | hnone
    · rw [ht]
      exact h ps (hsame ▸ hps)
    · cases hnone.symm.trans hps
  rcases send_moves hm with ⟨ht, hs⟩ | ⟨id, text, packetId, ps, rfl, rfl⟩
  · exact kept ht hs
  · cases hm with
    | sendBegin _ _ _ hs => exact fun _ _ => validateBody_text hs.text
    | quiet hq _ => exact kept hq.pendingText hq.pendingSend
    | pairing hp => cases hp
    | restage _ hq _ _ _ _ => exact kept hq.pendingText hq.pendingSend
    | setTime _ _ hq _ _ _ _ _ => exact kept hq.pendingText hq.pendingSend

theorem Reached.worded (h : e.Reached C) : e.Worded := by
  obtain ⟨available, ops, rfl⟩ := h
  exact run_invariant_of_all (I := Worded) (fun e op h => worded_moves h (step_moves C e op)) ops
    fun ps hps => by cases hps

theorem Reached.aligned (h : e.Reached C) : e.Aligned := by
  obtain ⟨available, ops, rfl⟩ := h
  exact run_invariant_of_all (I := Aligned) (fun e op h => aligned_moves h (step_moves C e op)) ops
    fun hv => by cases hv

theorem Reached.run (h : e.Reached C) (ops : List Op) : (LoraMesh.run (fun e op => (step C e op).1) e ops).Reached C := by
  obtain ⟨available, ops', rfl⟩ := h
  exact ⟨available, ops' ++ ops, (run_append _ _ _ _).symm⟩

end Engine

/-! ### The passage -/

section Passage

variable {C : Crypto} {base : Bytes 32} {e : Engine} {slot : Slot} {ps : PendingSend}

/-- A send that is ready is emitted. -/
theorem sendEmit_ready (hr : e.sendReady = .ok (ps, slot)) (hw : e.Worded) : ∃ f, (e.sendEmit C).2 = .ok f := by
  obtain ⟨-, hps, -, -, -⟩ := sendReady_spec hr
  obtain ⟨-, hlen⟩ := validateBody_ok (hw ps hps)
  obtain ⟨bytes, hb⟩ := sealFrame_ok (C := C) (v := (e.contacts slot).dataEnvelope C e.uid ps e.pendingText)
    (Nat.add_le_add_right hlen tagLen) (by
      show (bodyData :: e.pendingText).length + tagLen + minFrameLen ≤ maxFrameLen
      simp only [maxTextLen, tagLen, minFrameLen, headerLen, crcLen, maxFrameLen] at hlen ⊢
      omega)
  rw [Engine.sendEmit, hr]
  dsimp only
  rw [refreshAliases_eq]
  dsimp only
  rw [hb]
  exact ⟨_, rfl⟩

/-- What the emission leaves behind: the send in flight, and its contact the mate it was. -/
theorem sendEmit_holds {e' : Engine} {i' : Slot} (hm : Mates e slot e' i') (hr : e.sendReady = .ok (ps, slot))
    {f : OutgoingFrame} (hf : (e.sendEmit C).2 = .ok f) : ∃ v, (e.sendEmit C).1.Holds C v ps slot ∧
      sealFrame C v (1 + maxTextLen + tagLen) = .ok f.bytes ∧ Mates (e.sendEmit C).1 slot e' i' ∧
      (e.sendEmit C).1.pendingText = e.pendingText := by
  obtain ⟨-, hps, hslot, -, -⟩ := sendReady_spec hr
  obtain ⟨v, ps', i, hholds, hseal, -⟩ := Engine.holds_sendEmit hf
  have hmove := step_moves C e .sendEmit
  have hsent : (step C e .sendEmit).1.pendingSend = e.pendingSend ∧
      (step C e .sendEmit).1.pendingText = e.pendingText := by
    rcases send_moves hmove with ⟨ht, hs | hs⟩ | ⟨id, text, packetId, p, hop, -⟩
    · exact ⟨hs, ht⟩
    · cases hs.symm.trans hholds.pendingSend
    · cases hop
  have hps' : ps' = ps := Option.some.inj (hholds.pendingSend.symm.trans (hsent.1.trans hps))
  subst hps'
  have hi : i = slot := Engine.contactId_injective (hholds.contactId.symm.trans (Engine.slotOf_ok hslot).2)
  subst hi
  refine ⟨v, hholds, hseal, ?_, hsent.2⟩
  have huid : (step C e .sendEmit).1.uid = e.uid := by
    rcases (identity_moves hmove rfl).1 with h | ⟨h, -⟩
    · exact congrArg Prod.fst h
    · cases h
  rcases slot_moves hmove rfl i with hcar | ⟨habs, -⟩ | ⟨hact, -⟩
  · exact hm.carried hcar huid
  · cases habs.symm.trans hholds.present
  · cases hact

end Passage

/-- The engine takes the frame as DATA of an hour and sequence it has not seen, and may answer. -/
structure Engine.AwaitsData (C : Crypto) (e : Engine) (slot : Slot) (epoch : UInt32) (sequence : UInt64)
    (frame : List UInt8) : Prop extends e.Receptive C slot epoch frame where
  fresh : ∀ w ∈ (e.contacts slot).window? epoch, (w.accept sequence).1 = .accepted
  answers : (e.reservation slot .rxAccept).isSome = true

/-- The engine takes the frame as an ACK of an hour and sequence it has not seen. -/
structure Engine.AwaitsAck (C : Crypto) (e : Engine) (slot : Slot) (epoch : UInt32) (sequence : UInt64)
    (frame : List UInt8) : Prop extends e.Receptive C slot epoch frame where
  fresh : ∀ w ∈ (e.contacts slot).ackWindow? epoch, (w.accept sequence).1 = .accepted

/-- One of two mates emits a send that is ready; its frame, relayed or not, is delivered and
answered by the other; and the answer, relayed or not, ends the send, whatever the sender did
meanwhile that left the send in flight. -/
theorem passage_complete {C : Crypto} {base : Bytes 32} (hc : Honest C base) {a b : Engine} {i j : Slot}
    {ps : PendingSend} (ha : a.Reached C) (hb : b.Reached C) (hm : Mates a i b j) (hr : a.sendReady = .ok (ps, i)) :
    ∃ f, (a.sendEmit C).2 = .ok f ∧ ∀ arrived now packetId, Passed f.bytes arrived →
      b.AwaitsData C j ps.epoch ps.sequence arrived →
        ∃ ack, (b.onFrame C arrived now packetId).2 =
            (.deliver (contactId j) (UInt8.ofNat a.pendingText.length), some ack,
              some (.received (contactId j) ps.epoch ps.sequence a.pendingText)) ∧
          ∀ ops arrived' now' packetId', Along (fun e op => (step C e op).1) (Engine.Leaves C) (a.sendEmit C).1 ops →
            Passed ack.bytes arrived' →
              (run (fun e op => (step C e op).1) (a.sendEmit C).1 ops).AwaitsAck C i b.epoch (b.contacts j).txNext arrived' →
                ((run (fun e op => (step C e op).1) (a.sendEmit C).1 ops).onFrame C arrived' now' packetId').2 =
                  (.ack (contactId i), none,
                    some (.sendAcked (contactId i) ps.epoch ps.sequence ps.packetId)) := by
  obtain ⟨-, hps, hslot, -, -⟩ := sendReady_spec hr
  obtain ⟨f, hf⟩ := sendEmit_ready (C := C) hr ha.worded
  obtain ⟨v, hholds, hseal, hmates, htext⟩ := sendEmit_holds hm hr hf
  have hvalid := ha.worded ps hps
  have hreached : (a.sendEmit C).1.Reached C := ha.run [.sendEmit]
  refine ⟨f, hf, fun arrived now packetId hpass hdata => ?_⟩
  -- the frame opens at the other end
  rw [← hholds.envelope, htext] at hseal
  obtain ⟨hd, body, win, hhops, hhd, hdec, hwin, hopen⟩ := hmates.opens hc hseal hvalid hpass hb.aligned hdata.timeValid
    hdata.hour
  have hepoch : hd.epoch = ps.epoch := congrArg Header.epoch hhd
  have hsequence : hd.sequence = ps.sequence := congrArg Header.sequence hhd
  have hfresh : (((b.contacts j).winData win).accept hd.sequence).1 = .accepted := by
    rw [hsequence]
    exact hdata.fresh _ (by rw [Contact.window?, hwin]; rfl)
  obtain ⟨as, hanswer⟩ := onFrame_opened now packetId (hepoch ▸ hdata.toReceptive) hdec (congrArg Header.version hhd) hhops
    hopen
  obtain ⟨ack, hdeliver, hackseal⟩ := acceptBody_data (C := C) (e := { b with aliases := as }) hd win a.pendingText packetId
    hdata.unblocked hdata.timeValid hfresh hdata.answers
  replace hackseal : sealFrame C ((b.contacts j).ackEnvelope C b.uid hd packetId b.epoch) (17 + tagLen) =
    .ok ack.bytes := hackseal
  rw [hanswer]
  refine ⟨ack, by rw [hdeliver, hepoch, hsequence], fun ops arrived' now' packetId' hleaves hpass' hack => ?_⟩
  -- the answer opens where the send is still in flight
  obtain ⟨hmates', hholds'⟩ := Mates.leaves_run ops hmates hholds hleaves
  have haligned := (hreached.run ops).aligned
  generalize run (fun e op => (step C e op).1) (a.sendEmit C).1 ops = a' at hmates' hholds' haligned hack ⊢
  obtain ⟨hd', body', win', hhops', hhd', hdec', hwin', hopen'⟩ := hmates'.symm.opens hc hackseal rfl hpass' haligned
    hack.timeValid hack.hour
  have hepoch' : hd'.epoch = b.epoch := congrArg Header.epoch hhd'
  have hsequence' : hd'.sequence = (b.contacts j).txNext := congrArg Header.sequence hhd'
  have hfresh' : (((a'.contacts i).winAck win').accept hd'.sequence).1 = .accepted := by
    rw [hsequence']
    exact hack.fresh _ (by rw [Contact.ackWindow?, hwin']; rfl)
  obtain ⟨as', hanswer'⟩ := onFrame_opened now' packetId' (hepoch' ▸ hack.toReceptive) hdec'
    (congrArg Header.version hhd') hhops' hopen'
  rw [hanswer']
  exact acceptBody_ack (e := { a' with aliases := as' }) hack.unblocked hfresh' hholds'.pendingSend hholds'.contactId
    hepoch hsequence (congrArg Header.packetId hhd)

namespace Sample

theorem after_eq_run (ops : List Op) : ∀ e, after e ops = run (fun e op => (step crypto e op).1) e ops := by
  induction ops with
  | nil => exact fun e => rfl
  | cons op ops ih => exact fun e => ih (step crypto e op).1

/-- Device 2, paired and with the time set. -/
def awaiting : Engine := after (.new true) (setup 2 ++ ceremony 2 ++ [.commitOk, .setTime 7200 false, .commitOk])

theorem mates : Mates reserved 0 awaiting 0 := by
  have h : ((reserved.contacts 0).present = true ∧ (awaiting.contacts 0).present = true) ∧
      ((reserved.contacts 0).peerIdentity = awaiting.uid ∧ (awaiting.contacts 0).peerIdentity = reserved.uid) ∧
      ((reserved.contacts 0).role = roleL ∧ (awaiting.contacts 0).role = roleR ∨
        (reserved.contacts 0).role = roleR ∧ (awaiting.contacts 0).role = roleL) ∧
      (reserved.contacts 0).root = (awaiting.contacts 0).root ∧
      (reserved.contacts 0).trafficLr = (awaiting.contacts 0).trafficLr ∧
      (reserved.contacts 0).trafficRl = (awaiting.contacts 0).trafficRl ∧
      (reserved.contacts 0).addrSecret = (awaiting.contacts 0).addrSecret := by
    decide +kernel
  exact ⟨h.1, h.2.1, h.2.2.1, h.2.2.2.1, h.2.2.2.2.1, h.2.2.2.2.2.1, h.2.2.2.2.2.2⟩

/-- No frame opens for another contact where there is none. -/
theorem alone {e : Engine} {frame : List UInt8} (h : ∀ i, (e.contacts i).present = true → i = 0) :
    ∀ hd body, decodeFrame frame = .ok (hd, body) → ∀ i, (e.tryContact crypto i hd body).opens = true → i = 0 := by
  intro hd body _ i hi
  refine h i ?_
  by_contra hp
  rw [Engine.tryContact, if_neg hp] at hi
  cases hi

/-- The send in flight at device 1. -/
def flight : PendingSend := ⟨1, 2, 0, 9⟩

/-- Device 1 when the answer comes. -/
def later : Engine := run (fun e op => (step crypto e op).1) (reserved.sendEmit crypto).1 meanwhile

theorem awaiting_data (frame : List UInt8) : awaiting.AwaitsData crypto 0 flight.epoch flight.sequence frame := by
  have h : (awaiting.provisioned = true ∧ awaiting.fault = false ∧ awaiting.timeValid = true ∧
      inAcceptWindow flight.epoch awaiting.epoch = true ∧ (awaiting.contacts 0).blocked = false) ∧
      (∀ i, (awaiting.contacts i).present = true → i = 0) ∧
      (∀ w ∈ (awaiting.contacts 0).window? flight.epoch, (w.accept flight.sequence).1 = .accepted) ∧
      (awaiting.reservation 0 .rxAccept).isSome = true := by
    decide +kernel
  obtain ⟨⟨hp, hf, ht, hh, hb⟩, halone, hfresh, hr⟩ := h
  exact ⟨⟨hp, hf, ht, hh, hb, alone halone⟩, hfresh, hr⟩

theorem later_ack (frame : List UInt8) :
    later.AwaitsAck crypto 0 awaiting.epoch (awaiting.contacts 0).txNext frame := by
  have h : (later.provisioned = true ∧ later.fault = false ∧ later.timeValid = true ∧
      inAcceptWindow awaiting.epoch later.epoch = true ∧ (later.contacts 0).blocked = false) ∧
      (∀ i, (later.contacts i).present = true → i = 0) ∧
      (∀ w ∈ (later.contacts 0).ackWindow? awaiting.epoch, (w.accept (awaiting.contacts 0).txNext).1 = .accepted) := by
    decide +kernel
  obtain ⟨⟨hp, hf, ht, hh, hb⟩, halone, hfresh⟩ := h
  exact ⟨⟨hp, hf, ht, hh, hb, alone halone⟩, hfresh⟩

end Sample

theorem passage_complete_sample : ∃ f ack, (Sample.reserved.sendEmit Sample.crypto).2 = .ok f ∧
    (Sample.awaiting.onFrame Sample.crypto f.bytes 0 7).2 =
      (.deliver 1 (UInt8.ofNat Sample.reserved.pendingText.length), some ack,
        some (.received 1 2 0 Sample.reserved.pendingText)) ∧
    (Sample.later.onFrame Sample.crypto ack.bytes 0 7).2 = (.ack 1, none, some (.sendAcked 1 2 0 9)) := by
  have hready : Sample.reserved.sendReady = .ok (Sample.flight, 0) := by decide +kernel
  have hleaves : Along (fun e op => (step Sample.crypto e op).1) (Engine.Leaves Sample.crypto)
      (Sample.reserved.sendEmit Sample.crypto).1 Sample.meanwhile := by
    decide +kernel
  have ha : Sample.reserved.Reached Sample.crypto := ⟨true, _, Sample.after_eq_run _ _⟩
  have hb : Sample.awaiting.Reached Sample.crypto := ⟨true, _, Sample.after_eq_run _ _⟩
  obtain ⟨f, hf, hdata⟩ := passage_complete (Sample.honest (Sample.bytes32 9)) ha hb Sample.mates hready
  obtain ⟨ack, hdeliver, hack⟩ := hdata f.bytes 0 7 (.inl rfl) (Sample.awaiting_data _)
  exact ⟨f, ack, hf, hdeliver, hack Sample.meanwhile ack.bytes 0 7 hleaves (.inl rfl) (Sample.later_ack _)⟩

end LoraMesh
