import LoraMesh.Engine.Op

/-!
# Engine — Transit

What a relay leaves of a frame, and what the engine makes of a frame that it relays.

* `decodeFrame_encodeFrame`: what is encoded with a valid header is a frame.
* `prepareForward_rewritten`: a forward is the frame received, but for the hop and the CRC.
* `onFrame_forward`: what is forwarded has a hop left, and is new to the relay cache.
* `onFrame_ack`: an acknowledgement is a frame.
-/

namespace LoraMesh

/-! ### Frames -/

/-- The header but for its hops, and the body. -/
def immutable (frame : List UInt8) : List UInt8 :=
  (frame.take (frame.length - crcLen)).take 14 ++ (frame.take (frame.length - crcLen)).drop 15

/-- A frame with its last hop taken, from what no relay changes. -/
def rewritten (parts : List UInt8) : List UInt8 :=
  let out := parts.take 14 ++ 0 :: parts.drop 14
  out ++ be16 (crc16 out)

/-- The parts of a frame around its hop count. -/
theorem rewritten_parts {a b : List UInt8} (ha : a.length = 14) :
    rewritten (a ++ b) = (a ++ 0 :: b) ++ be16 (crc16 (a ++ 0 :: b)) ∧
      immutable (rewritten (a ++ b)) = a ++ b := by
  have hr : rewritten (a ++ b) = (a ++ 0 :: b) ++ be16 (crc16 (a ++ 0 :: b)) := by
    rw [rewritten, List.take_left' ha, List.drop_left' ha]
  have hcut : (rewritten (a ++ b)).take ((rewritten (a ++ b)).length - crcLen) = a ++ 0 :: b := by
    rw [hr]
    exact List.take_left' (by simp only [List.length_append, length_be16, crcLen, Nat.add_sub_cancel])
  refine ⟨hr, ?_⟩
  rw [immutable, hcut, List.take_left' ha, List.drop_append, List.drop_of_length_le (by omega), ha]
  rfl

/-- What is forwarded is the received frame rewritten. -/
theorem prepareForward_rewritten {frame out : List UInt8} {n : ℕ} (h : prepareForward frame n = .ok out) :
    out = rewritten (immutable frame) ∧ immutable out = immutable frame ∧ out.length ≤ maxFrameLen := by
  unfold prepareForward at h
  split at h
  · cases h
  rename_i hd body hdec
  obtain ⟨hlen, hmax⟩ := decodeFrame_length hdec
  simp only [headerLen, crcLen] at hlen
  split at h
  · cases h
  split at h
  · cases h
  cases h
  generalize hm : frame.take (frame.length - 2) = m
  have hml : m.length = frame.length - 2 := by
    rw [← hm, List.length_take]
    omega
  have himm : immutable frame = m.take 14 ++ m.drop 15 := by
    rw [immutable, ← hm]
  have ha : (m.take 14).length = 14 := by
    rw [List.length_take]
    omega
  have hset : (frame.set 14 0).take (frame.length - 2) = m.take 14 ++ 0 :: m.drop 15 := by
    rw [List.take_set, hm, List.set_eq_take_append_cons_drop, if_pos (by omega)]
  obtain ⟨hr, hi⟩ := rewritten_parts (b := m.drop 15) ha
  rw [himm, hset, ← hr]
  refine ⟨rfl, hi, ?_⟩
  rw [hr]
  simp only [List.length_append, List.length_cons, List.length_drop, ha, length_be16]
  omega

/-- Bytes that pass every check of the decoder. -/
theorem decodeFrame_ok {out : List UInt8} {v f hops len : UInt8} (hlen : out.length = 28 + len.toNat)
    (hmax : len.toNat ≤ 225) (h0 : out[0]? = some v) (h1 : out[1]? = some f) (h14 : out[14]? = some hops)
    (h27 : out[27]? = some len) (hv : v = versionSecure) (hf : f &&& ~~~flagsValidMask = 0)
    (hh : ¬ hops > 1) : ∃ h body, decodeFrame (out ++ be16 (crc16 out)) = .ok (h, body) := by
  have hbytes : (out ++ be16 (crc16 out)).length = 30 + len.toNat := by
    rw [List.length_append, hlen, length_be16]
    omega
  have at_ {i : ℕ} {b : UInt8} (hi : out[i]? = some b) : (out ++ be16 (crc16 out))[i]? = some b := by
    obtain ⟨hlt, -⟩ := List.getElem?_eq_some_iff.mp hi
    rw [List.getElem?_append_left hlt]
    exact hi
  have htake : (out ++ be16 (crc16 out)).take (28 + len.toNat) = out := List.take_left' hlen
  have hdrop : (out ++ be16 (crc16 out)).drop (28 + len.toNat) = be16 (crc16 out) := List.drop_left' hlen
  generalize hc : crc16 out = c at hbytes at_ htake hdrop ⊢
  generalize out ++ be16 c = bytes at hbytes at_ htake hdrop ⊢
  obtain ⟨_, h0⟩ := List.getElem?_eq_some_iff.mp (at_ h0)
  obtain ⟨_, h1⟩ := List.getElem?_eq_some_iff.mp (at_ h1)
  obtain ⟨_, h14⟩ := List.getElem?_eq_some_iff.mp (at_ h14)
  obtain ⟨_, h27⟩ := List.getElem?_eq_some_iff.mp (at_ h27)
  unfold decodeFrame
  rw [dif_neg (by simp only [minFrameLen, headerLen, crcLen]; omega),
    if_neg (by simp only [maxFrameLen]; omega)]
  simp only [h0, h1, h14, h27, hv, hf, hh]
  have hcrc : crc16 (bytes.take (28 + len.toNat)) =
      ofBe16 [bytes[28 + len.toNat], bytes[28 + len.toNat + 1]] := by
    have hpair : bytes.drop (28 + len.toNat) = [bytes[28 + len.toNat], bytes[28 + len.toNat + 1]] := by
      rw [List.drop_eq_getElem_cons (by omega), List.drop_eq_getElem_cons (by omega),
        List.drop_eq_nil_of_le (by omega)]
    rw [← hpair, hdrop, ofBe16_be16, htake, hc]
  rw [if_neg fun h => h.2 rfl, if_neg fun h => h rfl, if_neg not_false,
    dif_neg (by simp only [headerLen, crcLen]; omega), if_neg fun h => h hcrc, if_neg (by decide)]
  exact ⟨_, _, rfl⟩

/-- A frame that was encoded with a valid header is one. -/
theorem decodeFrame_encodeFrame {h : Header} {body bytes : List UInt8} {n : ℕ}
    (henc : encodeFrame h body n = .ok bytes) (hv : h.version = versionSecure)
    (hf : h.flags &&& ~~~flagsValidMask = 0) (hh : ¬ h.hops > 1) :
    ∃ h' body', decodeFrame bytes = .ok (h', body') := by
  unfold encodeFrame at henc
  dsimp only at henc
  split at henc
  · cases henc
  rename_i hlen
  rw [not_or, Nat.not_lt] at hlen
  simp only [headerLen, crcLen, maxFrameLen] at hlen
  have hL : (UInt8.ofNat body.length).toNat = body.length := by
    rw [UInt8.toNat_ofNat', Nat.mod_eq_of_lt (by omega)]
  generalize UInt8.ofNat body.length = len at henc hL
  have hheader : (encodeHeader h).set 27 len =
      [h.version, h.flags] ++ be32 h.dst ++ be32 h.src ++ be32 h.packetId ++ [h.hops] ++ be32 h.epoch ++
        be64 h.sequence ++ [len] := by
    unfold encodeHeader
    rw [List.set_append_right _ _ (by simp)]
    simp
  cases henc
  have hsplit : (encodeHeader h).set 27 len ++ body =
      h.version :: h.flags :: (be32 h.dst ++ be32 h.src ++ be32 h.packetId) ++
        h.hops :: (be32 h.epoch ++ be64 h.sequence ++ len :: body) := by
    rw [hheader]
    simp
  have hat (l₁ l₂ : List UInt8) (b : UInt8) (i : ℕ) (hl : l₁.length = i) : (l₁ ++ b :: l₂)[i]? = some b := by
    rw [← hl, List.getElem?_append_right (Nat.le_refl _), Nat.sub_self]
    rfl
  have h0 : ((encodeHeader h).set 27 len ++ body)[0]? = some h.version := by
    rw [hsplit]
    rfl
  have h1 : ((encodeHeader h).set 27 len ++ body)[1]? = some h.flags := by
    rw [hsplit]
    rfl
  have h14 : ((encodeHeader h).set 27 len ++ body)[14]? = some h.hops := by
    rw [hsplit]
    exact hat _ _ _ 14 (by simp)
  have h27 : ((encodeHeader h).set 27 len ++ body)[27]? = some len := by
    rw [hheader, List.append_assoc]
    exact hat _ _ _ 27 (by simp)
  refine decodeFrame_ok ?_ (by omega) h0 h1 h14 h27 hv hf hh
  rw [List.length_append, List.length_set, length_encodeHeader, hL]

/-- So is one that was sealed. -/
theorem decodeFrame_sealFrame {C : Crypto} {v : Envelope} {n : ℕ} {bytes : List UInt8}
    (h : sealFrame C v n = .ok bytes) (hv : v.header.version = versionSecure)
    (hf : v.header.flags &&& ~~~flagsValidMask = 0) (hh : ¬ v.header.hops > 1) :
    ∃ h' body, decodeFrame bytes = .ok (h', body) := by
  simp only [sealFrame, bind_eq_ok] at h
  obtain ⟨body, -, h⟩ := h
  cases henc : encodeFrame v.header body maxFrameLen with
  | error r =>
      rw [henc] at h
      cases h
  | ok out =>
      rw [henc] at h
      cases h
      exact decodeFrame_encodeFrame henc hv hf hh

/-- The body that is decoded lies between the header and the CRC. -/
theorem decodeFrame_body {frame body : List UInt8} {h : Header} (hd : decodeFrame frame = .ok (h, body)) :
    body = (frame.drop headerLen).take (frame.length - 2 - headerLen) := by
  obtain ⟨hlen, -⟩ := decodeFrame_length hd
  simp only [headerLen, crcLen] at hlen
  have hbody : ∃ n, body = (frame.drop headerLen).take n := by
    unfold decodeFrame at hd
    split at hd
    · cases hd
    split at hd
    · cases hd
    dsimp only at hd
    repeat' split at hd
    all_goals first
      | cases hd; done
      | (cases hd
         exact ⟨_, rfl⟩)
  obtain ⟨n, rfl⟩ := hbody
  have hn : ((frame.drop headerLen).take n).length = frame.length - 2 - headerLen := by
    simp only [headerLen] at hlen ⊢
    omega
  rw [← hn, List.length_take, List.take_eq_take_min]

/-! ### Cache keys -/

/-- The key of a frame: what no relay changes, hashed. -/
def frameKey (C : Crypto) (frame : List UInt8) : Bytes 32 := C.sha256 (immutable frame)

/-- The key is that of the header and the body. -/
theorem cacheKey_slices (C : Crypto) {frame : List UInt8} (hmin : minFrameLen ≤ frame.length) :
    cacheKey C (slice frame 0 headerLen (Nat.le_of_add_right_le hmin))
      ((frame.drop headerLen).take (frame.length - 2 - headerLen)) = frameKey C frame := by
  simp only [minFrameLen, headerLen, crcLen] at hmin
  have hheader : frame.take headerLen = (frame.take (frame.length - crcLen)).take headerLen := by
    rw [List.take_take, Nat.min_eq_left (by simp only [headerLen, crcLen]; omega)]
  have hbody : (frame.drop headerLen).take (frame.length - 2 - headerLen) =
      (frame.take (frame.length - crcLen)).drop headerLen := List.drop_take.symm
  have hlen : headerLen ≤ (frame.take (frame.length - crcLen)).length := by
    rw [List.length_take]
    simp only [headerLen, crcLen]
    omega
  rw [cacheKey, frameKey, immutable, slice_val, List.drop_zero, hheader, hbody]
  generalize frame.take (frame.length - crcLen) = m at hlen
  have h15 : 15 ≤ (m.take headerLen).length := by
    rw [List.length_take]
    simp only [headerLen] at hlen ⊢
    omega
  rw [List.take_take, List.append_assoc, ← List.drop_append_of_le_length h15, List.take_append_drop]
  rfl

/-! ### What the engine forwards -/

namespace Engine

variable {C : Crypto} {e : Engine} {frame : List UInt8} {now : UInt64} {pid : UInt32}

/-- A body opened here is not forwarded. -/
theorem acceptBody_kind (e : Engine) (slot : Slot) (win : Fin 3) (h : Header) (pt : List UInt8)
    (pid : UInt32) : (e.acceptBody C slot win h pt pid).2.1 ≠ .forward := by
  unfold acceptBody
  split
  · intro hk
    cases hk
  · split
    · intro hk
      cases hk
    · split
      · unfold acceptData
        split
        · intro hk
          cases hk
        · intro hk
          cases hk
        · intro hk
          cases hk
      · unfold acceptAck
        split
        · dsimp only
          split
          · split
            · intro hk
              cases hk
            · intro hk
              cases hk
          · intro hk
            cases hk
        · intro hk
          cases hk

theorem transit_forward {h : Header} {hmin : minFrameLen ≤ frame.length}
    (hk : (e.transit C frame h hmin now).2.1 = .forward) :
    ∃ fwd, (e.transit C frame h hmin now).2 = (.forward, some fwd, none) ∧ h.hops = 1 ∧
      prepareForward frame maxFrameLen = .ok fwd.bytes ∧
      (e.relayCache.observe (frameKey C frame) now).1 = .new := by
  rw [← cacheKey_slices C hmin]
  unfold transit at hk ⊢
  dsimp only at hk ⊢
  split at hk
  · cases hk
  rename_i hnew
  split at hk
  · rename_i hhops
    split at hk
    · rename_i out hout
      rw [hnew, if_pos hhops, hout]
      exact ⟨_, rfl, by simpa [shouldForward] using hhops, rfl, rfl⟩
    · cases hk
  · cases hk

/-- What is forwarded is a valid frame with a hop left, new to the relay cache. -/
theorem onFrame_forward (hk : (e.onFrame C frame now pid).2.1 = .forward) :
    ∃ h body fwd, decodeFrame frame = .ok (h, body) ∧
      (e.onFrame C frame now pid).2 = (.forward, some fwd, none) ∧ h.hops = 1 ∧
      prepareForward frame maxFrameLen = .ok fwd.bytes ∧
      (e.relayCache.observe (frameKey C frame) now).1 = .new := by
  unfold onFrame at hk ⊢
  split at hk
  · rename_i hmin
    rw [dif_pos hmin]
    split at hk
    · cases hk
    rename_i h body hd
    rw [hd]
    split at hk
    · cases hk
    rename_i hv
    split at hk
    · cases hk
    rename_i hhops
    rw [if_neg hv, if_neg hhops]
    split at hk
    · rename_i hblind
      obtain ⟨fwd, hout, h1, hp, hnew⟩ := transit_forward hk
      rw [if_pos hblind]
      exact ⟨h, body, fwd, rfl, hout, h1, hp, hnew⟩
    rename_i hblind
    rw [if_neg hblind]
    split at hk
    · rename_i hepoch
      obtain ⟨fwd, hout, h1, hp, hnew⟩ := transit_forward hk
      rw [if_pos hepoch]
      exact ⟨h, body, fwd, rfl, hout, h1, hp, hnew⟩
    rename_i hepoch
    rw [if_neg hepoch]
    obtain ⟨as, failed, r, hscan, -⟩ := scan_spec (C := C) h body (List.finRange maxContacts) e false
    rw [hscan] at hk ⊢
    cases r with
    | some r =>
        obtain ⟨slot, win, pt⟩ := r
        exact absurd hk (acceptBody_kind _ slot win h pt pid)
    | none =>
        obtain ⟨fwd, hout, h1, hp, hnew⟩ := transit_forward hk
        refine ⟨h, body, fwd, rfl, hout, h1, hp, ?_⟩
        cases failed with
        | false => exact hnew
        | true => exact hnew
  · cases hk

theorem buildAck_frame {slot : Slot} {h : Header} {ack : OutgoingFrame}
    (hk : (e.buildAck C slot h pid).2 = some ack) : ∃ h' body, decodeFrame ack.bytes = .ok (h', body) := by
  unfold buildAck at hk
  split at hk
  · cases hk
  dsimp only at hk
  split at hk
  · cases hk
  split at hk
  · cases hk
  · rename_i bytes hb
    cases hk
    have hflags : (0 : UInt8) &&& ~~~flagsValidMask = 0 := by decide
    have hhops : ¬ (1 : UInt8) > 1 := by decide
    exact decodeFrame_sealFrame hb rfl hflags hhops

theorem acceptBody_frame {slot : Slot} {win : Fin 3} {h : Header} {pt : List UInt8} {ack : OutgoingFrame}
    (hk : (e.acceptBody C slot win h pt pid).2.2.1 = some ack) :
    ∃ h' body, decodeFrame ack.bytes = .ok (h', body) := by
  unfold acceptBody at hk
  split at hk
  · cases hk
  split at hk
  · cases hk
  split at hk
  · unfold acceptData at hk
    split at hk
    · exact buildAck_frame hk
    · exact buildAck_frame hk
    · cases hk
  · unfold acceptAck at hk
    dsimp only at hk
    split at hk
    · split at hk
      · split at hk
        · cases hk
        · cases hk
      · cases hk
    · cases hk

/-- An acknowledgement is a frame. -/
theorem onFrame_ack {kind : IncomingKind} {ack : OutgoingFrame} {event : Option NodeEvent}
    (hk : (e.onFrame C frame now pid).2 = (kind, some ack, event)) (hkind : kind ≠ .forward) :
    ∃ h body, decodeFrame ack.bytes = .ok (h, body) := by
  have transit (e' : Engine) (h : Header) (hmin : minFrameLen ≤ frame.length)
      (ht : (e'.transit C frame h hmin now).2 = (kind, some ack, event)) :
      ∃ h body, decodeFrame ack.bytes = .ok (h, body) := by
    unfold Engine.transit at ht
    dsimp only at ht
    split at ht
    · cases ht
    split at ht
    · split at ht
      · cases ht
        exact absurd rfl hkind
      · cases ht
    · cases ht
  unfold onFrame at hk
  split at hk
  swap
  · cases hk
  split at hk
  · cases hk
  rename_i h body _
  split at hk
  · cases hk
  split at hk
  · cases hk
  split at hk
  · exact transit _ _ _ hk
  split at hk
  · exact transit _ _ _ hk
  obtain ⟨as, failed, r, hscan, -⟩ := scan_spec (C := C) h body (List.finRange maxContacts) e false
  rw [hscan] at hk
  cases r with
  | none => exact transit _ _ _ hk
  | some r => exact acceptBody_frame (congrArg (fun r => r.2.1) hk)

end Engine

end LoraMesh
