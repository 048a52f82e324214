import LoraMesh.Core.Codec
import LoraMesh.Core.Relay

/-!
# Core — Transparency

What a relay does to a frame: it takes the last hop and makes the CRC anew, and leaves alone what
the cache key, the associated data and the endpoints read.

* `prepareForwardInto`: the rewriting with the buffer it writes to.
* `prepareForward_frameBytes`: the forward of a frame is the frame of the same fields with no hop.
-/

namespace LoraMesh

/-- Rewrite a frame for forwarding into a buffer: the length written, and the buffer after. -/
def prepareForwardInto (frame out : List UInt8) : Except Reject ℕ × List UInt8 :=
  match decodeFrame frame with
  | .error r => (.error r, out)
  | .ok (header, _) =>
    if header.hops ≠ 1 then (.error .badHops, out)
    else if out.length < frame.length then (.error .tooLong, out)
    else
      let out := frame ++ out.drop frame.length
      let out := out.set 14 0
      let crc := crc16 (out.take (frame.length - 2))
      let n := frame.length
      (.ok n, out.take (n - 2) ++ be16 crc ++ out.drop n)

section

variable {h : Header} {body : List UInt8}

/-! ### The fields around the hop count -/

/-- The header before its hop count. -/
def envelopeHead (h : Header) : List UInt8 :=
  [h.version, h.flags] ++ (be32 h.dst ++ (be32 h.src ++ be32 h.packetId))

/-- The header after it. -/
def envelopeTail (h : Header) (bodyLen : UInt8) : List UInt8 :=
  be32 h.epoch ++ (be64 h.sequence ++ [bodyLen])

theorem length_envelopeHead (h : Header) : (envelopeHead h).length = 14 := by simp [envelopeHead]

theorem length_envelopeTail (h : Header) (n : UInt8) : (envelopeTail h n).length = 13 := by
  simp [envelopeTail]

theorem layout_hops (h : Header) (body : List UInt8) :
    layout h body = envelopeHead h ++ h.hops :: (envelopeTail h (UInt8.ofNat body.length) ++ body) := by
  rw [layout_eq]
  simp [envelopeHead, envelopeTail]

theorem frameAad_envelope (h : Header) (n : UInt8) :
    frameAad h n = domainFrame ++ (envelopeHead h ++ envelopeTail h n) := by
  simp [frameAad, envelopeHead, envelopeTail]

theorem frameBytes_hops (h : Header) (body : List UInt8) :
    frameBytes h body = envelopeHead h ++ h.hops :: (envelopeTail h (UInt8.ofNat body.length) ++
      (body ++ be16 (crc16 (layout h body)))) := by
  rw [frameBytes]
  generalize crc16 (layout h body) = c
  rw [layout_hops]
  simp

/-- The header bytes of a frame, but for the hop count. -/
theorem frameBytes_header (h : Header) (body : List UInt8) :
    ((frameBytes h body).take headerLen).take 14 = envelopeHead h ∧
      ((frameBytes h body).take headerLen).drop 15 = envelopeTail h (UInt8.ofNat body.length) := by
  have hhead := length_envelopeHead h
  have htail := length_envelopeTail h (UInt8.ofNat body.length)
  have hheader : (frameBytes h body).take headerLen =
      envelopeHead h ++ h.hops :: envelopeTail h (UInt8.ofNat body.length) := by
    rw [frameBytes_hops, ← List.cons_append, ← List.append_assoc]
    exact List.take_left' (by simp [hhead, htail])
  rw [hheader]
  refine ⟨List.take_left' hhead, ?_⟩
  rw [List.append_cons]
  exact List.drop_left' (by simp [hhead])

/-- The cache key is that of the fields around the hop count, and the body. -/
theorem cacheKeyOfFrame_frameBytes (C : Crypto) (h : Header) (body : List UInt8) :
    cacheKeyOfFrame C (frameBytes h body) body =
      some (C.sha256 (envelopeHead h ++ envelopeTail h (UInt8.ofNat body.length) ++ body)) := by
  have hle : headerLen ≤ (frameBytes h body).length := by
    rw [length_frameBytes]
    omega
  obtain ⟨hhead, htail⟩ := frameBytes_header h body
  rw [cacheKeyOfFrame, dif_pos hle, cacheKey, slice_val, List.drop_zero, hhead, htail]

/-! ### The forward -/

/-- Fields with no hop left may be encoded when they may be with one. -/
theorem Encodable.spent (he : Encodable h body) : Encodable { h with hops := 0 } body :=
  ⟨he.version, he.flags, (by decide : (0 : UInt8) ≤ 1), he.length, he.text⟩

/-- The forward of a frame is the frame of the same fields with no hop. -/
theorem prepareForward_frameBytes {n : ℕ} (he : Encodable h body) (hh : h.hops = 1)
    (hn : (frameBytes h body).length ≤ n) :
    prepareForward (frameBytes h body) n = .ok (frameBytes { h with hops := 0 } body) := by
  have hset : ((frameBytes h body).set 14 0).take ((frameBytes h body).length - 2) =
      layout { h with hops := 0 } body := by
    have hhead := length_envelopeHead h
    have hcut : (frameBytes h body).length - 2 = (layout { h with hops := 0 } body).length := by
      rw [length_frameBytes, length_layout, Nat.add_sub_cancel]
    have hspent : (frameBytes h body).set 14 0 =
        layout { h with hops := 0 } body ++ be16 (crc16 (layout h body)) := by
      rw [frameBytes]
      generalize crc16 (layout h body) = c
      rw [layout_hops h, layout_hops, List.append_assoc, List.set_append_right _ _ (by omega), hhead]
      simp [envelopeHead, envelopeTail]
    rw [hspent, hcut]
    exact List.take_left' rfl
  rw [prepareForward, decodeFrame_iff.mpr ⟨he, rfl⟩]
  dsimp only
  rw [if_neg fun hne => hne hh, if_neg (Nat.not_lt.mpr hn), hset]
  rfl

/-- The buffer holds the forward, and beyond it what it held. -/
theorem prepareForwardInto_eq (frame out : List UInt8) :
    prepareForwardInto frame out =
      match prepareForward frame out.length with
      | .error r => (.error r, out)
      | .ok fwd => (.ok fwd.length, fwd ++ out.drop fwd.length) := by
  unfold prepareForwardInto prepareForward
  cases hd : decodeFrame frame with
  | error r => rfl
  | ok p =>
      obtain ⟨hlen, -⟩ := decodeFrame_length hd
      simp only [headerLen, crcLen] at hlen
      dsimp only
      split
      · rfl
      split
      · rfl
      have hset : (frame ++ out.drop frame.length).set 14 0 = frame.set 14 0 ++ out.drop frame.length :=
        List.set_append_left _ _ (by omega)
      have htake : (frame.set 14 0 ++ out.drop frame.length).take (frame.length - 2) =
          (frame.set 14 0).take (frame.length - 2) :=
        List.take_append_of_le_length (by rw [List.length_set]; omega)
      have hdrop : (frame.set 14 0 ++ out.drop frame.length).drop frame.length = out.drop frame.length :=
        List.drop_left' List.length_set
      have hfwd : ∀ c, ((frame.set 14 0).take (frame.length - 2) ++ be16 c).length = frame.length := by
        intro c
        rw [List.length_append, List.length_take, List.length_set, length_be16]
        omega
      rw [hset, htake, hdrop]
      dsimp only
      rw [hfwd]

/-- **Transparency.**  The forward of a valid frame with a hop left is as long, decodes to the same
header but for the hop and to the same body, has the same cache key and the same associated data, and
is not forwarded again; nothing else is forwarded, and then nothing is written. -/
theorem relay_transparency (C : Crypto) (frame out : List UInt8) :
    (∀ h body, decodeFrame frame = .ok (h, body) → h.hops = 1 → frame.length ≤ out.length →
      ∃ fwd, prepareForwardInto frame out = (.ok frame.length, fwd ++ out.drop frame.length) ∧
        fwd.length = frame.length ∧
        decodeFrame fwd = .ok ({ h with hops := 0 }, body) ∧
        (cacheKeyOfFrame C frame body).isSome ∧ cacheKeyOfFrame C fwd body = cacheKeyOfFrame C frame body ∧
        frameAad { h with hops := 0 } (UInt8.ofNat body.length) = frameAad h (UInt8.ofNat body.length) ∧
        frameAad h (UInt8.ofNat body.length) =
          domainFrame ++ ((frame.take headerLen).take 14 ++ (frame.take headerLen).drop 15) ∧
        frameAad h (UInt8.ofNat body.length) =
          domainFrame ++ ((fwd.take headerLen).take 14 ++ (fwd.take headerLen).drop 15) ∧
        ∀ out', ∃ r, prepareForwardInto fwd out' = (.error r, out')) ∧
    ((¬ ∃ h body, decodeFrame frame = .ok (h, body) ∧ h.hops = 1 ∧ frame.length ≤ out.length) →
      ∃ r, prepareForwardInto frame out = (.error r, out)) := by
  refine ⟨fun h body hd hh hn => ?_, fun hne => ?_⟩
  · obtain ⟨he, rfl⟩ := decodeFrame_iff.mp hd
    have hd' : decodeFrame (frameBytes { h with hops := 0 } body) = .ok ({ h with hops := 0 }, body) :=
      decodeFrame_iff.mpr ⟨he.spent, rfl⟩
    have hlen : (frameBytes { h with hops := 0 } body).length = (frameBytes h body).length := by
      rw [length_frameBytes, length_frameBytes]
    obtain ⟨hhead, htail⟩ := frameBytes_header h body
    obtain ⟨hhead', htail'⟩ := frameBytes_header { h with hops := 0 } body
    refine ⟨frameBytes { h with hops := 0 } body, ?_, hlen, hd', ?_, ?_, rfl, ?_, ?_, fun out' => ?_⟩
    · rw [prepareForwardInto_eq, prepareForward_frameBytes he hh hn]
      dsimp only
      rw [hlen]
    · rw [cacheKeyOfFrame_frameBytes]
      rfl
    · rw [cacheKeyOfFrame_frameBytes, cacheKeyOfFrame_frameBytes]
      rfl
    · rw [hhead, htail, frameAad_envelope]
    · rw [hhead', htail']
      exact frameAad_envelope h _
    · refine ⟨.badHops, ?_⟩
      rw [prepareForwardInto, hd']
      exact if_pos (by decide : ¬ (0 : UInt8) = 1)
  · rw [prepareForwardInto]
    cases hd : decodeFrame frame with
    | error r => exact ⟨r, rfl⟩
    | ok p =>
        dsimp only
        split
        · exact ⟨_, rfl⟩
        rename_i hh
        split
        · exact ⟨_, rfl⟩
        rename_i hn
        exact absurd ⟨p.1, p.2, hd, Decidable.not_not.mp hh, Nat.not_lt.mp hn⟩ hne

end

theorem relay_transparency_sample :
    ∃ fwd, prepareForwardInto (frameBytes Sample.labHeader Sample.labBody) (List.replicate 64 0) =
        (.ok 32, fwd ++ List.replicate 32 0) ∧
      decodeFrame fwd = .ok ({ Sample.labHeader with hops := 0 }, Sample.labBody) := by
  have hd := decodeFrame_iff.mpr ⟨Sample.lab_encodable, rfl⟩
  have hlen : (frameBytes Sample.labHeader Sample.labBody).length = 32 := length_frameBytes _ _
  obtain ⟨fwd, hout, -, hfwd, -⟩ := (relay_transparency Sample.crypto _ (List.replicate 64 0)).1 _ _ hd rfl
    (by rw [hlen]; decide)
  rw [hlen] at hout
  exact ⟨fwd, hout, hfwd⟩

end LoraMesh
