import LoraMesh.Core.Frame

/-!
# Core — Codec

The frames that are accepted are those that a header and a body encode to, and each frame is that of
one header and one body.

* `encodeFrame_eq`, `decodeFrame_iff`: both directions by the one layout, `frameBytes`.
* `frame_codec`: they are inverse to each other, and everything else is rejected.
-/

namespace LoraMesh

/-- A header and a body that a frame may carry. -/
structure Encodable (h : Header) (body : List UInt8) : Prop where
  version : h.version = versionPlaintextLab ∨ h.version = versionSecure
  flags : h.flags &&& ~~~flagsValidMask = 0
  hops : h.hops ≤ 1
  length : headerLen + body.length + crcLen ≤ maxFrameLen
  text : h.version = versionPlaintextLab → validateBody h.flags body = .ok ()

/-- The header with its body length, and the body. -/
def layout (h : Header) (body : List UInt8) : List UInt8 :=
  (encodeHeader h).set 27 (UInt8.ofNat body.length) ++ body

/-- The frame of a header and a body. -/
def frameBytes (h : Header) (body : List UInt8) : List UInt8 :=
  layout h body ++ be16 (crc16 (layout h body))

section

variable {h : Header} {body : List UInt8}

theorem encodeFrame_eq (h : Header) (body : List UInt8) (n : ℕ) :
    encodeFrame h body n =
      if headerLen + body.length + crcLen > maxFrameLen ∨ n < headerLen + body.length + crcLen then
        .error .tooLong
      else .ok (frameBytes h body) := rfl

theorem layout_eq (h : Header) (body : List UInt8) :
    layout h body = [h.version, h.flags] ++ (be32 h.dst ++ (be32 h.src ++ (be32 h.packetId ++
      h.hops :: (be32 h.epoch ++ (be64 h.sequence ++ UInt8.ofNat body.length :: body))))) := by
  unfold layout encodeHeader
  rw [List.set_append_right _ _ (by simp)]
  simp

theorem length_layout (h : Header) (body : List UInt8) :
    (layout h body).length = headerLen + body.length := by
  rw [layout, List.length_append, List.length_set, length_encodeHeader]

theorem length_frameBytes (h : Header) (body : List UInt8) :
    (frameBytes h body).length = headerLen + body.length + crcLen := by
  rw [frameBytes, List.length_append, length_layout, length_be16]

/-- A layout is that of one header and one body. -/
theorem layout_injective {h' : Header} {body' : List UInt8} (heq : layout h body = layout h' body') :
    h = h' ∧ body = body' := by
  rw [layout_eq, layout_eq] at heq
  obtain ⟨hv, heq⟩ := List.append_inj heq rfl
  obtain ⟨hd, heq⟩ := List.append_inj heq (by simp)
  obtain ⟨hs, heq⟩ := List.append_inj heq (by simp)
  obtain ⟨hp, heq⟩ := List.append_inj heq (by simp)
  obtain ⟨hh, heq⟩ := List.cons.inj heq
  obtain ⟨he, heq⟩ := List.append_inj heq (by simp)
  obtain ⟨hq, heq⟩ := List.append_inj heq (by simp)
  obtain ⟨-, hb⟩ := List.cons.inj heq
  obtain ⟨hv, hf⟩ : h.version = h'.version ∧ h.flags = h'.flags := by simpa using hv
  refine ⟨?_, hb⟩
  cases h
  cases h'
  simp only [Header.mk.injEq]
  exact ⟨hv, hf, be32_injective hd, be32_injective hs, be32_injective hp, hh, be32_injective he,
    be64_injective hq⟩

/-! ### Decoding -/

/-- A frame in its parts. -/
theorem frame_parts {f : List UInt8} {n : ℕ} (hlen : 28 + n + 2 = f.length) :
    f = [f[0], f[1]] ++ ((slice f 2 4 (by omega)).1 ++ ((slice f 6 4 (by omega)).1 ++
      ((slice f 10 4 (by omega)).1 ++ f[14] :: ((slice f 15 4 (by omega)).1 ++
        ((slice f 19 8 (by omega)).1 ++ f[27] :: ((slice f 28 n (by omega)).1 ++
          [f[28 + n], f[28 + n + 1]])))))) := by
  have hend : f.drop (28 + n) = [f[28 + n], f[28 + n + 1]] := by
    rw [List.drop_eq_getElem_cons (by omega), List.drop_eq_getElem_cons (by omega),
      List.drop_eq_nil_of_le (by omega)]
  rw [← hend, ← drop_eq_slice_append f 28 n, ← List.drop_eq_getElem_cons (by omega : 27 < f.length),
    ← drop_eq_slice_append f 19 8, ← drop_eq_slice_append f 15 4,
    ← List.drop_eq_getElem_cons (by omega : 14 < f.length), ← drop_eq_slice_append f 10 4,
    ← drop_eq_slice_append f 6 4, ← drop_eq_slice_append f 2 4]
  show f = f[0] :: f[1] :: f.drop 2
  rw [← List.drop_eq_getElem_cons (by omega : 1 < f.length)]
  exact eq_getElem_cons_drop (by omega)

/-- The header fields at their offsets. -/
def headerOf (f : List UInt8) (hmin : 29 < f.length) : Header where
  version := f[0]
  flags := f[1]
  dst := ofBe32 (slice f 2 4 (by omega)).1
  src := ofBe32 (slice f 6 4 (by omega)).1
  packetId := ofBe32 (slice f 10 4 (by omega)).1
  hops := f[14]
  epoch := ofBe32 (slice f 15 4 (by omega)).1
  sequence := ofBe64 (slice f 19 8 (by omega)).1

/-- Bytes whose length byte is right are laid out as the fields they hold. -/
theorem layout_parts {f : List UInt8} (hmin : 29 < f.length) (hlen : 28 + f[27].toNat + 2 = f.length) :
    layout (headerOf f hmin) (slice f 28 f[27].toNat (by omega)).1 ++
      [f[28 + f[27].toNat], f[28 + f[27].toNat + 1]] = f := by
  conv_rhs => rw [frame_parts hlen]
  rw [layout_eq, headerOf, be32_ofBe32 (Bytes.length_val _), be32_ofBe32 (Bytes.length_val _),
    be32_ofBe32 (Bytes.length_val _), be32_ofBe32 (Bytes.length_val _),
    be64_ofBe64 (Bytes.length_val _), Bytes.length_val, UInt8.ofNat_toNat]
  simp

/-- The length byte of an accepted frame is right. -/
theorem decodeFrame_bodyLen {f : List UInt8} (hd : decodeFrame f = .ok (h, body)) :
    ∃ hmin : 29 < f.length, 28 + f[27].toNat + 2 = f.length := by
  unfold decodeFrame at hd
  split at hd
  · cases hd
  rename_i hmin
  refine ⟨Nat.not_lt.mp hmin, ?_⟩
  dsimp only at hd
  repeat' split at hd
  all_goals first
    | cases hd; done
    | exact Decidable.not_not.mp ‹_›

/-- The last check, of a body in the clear. -/
theorem checked_iff {H : Header} {B : List UInt8} :
    (if H.version = versionPlaintextLab then
        match validateBody H.flags B with
        | .error r => .error r
        | .ok () => .ok (H, B)
      else .ok (H, B) : Except Reject (Header × List UInt8)) = .ok (h, body) ↔
      (H = h ∧ B = body) ∧ (H.version = versionPlaintextLab → validateBody H.flags B = .ok ()) := by
  split
  · rename_i hv
    split
    · rename_i r hr
      exact ⟨nofun, fun hok => by rw [hr] at hok; cases hok.2 hv⟩
    · rename_i hr
      exact ⟨fun hok => ⟨Prod.mk.inj (Except.ok.inj hok), fun _ => hr⟩, fun hok => by rw [hok.1.1, hok.1.2]⟩
  · rename_i hv
    exact ⟨fun hok => ⟨Prod.mk.inj (Except.ok.inj hok), fun h0 => absurd h0 hv⟩,
      fun hok => by rw [hok.1.1, hok.1.2]⟩

/-- The checks of the decoder, for bytes whose length byte is right. -/
theorem decodeFrame_of_length {f : List UInt8} (hmin : 29 < f.length) (hmax : f.length ≤ maxFrameLen)
    (hlen : 28 + f[27].toNat + 2 = f.length) :
    decodeFrame f = .ok (h, body) ↔
      (headerOf f hmin = h ∧ (slice f 28 f[27].toNat (by omega)).1 = body) ∧
        (h.version = versionPlaintextLab ∨ h.version = versionSecure) ∧
        h.flags &&& ~~~flagsValidMask = 0 ∧ h.hops ≤ 1 ∧
        crc16 (f.take (28 + f[27].toNat)) = ofBe16 [f[28 + f[27].toNat], f[28 + f[27].toNat + 1]] ∧
        (h.version = versionPlaintextLab → validateBody h.flags body = .ok ()) := by
  have hshort : ¬ f.length < minFrameLen := Nat.not_lt.mpr hmin
  have hlong : ¬ f.length > maxFrameLen := Nat.not_lt.mpr hmax
  unfold decodeFrame
  rw [dif_neg hshort, if_neg hlong]
  dsimp only
  constructor
  · intro hd
    split at hd
    · cases hd
    rename_i hversion
    split at hd
    · cases hd
    rename_i hflags
    split at hd
    · cases hd
    rename_i hhops
    rw [dif_neg fun hne => hne hlen] at hd
    split at hd
    · cases hd
    rename_i hcrc
    rw [Decidable.not_not] at hcrc hflags
    rw [not_and_or, Decidable.not_not, Decidable.not_not] at hversion
    rw [UInt8.not_lt] at hhops
    obtain ⟨⟨rfl, rfl⟩, htext⟩ := (checked_iff (H := headerOf f hmin)).mp hd
    exact ⟨⟨rfl, rfl⟩, hversion, hflags, hhops, hcrc, htext⟩
  · rintro ⟨⟨rfl, rfl⟩, hversion, hflags, hhops, hcrc, htext⟩
    have hhops : ¬ f[14] > 1 := UInt8.not_lt.mpr hhops
    rw [if_neg fun hne => hversion.elim hne.1 hne.2, if_neg fun hne => hne hflags, if_neg hhops, dif_neg fun hne => hne hlen, if_neg fun hne => hne hcrc]
    exact (checked_iff (H := headerOf f hmin)).mpr ⟨⟨rfl, rfl⟩, htext⟩

/-- **Codec.**  A frame is accepted, with a header and a body, exactly when it is theirs. -/
theorem decodeFrame_iff {f : List UInt8} :
    decodeFrame f = .ok (h, body) ↔ Encodable h body ∧ f = frameBytes h body := by
  constructor
  · intro hd
    obtain ⟨hflen, hfmax⟩ := decodeFrame_length hd
    obtain ⟨hmin, hlen⟩ := decodeFrame_bodyLen hd
    obtain ⟨⟨rfl, rfl⟩, hversion, hflags, hhops, hcrc, htext⟩ := (decodeFrame_of_length hmin hfmax hlen).mp hd
    have hlayout := layout_parts hmin hlen
    refine ⟨⟨hversion, hflags, hhops, hflen ▸ hfmax, htext⟩, ?_⟩
    -- the two bytes after the layout are its checksum
    have htake := congrArg (List.take (28 + f[27].toNat)) hlayout
    rw [List.take_left' (by rw [length_layout, Bytes.length_val])] at htake
    rw [← htake] at hcrc
    rw [frameBytes, hcrc, be16_ofBe16 rfl]
    exact hlayout.symm
  · rintro ⟨he, rfl⟩
    have hflen := length_frameBytes h body
    have hmax := he.length
    rw [← hflen] at hmax
    have hsmall : (frameBytes h body).length ≤ 255 := hmax
    simp only [headerLen, crcLen] at hflen
    have hmin : 30 ≤ (frameBytes h body).length := by omega
    have hbody : (UInt8.ofNat body.length).toNat = body.length := by
      rw [UInt8.toNat_ofNat', Nat.mod_eq_of_lt (by omega)]
    have h27 : (frameBytes h body)[27]? = some (UInt8.ofNat body.length) := by
      have hsplit : frameBytes h body = ([h.version, h.flags] ++ be32 h.dst ++ be32 h.src ++ be32 h.packetId ++
          [h.hops] ++ be32 h.epoch ++ be64 h.sequence) ++ UInt8.ofNat body.length :: (body ++
            be16 (crc16 (layout h body))) := by
        rw [frameBytes, layout_eq]
        simp
      rw [hsplit, List.getElem?_append_right (by simp)]
      simp
    obtain ⟨_, h27⟩ := List.getElem?_eq_some_iff.mp h27
    have hlen : 28 + (frameBytes h body)[27].toNat + 2 = (frameBytes h body).length := by
      rw [h27, hbody]
      omega
    have hlayout := layout_parts hmin hlen
    -- what the decoder takes from the layout is what was laid out
    obtain ⟨heq, hcrc⟩ := List.append_inj hlayout (by
      rw [length_layout, length_layout, Bytes.length_val, h27, hbody])
    obtain ⟨hh, hb⟩ := layout_injective heq
    refine (decodeFrame_of_length hmin hmax hlen).mpr
      ⟨⟨hh, hb⟩, he.version, he.flags, he.hops, ?_, he.text⟩
    have htake : (frameBytes h body).take (28 + (frameBytes h body)[27].toNat) = layout h body :=
      List.take_left' (by rw [length_layout, h27, hbody])
    rw [hcrc, ofBe16_be16, htake]

/-- A frame is that of one header and one body. -/
theorem frameBytes_injective {h' : Header} {body' : List UInt8} (he : Encodable h body)
    (he' : Encodable h' body') (heq : frameBytes h body = frameBytes h' body') : h = h' ∧ body = body' := by
  have hd := decodeFrame_iff.mpr ⟨he, rfl⟩
  rw [heq, decodeFrame_iff.mpr ⟨he', rfl⟩, Except.ok.injEq, Prod.mk.injEq] at hd
  exact ⟨hd.1.symm, hd.2.symm⟩

/-- An encodable frame is encoded into any buffer that holds it. -/
theorem encodeFrame_of_encodable {n : ℕ} (he : Encodable h body)
    (hn : headerLen + body.length + crcLen ≤ n) : encodeFrame h body n = .ok (frameBytes h body) := by
  rw [encodeFrame_eq, if_neg]
  rw [not_or, Nat.not_lt, Nat.not_lt]
  exact ⟨he.length, hn⟩

/-- **Bijection.**  What may be encoded is encoded to a frame that decodes to it; an accepted frame is
the encoding of what it decodes to, and the only frame that does; every other byte string is rejected. -/
theorem frame_codec :
    (∀ (h : Header) (body : List UInt8) (n : ℕ), Encodable h body →
      headerLen + body.length + crcLen ≤ n →
      ∃ f, encodeFrame h body n = .ok f ∧ decodeFrame f = .ok (h, body)) ∧
    (∀ (f : List UInt8) (h : Header) (body : List UInt8), decodeFrame f = .ok (h, body) →
      Encodable h body ∧ encodeFrame h body f.length = .ok f ∧
        ∀ f', decodeFrame f' = .ok (h, body) → f' = f) ∧
    ∀ f : List UInt8, (¬ ∃ h body, Encodable h body ∧ encodeFrame h body f.length = .ok f) →
      ∃ r, decodeFrame f = .error r := by
  have hencode (f : List UInt8) (h : Header) (body : List UInt8) (hd : decodeFrame f = .ok (h, body)) :
      Encodable h body ∧ encodeFrame h body f.length = .ok f := by
    obtain ⟨he, rfl⟩ := decodeFrame_iff.mp hd
    exact ⟨he, encodeFrame_of_encodable he (Nat.le_of_eq (length_frameBytes h body).symm)⟩
  refine ⟨fun h body n he hn => ?_, fun f h body hd => ?_, fun f hne => ?_⟩
  · exact ⟨_, encodeFrame_of_encodable he hn, decodeFrame_iff.mpr ⟨he, rfl⟩⟩
  · refine ⟨(hencode f h body hd).1, (hencode f h body hd).2, fun f' hd' => ?_⟩
    rw [(decodeFrame_iff.mp hd).2, (decodeFrame_iff.mp hd').2]
  · cases hd : decodeFrame f with
    | error r => exact ⟨r, rfl⟩
    | ok p => exact absurd ⟨p.1, p.2, hencode f p.1 p.2 hd⟩ hne

end

namespace Sample

/-- A clear text of one byte, with a hop left. -/
def labHeader : Header where
  version := versionPlaintextLab
  flags := flagWantAck
  dst := 1
  src := 2
  packetId := 3
  hops := 1
  epoch := 4
  sequence := 5

def labBody : List UInt8 := [bodyData, 104]

theorem lab_encodable : Encodable labHeader labBody where
  version := .inl rfl
  flags := by decide
  hops := by decide
  length := by decide
  text _ := by decide +kernel

end Sample

theorem frame_codec_sample :
    ∃ f, encodeFrame Sample.labHeader Sample.labBody maxFrameLen = .ok f ∧
      decodeFrame f = .ok (Sample.labHeader, Sample.labBody) :=
  frame_codec.1 _ _ _ Sample.lab_encodable (by decide)

end LoraMesh
