import LoraMesh.Lib.Bytes

/-!
# Core — Frame

The frame codec (`mesh-core/src/frame.rs`).  A frame is a 28-byte header, a body of up to 225
bytes and a CRC; byte 27 is the body length.  Byte slices are lists; every indexed read carries
the proof that it is in range.
-/

namespace LoraMesh

/-- `core::str::from_utf8(l).is_ok()`. -/
def fromUtf8 : List UInt8 → Bool
  | [] => true
  | b₀ :: l =>
    if b₀ < 0x80 then fromUtf8 l else
    match l with
    | [] => false
    | b₁ :: l =>
      if 0xC2 ≤ b₀ && b₀ ≤ 0xDF then b₁ &&& 0xC0 == 0x80 && fromUtf8 l else
      match l with
      | [] => false
      | b₂ :: l =>
        if 0xE0 ≤ b₀ && b₀ ≤ 0xEF then
          b₁ &&& 0xC0 == 0x80 && b₂ &&& 0xC0 == 0x80
            -- neither an overlong form nor a surrogate
            && (b₀ != 0xE0 || 0xA0 ≤ b₁) && (b₀ != 0xED || b₁ ≤ 0x9F) && fromUtf8 l
        else
        match l with
        | [] => false
        | b₃ :: l =>
          0xF0 ≤ b₀ && b₀ ≤ 0xF4
            && b₁ &&& 0xC0 == 0x80 && b₂ &&& 0xC0 == 0x80 && b₃ &&& 0xC0 == 0x80
            && (b₀ != 0xF0 || 0x90 ≤ b₁) && (b₀ != 0xF4 || b₁ ≤ 0x8F) && fromUtf8 l

abbrev headerLen : ℕ := 28
abbrev crcLen : ℕ := 2
abbrev minFrameLen : ℕ := headerLen + crcLen
abbrev maxFrameLen : ℕ := 255
abbrev maxTextLen : ℕ := 160

abbrev versionPlaintextLab : UInt8 := 0
abbrev versionSecure : UInt8 := 1

abbrev flagWantAck : UInt8 := 0x01
abbrev flagsValidMask : UInt8 := flagWantAck

abbrev bodyData : UInt8 := 0x01
abbrev bodyAck : UInt8 := 0x02
abbrev tagLen : ℕ := 16

structure Header where
  version : UInt8
  flags : UInt8
  dst : UInt32
  src : UInt32
  packetId : UInt32
  hops : UInt8
  epoch : UInt32
  sequence : UInt64
  deriving DecidableEq

inductive Reject where
  | tooShort
  | tooLong
  | lengthMismatch
  | badCrc
  | unknownVersion
  | badFlags
  | badHops
  | badBody
  deriving DecidableEq

/-- One bit of the CRC: shift out the top bit and fold the polynomial back in. -/
def crcShift (crc : UInt16) : UInt16 :=
  if crc &&& 0x8000 != 0 then (crc <<< 1) ^^^ 0x1021 else crc <<< 1

/-- The eight bits of one data byte. -/
def crcByte (crc : UInt16) (b : UInt8) : UInt16 :=
  let top : UInt16 := b.toUInt16 <<< 8
  Nat.repeat crcShift 8 (crc ^^^ top)

/-- CRC-16/CCITT-FALSE: polynomial `0x1021`, initial value `0xFFFF`. -/
def crc16 (data : List UInt8) : UInt16 := data.foldl crcByte 0xFFFF

/-- The 28 header bytes; the body length at offset 27 is left zero. -/
def encodeHeader (h : Header) : List UInt8 :=
  [h.version, h.flags] ++ be32 h.dst ++ be32 h.src ++ be32 h.packetId ++ [h.hops] ++
    be32 h.epoch ++ be64 h.sequence ++ [0]

/-- The whole frame, written into a buffer of `outLen` bytes. -/
def encodeFrame (h : Header) (body : List UInt8) (outLen : ℕ) : Except Reject (List UInt8) :=
  let total := headerLen + body.length + crcLen
  if total > maxFrameLen ∨ outLen < total then .error .tooLong
  else
    let out := (encodeHeader h).set 27 (UInt8.ofNat body.length) ++ body
    .ok (out ++ be16 (crc16 out))

/-- A DATA or ACK body and its agreement with the flags. -/
def validateBody (flags : UInt8) (body : List UInt8) : Except Reject Unit :=
  match body with
  | [] => .error .badBody
  | b :: text =>
    if b = bodyData ∧ flags = flagWantAck then
      if text = [] ∨ text.length > maxTextLen ∨ fromUtf8 text = false then .error .badBody
      else .ok ()
    else if b = bodyAck ∧ flags = 0 ∧ body.length = 17 then .ok ()
    else .error .badBody

/-- Validate and split a received frame. -/
def decodeFrame (frame : List UInt8) : Except Reject (Header × List UInt8) :=
  if hshort : frame.length < minFrameLen then .error .tooShort else
  if frame.length > maxFrameLen then .error .tooLong else
  have hmin : 30 ≤ frame.length := Nat.le_of_not_lt hshort
  if frame[0] ≠ versionPlaintextLab ∧ frame[0] ≠ versionSecure then .error .unknownVersion else
  if frame[1] &&& ~~~flagsValidMask ≠ 0 then .error .badFlags else
  if frame[14] > 1 then .error .badHops else
  let bodyLen := frame[27].toNat
  if hlen : headerLen + bodyLen + crcLen ≠ frame.length then .error .lengthMismatch else
  have hlen : 28 + frame[27].toNat + 2 = frame.length := Decidable.not_not.mp hlen
  let bodyEnd := 28 + bodyLen
  let want := ofBe16 [frame[bodyEnd], frame[bodyEnd + 1]]
  if crc16 (frame.take bodyEnd) ≠ want then .error .badCrc else
  let h : Header :=
    { version := frame[0]
      flags := frame[1]
      dst := ofBe32 (slice frame 2 4 (by omega)).1
      src := ofBe32 (slice frame 6 4 (by omega)).1
      packetId := ofBe32 (slice frame 10 4 (by omega)).1
      hops := frame[14]
      epoch := ofBe32 (slice frame 15 4 (by omega)).1
      sequence := ofBe64 (slice frame 19 8 (by omega)).1 }
  let body := (slice frame headerLen bodyLen (by omega)).1
  if h.version = versionPlaintextLab then
    match validateBody h.flags body with
    | .error r => .error r
    | .ok () => .ok (h, body)
  else .ok (h, body)

/-- A body that fits is encoded. -/
theorem encodeFrame_ok (h : Header) {body : List UInt8}
    (hlen : headerLen + body.length + crcLen ≤ maxFrameLen) :
    ∃ bytes, encodeFrame h body maxFrameLen = .ok bytes :=
  ⟨_, if_neg fun hout => hout.elim (Nat.not_lt.mpr hlen) (Nat.not_lt.mpr hlen)⟩

theorem length_encodeHeader (h : Header) : (encodeHeader h).length = headerLen := by
  simp [encodeHeader]

/-- An accepted frame is no longer than a frame may be, and its body fills it. -/
theorem decodeFrame_length {frame body : List UInt8} {h : Header}
    (hd : decodeFrame frame = .ok (h, body)) :
    frame.length = headerLen + body.length + crcLen ∧ frame.length ≤ maxFrameLen := by
  unfold decodeFrame at hd
  split at hd
  · cases hd
  rename_i hmin
  split at hd
  · cases hd
  rename_i hmax
  dsimp only at hd
  repeat' split at hd
  all_goals first
    | cases hd; done
    | (cases hd
       rw [Bytes.length_val]
       exact ⟨by omega, by omega⟩)

end LoraMesh
