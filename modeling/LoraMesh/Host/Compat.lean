import LoraMesh.Core.Compat

/-!
# Host — Compat

The parser of public frames in the host (`host/meshctl/compat.py`), with Python's unbounded integers,
beside that of `mesh-core`.

* `HostCompat.parsePacket`: the parser, without the texts that it makes for display.
* `HostCompat.Framed`: the texts of its grammar, with wider limits; `parsePacket_framed`: it takes those
  whose payload is shown by its port.
* `parsers_agree`: exactly when the two parsers say the same.
-/

namespace LoraMesh

namespace HostCompat

open Compat (FieldsOk error_iff ok_iff byte_low byte_last or_shl more_value)
open WireField

abbrev maxFrameLen : ℕ := 512

/-- The message of a `MeshtasticParseError`. -/
abbrev ParseError := String

/-- The loop of `_read_varint`. -/
def readVarintFrom (buf : List UInt8) (pos result shift : ℕ) : Except ParseError (ℕ × ℕ) :=
  if h : pos ≥ buf.length then .error "truncated varint"
  else
    let byte := buf[pos]
    let result := result ||| ((byte &&& 0x7F).toNat <<< shift)
    if byte &&& 0x80 = 0 then .ok (result, pos + 1)
    else if shift + 7 ≥ 70 then .error "varint overflow"
    else readVarintFrom buf (pos + 1) result (shift + 7)
termination_by buf.length - pos

def readVarint (buf : List UInt8) (pos : ℕ) : Except ParseError (ℕ × ℕ) := readVarintFrom buf pos 0 0

/-- The value of a field that is yielded. -/
inductive FieldValue where
  | int (v : ℕ)
  | bytes (b : List UInt8)

/-- A field number, a wire type and a value. -/
abbrev Item := ℕ × ℕ × FieldValue

/-- The rest of a field after its tag: what is yielded, if anything, and the position after it. -/
def iterValue (buf : List UInt8) (fieldNo wire pos : ℕ) : Except ParseError (Option (Option Item × ℕ)) :=
  match wire with
  | 0 => do
    let (value, pos) ← readVarint buf pos
    return some (some (fieldNo, 0, .int value), pos)
  | 1 =>
    if pos + 8 > buf.length then .error "truncated 64-bit field"
    else .ok (some (none, pos + 8))
  | 2 => do
    let (length, pos) ← readVarint buf pos
    if pos + length > buf.length then .error "truncated length-delimited field"
    else return some (some (fieldNo, 2, .bytes ((buf.drop pos).take length)), pos + length)
  | 5 =>
    if pos + 4 > buf.length then .error "truncated 32-bit field"
    else .ok (some (some (fieldNo, 5, .int (leNat ((buf.drop pos).take 4))), pos + 4))
  | wire => .error s!"unsupported wire type {wire}"

/-- One pass of `_iter_fields`. -/
def iterFields (buf : List UInt8) (pos : ℕ) : Except ParseError (Option (Option Item × ℕ)) :=
  if pos ≥ buf.length then .ok none
  else do
    let (tag, pos) ← readVarint buf pos
    if tag >>> 3 = 0 then .error "bad protobuf tag"
    else iterValue buf (tag >>> 3) (tag &&& 0x07) pos

/-- The limits of the parser: ten bytes of a varint, and nothing below them. -/
def limits : Limits where
  value := 2 ^ 70
  number := 2 ^ 67

/-- What is yielded for a field. -/
def item : WireField → Option Item
  | (n, .varint v) => some (n, 0, .int v)
  | (_, .fixed64) => none
  | (n, .bytes b) => some (n, 2, .bytes b)
  | (n, .fixed32 v) => some (n, 5, .int v)

/-! ### The scan -/

theorem readVarint_lt : ∀ {k : ℕ} {l : List UInt8} {v n : ℕ}, LoraMesh.readVarint k l = some (v, n) → v < 2 ^ (7 * k)
  | 0, _, _, _, h => nomatch h
  | _ + 1, [], _, _, h => nomatch h
  | k + 1, b :: l, v, n, h => by
      have hb := b.toNat_lt
      have hpos := Nat.two_pow_pos (7 * k)
      rw [LoraMesh.readVarint] at h
      rw [Nat.mul_add, Nat.pow_add]
      by_cases hlast : b.toNat < 128
      · rw [if_pos hlast] at h
        cases h
        omega
      · rw [if_neg hlast, Option.map_eq_some_iff] at h
        obtain ⟨⟨w, m⟩, hread, heq⟩ := h
        cases heq
        have hw := readVarint_lt hread
        omega

/-- With `k` bytes read, the loop reads the rest of a varint of at most ten. -/
theorem readVarintFrom_eq {buf : List UInt8} : ∀ {j k pos result : ℕ}, k + (j + 1) = 10 → result < 2 ^ (7 * k) →
    (readVarintFrom buf pos result (7 * k)).toOption =
      (LoraMesh.readVarint (j + 1) (buf.drop pos)).map fun r => (result + r.1 * 2 ^ (7 * k), pos + r.2) := by
  intro j
  induction j using Nat.strong_induction_on with
  | _ j ih =>
      intro k pos result hk hresult
      rw [readVarintFrom]
      by_cases hpos : pos ≥ buf.length
      · rw [dif_pos hpos, List.drop_eq_nil_iff.mpr hpos]
        rfl
      rw [dif_neg hpos, List.drop_eq_getElem_cons (Nat.not_le.mp hpos), LoraMesh.readVarint]
      generalize buf[pos] = b
      have hb := b.toNat_lt
      have hstep : b.toNat % 128 * 2 ^ (7 * k) + 2 ^ (7 * k) ≤ 128 * 2 ^ (7 * k) := by
        rw [← Nat.succ_mul]
        exact Nat.mul_le_mul_right _ (by omega)
      simp only [byte_low, Nat.shiftLeft_eq, or_shl hresult]
      by_cases hlast : b.toNat < 128
      · rw [if_pos ((byte_last b).mpr hlast), if_pos hlast, Nat.mod_eq_of_lt hlast]
        rfl
      rw [if_neg (fun h => hlast ((byte_last b).mp h)), if_neg hlast]
      cases j with
      | zero =>
          rw [if_pos (by omega)]
          rfl
      | succ j =>
          have hlow : b.toNat % 128 = b.toNat - 128 := by omega
          have hnext : (readVarintFrom buf (pos + 1) (result + b.toNat % 128 * 2 ^ (7 * k)) (7 * (k + 1))).toOption = _ :=
            ih j (Nat.lt_succ_self j) (by omega) (by rw [Nat.mul_add, Nat.pow_add]; omega)
          rw [if_neg (by omega), show 7 * k + 7 = 7 * (k + 1) from rfl, hnext, Option.map_map]
          refine congrArg (fun g => Option.map g _) (funext fun r => ?_)
          exact Prod.ext (more_value result hlow) (Nat.add_right_comm pos 1 r.2)

theorem readVarint_eq (buf : List UInt8) (pos : ℕ) :
    (readVarint buf pos).toOption = (limits.read (buf.drop pos)).map fun r => (r.1, pos + r.2) := by
  have h : (readVarintFrom buf pos 0 (7 * 0)).toOption = _ := readVarintFrom_eq (j := 9) rfl (by decide)
  rw [readVarint, Limits.read]
  refine h.trans ?_
  cases hr : LoraMesh.readVarint 10 (buf.drop pos) with
  | none => rfl
  | some r =>
      have hlt : r.1 < limits.value := readVarint_lt hr
      simp [hlt]

theorem iterValue_eq (buf : List UInt8) (n wire pos : ℕ) :
    (iterValue buf n wire pos).toOption =
      (readValue limits wire (buf.drop pos)).map fun r => some (item (n, r.1), pos + r.2) := by
  have hread := readVarint_eq buf pos
  match wire with
  | 0 =>
      rw [iterValue, readValue, toOption_bind, hread, Option.map_map]
      cases limits.read (buf.drop pos) with
      | none => rfl
      | some r => rfl
  | 1 =>
      rw [iterValue, readValue, List.length_drop]
      by_cases hlen : pos + 8 > buf.length
      · rw [if_pos hlen, if_neg (by omega)]
        rfl
      · rw [if_neg hlen, if_pos (by omega)]
        rfl
  | 2 =>
      rw [iterValue, readValue, toOption_bind, hread]
      cases hr : limits.read (buf.drop pos) with
      | none => rfl
      | some r =>
          obtain ⟨length, m⟩ := r
          have hm : 1 ≤ m := by
            obtain ⟨bs, -, -, rfl, hbs⟩ := Limits.read_some hr
            exact hbs.1.length_pos
          rw [Option.map_some, Option.bind_some, Option.bind_some, List.length_drop, List.drop_drop]
          dsimp only
          by_cases hlen : m + length ≤ buf.length - pos
          · rw [if_neg (by omega), if_pos hlen]
            exact congrArg (fun p => some (some (_, p))) (Nat.add_assoc pos m length)
          · rw [if_pos (by omega), if_neg hlen]
            rfl
  | 3 => rfl
  | 4 => rfl
  | 5 =>
      rw [iterValue, readValue, List.length_drop]
      by_cases hlen : pos + 4 > buf.length
      · rw [if_pos hlen, if_neg (by omega)]
        rfl
      · rw [if_neg hlen, if_pos (by omega)]
        rfl
  | _ + 6 => rfl

theorem iterFields_reads : ReadsFields iterFields limits item := by
  intro buf pos
  rw [iterFields]
  by_cases hpos : buf.length ≤ pos
  · rw [if_pos hpos, if_pos hpos]
    rfl
  rw [if_neg hpos, if_neg hpos, readField, toOption_bind, readVarint_eq]
  cases hr : limits.read (buf.drop pos) with
  | none => rfl
  | some r =>
      obtain ⟨tag, m⟩ := r
      have hlt : tag < 2 ^ 70 := by
        obtain ⟨bs, -, -, -, hbs⟩ := Limits.read_some hr
        exact hbs.2.2
      have hdiv : tag >>> 3 = tag / 8 := Nat.shiftRight_eq_div_pow tag 3
      have hmod : tag &&& 0x07 = tag % 8 := Nat.and_two_pow_sub_one_eq_mod tag 3
      have hnum : limits.number = 2 ^ 67 := rfl
      rw [Option.map_some, Option.bind_some, Option.bind_some, List.drop_drop]
      dsimp only
      rw [hdiv, hmod]
      by_cases hn : tag / 8 = 0
      · rw [if_pos hn, if_neg (by omega)]
        rfl
      · rw [if_neg hn, if_pos (by omega), iterValue_eq, Option.map_map]
        exact congrArg (fun g => Option.map g _) (funext fun r => by rw [Nat.add_assoc]; rfl)

/-- The generator over the fields of a buffer. -/
def fieldScanner : Scanner ParseError (Option Item) := .ofFields iterFields_reads

theorem fieldScanner_scans : fieldScanner.Scans limits item := iterFields_reads

/-! ### The parser -/

/-- A `Data` envelope, with the position that its payload may hold in units of `1e-7` degrees. -/
structure MeshtasticData where
  portnum : ℕ
  payload : List UInt8
  latitude : Option ℤ
  longitude : Option ℤ

structure MeshtasticPacket where
  fromId : ℕ
  toId : ℕ
  channel : ℕ
  packetId : ℕ
  hopLimit : ℕ
  hopStart : ℕ
  wantAck : Bool
  viaMqtt : Bool
  rxTime : ℕ
  /-- The bits of the float. -/
  rxSnr : Option ℕ
  rxRssi : Option ℤ
  data : Option MeshtasticData
  encrypted : Bool
  encryptedLen : ℕ
  unknownFields : List ℕ

def textPort : ℕ := 1
def positionPort : ℕ := 3

/-- An integer of `k` bits with its sign. -/
def signed (k v : ℕ) : ℤ := if v ≥ 2 ^ (k - 1) then v - 2 ^ k else v

def toInt32 (value : ℕ) : Except ParseError ℤ :=
  let value := signed 64 (value &&& (1 <<< 64 - 1))
  if value < -2 ^ 31 ∨ value ≥ 2 ^ 31 then .error "int32 out of range" else .ok value

/-- `_decode_text`: the checks, without the text. -/
def decodeText (payload : List UInt8) : Except ParseError Unit :=
  if payload = [] then .error "empty text payload"
  else if payload.length > maxFrameLen then .error "text payload too long"
  else .ok ()

def positionStep (s : Option ℤ × Option ℤ) : Option Item → Except ParseError (Option ℤ × Option ℤ)
  | some (fieldNo, 5, .int value) =>
    if fieldNo = 1 ∧ s.1 = none then .ok (some (signed 32 value), s.2)
    else if fieldNo = 2 ∧ s.2 = none then .ok (s.1, some (signed 32 value))
    else .ok s
  | _ => .ok s

def decodePosition (payload : List UInt8) : Except ParseError (Option ℤ × Option ℤ) :=
  fieldScanner.fold positionStep payload 0 (none, none)

/-- What `_parse_data` keeps between fields. -/
structure DataScan where
  portnum : ℕ
  payload : List UInt8

def dataStep (s : DataScan) : Option Item → Except ParseError DataScan
  | some (1, 0, .int value) => .ok { s with portnum := value }
  | some (2, 2, .bytes value) =>
    -- a payload so far, unless it is empty
    if s.payload ≠ [] then .error "duplicate Data payload" else .ok { s with payload := value }
  | _ => .ok s

/-- What the payload shows, by its port. -/
def finishData (s : DataScan) : Except ParseError MeshtasticData :=
  if s.portnum = textPort then do
    decodeText s.payload
    return { portnum := s.portnum, payload := s.payload, latitude := none, longitude := none }
  else if s.portnum = positionPort then do
    let (latitude, longitude) ← decodePosition s.payload
    return { portnum := s.portnum, payload := s.payload, latitude, longitude }
  else return { portnum := s.portnum, payload := s.payload, latitude := none, longitude := none }

def parseData (buf : List UInt8) : Except ParseError MeshtasticData := do
  let s ← fieldScanner.fold dataStep buf 0 { portnum := 0, payload := [] }
  finishData s

/-- What `parse_packet` keeps between fields. -/
structure PacketScan where
  pkt : MeshtasticPacket
  seenAny : Bool

def PacketScan.blank : PacketScan where
  pkt :=
    { fromId := 0, toId := 0, channel := 0, packetId := 0, hopLimit := 0, hopStart := 0, wantAck := false,
      viaMqtt := false, rxTime := 0, rxSnr := none, rxRssi := none, data := none, encrypted := false,
      encryptedLen := 0, unknownFields := [] }
  seenAny := false

def fieldStep (pkt : MeshtasticPacket) : Item → Except ParseError MeshtasticPacket
  | (1, 5, .int value) => .ok { pkt with fromId := value }
  | (2, 5, .int value) => .ok { pkt with toId := value }
  | (3, 0, .int value) => .ok { pkt with channel := value }
  | (4, 2, .bytes value) =>
    if pkt.data.isSome then .error "duplicate decoded field"
    else do
      let data ← parseData value
      return { pkt with data := some data }
  | (5, 2, .bytes value) => .ok { pkt with encrypted := true, encryptedLen := value.length }
  | (6, 5, .int value) => .ok { pkt with packetId := value }
  | (7, 5, .int value) => .ok { pkt with rxTime := value }
  | (8, 5, .int value) => .ok { pkt with rxSnr := some value }
  | (9, 0, .int value) => .ok { pkt with hopLimit := value }
  | (10, 0, .int value) => .ok { pkt with wantAck := value != 0 }
  | (12, 0, .int value) => do
    let rssi ← toInt32 value
    return { pkt with rxRssi := some rssi }
  | (14, 0, .int value) => .ok { pkt with viaMqtt := value != 0 }
  | (15, 0, .int value) => .ok { pkt with hopStart := value }
  | (fieldNo, _, _) => .ok { pkt with unknownFields := pkt.unknownFields ++ [fieldNo] }

def packetStep (s : PacketScan) : Option Item → Except ParseError PacketScan
  | none => .ok s
  | some i => do
    let pkt ← fieldStep s.pkt i
    return { pkt, seenAny := true }

def parsePacket (buf : List UInt8) : Except ParseError MeshtasticPacket :=
  if buf = [] then .error "empty frame"
  else if buf.length > maxFrameLen then .error s!"frame too long: {buf.length} bytes"
  else do
    let s ← fieldScanner.fold packetStep buf 0 .blank
    if !s.seenAny then .error "no protobuf fields found"
    else if s.pkt.data.isSome && s.pkt.encrypted then .error "packet has both decoded and encrypted"
    else if s.pkt.data.isNone && !s.pkt.encrypted then .error "packet has neither decoded nor encrypted"
    else return s.pkt

/-! ### What the fields say -/

/-- All payloads but the last are empty. -/
def PayloadsOk (gs : List WireField) : Prop := ∀ b ∈ (gs.filterMap (bytesAt 2)).dropLast, b = []

def scanOf (gs : List WireField) : DataScan where
  portnum := (lastOf (varintAt 1) gs).getD 0
  payload := (lastOf (bytesAt 2) gs).getD []

/-- A text that the port shows. -/
def Displayable (s : DataScan) : Prop :=
  (s.portnum = textPort → s.payload ≠ []) ∧ (s.portnum = positionPort → ∃ hs, IsMessage limits s.payload hs)

section

variable {f : WireField} {n : ℕ} {v : ℕ} {b : List UInt8}

theorem item_varint (h : item f = some (n, 0, .int v)) : f = (n, .varint v) := by
  obtain ⟨m, x⟩ := f
  cases x with
  | varint w =>
      cases h
      rfl
  | fixed64 => cases h
  | bytes c => cases h
  | fixed32 w => cases h

theorem item_bytes (h : item f = some (n, 2, .bytes b)) : f = (n, .bytes b) := by
  obtain ⟨m, x⟩ := f
  cases x with
  | varint w => cases h
  | fixed64 => cases h
  | bytes c =>
      cases h
      rfl
  | fixed32 w => cases h

theorem item_fixed32 (h : item f = some (n, 5, .int v)) : f = (n, .fixed32 v) := by
  obtain ⟨m, x⟩ := f
  cases x with
  | varint w => cases h
  | fixed64 => cases h
  | bytes c => cases h
  | fixed32 w =>
      cases h
      rfl

end

theorem payloadsOk_init (gs : List WireField) (f : WireField) (h : PayloadsOk (gs ++ [f])) : PayloadsOk gs := by
  intro b hb
  refine h b ?_
  cases hf : bytesAt 2 f with
  | none =>
      rw [filterMap_append_none hf]
      exact hb
  | some c =>
      rw [filterMap_append_some hf, List.dropLast_concat]
      exact List.dropLast_subset _ hb

/-- A further payload, after an empty one. -/
theorem payloadsOk_append {gs : List WireField} {b : List UInt8} (hok : PayloadsOk gs) :
    PayloadsOk (gs ++ [(2, .bytes b)]) ↔ (scanOf gs).payload = [] := by
  unfold PayloadsOk
  rw [filterMap_append_some (a := b) rfl, List.dropLast_concat]
  show _ ↔ (lastOf (bytesAt 2) gs).getD [] = []
  constructor
  · intro h
    cases hlast : lastOf (bytesAt 2) gs with
    | none => rfl
    | some c => exact h c (lastOf_mem hlast)
  · intro h c hc
    cases hlast : lastOf (bytesAt 2) gs with
    | none =>
        rw [lastOf_eq_none.mp hlast] at hc
        cases hc
    | some d =>
        rw [hlast, Option.getD_some] at h
        obtain ⟨ys, hys⟩ := List.getLast?_eq_some_iff.mp hlast
        rw [PayloadsOk, hys, List.dropLast_concat] at hok
        rw [hys] at hc
        rcases List.mem_append.mp hc with hc | hc
        · exact hok c hc
        · rw [List.mem_singleton.mp hc, h]

theorem dataStep_ok (gs : List WireField) (f : WireField) (s : DataScan) (hok : PayloadsOk gs) :
    dataStep (scanOf gs) (item f) = .ok s ↔ PayloadsOk (gs ++ [f]) ∧ s = scanOf (gs ++ [f]) := by
  unfold dataStep
  split
  case h_1 value heq =>
      obtain rfl := item_varint heq
      refine ok_iff ?_ ?_
      · rwa [PayloadsOk, filterMap_append_none rfl]
      · simp [scanOf, varintAt, bytesAt]
  case h_2 value heq =>
      obtain rfl := item_bytes heq
      rw [payloadsOk_append hok]
      by_cases hempty : (scanOf gs).payload = []
      · rw [if_neg (not_not_intro hempty)]
        refine ok_iff hempty ?_
        simp [scanOf, varintAt, bytesAt]
      · rw [if_pos hempty]
        exact error_iff fun h => hempty h.1
  case h_3 =>
      rename_i hone htwo
      have hv : varintAt 1 f = none := by
        obtain ⟨n, x⟩ := f
        cases x with
        | varint v =>
            refine if_neg ?_
            rintro rfl
            exact hone _ rfl
        | fixed64 => rfl
        | bytes b => rfl
        | fixed32 v => rfl
      have hb : bytesAt 2 f = none := by
        obtain ⟨n, x⟩ := f
        cases x with
        | varint v => rfl
        | fixed64 => rfl
        | bytes b =>
            refine if_neg ?_
            rintro rfl
            exact htwo _ rfl
        | fixed32 v => rfl
      refine ok_iff ?_ ?_
      · rwa [PayloadsOk, filterMap_append_none hb]
      · simp [scanOf, hv, hb]

/-- A position payload is scanned to its end if it is a message. -/
theorem decodePosition_ok (payload : List UInt8) :
    (∃ r, decodePosition payload = .ok r) ↔ ∃ hs, IsMessage limits payload hs := by
  have hstep (s : Option ℤ × Option ℤ) (i : Option Item) : ∃ t, positionStep s i = .ok t := by
    unfold positionStep
    split
    · split
      · exact ⟨_, rfl⟩
      · split
        · exact ⟨_, rfl⟩
        · exact ⟨_, rfl⟩
    · exact ⟨_, rfl⟩
  have hrun (hs : List WireField) : ∀ s, ∃ t, hs.foldlM (fun s f => positionStep s (item f)) s = .ok t := by
    induction hs with
    | nil => exact fun s => ⟨s, rfl⟩
    | cons f hs ih =>
        intro s
        obtain ⟨t, ht⟩ := hstep s (item f)
        obtain ⟨u, hu⟩ := ih t
        exact ⟨u, by rw [List.foldlM_cons, ht]; exact hu⟩
  have hfold := Scanner.fold_scans fieldScanner_scans positionStep payload 0 (none, none)
  rw [List.drop_zero] at hfold
  constructor
  · rintro ⟨r, hr⟩
    rw [show fieldScanner.fold positionStep payload 0 (none, none) = _ from hr] at hfold
    obtain ⟨hs, hread, -⟩ := Option.bind_eq_some_iff.mp hfold.symm
    exact ⟨hs, readMessage_iff.mp hread⟩
  · rintro ⟨hs, h⟩
    obtain ⟨t, ht⟩ := hrun hs (none, none)
    rw [readMessage_iff.mpr h, Option.bind_some, ht] at hfold
    exact ⟨t, toOption_eq_some.mp hfold⟩

theorem finishData_ok {s : DataScan} (hlen : s.payload.length ≤ maxFrameLen) :
    (∃ d, finishData s = .ok d) ↔ Displayable s := by
  unfold finishData Displayable
  by_cases htext : s.portnum = textPort
  · have hport : s.portnum ≠ positionPort := fun h => absurd (htext.symm.trans h) (by decide)
    rw [if_pos htext, decodeText]
    by_cases hempty : s.payload = []
    · rw [if_pos hempty]
      exact ⟨fun ⟨_, h⟩ => (nomatch h), fun h => absurd hempty (h.1 htext)⟩
    · rw [if_neg hempty, if_neg (Nat.not_lt.mpr hlen)]
      exact ⟨fun _ => ⟨fun _ => hempty, fun h => absurd h hport⟩, fun _ => ⟨_, rfl⟩⟩
  · rw [if_neg htext]
    by_cases hport : s.portnum = positionPort
    · rw [if_pos hport, ← decodePosition_ok]
      constructor
      · rintro ⟨d, hd⟩
        refine ⟨fun h => absurd h htext, fun _ => ?_⟩
        cases hpos : decodePosition s.payload with
        | error e =>
            rw [hpos] at hd
            cases hd
        | ok r => exact ⟨r, rfl⟩
      · rintro ⟨-, h⟩
        obtain ⟨r, hr⟩ := h hport
        rw [hr]
        exact ⟨_, rfl⟩
    · rw [if_neg hport]
      exact ⟨fun _ => ⟨fun h => absurd h htext, fun h => absurd h hport⟩, fun _ => ⟨_, rfl⟩⟩

theorem finishData_data {s : DataScan} {d : MeshtasticData} (h : finishData s = .ok d) :
    d.portnum = s.portnum ∧ d.payload = s.payload := by
  unfold finishData at h
  split at h
  · cases htext : decodeText s.payload with
    | error e =>
        rw [htext] at h
        cases h
    | ok u =>
        rw [htext] at h
        cases h
        exact ⟨rfl, rfl⟩
  · split at h
    · cases hpos : decodePosition s.payload with
      | error e =>
          rw [hpos] at h
          cases h
      | ok r =>
          rw [hpos] at h
          cases h
          exact ⟨rfl, rfl⟩
    · cases h
      exact ⟨rfl, rfl⟩

theorem parseData_eq (buf : List UInt8) (d : MeshtasticData) :
    parseData buf = .ok d ↔ ∃ gs, IsMessage limits buf gs ∧ PayloadsOk gs ∧ finishData (scanOf gs) = .ok d := by
  have hfold := Scanner.fold_ok_iff fieldScanner_scans (nofun : PayloadsOk []) payloadsOk_init dataStep_ok buf
  show (fieldScanner.fold dataStep buf 0 (scanOf []) >>= finishData) = .ok d ↔ _
  cases hrun : fieldScanner.fold dataStep buf 0 (scanOf []) with
  | error e =>
      refine ⟨nofun, ?_⟩
      rintro ⟨gs, hgs, hok, -⟩
      exact nomatch hrun.symm.trans ((hfold _).mpr ⟨gs, hgs, hok, rfl⟩)
  | ok s =>
      obtain ⟨gs, hgs, hok, rfl⟩ := (hfold s).mp hrun
      constructor
      · exact fun h => ⟨gs, hgs, hok, h⟩
      · rintro ⟨gs', hgs', -, h⟩
        obtain rfl := hgs.unique hgs'
        exact h

/-- A field that the parser only notes. -/
def unknownNumber : WireField → Option ℕ
  | (n, .varint _) => if n ∈ [3, 9, 10, 12, 14, 15] then none else some n
  | (_, .fixed64) => none
  | (n, .bytes _) => if n ∈ [4, 5] then none else some n
  | (n, .fixed32 _) => if n ∈ [1, 2, 6, 7, 8] then none else some n

/-- A varint of the range of an `i32`, in its low 64 bits. -/
def InInt32 (v : ℕ) : Prop := Compat.InInt32 (v % 2 ^ 64)

abbrev PacketOk (fs : List WireField) : Prop := FieldsOk InInt32 (fun b => ∃ d, parseData b = .ok d) fs

/-- The packet that the fields make. -/
def packetOf (fs : List WireField) : MeshtasticPacket where
  fromId := (lastOf (fixed32At 1) fs).getD 0
  toId := (lastOf (fixed32At 2) fs).getD 0
  channel := (lastOf (varintAt 3) fs).getD 0
  packetId := (lastOf (fixed32At 6) fs).getD 0
  hopLimit := (lastOf (varintAt 9) fs).getD 0
  hopStart := (lastOf (varintAt 15) fs).getD 0
  wantAck := (lastOf (varintAt 10) fs).getD 0 != 0
  viaMqtt := (lastOf (varintAt 14) fs).getD 0 != 0
  rxTime := (lastOf (fixed32At 7) fs).getD 0
  rxSnr := lastOf (fixed32At 8) fs
  rxRssi := (lastOf (varintAt 12) fs).map fun v => Compat.asI64 (v % 2 ^ 64)
  data := (lastOf (bytesAt 4) fs).bind fun b => (parseData b).toOption
  encrypted := (lastOf (bytesAt 5) fs).isSome
  encryptedLen := ((lastOf (bytesAt 5) fs).map List.length).getD 0
  unknownFields := fs.filterMap unknownNumber

def packetScanOf (fs : List WireField) : PacketScan where
  pkt := packetOf fs
  seenAny := fs.any fun f => (item f).isSome

theorem toInt32_eq (v : ℕ) : toInt32 v =
    if Compat.asI64 (v % 2 ^ 64) < -2 ^ 31 ∨ Compat.asI64 (v % 2 ^ 64) ≥ 2 ^ 31 then .error "int32 out of range"
    else .ok (Compat.asI64 (v % 2 ^ 64)) := by
  have hmask : v &&& (1 <<< 64 - 1) = v % 2 ^ 64 := Nat.and_two_pow_sub_one_eq_mod v 64
  have hsigned : signed 64 (v % 2 ^ 64) = Compat.asI64 (v % 2 ^ 64) := by
    unfold signed Compat.asI64
    by_cases h : v % 2 ^ 64 < 2 ^ 63
    · rw [if_pos h, if_neg (by omega)]
    · rw [if_neg h, if_pos (by omega)]
  rw [toInt32, hmask, hsigned]

theorem isSome_data {fs : List WireField} (h : PacketOk fs) :
    (packetOf fs).data.isSome = (lastOf (bytesAt 4) fs).isSome := by
  show ((lastOf (bytesAt 4) fs).bind fun b => (parseData b).toOption).isSome = _
  cases hlast : lastOf (bytesAt 4) fs with
  | none => rfl
  | some c =>
      obtain ⟨d, hd⟩ := h.data c (lastOf_mem hlast)
      rw [Option.bind_some, hd]
      rfl

/-- A field that is yielded. -/
theorem fieldStep_ok (fs : List WireField) (f : WireField) (i : Item) (hi : item f = some i) (s : MeshtasticPacket)
    (hok : PacketOk fs) :
    fieldStep (packetOf fs) i = .ok s ↔ PacketOk (fs ++ [f]) ∧ s = packetOf (fs ++ [f]) := by
  unfold fieldStep
  split
  case h_1 value | h_2 value | h_6 value | h_7 value | h_8 value =>
      obtain rfl := item_fixed32 hi
      refine ok_iff (hok.append rfl rfl) ?_
      simp [packetOf, varintAt, bytesAt, fixed32At, unknownNumber]
  case h_3 value | h_9 value | h_10 value | h_12 value | h_13 value =>
      obtain rfl := item_varint hi
      refine ok_iff (hok.append rfl rfl) ?_
      simp [packetOf, varintAt, bytesAt, fixed32At, unknownNumber]
  case h_5 value =>
      obtain rfl := item_bytes hi
      refine ok_iff (hok.append rfl rfl) ?_
      simp [packetOf, varintAt, bytesAt, fixed32At, unknownNumber]
  case h_4 b =>
      obtain rfl := item_bytes hi
      have hsome : (packetOf fs).data.isSome = true ↔ fs.filterMap (bytesAt 4) ≠ [] := by
        rw [← isSome_lastOf, isSome_data hok]
      rw [PacketOk, hok.append_data]
      by_cases hdata : (packetOf fs).data.isSome = true
      · rw [if_pos hdata]
        exact error_iff fun h => hsome.mp hdata h.1.1
      · have hnil : fs.filterMap (bytesAt 4) = [] := Decidable.not_not.mp fun h => hdata (hsome.mpr h)
        rw [if_neg hdata, and_iff_right hnil]
        cases hparse : parseData b with
        | error e =>
            refine error_iff fun h => ?_
            obtain ⟨⟨_, h⟩, -⟩ := h
            cases h
        | ok d =>
            refine ok_iff ⟨d, rfl⟩ ?_
            simp [packetOf, varintAt, bytesAt, fixed32At, unknownNumber, hparse, Except.toOption]
  case h_11 v =>
      obtain rfl := item_varint hi
      rw [PacketOk, hok.append_rssi, toInt32_eq, InInt32, Compat.InInt32]
      by_cases hrange : Compat.asI64 (v % 2 ^ 64) < -2 ^ 31 ∨ Compat.asI64 (v % 2 ^ 64) ≥ 2 ^ 31
      · rw [if_pos hrange]
        refine error_iff fun h => ?_
        have hint := h.1
        omega
      · rw [if_neg hrange]
        refine ok_iff (by omega) ?_
        simp [packetOf, varintAt, bytesAt, fixed32At, unknownNumber]
  case h_14 n w x h₁ h₂ h₃ h₄ h₅ h₆ h₇ h₈ h₉ h₁₀ h₁₂ h₁₄ h₁₅ =>
      obtain ⟨m, y⟩ := f
      cases y with
      | varint v =>
          cases hi
          have hn : n ≠ 3 ∧ n ≠ 9 ∧ n ≠ 10 ∧ n ≠ 12 ∧ n ≠ 14 ∧ n ≠ 15 := by
            refine ⟨?_, ?_, ?_, ?_, ?_, ?_⟩ <;> rintro rfl
            · exact h₃ _ rfl rfl rfl
            · exact h₉ _ rfl rfl rfl
            · exact h₁₀ _ rfl rfl rfl
            · exact h₁₂ _ rfl rfl rfl
            · exact h₁₄ _ rfl rfl rfl
            · exact h₁₅ _ rfl rfl rfl
          refine ok_iff (hok.append (if_neg hn.2.2.2.1) rfl) ?_
          simp [packetOf, varintAt, bytesAt, fixed32At, unknownNumber, hn]
      | fixed64 => cases hi
      | bytes b =>
          cases hi
          have hn : n ≠ 4 ∧ n ≠ 5 := by
            refine ⟨?_, ?_⟩ <;> rintro rfl
            · exact h₄ _ rfl rfl rfl
            · exact h₅ _ rfl rfl rfl
          refine ok_iff (hok.append rfl (if_neg hn.1)) ?_
          simp [packetOf, varintAt, bytesAt, fixed32At, unknownNumber, hn]
      | fixed32 v =>
          cases hi
          have hn : n ≠ 1 ∧ n ≠ 2 ∧ n ≠ 6 ∧ n ≠ 7 ∧ n ≠ 8 := by
            refine ⟨?_, ?_, ?_, ?_, ?_⟩ <;> rintro rfl
            · exact h₁ _ rfl rfl rfl
            · exact h₂ _ rfl rfl rfl
            · exact h₆ _ rfl rfl rfl
            · exact h₇ _ rfl rfl rfl
            · exact h₈ _ rfl rfl rfl
          refine ok_iff (hok.append rfl rfl) ?_
          simp [packetOf, varintAt, bytesAt, fixed32At, unknownNumber, hn]

theorem packetStep_ok (fs : List WireField) (f : WireField) (s : PacketScan) (hok : PacketOk fs) :
    packetStep (packetScanOf fs) (item f) = .ok s ↔ PacketOk (fs ++ [f]) ∧ s = packetScanOf (fs ++ [f]) := by
  cases hi : item f with
  | none =>
      have hf : ∃ n, f = (n, .fixed64) := by
        obtain ⟨n, x⟩ := f
        cases x with
        | varint v => cases hi
        | fixed64 => exact ⟨n, rfl⟩
        | bytes b => cases hi
        | fixed32 v => cases hi
      obtain ⟨n, rfl⟩ := hf
      refine ok_iff (hok.append rfl rfl) ?_
      simp [packetScanOf, packetOf, varintAt, bytesAt, fixed32At, unknownNumber, item]
  | some i =>
      have hstep := fieldStep_ok fs f i hi
      show (fieldStep (packetOf fs) i >>= fun pkt => .ok (PacketScan.mk pkt true)) = .ok s ↔ _
      have hany : packetScanOf (fs ++ [f]) = ⟨packetOf (fs ++ [f]), true⟩ := by
        simp [packetScanOf, hi]
      rw [hany]
      cases hrun : fieldStep (packetOf fs) i with
      | error e =>
          refine error_iff fun h => ?_
          cases hrun.symm.trans ((hstep _ hok).mpr ⟨h.1, rfl⟩)
      | ok pkt =>
          obtain ⟨hnext, rfl⟩ := (hstep pkt hok).mp hrun
          exact ok_iff hnext rfl

/-- A text of the host's grammar, whatever its payload shows. -/
structure Framed (raw : List UInt8) (fs : List WireField) : Prop where
  length : 1 ≤ raw.length ∧ raw.length ≤ maxFrameLen
  message : IsMessage limits raw fs
  rssi : ∀ v ∈ fs.filterMap (varintAt 12), InInt32 v
  data : ∀ b ∈ fs.filterMap (bytesAt 4), ∃ gs, IsMessage limits b gs ∧ PayloadsOk gs
  shape : Compat.Shape fs

/-- The port shows the payload of each envelope. -/
def Shown (fs : List WireField) : Prop :=
  ∀ b ∈ fs.filterMap (bytesAt 4), ∀ gs, IsMessage limits b gs → Displayable (scanOf gs)

theorem fold_packet (raw : List UInt8) (s : PacketScan) :
    fieldScanner.fold packetStep raw 0 .blank = .ok s ↔
      ∃ fs, IsMessage limits raw fs ∧ PacketOk fs ∧ s = packetScanOf fs :=
  Scanner.fold_ok_iff fieldScanner_scans .nil (fun _ _ => FieldsOk.init) packetStep_ok raw s

theorem shape_iff {fs : List WireField} (h : PacketOk fs) :
    Compat.Shape fs ↔ (packetScanOf fs).seenAny = true ∧
      ((packetOf fs).data.isSome && (packetOf fs).encrypted) = false ∧
      ((packetOf fs).data.isNone && !(packetOf fs).encrypted) = false := by
  rw [← Option.not_isSome, isSome_data h]
  refine (Compat.shape_found h.once).trans (iff_and_self.mpr fun hfound => ?_)
  have hseen (k : ℕ) (hk : fs.filterMap (bytesAt k) ≠ []) : (packetScanOf fs).seenAny = true := by
    obtain ⟨b, hb⟩ := List.exists_mem_of_ne_nil _ hk
    obtain ⟨⟨n, x⟩, hf, hbytes⟩ := List.mem_filterMap.mp hb
    refine List.any_eq_true.mpr ⟨_, hf, ?_⟩
    cases x with
    | bytes c => rfl
    | varint v => cases hbytes
    | fixed64 => cases hbytes
    | fixed32 v => cases hbytes
  rcases (Compat.shape_found h.once).mpr hfound with ⟨hone, -⟩ | ⟨-, hsome⟩
  · exact hseen 4 fun hnil => by rw [hnil] at hone; cases hone
  · exact hseen 5 hsome

theorem payload_length {b raw : List UInt8} {gs : List WireField} (hb : b <:+: raw) (hraw : raw.length ≤ maxFrameLen)
    (h : IsMessage limits b gs) : (scanOf gs).payload.length ≤ maxFrameLen := by
  have hwithin : (scanOf gs).payload <:+: b := by
    show (lastOf (bytesAt 2) gs).getD [] <:+: b
    cases hlast : lastOf (bytesAt 2) gs with
    | none => exact List.nil_infix
    | some c => exact h.bytes_within (lastOf_mem hlast)
  exact Nat.le_trans (hwithin.trans hb).length_le hraw

theorem parsePacket_ok {raw : List UInt8} {p : MeshtasticPacket} :
    parsePacket raw = .ok p ↔ (1 ≤ raw.length ∧ raw.length ≤ maxFrameLen) ∧
      ∃ fs, IsMessage limits raw fs ∧ PacketOk fs ∧ Compat.Shape fs ∧ p = packetOf fs := by
  unfold parsePacket
  by_cases hnil : raw = []
  · rw [if_pos hnil]
    refine ⟨nofun, fun h => ?_⟩
    rw [hnil] at h
    exact absurd h.1.1 (Nat.not_succ_le_zero 0)
  by_cases hlong : raw.length > maxFrameLen
  · rw [if_neg hnil, if_pos hlong]
    exact ⟨nofun, fun h => absurd h.1.2 (Nat.not_le.mpr hlong)⟩
  rw [if_neg hnil, if_neg hlong, and_iff_right ⟨List.length_pos_iff.mpr hnil, Nat.not_lt.mp hlong⟩]
  have hfold := fold_packet raw
  cases hrun : fieldScanner.fold packetStep raw 0 .blank with
  | error e =>
      refine ⟨nofun, ?_⟩
      rintro ⟨fs, hfs, hok, -, -⟩
      exact nomatch hrun.symm.trans ((hfold _).mpr ⟨fs, hfs, hok, rfl⟩)
  | ok s =>
      obtain ⟨fs, hfs, hok, rfl⟩ := (hfold s).mp hrun
      have hshape := shape_iff hok
      show ((if !(packetScanOf fs).seenAny then .error "no protobuf fields found"
        else if (packetOf fs).data.isSome && (packetOf fs).encrypted then
          .error "packet has both decoded and encrypted"
        else if (packetOf fs).data.isNone && !(packetOf fs).encrypted then
          .error "packet has neither decoded nor encrypted"
        else .ok (packetOf fs)) : Except ParseError MeshtasticPacket) = .ok p ↔ _
      constructor
      · intro h
        split at h
        · cases h
        rename_i hseen
        split at h
        · cases h
        rename_i hboth
        split at h
        · cases h
        rename_i hneither
        refine ⟨fs, hfs, hok, hshape.mpr ⟨?_, Bool.eq_false_iff.mpr hboth, Bool.eq_false_iff.mpr hneither⟩,
          (Except.ok.inj h).symm⟩
        rwa [Bool.not_eq_true', Bool.not_eq_false] at hseen
      · rintro ⟨gs, hgs, -, hs, rfl⟩
        obtain rfl := hfs.unique hgs
        obtain ⟨hseen, hboth, hneither⟩ := hshape.mp hs
        rw [if_neg (by rw [hseen]; exact Bool.false_ne_true), if_neg (Bool.eq_false_iff.mp hboth),
          if_neg (Bool.eq_false_iff.mp hneither)]

/-- The host takes the texts of its grammar whose payload is shown. -/
theorem parsePacket_framed {raw : List UInt8} {p : MeshtasticPacket} :
    parsePacket raw = .ok p ↔ ∃ fs, Framed raw fs ∧ Shown fs ∧ p = packetOf fs := by
  rw [parsePacket_ok]
  constructor
  · rintro ⟨hlen, fs, hfs, hok, hshape, hp⟩
    refine ⟨fs, ⟨hlen, hfs, hok.rssi, fun b hb => ?_, hshape⟩, fun b hb gs hgs => ?_, hp⟩
    · obtain ⟨d, hd⟩ := hok.data b hb
      obtain ⟨gs, hgs, hpay, -⟩ := (parseData_eq b d).mp hd
      exact ⟨gs, hgs, hpay⟩
    · obtain ⟨d, hd⟩ := hok.data b hb
      obtain ⟨gs', hgs', -, hfin⟩ := (parseData_eq b d).mp hd
      obtain rfl := hgs.unique hgs'
      exact (finishData_ok (payload_length (hfs.bytes_within hb) hlen.2 hgs)).mp ⟨d, hfin⟩
  · rintro ⟨fs, ⟨hlen, hfs, hrssi, hdata, hshape⟩, hshown, hp⟩
    refine ⟨hlen, fs, hfs, ⟨hrssi, ?_, fun b hb => ?_⟩, hshape, hp⟩
    · rcases hshape with ⟨hone, -⟩ | ⟨hnone, -⟩
      · exact Nat.le_of_eq hone
      · rw [hnone]
        exact Nat.zero_le 1
    · obtain ⟨gs, hgs, hpay⟩ := hdata b hb
      obtain ⟨d, hd⟩ := (finishData_ok (payload_length (hfs.bytes_within hb) hlen.2 hgs)).mpr (hshown b hb gs hgs)
      exact ⟨d, (parseData_eq b d).mpr ⟨gs, hgs, hpay, hd⟩⟩

/-! ### The two parsers -/

/-- The packets say the same. -/
structure Same (p : Compat.CompatPacket) (q : MeshtasticPacket) : Prop where
  fromId : p.fromId = q.fromId
  toId : p.toId = q.toId
  channel : p.channel = q.channel
  packetId : p.packetId = q.packetId
  hopLimit : p.hopLimit = q.hopLimit
  hopStart : p.hopStart = q.hopStart
  wantAck : p.wantAck = q.wantAck
  viaMqtt : p.viaMqtt = q.viaMqtt
  rxTime : p.rxTime = q.rxTime
  rxRssi : p.rxRssi = q.rxRssi
  encrypted : p.encrypted = q.encrypted
  encryptedLen : p.encryptedLen = q.encryptedLen
  portnum : p.data.map Compat.CompatData.portnum = q.data.map MeshtasticData.portnum
  payload : p.data.map Compat.CompatData.payload = q.data.map MeshtasticData.payload

/-- The parsers take the text both or neither, and to the same packet. -/
def Agree (raw : List UInt8) : Prop :=
  ((∃ p, Compat.parsePacket raw = .ok p) ↔ ∃ q, parsePacket raw = .ok q) ∧
    ∀ p q, Compat.parsePacket raw = .ok p → parsePacket raw = .ok q → Same p q

/-- Varints are of 64 bits and field numbers of 32, and each envelope has at most one payload. -/
def Narrow (raw : List UInt8) (fs : List WireField) : Prop :=
  IsMessage Compat.limits raw fs ∧
    ∀ b ∈ fs.filterMap (bytesAt 4), ∃ gs, IsMessage Compat.limits b gs ∧ Compat.DataOk gs

/-- Port numbers are of 32 bits. -/
def SmallPort (fs : List WireField) : Prop :=
  ∀ b ∈ fs.filterMap (bytesAt 4), ∀ gs, IsMessage limits b gs → (scanOf gs).portnum < 2 ^ 32

section

variable {raw b : List UInt8} {fs gs : List WireField}

theorem widen (h : IsMessage Compat.limits b gs) : IsMessage limits b gs := h.mono (by decide) (by decide)

theorem Framed.unique {gs : List WireField} (h : Framed raw fs) (h' : Framed raw gs) : fs = gs :=
  h.message.unique h'.message

theorem payloadsOk_of_one (h : Compat.DataOk gs) : PayloadsOk gs := by
  have hnil : (gs.filterMap (bytesAt 2)).dropLast = [] := by
    rw [← List.length_eq_zero_iff, List.length_dropLast]
    exact Nat.sub_eq_zero_of_le h
  rw [PayloadsOk, hnil]
  exact nofun

theorem rssi_low (h : IsMessage Compat.limits raw fs) {v : ℕ} (hv : v ∈ fs.filterMap (varintAt 12)) :
    v % 2 ^ 64 = v := Nat.mod_eq_of_lt (h.varint_lt hv)

/-- The firmware's parser takes the texts of the host's grammar that are narrow. -/
theorem accepted_iff : Compat.Accepted raw fs ↔ Framed raw fs ∧ Narrow raw fs := by
  constructor
  · rintro ⟨hlen, hfs, hrssi, hdata, hshape⟩
    refine ⟨⟨hlen, widen hfs, fun v hv => ?_, fun b hb => ?_, hshape⟩, hfs, hdata⟩
    · rw [InInt32, rssi_low hfs hv]
      exact hrssi v hv
    · obtain ⟨gs, hgs, hone⟩ := hdata b hb
      exact ⟨gs, widen hgs, payloadsOk_of_one hone⟩
  · rintro ⟨⟨hlen, -, hrssi, -, hshape⟩, hfs, hdata⟩
    refine ⟨hlen, hfs, fun v hv => ?_, hdata, hshape⟩
    have hv' := hrssi v hv
    rwa [InInt32, rssi_low hfs hv] at hv'

/-- The envelope that both find. -/
theorem data_eq (hframed : Framed raw fs) (hnarrow : Narrow raw fs) (hshown : Shown fs)
    (hb : b ∈ fs.filterMap (bytesAt 4)) :
    ∃ gs d, IsMessage limits b gs ∧ (Compat.packetOf fs).data = some (Compat.dataOf gs) ∧
      (packetOf fs).data = some d ∧ d.portnum = (scanOf gs).portnum ∧ d.payload = (scanOf gs).payload := by
  obtain ⟨gs, hgs, hone⟩ := hnarrow.2 b hb
  have hlast : lastOf (bytesAt 4) fs = some b := by
    rcases hframed.shape with ⟨hlen, -⟩ | ⟨hnone, -⟩
    · obtain ⟨c, hc⟩ := List.length_eq_one_iff.mp hlen
      rw [hc] at hb
      obtain rfl := List.mem_singleton.mp hb
      rw [lastOf, hc]
      rfl
    · rw [hnone] at hb
      cases hb
  have hlen := payload_length (hframed.message.bytes_within hb) hframed.length.2 (widen hgs)
  obtain ⟨d, hd⟩ := (finishData_ok hlen).mpr (hshown b hb gs (widen hgs))
  have hparse : parseData b = .ok d := (parseData_eq b d).mpr ⟨gs, widen hgs, payloadsOk_of_one hone, hd⟩
  refine ⟨gs, d, widen hgs, Compat.packetOf_data (accepted_iff.mpr ⟨hframed, hnarrow⟩) hb hgs, ?_, finishData_data hd⟩
  show (lastOf (bytesAt 4) fs).bind (fun b => (parseData b).toOption) = some d
  rw [hlast, Option.bind_some, hparse]
  rfl

theorem portnum_dataOf (gs : List WireField) :
    (Compat.dataOf gs).portnum = min (scanOf gs).portnum (2 ^ 32 - 1) := by
  rw [Compat.dataOf, scanOf]

theorem rssi_eq (h : IsMessage Compat.limits raw fs) : (Compat.packetOf fs).rxRssi = (packetOf fs).rxRssi := by
  show (lastOf (varintAt 12) fs).map Compat.asI64 = (lastOf (varintAt 12) fs).map fun v => Compat.asI64 (v % 2 ^ 64)
  cases hlast : lastOf (varintAt 12) fs with
  | none => rw [Option.map_none, Option.map_none]
  | some v => rw [Option.map_some, Option.map_some, rssi_low h (lastOf_mem hlast)]

/-- The envelopes of one text are the same, if the port number is not large. -/
theorem data_same (hframed : Framed raw fs) (hnarrow : Narrow raw fs) (hshown : Shown fs) (hsmall : SmallPort fs) :
    (Compat.packetOf fs).data.map Compat.CompatData.portnum = (packetOf fs).data.map MeshtasticData.portnum ∧
      (Compat.packetOf fs).data.map Compat.CompatData.payload = (packetOf fs).data.map MeshtasticData.payload := by
  cases hfound : fs.filterMap (bytesAt 4) with
  | nil =>
      have hnone := lastOf_eq_none.mpr hfound
      have hp : (Compat.packetOf fs).data = none := by rw [Compat.packetOf, hnone, Option.map_none]
      have hq : (packetOf fs).data = none := by rw [packetOf, hnone, Option.bind_none]
      rw [hp, hq]
      exact ⟨rfl, rfl⟩
  | cons b bs =>
      have hb : b ∈ fs.filterMap (bytesAt 4) := by
        rw [hfound]
        exact List.mem_cons_self
      obtain ⟨gs, d, hgs, hp, hq, hport, hpay⟩ := data_eq hframed hnarrow hshown hb
      have hlt := hsmall b hb gs hgs
      have hmin : min (scanOf gs).portnum (2 ^ 32 - 1) = (scanOf gs).portnum := by omega
      rw [hp, hq, Option.map_some, Option.map_some, Option.map_some, Option.map_some, hport, hpay, portnum_dataOf, hmin]
      exact ⟨rfl, rfl⟩

/-- The packets of one text are the same but for a large port number. -/
theorem same_iff (hframed : Framed raw fs) (hnarrow : Narrow raw fs) (hshown : Shown fs) :
    Same (Compat.packetOf fs) (packetOf fs) ↔ SmallPort fs := by
  constructor
  · intro h b hb gs' hgs'
    obtain ⟨gs, d, hgs, hp, hq, hport, -⟩ := data_eq hframed hnarrow hshown hb
    obtain rfl := hgs.unique hgs'
    have heq := h.portnum
    rw [hp, hq, Option.map_some, Option.map_some, hport, Option.some.injEq, portnum_dataOf] at heq
    omega
  · intro hsmall
    obtain ⟨hport, hpay⟩ := data_same hframed hnarrow hshown hsmall
    exact ⟨rfl, rfl, rfl, rfl, rfl, rfl, rfl, rfl, rfl, rssi_eq hnarrow.1, rfl, rfl, hport, hpay⟩

end

/-- **The parsers.**  They agree on a text exactly when it is not of the host's grammar, or else: its
payload is shown by its port just when it is narrow, and then its port number is of 32 bits. -/
theorem parsers_agree (raw : List UInt8) :
    Agree raw ↔ ∀ fs, Framed raw fs → (Narrow raw fs ↔ Shown fs) ∧ (Shown fs → SmallPort fs) := by
  constructor
  · rintro ⟨hiff, hsame⟩ fs hframed
    have hnarrow : Narrow raw fs ↔ Shown fs := by
      constructor
      · intro hn
        obtain ⟨q, hq⟩ := hiff.mp ⟨_, Compat.parsePacket_accepted.mpr ⟨fs, accepted_iff.mpr ⟨hframed, hn⟩, rfl⟩⟩
        obtain ⟨gs, hgs, hshown, -⟩ := parsePacket_framed.mp hq
        rwa [hframed.unique hgs]
      · intro hs
        obtain ⟨p, hp⟩ := hiff.mpr ⟨_, parsePacket_framed.mpr ⟨fs, hframed, hs, rfl⟩⟩
        obtain ⟨gs, hgs, -⟩ := Compat.parsePacket_accepted.mp hp
        obtain ⟨hgs, hn⟩ := accepted_iff.mp hgs
        rwa [hframed.unique hgs]
    refine ⟨hnarrow, fun hs => (same_iff hframed (hnarrow.mpr hs) hs).mp ?_⟩
    exact hsame _ _ (Compat.parsePacket_accepted.mpr ⟨fs, accepted_iff.mpr ⟨hframed, hnarrow.mpr hs⟩, rfl⟩)
      (parsePacket_framed.mpr ⟨fs, hframed, hs, rfl⟩)
  · intro h
    refine ⟨⟨?_, ?_⟩, ?_⟩
    · rintro ⟨p, hp⟩
      obtain ⟨fs, hfs, -⟩ := Compat.parsePacket_accepted.mp hp
      obtain ⟨hframed, hn⟩ := accepted_iff.mp hfs
      exact ⟨_, parsePacket_framed.mpr ⟨fs, hframed, (h fs hframed).1.mp hn, rfl⟩⟩
    · rintro ⟨q, hq⟩
      obtain ⟨fs, hframed, hs, -⟩ := parsePacket_framed.mp hq
      exact ⟨_, Compat.parsePacket_accepted.mpr ⟨fs, accepted_iff.mpr ⟨hframed, (h fs hframed).1.mpr hs⟩, rfl⟩⟩
    · intro p q hp hq
      obtain ⟨fs, hfs, rfl⟩ := Compat.parsePacket_accepted.mp hp
      obtain ⟨gs, hgs, hs, rfl⟩ := parsePacket_framed.mp hq
      obtain ⟨hframed, hn⟩ := accepted_iff.mp hfs
      obtain rfl := hframed.unique hgs
      exact (same_iff hframed hn hs).mpr ((h fs hframed).2 hs)

/-- An envelope with an empty payload and one of a byte. -/
def twoPayloads : List UInt8 := [0x12, 0x00, 0x12, 0x01, 0x61]

theorem twoPayloads_message : IsMessage Compat.limits twoPayloads [(2, .bytes []), (2, .bytes [0x61])] := by
  have htag : Compat.limits.Varint [0x12] (8 * 2 + 2) := ⟨.last (by decide), by decide, by decide⟩
  have hzero : Compat.limits.Varint [0x00] ([] : List UInt8).length := ⟨.last (by decide), by decide, by decide⟩
  have hone : Compat.limits.Varint [0x01] [(0x61 : UInt8)].length := ⟨.last (by decide), by decide, by decide⟩
  exact .cons (.bytes htag (by decide) hzero) (.cons (.bytes htag (by decide) hone) .nil)

/-- The host takes a payload after an empty one, and the firmware does not. -/
theorem parsers_disagree :
    (∃ q, parsePacket (0x22 :: 0x05 :: twoPayloads) = .ok q) ∧
      ¬ ∃ p, Compat.parsePacket (0x22 :: 0x05 :: twoPayloads) = .ok p := by
  have htag : Compat.limits.Varint [0x22] (8 * 4 + 2) := ⟨.last (by decide), by decide, by decide⟩
  have hlen : Compat.limits.Varint [0x05] twoPayloads.length := ⟨.last (by decide), by decide, by decide⟩
  have hmessage : IsMessage Compat.limits (0x22 :: 0x05 :: twoPayloads) [(4, .bytes twoPayloads)] :=
    .cons (.bytes htag (by decide) hlen) .nil
  constructor
  · have hframed : Framed (0x22 :: 0x05 :: twoPayloads) [(4, .bytes twoPayloads)] :=
      { length := by decide
        message := widen hmessage
        rssi := nofun
        data := fun b hb => by
          obtain rfl := List.mem_singleton.mp hb
          exact ⟨_, widen twoPayloads_message, fun c hc => List.mem_singleton.mp hc⟩
        shape := .inl ⟨rfl, rfl⟩ }
    refine ⟨_, parsePacket_framed.mpr ⟨_, hframed, fun b hb gs hgs => ?_, rfl⟩⟩
    obtain rfl := List.mem_singleton.mp hb
    obtain rfl := (widen twoPayloads_message).unique hgs
    exact ⟨nofun, nofun⟩
  · rintro ⟨p, hp⟩
    obtain ⟨fs, hfs, -⟩ := Compat.parsePacket_accepted.mp hp
    obtain rfl := hmessage.unique hfs.message
    obtain ⟨gs, hgs, hone⟩ := hfs.data _ (List.mem_singleton_self _)
    obtain rfl := twoPayloads_message.unique hgs
    exact Nat.not_succ_le_self 1 hone

end HostCompat

end LoraMesh
