import Mathlib.Algebra.Group.Int.Defs
import LoraMesh.Core.Transport
import LoraMesh.Lib.Wire

/-!
# Core — Compat

The parser of public frames (`mesh-core/src/compat.rs`), which reads a buffer of bytes by position.

* `Stop`: how a parse stops short.  An access out of range or a shift past the width of its operand is a
  `panic`, apart from the errors that the parser returns.
* `parsePacket`, `parseData`: the parser, over the fields that `protoFields` scans.
* `Accepted`: the texts of the grammar; `parsePacket_exact`: the parser accepts just these, never
  panics, and says of each what its fields do.
-/

namespace LoraMesh

namespace Compat

abbrev maxCompatFrameLen : ℕ := 512

inductive CompatError where
  | empty
  | tooLong
  | noFields
  | truncated
  | badTag
  | varintOverflow
  | unsupportedWire
  | duplicate
  | bothDecodedAndEncrypted
  | neitherDecodedNorEncrypted
  | badUtf8
  | textEmpty
  | int32OutOfRange
  deriving DecidableEq

inductive Stop where
  | error (e : CompatError)
  | panic
  deriving DecidableEq

/-- `buf[i]`. -/
def index (buf : List UInt8) (i : ℕ) : Except Stop UInt8 :=
  match buf[i]? with
  | some b => .ok b
  | none => .error .panic

/-- `&buf[a..b]`. -/
def slice (buf : List UInt8) (a b : ℕ) : Except Stop (List UInt8) :=
  if a ≤ b ∧ b ≤ buf.length then .ok ((buf.drop a).take (b - a)) else .error .panic

/-- `x << shift` of a `u64`. -/
def shl (x shift : ℕ) : Except Stop ℕ :=
  if shift < 64 then .ok ((x <<< shift) % 2 ^ 64) else .error .panic

/-- The loop of `read_varint`. -/
def readVarintFrom (buf : List UInt8) (pos result shift : ℕ) : Except Stop (ℕ × ℕ) :=
  if _h : pos ≥ buf.length then .error (.error .truncated)
  else do
    let byte ← index buf pos
    if shift ≥ 64 then .error (.error .varintOverflow)
    -- the tenth byte carries bit 63 only
    else if shift = 63 ∧ byte &&& 0x7E ≠ 0 then .error (.error .varintOverflow)
    else
      let part ← shl (byte &&& 0x7F).toNat shift
      if byte &&& 0x80 = 0 then .ok (result ||| part, pos + 1)
      else if shift + 7 > 70 then .error (.error .varintOverflow)
      else readVarintFrom buf (pos + 1) (result ||| part) (shift + 7)
termination_by buf.length - pos

/-- A varint at a position, and the position after it. -/
def readVarint (buf : List UInt8) (pos : ℕ) : Except Stop (ℕ × ℕ) := readVarintFrom buf pos 0 0

inductive Wire where
  | varint
  | fixed64
  | len
  | fixed32
  deriving DecidableEq

inductive FieldVal where
  | varint (v : ℕ)
  | len (b : List UInt8)
  | fixed32 (v : ℕ)

def varint : FieldVal → ℕ
  | .varint n => n
  | _ => 0

def fixed32 : FieldVal → ℕ
  | .fixed32 b => b
  | _ => 0

def lenBytes : FieldVal → List UInt8
  | .len b => b
  | _ => []

/-- A field as the iterator yields it. -/
abbrev Item := ℕ × Wire × FieldVal

/-- The value of a field, after its tag. -/
def nextValue (buf : List UInt8) (fieldNo wireBits pos : ℕ) : Except Stop (Option (Item × ℕ)) :=
  match wireBits with
  | 0 => do
    let (v, pos) ← readVarint buf pos
    return some ((fieldNo, .varint, .varint v), pos)
  | 1 =>
    if pos + 8 > buf.length then .error (.error .truncated)
    else .ok (some ((fieldNo, .fixed64, .varint 0), pos + 8))
  | 2 => do
    let (len, pos) ← readVarint buf pos
    if len > buf.length then .error (.error .truncated)
    else if pos + len > buf.length then .error (.error .truncated)
    else
      let bytes ← slice buf pos (pos + len)
      return some ((fieldNo, .len, .len bytes), pos + len)
  | 5 =>
    if pos + 4 > buf.length then .error (.error .truncated)
    else do
      let b ← slice buf pos (pos + 4)
      return some ((fieldNo, .fixed32, .fixed32 (leNat b)), pos + 4)
  | _ => .error (.error .unsupportedWire)

/-- `ProtoFields::next`. -/
def next (buf : List UInt8) (pos : ℕ) : Except Stop (Option (Item × ℕ)) :=
  if pos ≥ buf.length then .ok none
  else do
    let (tag, pos) ← readVarint buf pos
    let fieldNo := tag >>> 3
    let wireBits := tag &&& 0x07
    if fieldNo = 0 ∨ fieldNo > 2 ^ 32 - 1 then .error (.error .badTag)
    else nextValue buf fieldNo wireBits pos

/-! ### Outcomes -/

/-- A computation returns this, or an error of the parser. -/
def Yields {α : Type} (x : Except Stop α) : Option α → Prop
  | some a => x = .ok a
  | none => ∃ e, x = .error (.error e)

section

variable {α β : Type} {x : Except Stop α} {o : Option α}

theorem Yields.bind {f : α → Except Stop β} {g : α → Option β} (h : Yields x o)
    (hf : ∀ a, o = some a → Yields (f a) (g a)) : Yields (x >>= f) (o.bind g) := by
  cases o with
  | none =>
      obtain ⟨e, rfl⟩ := h
      exact ⟨e, rfl⟩
  | some a =>
      cases h
      exact hf a rfl

theorem Yields.error (e : CompatError) : Yields (.error (.error e) : Except Stop α) none := ⟨e, rfl⟩

theorem Yields.toOption (h : Yields x o) : x.toOption = o := by
  cases o with
  | none =>
      obtain ⟨e, rfl⟩ := h
      rfl
  | some a =>
      cases h
      rfl

theorem Yields.ne_panic (h : Yields x o) : x ≠ .error .panic := by
  cases o with
  | none =>
      obtain ⟨e, rfl⟩ := h
      exact nofun
  | some a =>
      cases h
      exact nofun

end

theorem index_drop {buf l : List UInt8} {pos : ℕ} {b : UInt8} (h : buf.drop pos = b :: l) :
    index buf pos = .ok b := by
  have hget : buf[pos]? = some b := by
    have hhead := congrArg List.head? h
    rwa [List.head?_drop] at hhead
  rw [index, hget]

theorem slice_ok {buf : List UInt8} {a n : ℕ} (h : a + n ≤ buf.length) :
    slice buf a (a + n) = .ok ((buf.drop a).take n) := by
  rw [slice, if_pos ⟨Nat.le_add_right a n, h⟩, Nat.add_sub_cancel_left]

/-! ### The scan -/

theorem byte_low (b : UInt8) : (b &&& 0x7F).toNat = b.toNat % 128 := and_low (k := 7) rfl

theorem byte_last (b : UInt8) : b &&& 0x80 = 0 ↔ b.toNat < 128 := by
  have htable : ∀ i : Fin 256, UInt8.ofNat i.1 &&& 0x80 = 0 ↔ i.1 < 128 := by decide +kernel
  have hb := htable ⟨b.toNat, b.toNat_lt⟩
  rwa [UInt8.ofNat_toNat] at hb

theorem byte_tenth (b : UInt8) : b &&& 0x7E ≠ 0 ↔ 2 ≤ b.toNat % 128 := by
  have htable : ∀ i : Fin 256, UInt8.ofNat i.1 &&& 0x7E ≠ 0 ↔ 2 ≤ i.1 % 128 := by decide +kernel
  have hb := htable ⟨b.toNat, b.toNat_lt⟩
  rwa [UInt8.ofNat_toNat] at hb

/-- Seven more bits above those that are read. -/
theorem or_shl {result x k : ℕ} (hresult : result < 2 ^ k) : result ||| x * 2 ^ k = result + x * 2 ^ k := by
  rw [Nat.or_comm, or_eq_add k (Nat.dvd_mul_left _ _) hresult, Nat.add_comm]

/-- What a byte and the rest of a varint add, `k` bits up. -/
theorem more_value {b x v k : ℕ} (result : ℕ) (hx : x = b - 128) :
    result + x * 2 ^ k + v * 2 ^ (k + 7) = result + (b - 128 + 128 * v) * 2 ^ k := by
  rw [hx, Nat.pow_add, Nat.add_mul, Nat.add_assoc, Nat.mul_comm 128 v, Nat.mul_assoc v, Nat.mul_comm 128]

/-- With `k` bytes read, the loop reads the rest of a varint of at most ten, of a `u64`. -/
theorem readVarintFrom_yields {buf : List UInt8} {j : ℕ} : ∀ {k pos result : ℕ}, k + j = 10 → result < 2 ^ (7 * k) →
    Yields (readVarintFrom buf pos result (7 * k))
      (((LoraMesh.readVarint j (buf.drop pos)).filter fun r => result + r.1 * 2 ^ (7 * k) < 2 ^ 64).map
        fun r => (result + r.1 * 2 ^ (7 * k), pos + r.2)) := by
  induction j with
  | zero =>
      intro k pos result hk _
      obtain rfl : k = 10 := hk
      rw [readVarintFrom]
      by_cases hpos : pos ≥ buf.length
      · rw [dif_pos hpos]
        exact .error _
      · rw [dif_neg hpos]
        cases hindex : buf.drop pos with
        | nil => exact absurd (List.drop_eq_nil_iff.mp hindex) hpos
        | cons b l =>
            rw [index_drop hindex]
            exact .error _
  | succ j ih =>
      intro k pos result hk hresult
      rw [readVarintFrom]
      by_cases hpos : pos ≥ buf.length
      · rw [dif_pos hpos, List.drop_eq_nil_iff.mpr hpos]
        exact .error _
      rw [dif_neg hpos]
      cases hindex : buf.drop pos with
      | nil => exact absurd (List.drop_eq_nil_iff.mp hindex) hpos
      | cons b l =>
          have hdrop : buf.drop (pos + 1) = l := by rw [← List.drop_drop, hindex, List.drop_one, List.tail_cons]
          have hb := b.toNat_lt
          have hk9 : k ≤ 9 := by omega
          rw [index_drop hindex]
          show Yields (if 7 * k ≥ 64 then _ else if 7 * k = 63 ∧ b &&& 0x7E ≠ 0 then _ else _) _
          rw [if_neg (by omega)]
          by_cases htenth : 7 * k = 63 ∧ b &&& 0x7E ≠ 0
          · -- the tenth byte, and more than one bit in it
            rw [if_pos htenth]
            obtain ⟨rfl, rfl⟩ : k = 9 ∧ j = 0 := by omega
            have htwo := (byte_tenth b).mp htenth.2
            refine cast (congrArg (Yields _) ?_) (Yields.error _)
            rw [LoraMesh.readVarint]
            by_cases hlast : b.toNat < 128
            · rw [if_pos hlast, Option.filter_some_neg, Option.map_none]
              show decide (result + b.toNat * 2 ^ (7 * 9) < 2 ^ 64) = false
              rw [decide_eq_false_iff_not]
              omega
            · rw [if_neg hlast, LoraMesh.readVarint]
              rfl
          · rw [if_neg htenth, byte_low]
            have hpart : b.toNat % 128 * 2 ^ (7 * k) + result < 2 ^ 64 := by
              have hx : b.toNat % 128 + 1 ≤ 2 ^ (64 - 7 * k) := by
                rcases Nat.lt_or_eq_of_le hk9 with h8 | rfl
                · calc b.toNat % 128 + 1 ≤ 2 ^ 7 := by omega
                    _ ≤ 2 ^ (64 - 7 * k) := Nat.pow_le_pow_right (by decide) (by omega)
                · have hbit : ¬ 2 ≤ b.toNat % 128 := fun h => htenth ⟨rfl, (byte_tenth b).mpr h⟩
                  show b.toNat % 128 + 1 ≤ 2
                  omega
              calc b.toNat % 128 * 2 ^ (7 * k) + result < b.toNat % 128 * 2 ^ (7 * k) + 2 ^ (7 * k) :=
                    Nat.add_lt_add_left hresult _
                _ = (b.toNat % 128 + 1) * 2 ^ (7 * k) := (Nat.succ_mul _ _).symm
                _ ≤ 2 ^ (64 - 7 * k) * 2 ^ (7 * k) := Nat.mul_le_mul_right _ hx
                _ = 2 ^ 64 := by rw [← Nat.pow_add, Nat.sub_add_cancel (by omega)]
            have hshl : shl (b.toNat % 128) (7 * k) = .ok (b.toNat % 128 * 2 ^ (7 * k)) := by
              rw [shl, if_pos (by omega), Nat.shiftLeft_eq, Nat.mod_eq_of_lt (by omega)]
            rw [hshl]
            show Yields (if b &&& 0x80 = 0 then _ else if 7 * k + 7 > 70 then _ else _) _
            rw [or_shl hresult]
            by_cases hlast : b.toNat < 128
            · rw [if_pos ((byte_last b).mpr hlast), LoraMesh.readVarint, if_pos hlast, Nat.mod_eq_of_lt hlast,
                Option.filter_some_pos]
              · rfl
              · rw [Nat.mod_eq_of_lt hlast, Nat.add_comm] at hpart
                exact decide_eq_true hpart
            · rw [if_neg (fun h => hlast ((byte_last b).mp h)), if_neg (by omega)]
              have hlow : b.toNat % 128 = b.toNat - 128 := by omega
              have hstep : b.toNat % 128 * 2 ^ (7 * k) + 2 ^ (7 * k) ≤ 128 * 2 ^ (7 * k) := by
                rw [← Nat.succ_mul]
                exact Nat.mul_le_mul_right _ (by omega)
              have hnext : Yields
                  (readVarintFrom buf (pos + 1) (result + b.toNat % 128 * 2 ^ (7 * k)) (7 * (k + 1))) _ :=
                ih (by omega) (by rw [Nat.mul_add, Nat.pow_add]; omega)
              refine cast (congrArg (Yields _) ?_) hnext
              rw [hdrop, LoraMesh.readVarint, if_neg hlast]
              cases LoraMesh.readVarint j l with
              | none => rfl
              | some r =>
                  simp only [Option.map_some, Nat.mul_add, more_value _ hlow, Option.filter_some]
                  split
                  · exact congrArg some (Prod.ext rfl (Nat.add_right_comm pos 1 r.2))
                  · rfl

theorem readVarint_yields (buf : List UInt8) (pos : ℕ) (L : Limits) (hL : L.value = 2 ^ 64) :
    Yields (readVarint buf pos) ((L.read (buf.drop pos)).map fun r => (r.1, pos + r.2)) := by
  have h : Yields (readVarintFrom buf pos 0 (7 * 0)) _ := readVarintFrom_yields (rfl : 0 + 10 = 10) (by decide)
  simpa [readVarint, Limits.read, hL] using h

/-- The limits of the parser: a `u64` in a varint, a `u32` in a field number. -/
def limits : Limits where
  value := 2 ^ 64
  number := 2 ^ 32

/-- A field as the iterator yields it. -/
def item : WireField → Item
  | (n, .varint v) => (n, .varint, .varint v)
  | (n, .fixed64) => (n, .fixed64, .varint 0)
  | (n, .bytes b) => (n, .len, .len b)
  | (n, .fixed32 v) => (n, .fixed32, .fixed32 v)

theorem nextValue_yields (buf : List UInt8) (n wire pos : ℕ) :
    Yields (nextValue buf n wire pos)
      ((readValue limits wire (buf.drop pos)).map fun r => some (item (n, r.1), pos + r.2)) := by
  have hread := readVarint_yields buf pos limits rfl
  match wire with
  | 0 =>
      rw [nextValue, readValue, Option.map_map]
      cases hr : limits.read (buf.drop pos) with
      | none =>
          rw [hr] at hread
          obtain ⟨e, he⟩ := hread
          rw [he]
          exact .error e
      | some r =>
          rw [hr] at hread
          rw [show readVarint buf pos = _ from hread]
          rfl
  | 1 =>
      rw [nextValue, readValue, List.length_drop]
      by_cases hlen : pos + 8 > buf.length
      · rw [if_pos hlen, if_neg (by omega)]
        exact .error _
      · rw [if_neg hlen, if_pos (by omega)]
        rfl
  | 2 =>
      rw [nextValue, readValue]
      cases hr : limits.read (buf.drop pos) with
      | none =>
          rw [hr] at hread
          obtain ⟨e, he⟩ := hread
          rw [he]
          exact .error e
      | some r =>
          obtain ⟨len, m⟩ := r
          have hm : 1 ≤ m := by
            obtain ⟨bs, -, -, rfl, hbs⟩ := Limits.read_some hr
            exact hbs.1.length_pos
          rw [hr] at hread
          rw [show readVarint buf pos = _ from hread, Option.bind_some, List.length_drop, List.drop_drop]
          show Yields (if len > buf.length then _ else if pos + m + len > buf.length then _ else _) _
          by_cases hlen : m + len ≤ buf.length - pos
          · rw [if_neg (by omega), if_neg (by omega), if_pos hlen, slice_ok (by omega)]
            show Except.ok (some (_, pos + m + len)) = Except.ok (some (_, pos + (m + len)))
            rw [Nat.add_assoc]
            rfl
          · rw [if_neg hlen]
            by_cases hbig : len > buf.length
            · rw [if_pos hbig]
              exact .error _
            · rw [if_neg hbig, if_pos (by omega)]
              exact .error _
  | 3 => exact .error _
  | 4 => exact .error _
  | 5 =>
      rw [nextValue, readValue, List.length_drop]
      by_cases hlen : pos + 4 > buf.length
      · rw [if_pos hlen, if_neg (by omega)]
        exact .error _
      · rw [if_neg hlen, if_pos (by omega), slice_ok (by omega)]
        rfl
  | _ + 6 => exact .error _

theorem next_yields (buf : List UInt8) (pos : ℕ) :
    Yields (next buf pos) (if buf.length ≤ pos then some none
      else (readField limits (buf.drop pos)).map fun r => some (item r.1, pos + r.2)) := by
  rw [next]
  by_cases hpos : buf.length ≤ pos
  · rw [if_pos hpos, if_pos hpos]
    rfl
  rw [if_neg hpos, if_neg hpos, readField]
  have hread := readVarint_yields buf pos limits rfl
  cases hr : limits.read (buf.drop pos) with
  | none =>
      rw [hr] at hread
      obtain ⟨e, he⟩ := hread
      rw [he]
      exact .error e
  | some r =>
      obtain ⟨tag, m⟩ := r
      rw [hr] at hread
      rw [show readVarint buf pos = _ from hread, Option.bind_some, List.drop_drop]
      show Yields (if tag >>> 3 = 0 ∨ tag >>> 3 > 2 ^ 32 - 1 then _ else nextValue buf (tag >>> 3) (tag &&& 0x07) _) _
      have hdiv : tag >>> 3 = tag / 8 := Nat.shiftRight_eq_div_pow tag 3
      have hmod : tag &&& 0x07 = tag % 8 := Nat.and_two_pow_sub_one_eq_mod tag 3
      rw [hdiv, hmod]
      by_cases hn : 1 ≤ tag / 8 ∧ tag / 8 < limits.number
      · have hok : ¬ (tag / 8 = 0 ∨ tag / 8 > 2 ^ 32 - 1) := by
          have hnum : limits.number = 2 ^ 32 := rfl
          omega
        rw [if_neg hok, if_pos hn, Option.map_map]
        refine cast (congrArg (Yields _) ?_) (nextValue_yields buf (tag / 8) (tag % 8) (pos + m))
        exact congrArg (fun g => Option.map g _) (funext fun r => by rw [Nat.add_assoc]; rfl)
      · have hbad : tag / 8 = 0 ∨ tag / 8 > 2 ^ 32 - 1 := by
          have hnum : limits.number = 2 ^ 32 := rfl
          omega
        rw [if_pos hbad, if_neg hn]
        exact .error _

theorem next_reads : ReadsFields next limits item := fun buf pos => (next_yields buf pos).toOption

/-- The iterator over the fields of a buffer. -/
def protoFields : Scanner Stop Item := .ofFields next_reads

theorem protoFields_scans : protoFields.Scans limits item := next_reads

/-! ### The parser -/

/-- The envelope of a decoded packet. -/
structure CompatData where
  portnum : ℕ
  payload : List UInt8
  deriving DecidableEq

structure CompatPacket where
  fromId : ℕ
  toId : ℕ
  channel : ℕ
  packetId : ℕ
  hopLimit : ℕ
  hopStart : ℕ
  wantAck : Bool
  viaMqtt : Bool
  rxTime : ℕ
  rxSnrBits : Option ℕ
  rxRssi : Option ℤ
  data : Option CompatData
  encrypted : Bool
  encryptedLen : ℕ
  unknownCount : ℕ
  deriving DecidableEq

/-- A `u64` read as an `i64`. -/
def asI64 (value : ℕ) : ℤ := if value < 2 ^ 63 then value else value - 2 ^ 64

def varintToInt32 (value : ℕ) : Except Stop ℤ :=
  if asI64 value < -2 ^ 31 ∨ asI64 value > 2 ^ 31 - 1 then .error (.error .int32OutOfRange)
  else .ok (asI64 value)

/-- What `parse_data` keeps between fields. -/
structure DataScan where
  portnum : ℕ
  payload : List UInt8
  seenPayload : Bool

def dataStep (s : DataScan) : Item → Except Stop DataScan
  | (1, .varint, value) =>
    -- saturates
    .ok { s with portnum := if varint value < 2 ^ 32 then varint value else 2 ^ 32 - 1 }
  | (2, .len, value) =>
    if s.seenPayload then .error (.error .duplicate)
    else .ok { s with seenPayload := true, payload := lenBytes value }
  | _ => .ok s

def parseData (buf : List UInt8) : Except Stop CompatData := do
  let s ← protoFields.fold dataStep buf 0 { portnum := 0, payload := [], seenPayload := false }
  if s.payload.length > maxCompatFrameLen then .error (.error .tooLong)
  else return { portnum := s.portnum, payload := s.payload }

def CompatPacket.blank : CompatPacket where
  fromId := 0
  toId := 0
  channel := 0
  packetId := 0
  hopLimit := 0
  hopStart := 0
  wantAck := false
  viaMqtt := false
  rxTime := 0
  rxSnrBits := none
  rxRssi := none
  data := none
  encrypted := false
  encryptedLen := 0
  unknownCount := 0

def packetStep (pkt : CompatPacket) : Item → Except Stop CompatPacket
  | (1, .fixed32, value) => .ok { pkt with fromId := fixed32 value }
  | (2, .fixed32, value) => .ok { pkt with toId := fixed32 value }
  | (3, .varint, value) => .ok { pkt with channel := varint value }
  | (4, .len, value) =>
    if pkt.data.isSome then .error (.error .duplicate)
    else do
      let data ← parseData (lenBytes value)
      return { pkt with data := some data }
  | (5, .len, value) => .ok { pkt with encrypted := true, encryptedLen := (lenBytes value).length }
  | (6, .fixed32, value) => .ok { pkt with packetId := fixed32 value }
  | (7, .fixed32, value) => .ok { pkt with rxTime := fixed32 value }
  | (8, .fixed32, value) => .ok { pkt with rxSnrBits := some (fixed32 value) }
  | (9, .varint, value) => .ok { pkt with hopLimit := varint value }
  | (10, .varint, value) => .ok { pkt with wantAck := varint value != 0 }
  | (12, .varint, value) => do
    let rssi ← varintToInt32 (varint value)
    return { pkt with rxRssi := some rssi }
  | (14, .varint, value) => .ok { pkt with viaMqtt := varint value != 0 }
  | (15, .varint, value) => .ok { pkt with hopStart := varint value }
  -- skipped silently
  | (_, .fixed64, _) => .ok pkt
  -- saturates
  | _ => .ok { pkt with unknownCount := min (pkt.unknownCount + 1) 255 }

def parsePacket (raw : List UInt8) : Except Stop CompatPacket :=
  if raw = [] then .error (.error .empty)
  else if raw.length > maxCompatFrameLen then .error (.error .tooLong)
  else do
    let pkt ← protoFields.fold packetStep raw 0 .blank
    if pkt.data.isSome && pkt.encrypted then .error (.error .bothDecodedAndEncrypted)
    else if pkt.data.isNone && !pkt.encrypted then .error (.error .neitherDecodedNorEncrypted)
    else return pkt

/-! ### No panic -/

theorem next_ne_panic (buf : List UInt8) (pos : ℕ) (e : Stop) (h : next buf pos = .error e) : e ≠ .panic := by
  rintro rfl
  exact (next_yields buf pos).ne_panic h

theorem dataStep_ne_panic (s : DataScan) (i : Item) (e : Stop) (h : dataStep s i = .error e) : e ≠ .panic := by
  unfold dataStep at h
  split at h
  · cases h
  · split at h
    · cases h
      exact nofun
    · cases h
  · cases h

theorem parseData_ne_panic (buf : List UInt8) (e : Stop) (h : parseData buf = .error e) : e ≠ .panic := by
  unfold parseData at h
  cases hfold : protoFields.fold dataStep buf 0 { portnum := 0, payload := [], seenPayload := false } with
  | error e' =>
      rw [hfold] at h
      cases h
      exact Scanner.fold_error next_ne_panic dataStep_ne_panic hfold
  | ok s =>
      rw [hfold] at h
      change (if s.payload.length > maxCompatFrameLen then _ else _) = _ at h
      split at h
      · cases h
        exact nofun
      · cases h

theorem packetStep_ne_panic (pkt : CompatPacket) (i : Item) (e : Stop) (h : packetStep pkt i = .error e) :
    e ≠ .panic := by
  unfold packetStep at h
  split at h
  -- the envelope and the signal strength can fail, and nothing else
  case h_4 value =>
      split at h
      · cases h
        exact nofun
      · cases hdata : parseData (lenBytes value) with
        | error e' =>
            rw [hdata] at h
            cases h
            exact parseData_ne_panic _ _ hdata
        | ok d =>
            rw [hdata] at h
            cases h
  case h_11 value =>
      rw [varintToInt32] at h
      split at h
      · cases h
        exact nofun
      · cases h
  all_goals cases h

theorem parsePacket_ne_panic (raw : List UInt8) : parsePacket raw ≠ .error .panic := by
  intro h
  unfold parsePacket at h
  split at h
  · cases h
  split at h
  · cases h
  cases hfold : protoFields.fold packetStep raw 0 .blank with
  | error e =>
      rw [hfold] at h
      cases h
      exact Scanner.fold_error next_ne_panic packetStep_ne_panic hfold rfl
  | ok pkt =>
      rw [hfold] at h
      change (if pkt.data.isSome && pkt.encrypted then _ else _) = _ at h
      split at h
      · cases h
      · split at h
        · cases h
        · cases h

/-! ### What the fields say -/

open WireField

/-- The envelope that fields of a `Data` message give. -/
def dataOf (gs : List WireField) : CompatData where
  portnum := min ((lastOf (varintAt 1) gs).getD 0) (2 ^ 32 - 1)
  payload := (lastOf (bytesAt 2) gs).getD []

/-- At most one payload. -/
def DataOk (gs : List WireField) : Prop := (gs.filterMap (bytesAt 2)).length ≤ 1

def scanOf (gs : List WireField) : DataScan where
  portnum := (dataOf gs).portnum
  payload := (dataOf gs).payload
  seenPayload := (lastOf (bytesAt 2) gs).isSome

theorem dataOk_init (gs : List WireField) (f : WireField) (h : DataOk (gs ++ [f])) : DataOk gs := by
  unfold DataOk at h ⊢
  rw [List.filterMap_append, List.length_append] at h
  omega

section

variable {f : WireField} {n : ℕ} {value : FieldVal}

theorem item_varint (h : item f = (n, .varint, value)) : ∃ v, f = (n, .varint v) ∧ value = .varint v := by
  obtain ⟨m, x⟩ := f
  cases x with
  | varint v =>
      cases h
      exact ⟨v, rfl, rfl⟩
  | fixed64 => cases h
  | bytes b => cases h
  | fixed32 v => cases h

theorem item_len (h : item f = (n, .len, value)) : ∃ b, f = (n, .bytes b) ∧ value = .len b := by
  obtain ⟨m, x⟩ := f
  cases x with
  | varint v => cases h
  | fixed64 => cases h
  | bytes b =>
      cases h
      exact ⟨b, rfl, rfl⟩
  | fixed32 v => cases h

theorem item_fixed32 (h : item f = (n, .fixed32, value)) : ∃ v, f = (n, .fixed32 v) ∧ value = .fixed32 v := by
  obtain ⟨m, x⟩ := f
  cases x with
  | varint v => cases h
  | fixed64 => cases h
  | bytes b => cases h
  | fixed32 v =>
      cases h
      exact ⟨v, rfl, rfl⟩

theorem item_fixed64 (h : item f = (n, .fixed64, value)) : f = (n, .fixed64) := by
  obtain ⟨m, x⟩ := f
  cases x with
  | varint v => cases h
  | fixed64 =>
      cases h
      rfl
  | bytes b => cases h
  | fixed32 v => cases h

end

/-- A step that does not fail. -/
theorem ok_iff {ε σ : Type} {x y s : σ} {P : Prop} (hP : P) (hx : x = y) :
    (.ok x : Except ε σ) = .ok s ↔ P ∧ s = y := by
  rw [and_iff_right hP, Except.ok.injEq, hx, eq_comm]

/-- A step that fails. -/
theorem error_iff {ε σ : Type} {e : ε} {s : σ} {P : Prop} (hP : ¬ P) : (.error e : Except ε σ) = .ok s ↔ P :=
  ⟨fun he => (by cases he), fun hp => absurd hp hP⟩

theorem dataStep_ok (gs : List WireField) (f : WireField) (s : DataScan) (hok : DataOk gs) :
    dataStep (scanOf gs) (item f) = .ok s ↔ DataOk (gs ++ [f]) ∧ s = scanOf (gs ++ [f]) := by
  unfold dataStep
  split
  · rename_i value heq
    obtain ⟨v, rfl, rfl⟩ := item_varint heq
    refine ok_iff ?_ ?_
    · rwa [DataOk, filterMap_append_none rfl]
    · have hmin : (if v < 2 ^ 32 then v else 2 ^ 32 - 1) = min v (2 ^ 32 - 1) := by
        split
        · omega
        · omega
      have hscan : scanOf (gs ++ [(1, .varint v)]) = { scanOf gs with portnum := min v (2 ^ 32 - 1) } := by
        simp [scanOf, dataOf, varintAt, bytesAt]
      rw [hscan, ← hmin]
      rfl
  · rename_i value heq
    obtain ⟨b, rfl, rfl⟩ := item_len heq
    by_cases hseen : (scanOf gs).seenPayload = true
    · -- a second payload
      have hne : gs.filterMap (bytesAt 2) ≠ [] := isSome_lastOf.mp hseen
      rw [if_pos hseen]
      refine error_iff fun h => ?_
      have hlen := h.1
      have hpos := List.length_pos_iff.mpr hne
      rw [DataOk, filterMap_append_some (a := b) rfl, List.length_append, List.length_singleton] at hlen
      omega
    · have hnil : gs.filterMap (bytesAt 2) = [] := Decidable.not_not.mp fun h => hseen (isSome_lastOf.mpr h)
      rw [if_neg hseen]
      refine ok_iff ?_ ?_
      · rw [DataOk, filterMap_append_some (a := b) rfl, hnil]
        exact Nat.le_refl 1
      · simp [scanOf, dataOf, varintAt, bytesAt, lenBytes]
  · rename_i hone htwo
    have hv : varintAt 1 f = none := by
      obtain ⟨n, x⟩ := f
      cases x with
      | varint v =>
          refine if_neg ?_
          rintro rfl
          exact hone _ rfl
      | fixed64 => rfl
      | bytes b => rfl
      | fixed32 v => rfl
    have hb : bytesAt 2 f = none := by
      obtain ⟨n, x⟩ := f
      cases x with
      | varint v => rfl
      | fixed64 => rfl
      | bytes b =>
          refine if_neg ?_
          rintro rfl
          exact htwo _ rfl
      | fixed32 v => rfl
    refine ok_iff ?_ ?_
    · rwa [DataOk, filterMap_append_none hb]
    · simp [scanOf, dataOf, hv, hb]

theorem parseData_ok (buf : List UInt8) (d : CompatData) :
    parseData buf = .ok d ↔ ∃ gs, IsMessage limits buf gs ∧ DataOk gs ∧
      (dataOf gs).payload.length ≤ maxCompatFrameLen ∧ d = dataOf gs := by
  have hfold := Scanner.fold_ok_iff protoFields_scans (Nat.zero_le 1 : DataOk []) dataOk_init dataStep_ok buf
  have hrun : parseData buf = .ok d ↔ ∃ s, protoFields.fold dataStep buf 0 (scanOf []) = .ok s ∧
      s.payload.length ≤ maxCompatFrameLen ∧ d = { portnum := s.portnum, payload := s.payload } := by
    show (protoFields.fold dataStep buf 0 (scanOf []) >>= fun s =>
      if s.payload.length > maxCompatFrameLen then _ else _) = .ok d ↔ _
    cases protoFields.fold dataStep buf 0 (scanOf []) with
    | error e => exact ⟨nofun, fun ⟨_, h, _⟩ => nomatch h⟩
    | ok s =>
        show (if s.payload.length > maxCompatFrameLen then .error (.error .tooLong)
          else .ok ⟨s.portnum, s.payload⟩ : Except Stop CompatData) = .ok d ↔ _
        by_cases hlen : s.payload.length > maxCompatFrameLen
        · rw [if_pos hlen]
          refine ⟨nofun, ?_⟩
          rintro ⟨_, h, hle, -⟩
          cases h
          exact absurd hle (Nat.not_le.mpr hlen)
        · rw [if_neg hlen]
          constructor
          · intro h
            exact ⟨s, rfl, Nat.not_lt.mp hlen, (Except.ok.inj h).symm⟩
          · rintro ⟨_, h, -, rfl⟩
            cases h
            rfl
  rw [hrun]
  constructor
  · rintro ⟨s, hs, hlen, rfl⟩
    obtain ⟨gs, hgs, hok, rfl⟩ := (hfold s).mp hs
    exact ⟨gs, hgs, hok, hlen, rfl⟩
  · rintro ⟨gs, hgs, hok, hlen, rfl⟩
    exact ⟨scanOf gs, (hfold _).mpr ⟨gs, hgs, hok, rfl⟩, hlen, rfl⟩

/-- A varint of the range of an `i32`. -/
def InInt32 (v : ℕ) : Prop := -2 ^ 31 ≤ asI64 v ∧ asI64 v < 2 ^ 31

/-- A field that the parser counts and skips. -/
def unknown : WireField → Bool
  | (n, .varint _) => n ∉ [3, 9, 10, 12, 14, 15]
  | (_, .fixed64) => false
  | (n, .bytes _) => n ∉ [4, 5]
  | (n, .fixed32 _) => n ∉ [1, 2, 6, 7, 8]

/-- Fields that can be read one after the other: signal strengths in range, and one envelope at most,
which parses. -/
structure FieldsOk (inRange : ℕ → Prop) (parses : List UInt8 → Prop) (fs : List WireField) : Prop where
  rssi : ∀ v ∈ fs.filterMap (varintAt 12), inRange v
  once : (fs.filterMap (bytesAt 4)).length ≤ 1
  data : ∀ b ∈ fs.filterMap (bytesAt 4), parses b

namespace FieldsOk

variable {inRange : ℕ → Prop} {parses : List UInt8 → Prop} {fs : List WireField} {f : WireField}

theorem nil : FieldsOk inRange parses [] := ⟨nofun, Nat.zero_le 1, nofun⟩

theorem init (h : FieldsOk inRange parses (fs ++ [f])) : FieldsOk inRange parses fs := by
  obtain ⟨hrssi, honce, hdata⟩ := h
  rw [List.filterMap_append] at hrssi honce hdata
  rw [List.length_append] at honce
  exact ⟨fun v hv => hrssi v (List.mem_append_left _ hv), by omega, fun b hb => hdata b (List.mem_append_left _ hb)⟩

theorem append (h : FieldsOk inRange parses fs) (hrssi : varintAt 12 f = none) (hdata : bytesAt 4 f = none) :
    FieldsOk inRange parses (fs ++ [f]) := by
  refine ⟨?_, ?_, ?_⟩
  · rw [filterMap_append_none hrssi]
    exact h.rssi
  · rw [filterMap_append_none hdata]
    exact h.once
  · rw [filterMap_append_none hdata]
    exact h.data

theorem append_rssi {v : ℕ} (h : FieldsOk inRange parses fs) :
    FieldsOk inRange parses (fs ++ [(12, .varint v)]) ↔ inRange v := by
  constructor
  · intro h'
    refine h'.rssi v ?_
    rw [filterMap_append_some (a := v) rfl]
    exact List.mem_append_right _ (List.mem_singleton_self v)
  · intro hv
    refine ⟨?_, ?_, ?_⟩
    · rw [filterMap_append_some (a := v) rfl]
      exact List.forall_mem_append.mpr ⟨h.rssi, List.forall_mem_singleton.mpr hv⟩
    · rw [filterMap_append_none rfl]
      exact h.once
    · rw [filterMap_append_none rfl]
      exact h.data

theorem append_data {b : List UInt8} (h : FieldsOk inRange parses fs) :
    FieldsOk inRange parses (fs ++ [(4, .bytes b)]) ↔ fs.filterMap (bytesAt 4) = [] ∧ parses b := by
  constructor
  · intro h'
    have honce := h'.once
    have hdata := h'.data
    rw [filterMap_append_some (a := b) rfl] at honce hdata
    rw [List.length_append, List.length_singleton] at honce
    exact ⟨List.length_eq_zero_iff.mp (by omega), hdata b (List.mem_append_right _ (List.mem_singleton_self b))⟩
  · rintro ⟨hnil, hb⟩
    refine ⟨?_, ?_, ?_⟩
    · rw [filterMap_append_none rfl]
      exact h.rssi
    · rw [filterMap_append_some (a := b) rfl, hnil]
      exact Nat.le_refl 1
    · rw [filterMap_append_some (a := b) rfl, hnil]
      exact List.forall_mem_singleton.mpr hb

end FieldsOk

abbrev PacketOk (fs : List WireField) : Prop := FieldsOk InInt32 (fun b => ∃ d, parseData b = .ok d) fs

/-- The envelope of a text that has one. -/
def envelope (b : List UInt8) : CompatData := dataOf ((readMessage limits b).getD [])

theorem parseData_envelope {b : List UInt8} {d : CompatData} (h : parseData b = .ok d) : d = envelope b := by
  obtain ⟨gs, hgs, -, -, rfl⟩ := (parseData_ok b d).mp h
  rw [envelope, readMessage_iff.mpr hgs, Option.getD_some]

/-- The packet that the fields make. -/
def packetOf (fs : List WireField) : CompatPacket where
  fromId := (lastOf (fixed32At 1) fs).getD 0
  toId := (lastOf (fixed32At 2) fs).getD 0
  channel := (lastOf (varintAt 3) fs).getD 0
  packetId := (lastOf (fixed32At 6) fs).getD 0
  hopLimit := (lastOf (varintAt 9) fs).getD 0
  hopStart := (lastOf (varintAt 15) fs).getD 0
  wantAck := (lastOf (varintAt 10) fs).getD 0 != 0
  viaMqtt := (lastOf (varintAt 14) fs).getD 0 != 0
  rxTime := (lastOf (fixed32At 7) fs).getD 0
  rxSnrBits := lastOf (fixed32At 8) fs
  rxRssi := (lastOf (varintAt 12) fs).map asI64
  data := (lastOf (bytesAt 4) fs).map envelope
  encrypted := (lastOf (bytesAt 5) fs).isSome
  encryptedLen := ((lastOf (bytesAt 5) fs).map List.length).getD 0
  unknownCount := min (fs.countP unknown) 255

theorem min_succ_min (k : ℕ) : min (min k 255 + 1) 255 = min (k + 1) 255 := by omega

theorem packetStep_ok (fs : List WireField) (f : WireField) (s : CompatPacket) (hok : PacketOk fs) :
    packetStep (packetOf fs) (item f) = .ok s ↔ PacketOk (fs ++ [f]) ∧ s = packetOf (fs ++ [f]) := by
  unfold packetStep
  split
  case h_1 value heq | h_2 value heq | h_6 value heq | h_7 value heq | h_8 value heq =>
      obtain ⟨v, rfl, rfl⟩ := item_fixed32 heq
      refine ok_iff (hok.append rfl rfl) ?_
      simp [packetOf, varintAt, bytesAt, fixed32At, fixed32, unknown]
  case h_3 value heq | h_9 value heq | h_10 value heq | h_12 value heq | h_13 value heq =>
      obtain ⟨v, rfl, rfl⟩ := item_varint heq
      refine ok_iff (hok.append rfl rfl) ?_
      simp [packetOf, varintAt, bytesAt, fixed32At, varint, unknown]
  case h_5 value heq =>
      obtain ⟨b, rfl, rfl⟩ := item_len heq
      refine ok_iff (hok.append rfl rfl) ?_
      simp [packetOf, varintAt, bytesAt, fixed32At, lenBytes, unknown]
  case h_14 value heq =>
      obtain rfl := item_fixed64 heq
      refine ok_iff (hok.append rfl rfl) ?_
      simp [packetOf, varintAt, bytesAt, fixed32At, unknown]
  case h_4 value heq =>
      obtain ⟨b, rfl, rfl⟩ := item_len heq
      have hsome : (packetOf fs).data.isSome = true ↔ fs.filterMap (bytesAt 4) ≠ [] := by
        rw [← isSome_lastOf, packetOf, Option.isSome_map]
      rw [PacketOk, hok.append_data]
      by_cases hdata : (packetOf fs).data.isSome = true
      · rw [if_pos hdata]
        exact error_iff fun h => hsome.mp hdata h.1.1
      · have hnil : fs.filterMap (bytesAt 4) = [] := Decidable.not_not.mp fun h => hdata (hsome.mpr h)
        rw [if_neg hdata, and_iff_right hnil]
        cases hparse : parseData b with
        | error e =>
            rw [show parseData (lenBytes (.len b)) = .error e from hparse]
            refine error_iff fun h => ?_
            obtain ⟨⟨_, h⟩, -⟩ := h
            cases h
        | ok d =>
            rw [show parseData (lenBytes (.len b)) = .ok d from hparse]
            refine ok_iff ⟨d, rfl⟩ ?_
            rw [parseData_envelope hparse]
            simp [packetOf, varintAt, bytesAt, fixed32At, unknown]
  case h_11 value heq =>
      obtain ⟨v, rfl, rfl⟩ := item_varint heq
      rw [PacketOk, hok.append_rssi]
      by_cases hrange : InInt32 v
      · have hint : varintToInt32 v = .ok (asI64 v) := if_neg (by
          rw [InInt32] at hrange
          omega)
        rw [show varintToInt32 (varint (.varint v)) = _ from hint]
        refine ok_iff hrange ?_
        simp [packetOf, varintAt, bytesAt, fixed32At, unknown]
      · have hint : varintToInt32 v = .error (.error .int32OutOfRange) := if_pos (by
          rw [InInt32, not_and_or] at hrange
          omega)
        rw [show varintToInt32 (varint (.varint v)) = _ from hint]
        exact error_iff fun h => hrange h.1
  case h_15 =>
      rename_i h₁ h₂ h₃ h₄ h₅ h₆ h₇ h₈ h₉ h₁₀ h₁₂ h₁₄ h₁₅ h₆₄
      obtain ⟨n, x⟩ := f
      cases x with
      | varint v =>
          have hn : n ≠ 3 ∧ n ≠ 9 ∧ n ≠ 10 ∧ n ≠ 12 ∧ n ≠ 14 ∧ n ≠ 15 := by
            refine ⟨?_, ?_, ?_, ?_, ?_, ?_⟩ <;> rintro rfl
            · exact h₃ _ rfl
            · exact h₉ _ rfl
            · exact h₁₀ _ rfl
            · exact h₁₂ _ rfl
            · exact h₁₄ _ rfl
            · exact h₁₅ _ rfl
          refine ok_iff (hok.append (if_neg hn.2.2.2.1) rfl) ?_
          simp [packetOf, varintAt, bytesAt, fixed32At, unknown, hn, min_succ_min]
      | fixed64 => exact absurd rfl (h₆₄ n _)
      | bytes b =>
          have hn : n ≠ 4 ∧ n ≠ 5 := by
            refine ⟨?_, ?_⟩ <;> rintro rfl
            · exact h₄ _ rfl
            · exact h₅ _ rfl
          refine ok_iff (hok.append rfl (if_neg hn.1)) ?_
          simp [packetOf, varintAt, bytesAt, fixed32At, unknown, hn, min_succ_min]
      | fixed32 v =>
          have hn : n ≠ 1 ∧ n ≠ 2 ∧ n ≠ 6 ∧ n ≠ 7 ∧ n ≠ 8 := by
            refine ⟨?_, ?_, ?_, ?_, ?_⟩ <;> rintro rfl
            · exact h₁ _ rfl
            · exact h₂ _ rfl
            · exact h₆ _ rfl
            · exact h₇ _ rfl
            · exact h₈ _ rfl
          refine ok_iff (hok.append rfl rfl) ?_
          simp [packetOf, varintAt, bytesAt, fixed32At, unknown, hn, min_succ_min]

/-- One envelope and nothing encrypted, or the other way round. -/
def Shape (fs : List WireField) : Prop :=
  ((fs.filterMap (bytesAt 4)).length = 1 ∧ fs.filterMap (bytesAt 5) = []) ∨
    (fs.filterMap (bytesAt 4) = [] ∧ fs.filterMap (bytesAt 5) ≠ [])

/-- A text of the grammar, with its fields. -/
structure Accepted (raw : List UInt8) (fs : List WireField) : Prop where
  length : 1 ≤ raw.length ∧ raw.length ≤ maxCompatFrameLen
  message : IsMessage limits raw fs
  rssi : ∀ v ∈ fs.filterMap (varintAt 12), InInt32 v
  data : ∀ b ∈ fs.filterMap (bytesAt 4), ∃ gs, IsMessage limits b gs ∧ DataOk gs
  shape : Shape fs

theorem fold_packet (raw : List UInt8) (p : CompatPacket) :
    protoFields.fold packetStep raw 0 .blank = .ok p ↔ ∃ fs, IsMessage limits raw fs ∧ PacketOk fs ∧ p = packetOf fs :=
  Scanner.fold_ok_iff protoFields_scans .nil (fun _ _ => FieldsOk.init) packetStep_ok raw p

/-- With one envelope at most, the shape is that something is found, and not both. -/
theorem shape_found {fs : List WireField} (honce : (fs.filterMap (bytesAt 4)).length ≤ 1) :
    Shape fs ↔ ((lastOf (bytesAt 4) fs).isSome && (lastOf (bytesAt 5) fs).isSome) = false ∧
      (!(lastOf (bytesAt 4) fs).isSome && !(lastOf (bytesAt 5) fs).isSome) = false := by
  unfold Shape lastOf
  generalize fs.filterMap (bytesAt 4) = decoded at honce
  generalize fs.filterMap (bytesAt 5) = encrypted
  cases decoded with
  | nil =>
      cases encrypted with
      | nil => simp
      | cons e es => simp
  | cons d ds =>
      obtain rfl : ds = [] := List.length_eq_zero_iff.mp (Nat.le_zero.mp (Nat.le_of_succ_le_succ honce))
      cases encrypted with
      | nil => simp
      | cons e es => simp

theorem shape_iff {fs : List WireField} (h : PacketOk fs) :
    Shape fs ↔ ((packetOf fs).data.isSome && (packetOf fs).encrypted) = false ∧
      ((packetOf fs).data.isNone && !(packetOf fs).encrypted) = false := by
  have hdata : (packetOf fs).data.isSome = (lastOf (bytesAt 4) fs).isSome := Option.isSome_map
  rw [← Option.not_isSome, hdata]
  exact shape_found h.once

theorem parsePacket_ok (raw : List UInt8) (p : CompatPacket) :
    parsePacket raw = .ok p ↔ (1 ≤ raw.length ∧ raw.length ≤ maxCompatFrameLen) ∧
      ∃ fs, IsMessage limits raw fs ∧ PacketOk fs ∧ Shape fs ∧ p = packetOf fs := by
  unfold parsePacket
  by_cases hnil : raw = []
  · rw [if_pos hnil]
    refine ⟨nofun, fun h => ?_⟩
    rw [hnil] at h
    exact absurd h.1.1 (Nat.not_succ_le_zero 0)
  by_cases hlong : raw.length > maxCompatFrameLen
  · rw [if_neg hnil, if_pos hlong]
    exact ⟨nofun, fun h => absurd h.1.2 (Nat.not_le.mpr hlong)⟩
  rw [if_neg hnil, if_neg hlong, and_iff_right ⟨List.length_pos_iff.mpr hnil, Nat.not_lt.mp hlong⟩]
  have hfold := fold_packet raw
  cases hrun : protoFields.fold packetStep raw 0 .blank with
  | error e =>
      refine ⟨nofun, ?_⟩
      rintro ⟨fs, hfs, hok, -, -⟩
      exact nomatch hrun.symm.trans ((hfold _).mpr ⟨fs, hfs, hok, rfl⟩)
  | ok pkt =>
      obtain ⟨fs, hfs, hok, rfl⟩ := (hfold pkt).mp hrun
      have hshape := shape_iff hok
      show ((if (packetOf fs).data.isSome && (packetOf fs).encrypted then .error (.error .bothDecodedAndEncrypted)
        else if (packetOf fs).data.isNone && !(packetOf fs).encrypted then
          .error (.error .neitherDecodedNorEncrypted)
        else .ok (packetOf fs)) : Except Stop CompatPacket) = .ok p ↔ _
      constructor
      · intro h
        split at h
        · cases h
        rename_i hboth
        split at h
        · cases h
        rename_i hneither
        exact ⟨fs, hfs, hok, hshape.mpr ⟨Bool.eq_false_iff.mpr hboth, Bool.eq_false_iff.mpr hneither⟩,
          (Except.ok.inj h).symm⟩
      · rintro ⟨gs, hgs, -, hs, rfl⟩
        obtain rfl := hfs.unique hgs
        obtain ⟨hboth, hneither⟩ := hshape.mp hs
        rw [if_neg (Bool.eq_false_iff.mp hboth), if_neg (Bool.eq_false_iff.mp hneither)]

theorem payload_within {b : List UInt8} {gs : List WireField} (h : IsMessage limits b gs) :
    (dataOf gs).payload <:+: b := by
  show (lastOf (bytesAt 2) gs).getD [] <:+: b
  cases hlast : lastOf (bytesAt 2) gs with
  | none => exact List.nil_infix
  | some c => exact h.bytes_within (lastOf_mem hlast)

/-- An envelope within a text is not too long for the parser. -/
theorem parseData_within {b raw : List UInt8} (hb : b <:+: raw) (hraw : raw.length ≤ maxCompatFrameLen) (d : CompatData) :
    parseData b = .ok d ↔ ∃ gs, IsMessage limits b gs ∧ DataOk gs ∧ d = dataOf gs := by
  rw [parseData_ok]
  refine exists_congr fun gs => ⟨fun ⟨h₁, h₂, _, h₃⟩ => ⟨h₁, h₂, h₃⟩, fun ⟨h₁, h₂, h₃⟩ => ⟨h₁, h₂, ?_, h₃⟩⟩
  exact Nat.le_trans ((payload_within h₁).trans hb).length_le hraw

theorem accepted_iff {raw : List UInt8} {fs : List WireField} :
    Accepted raw fs ↔ (1 ≤ raw.length ∧ raw.length ≤ maxCompatFrameLen) ∧ IsMessage limits raw fs ∧ PacketOk fs ∧
      Shape fs := by
  constructor
  · rintro ⟨hlen, hfs, hrssi, hdata, hshape⟩
    refine ⟨hlen, hfs, ⟨hrssi, ?_, fun b hb => ?_⟩, hshape⟩
    · rcases hshape with ⟨hone, -⟩ | ⟨hnone, -⟩
      · exact Nat.le_of_eq hone
      · rw [hnone]
        exact Nat.zero_le 1
    · obtain ⟨gs, hgs, hok⟩ := hdata b hb
      exact ⟨_, (parseData_within (hfs.bytes_within hb) hlen.2 _).mpr ⟨gs, hgs, hok, rfl⟩⟩
  · rintro ⟨hlen, hfs, hok, hshape⟩
    refine ⟨hlen, hfs, hok.rssi, fun b hb => ?_, hshape⟩
    obtain ⟨d, hd⟩ := hok.data b hb
    obtain ⟨gs, hgs, hone, -⟩ := (parseData_within (hfs.bytes_within hb) hlen.2 d).mp hd
    exact ⟨gs, hgs, hone⟩

theorem parsePacket_accepted {raw : List UInt8} {p : CompatPacket} :
    parsePacket raw = .ok p ↔ ∃ fs, Accepted raw fs ∧ p = packetOf fs := by
  rw [parsePacket_ok]
  constructor
  · rintro ⟨hlen, fs, hfs, hok, hshape, hp⟩
    exact ⟨fs, accepted_iff.mpr ⟨hlen, hfs, hok, hshape⟩, hp⟩
  · rintro ⟨fs, h, hp⟩
    obtain ⟨hlen, hfs, hok, hshape⟩ := accepted_iff.mp h
    exact ⟨hlen, fs, hfs, hok, hshape, hp⟩

/-- The envelope of a packet that is accepted is that of the fields of its text. -/
theorem packetOf_data {raw b : List UInt8} {fs gs : List WireField} (h : Accepted raw fs)
    (hb : b ∈ fs.filterMap (bytesAt 4)) (hgs : IsMessage limits b gs) : (packetOf fs).data = some (dataOf gs) := by
  have hlast : lastOf (bytesAt 4) fs = some b := by
    rcases h.shape with ⟨hone, -⟩ | ⟨hnone, -⟩
    · obtain ⟨c, hc⟩ := List.length_eq_one_iff.mp hone
      rw [hc] at hb
      obtain rfl := List.mem_singleton.mp hb
      rw [lastOf, hc]
      rfl
    · rw [hnone] at hb
      cases hb
  show (lastOf (bytesAt 4) fs).map envelope = _
  rw [hlast, Option.map_some, envelope, readMessage_iff.mpr hgs, Option.getD_some]

/-- **The grammar.**  The parser accepts just the texts of the grammar, and never panics.  A packet holds
the last value of each field, the port number up to the largest `u32`, and its payload is bytes of the
text. -/
theorem parsePacket_exact (raw : List UInt8) :
    parsePacket raw ≠ .error .panic ∧ ((∃ p, parsePacket raw = .ok p) ↔ ∃ fs, Accepted raw fs) ∧
      ∀ p, parsePacket raw = .ok p → ∃ fs, Accepted raw fs ∧ p = packetOf fs ∧
        ∀ b ∈ fs.filterMap (bytesAt 4), ∃ gs, IsMessage limits b gs ∧ p.data = some (dataOf gs) ∧
          (dataOf gs).payload <:+: raw := by
  refine ⟨parsePacket_ne_panic raw, ⟨?_, ?_⟩, fun p hp => ?_⟩
  · rintro ⟨p, hp⟩
    obtain ⟨fs, h, -⟩ := parsePacket_accepted.mp hp
    exact ⟨fs, h⟩
  · rintro ⟨fs, h⟩
    exact ⟨_, parsePacket_accepted.mpr ⟨fs, h, rfl⟩⟩
  · obtain ⟨fs, h, rfl⟩ := parsePacket_accepted.mp hp
    refine ⟨fs, h, rfl, fun b hb => ?_⟩
    obtain ⟨gs, hgs, -⟩ := h.data b hb
    exact ⟨gs, hgs, packetOf_data h hb hgs, (payload_within hgs).trans (h.message.bytes_within hb)⟩

/-- An envelope whose one field is the port number 2³². -/
def wideData : List UInt8 := [0x08, 0x80, 0x80, 0x80, 0x80, 0x10]

theorem wideData_message : IsMessage limits wideData [(1, .varint (2 ^ 32))] := by
  have htag : limits.Varint [0x08] (8 * 1) := ⟨.last (by decide), by decide, by decide⟩
  have hport : limits.Varint [0x80, 0x80, 0x80, 0x80, 0x10] (2 ^ 32) :=
    ⟨.more (by decide) (.more (by decide) (.more (by decide) (.more (by decide) (.last (by decide))))),
      by decide, by decide⟩
  exact .cons (.varint htag (by decide) hport) .nil

/-- The port number of a packet is not always that of its field. -/
theorem portnum_saturates :
    IsMessage limits (0x22 :: 0x06 :: wideData) [(4, .bytes wideData)] ∧
      IsMessage limits wideData [(1, .varint (2 ^ 32))] ∧
      ∃ p d, parsePacket (0x22 :: 0x06 :: wideData) = .ok p ∧ p.data = some d ∧ d.portnum = 2 ^ 32 - 1 := by
  have htag : limits.Varint [0x22] (8 * 4 + 2) := ⟨.last (by decide), by decide, by decide⟩
  have hlen : limits.Varint [0x06] wideData.length := ⟨.last (by decide), by decide, by decide⟩
  have hmessage : IsMessage limits (0x22 :: 0x06 :: wideData) [(4, .bytes wideData)] :=
    .cons (.bytes htag (by decide) hlen) .nil
  have haccepted : Accepted (0x22 :: 0x06 :: wideData) [(4, .bytes wideData)] :=
    { length := by decide
      message := hmessage
      rssi := nofun
      data := fun b hb => by
        obtain rfl := List.mem_singleton.mp hb
        exact ⟨_, wideData_message, Nat.zero_le 1⟩
      shape := .inl ⟨rfl, rfl⟩ }
  refine ⟨hmessage, wideData_message, _, _, parsePacket_accepted.mpr ⟨_, haccepted, rfl⟩,
    packetOf_data haccepted (List.mem_singleton_self _) wideData_message, ?_⟩
  decide

end Compat

end LoraMesh
