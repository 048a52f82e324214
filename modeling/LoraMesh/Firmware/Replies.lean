import LoraMesh.Lib.Json
import LoraMesh.Firmware.World

/-!
# Firmware — Replies

The lines that the runtime writes itself (`firmware/src/runtime.rs`): errors, the two ends of a send
and the result of a ping.  Each is put together in a small buffer from pieces, and a piece that does
not fit is left out.

* `pushAll_isObject`: the line is the whole object exactly when the object fits the buffer.
* `replies_complete`: for which ids that is.
-/

namespace LoraMesh

/-- `code.as_bytes()`. -/
def ErrCode.text : ErrCode → List UInt8
  | .busy => ascii "BUSY"
  | .channelBusy => ascii "CHANNEL_BUSY"
  | .contactBlocked => ascii "CONTACT_BLOCKED"
  | .timeUnset => ascii "TIME_UNSET"
  | .timeRollback => ascii "TIME_ROLLBACK"
  | .timeJumpNeedsConfirm => ascii "TIME_JUMP_NEEDS_CONFIRM"
  | .storageFault => ascii "STORAGE_FAULT"
  | .radioMustBeOff => ascii "RADIO_MUST_BE_OFF"
  | .radioUnavailable => ascii "RADIO_UNAVAILABLE"
  | .badRequest => ascii "BAD_REQUEST"
  | .unknownOp => ascii "UNKNOWN_OP"
  | .unprovisioned => ascii "UNPROVISIONED"
  | .lineTooLong => ascii "LINE_TOO_LONG"
  | .alreadyProvisioned => ascii "ALREADY_PROVISIONED"
  | .sasMismatch => ascii "SAS_MISMATCH"
  | .radio => ascii "RADIO"

/-- The digits of `v`, the last first, in front of `out`; at most `i` of them. -/
def formatU64From : ℕ → UInt64 → List UInt8 → List UInt8
  | 0, _, out => out
  | i + 1, v, out =>
    if v > 0 then formatU64From i (v / 10) ((48 + (v % 10).toUInt8) :: out) else out

def formatU64 (v : UInt64) : List UInt8 := if v = 0 then [48] else formatU64From 20 v []

/-- Append a piece to a buffer of `cap` bytes, if it fits. -/
def push (cap : ℕ) (buf s : List UInt8) : List UInt8 :=
  if buf.length + s.length ≤ cap then buf ++ s else buf

def pushAll (cap : ℕ) (pieces : List (List UInt8)) : List UInt8 := pieces.foldl (push cap) []

def renderErr (id : UInt64) (code : ErrCode) : List UInt8 :=
  pushAll 64 [ascii "\x7b\"id\":", formatU64 id, ascii ",\"ok\":false,\"error\":\"", code.text, ascii "\"\x7d"]

def emitAcknowledged (id : UInt64) : List UInt8 :=
  pushAll 64 [ascii "\x7b\"id\":", formatU64 id,
    ascii ",\"ok\":true,\"result\":\x7b\"status\":\"ACKNOWLEDGED\"\x7d\x7d"]

def emitUnconfirmed (id : UInt64) : List UInt8 :=
  pushAll 64 [ascii "\x7b\"id\":", formatU64 id,
    ascii ",\"ok\":true,\"result\":\x7b\"status\":\"UNCONFIRMED\"\x7d\x7d"]

def emitPing (id : UInt64) (probes clear : UInt8) : List UInt8 :=
  pushAll 96 [ascii "\x7b\"id\":", formatU64 id, ascii ",\"ok\":true,\"result\":\x7b\"probes\":",
    formatU64 probes.toUInt64, ascii ",\"clear\":", formatU64 clear.toUInt64, ascii "\x7d\x7d"]

/-! ### The buffer -/

theorem length_pushAll (cap : ℕ) (pieces : List (List UInt8)) :
    ∀ buf : List UInt8, buf.length ≤ cap → (pieces.foldl (push cap) buf).length ≤ cap := by
  induction pieces with
  | nil => exact fun _ h => h
  | cons s pieces ih =>
      intro buf h
      refine ih (push cap buf s) ?_
      unfold push
      split
      · rwa [List.length_append]
      · exact h

/-- Pieces that fit all together are all there. -/
theorem foldl_push {cap : ℕ} : ∀ (pieces : List (List UInt8)) (buf : List UInt8),
    (buf ++ pieces.flatten).length ≤ cap → pieces.foldl (push cap) buf = buf ++ pieces.flatten
  | [], buf, _ => (List.append_nil buf).symm
  | s :: pieces, buf, h => by
      rw [List.flatten_cons, ← List.append_assoc] at h ⊢
      have hs : buf.length + s.length ≤ cap := by
        rw [List.length_append, List.length_append] at h
        omega
      rw [List.foldl_cons, push, if_pos hs]
      exact foldl_push pieces (buf ++ s) h

/-- The line is the whole object exactly when the object fits the buffer. -/
theorem pushAll_isObject {cap : ℕ} {pieces : List (List UInt8)} {fields : List (Plain × Json)}
    (h : pieces.flatten = Json.text (.obj fields)) :
    Json.IsObject (pushAll cap pieces) fields ↔ (Json.text (.obj fields)).length ≤ cap := by
  constructor
  · intro hobj
    rw [← Json.length_of_isObject hobj]
    exact length_pushAll cap pieces [] (Nat.zero_le cap)
  · intro hfit
    rw [pushAll, foldl_push pieces [] (by rwa [List.nil_append, h]), List.nil_append, h]
    exact Json.isObject_self fields

/-! ### Numbers -/

theorem formatU64From_eq (i : ℕ) : ∀ (v : UInt64) (out : List UInt8), v.toNat < 10 ^ i →
    formatU64From i v out = ((Nat.digits 10 v.toNat).map fun d => UInt8.ofNat (48 + d)).reverse ++ out := by
  induction i with
  | zero =>
      intro v out h
      have hv : v.toNat = 0 := by simpa using h
      simp [formatU64From, hv]
  | succ i ih =>
      intro v out h
      rw [formatU64From]
      by_cases hv : v > 0
      · have hpos : 0 < v.toNat := UInt64.lt_iff_toNat_lt.mp hv
        have hdiv : (v / 10).toNat = v.toNat / 10 := UInt64.toNat_div v 10
        have hdigit : 48 + (v % 10).toUInt8 = UInt8.ofNat (48 + v.toNat % 10) := by
          apply UInt8.toNat_inj.mp
          rw [UInt8.toNat_add, UInt64.toNat_toUInt8, UInt64.toNat_mod, UInt8.toNat_ofNat']
          show (48 + v.toNat % 10 % 256) % 256 = _
          omega
        rw [if_pos hv, ih _ _ (by rw [hdiv]; omega), hdiv, hdigit, Nat.digits_def' (by decide) hpos]
        simp
      · have hzero : v.toNat = 0 := Nat.eq_zero_of_not_pos fun hpos => hv (UInt64.lt_iff_toNat_lt.mpr hpos)
        rw [if_neg hv, hzero]
        simp

/-- Twenty digits are enough for every id. -/
theorem formatU64_eq (v : UInt64) : formatU64 v = decimal v.toNat := by
  unfold formatU64 decimal
  by_cases hv : v = 0
  · simp [hv]
  · have hne : v.toNat ≠ 0 := fun h => hv (UInt64.toNat_inj.mp h)
    have hlt : v.toNat < 10 ^ 20 := Nat.lt_trans v.toNat_lt (by decide)
    rw [if_neg hv, if_neg hne, formatU64From_eq 20 v [] hlt, List.append_nil]

/-! ### The objects -/

def keyId : Plain := ⟨ascii "id", rfl⟩

def keyOk : Plain := ⟨ascii "ok", rfl⟩

def keyError : Plain := ⟨ascii "error", rfl⟩

def keyResult : Plain := ⟨ascii "result", rfl⟩

def ErrCode.plain (code : ErrCode) : Plain := ⟨code.text, by cases code <;> rfl⟩

/-- The fields of an error. -/
def errorFields (id : UInt64) (code : ErrCode) : List (Plain × Json) :=
  [(keyId, .num id.toNat), (keyOk, .bool false), (keyError, .str code.plain)]

/-- The fields of a result. -/
def resultFields (id : UInt64) (result : List (Plain × Json)) : List (Plain × Json) :=
  [(keyId, .num id.toNat), (keyOk, .bool true), (keyResult, .obj result)]

/-- How a send ended. -/
def statusFields (status : Plain) : List (Plain × Json) := [(⟨ascii "status", rfl⟩, .str status)]

/-- What a ping found. -/
def probeFields (probes clear : UInt8) : List (Plain × Json) :=
  [(⟨ascii "probes", rfl⟩, .num probes.toNat), (⟨ascii "clear", rfl⟩, .num clear.toNat)]

/-- What every line begins with. -/
theorem ascii_open : ascii "\x7b\"id\":" = 0x7b :: (Json.quoted keyId ++ [0x3a]) := rfl

theorem text_errorFields (id : UInt64) (code : ErrCode) :
    [ascii "\x7b\"id\":", formatU64 id, ascii ",\"ok\":false,\"error\":\"", code.text, ascii "\"\x7d"].flatten =
      Json.text (.obj (errorFields id code)) := by
  have hmid : ascii ",\"ok\":false,\"error\":\"" = 0x2c :: (Json.quoted keyOk ++ 0x3a :: (ascii "false" ++
      0x2c :: (Json.quoted keyError ++ [0x3a, 0x22]))) := rfl
  have hend : ascii "\"\x7d" = [0x22, 0x7d] := rfl
  have hcode : Json.quoted code.plain = 0x22 :: (code.text ++ [0x22]) := rfl
  simp only [errorFields, Json.text, Json.members, formatU64_eq, ascii_open, hmid, hend, hcode]
  simp

theorem text_resultFields (id : UInt64) {piece : List UInt8} {result : List (Plain × Json)}
    (h : piece = 0x2c :: (Json.quoted keyOk ++ 0x3a :: (ascii "true" ++ 0x2c :: (Json.quoted keyResult ++
      0x3a :: (Json.text (.obj result) ++ [0x7d]))))) :
    [ascii "\x7b\"id\":", formatU64 id, piece].flatten = Json.text (.obj (resultFields id result)) := by
  subst h
  simp only [resultFields, Json.text, Json.members, formatU64_eq, ascii_open]
  simp

theorem text_acknowledged (id : UInt64) :
    [ascii "\x7b\"id\":", formatU64 id,
      ascii ",\"ok\":true,\"result\":\x7b\"status\":\"ACKNOWLEDGED\"\x7d\x7d"].flatten =
      Json.text (.obj (resultFields id (statusFields ⟨ascii "ACKNOWLEDGED", rfl⟩))) :=
  text_resultFields id rfl

theorem text_unconfirmed (id : UInt64) :
    [ascii "\x7b\"id\":", formatU64 id,
      ascii ",\"ok\":true,\"result\":\x7b\"status\":\"UNCONFIRMED\"\x7d\x7d"].flatten =
      Json.text (.obj (resultFields id (statusFields ⟨ascii "UNCONFIRMED", rfl⟩))) :=
  text_resultFields id rfl

theorem text_ping (id : UInt64) (probes clear : UInt8) :
    [ascii "\x7b\"id\":", formatU64 id, ascii ",\"ok\":true,\"result\":\x7b\"probes\":",
      formatU64 probes.toUInt64, ascii ",\"clear\":", formatU64 clear.toUInt64, ascii "\x7d\x7d"].flatten =
      Json.text (.obj (resultFields id (probeFields probes clear))) := by
  have hmid : ascii ",\"ok\":true,\"result\":\x7b\"probes\":" = 0x2c :: (Json.quoted keyOk ++ 0x3a ::
      (ascii "true" ++ 0x2c :: (Json.quoted keyResult ++ 0x3a :: 0x7b ::
        (Json.quoted ⟨ascii "probes", rfl⟩ ++ [0x3a])))) := rfl
  have hclear : ascii ",\"clear\":" = 0x2c :: (Json.quoted ⟨ascii "clear", rfl⟩ ++ [0x3a]) := rfl
  have hend : ascii "\x7d\x7d" = [0x7d, 0x7d] := rfl
  simp only [resultFields, probeFields, Json.text, Json.members, formatU64_eq, ascii_open, hmid, hclear, hend]
  simp

/-! ### Which ids fit -/

theorem length_error (id : UInt64) (code : ErrCode) :
    (Json.text (.obj (errorFields id code))).length = (decimal id.toNat).length + code.text.length + 29 := by
  have hopen : (ascii "\x7b\"id\":").length = 6 := rfl
  have hmid : (ascii ",\"ok\":false,\"error\":\"").length = 21 := rfl
  have hend : (ascii "\"\x7d").length = 2 := rfl
  rw [← text_errorFields, formatU64_eq]
  simp only [List.length_flatten, List.map_cons, List.map_nil, List.sum_cons, List.sum_nil, hopen, hmid, hend]
  omega

theorem length_acknowledged (id : UInt64) :
    (Json.text (.obj (resultFields id (statusFields ⟨ascii "ACKNOWLEDGED", rfl⟩)))).length =
      (decimal id.toNat).length + 52 := by
  have hopen : (ascii "\x7b\"id\":").length = 6 := rfl
  have hend : (ascii ",\"ok\":true,\"result\":\x7b\"status\":\"ACKNOWLEDGED\"\x7d\x7d").length = 46 := rfl
  rw [← text_acknowledged, formatU64_eq]
  simp only [List.length_flatten, List.map_cons, List.map_nil, List.sum_cons, List.sum_nil, hopen, hend]
  omega

theorem length_unconfirmed (id : UInt64) :
    (Json.text (.obj (resultFields id (statusFields ⟨ascii "UNCONFIRMED", rfl⟩)))).length =
      (decimal id.toNat).length + 51 := by
  have hopen : (ascii "\x7b\"id\":").length = 6 := rfl
  have hend : (ascii ",\"ok\":true,\"result\":\x7b\"status\":\"UNCONFIRMED\"\x7d\x7d").length = 45 := rfl
  rw [← text_unconfirmed, formatU64_eq]
  simp only [List.length_flatten, List.map_cons, List.map_nil, List.sum_cons, List.sum_nil, hopen, hend]
  omega

theorem length_ping (id : UInt64) (probes clear : UInt8) :
    (Json.text (.obj (resultFields id (probeFields probes clear)))).length =
      (decimal id.toNat).length + (decimal probes.toNat).length + (decimal clear.toNat).length + 47 := by
  have hopen : (ascii "\x7b\"id\":").length = 6 := rfl
  have hmid : (ascii ",\"ok\":true,\"result\":\x7b\"probes\":").length = 30 := rfl
  have hclear : (ascii ",\"clear\":").length = 9 := rfl
  have hend : (ascii "\x7d\x7d").length = 2 := rfl
  rw [← text_ping, formatU64_eq, formatU64_eq, formatU64_eq]
  simp only [List.length_flatten, List.map_cons, List.map_nil, List.sum_cons, List.sum_nil, hopen, hmid, hclear,
    hend, UInt8.toNat_toUInt64]
  omega

theorem length_code (code : ErrCode) : code.text.length ≤ 23 := by
  cases code <;> decide

/-- **Complete replies.**  An error is a whole object, with its id and code, exactly when both fit the
buffer; an acknowledged send exactly for the ids of twelve digits, an unconfirmed one for those of
thirteen; a ping always. -/
theorem replies_complete (id : UInt64) :
    (∀ code : ErrCode, Json.IsObject (renderErr id code) (errorFields id code) ↔
      id.toNat < 10 ^ (35 - code.text.length)) ∧
    (Json.IsObject (emitAcknowledged id) (resultFields id (statusFields ⟨ascii "ACKNOWLEDGED", rfl⟩)) ↔
      id.toNat < 10 ^ 12) ∧
    (Json.IsObject (emitUnconfirmed id) (resultFields id (statusFields ⟨ascii "UNCONFIRMED", rfl⟩)) ↔
      id.toNat < 10 ^ 13) ∧
    ∀ probes clear : UInt8,
      Json.IsObject (emitPing id probes clear) (resultFields id (probeFields probes clear)) := by
  have hdigits (k : ℕ) (hk : 1 ≤ k) : (decimal id.toNat).length ≤ k ↔ id.toNat < 10 ^ k := length_decimal_le hk
  refine ⟨fun code => ?_, ?_, ?_, fun probes clear => ?_⟩
  · have hcode := length_code code
    rw [renderErr, pushAll_isObject (text_errorFields id code), length_error, ← hdigits _ (by omega)]
    omega
  · rw [emitAcknowledged, pushAll_isObject (text_acknowledged id), length_acknowledged, ← hdigits 12 (by decide)]
    omega
  · rw [emitUnconfirmed, pushAll_isObject (text_unconfirmed id), length_unconfirmed, ← hdigits 13 (by decide)]
    omega
  · -- twenty digits and two counts of three
    have hid := (hdigits 20 (by decide)).mpr (Nat.lt_trans id.toNat_lt (by decide))
    have hprobes : (decimal probes.toNat).length ≤ 3 :=
      (length_decimal_le (by decide)).mpr (Nat.lt_trans probes.toNat_lt (by decide))
    have hclear : (decimal clear.toNat).length ≤ 3 :=
      (length_decimal_le (by decide)).mpr (Nat.lt_trans clear.toNat_lt (by decide))
    rw [emitPing, pushAll_isObject (text_ping id probes clear), length_ping]
    omega

/-- The reply to an acknowledged send is cut where the id has thirteen digits. -/
theorem emitAcknowledged_cut :
    ¬ Json.IsObject (emitAcknowledged 1000000000000)
      (resultFields 1000000000000 (statusFields ⟨ascii "ACKNOWLEDGED", rfl⟩)) := by
  have hlong : ¬ (decimal (1000000000000 : UInt64).toNat).length ≤ 12 := by
    rw [length_decimal_le (by decide)]
    decide
  rw [emitAcknowledged, pushAll_isObject (text_acknowledged _), length_acknowledged]
  omega

end LoraMesh
