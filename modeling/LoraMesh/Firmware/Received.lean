import LoraMesh.Lib.JsonParse
import LoraMesh.Core.Frame
import LoraMesh.Core.Pairing
import LoraMesh.Firmware.Replies

/-!
# Firmware — Received

The event for a message that has arrived (`firmware/src/usb.rs`, `reply_received`), written piece by
piece into a fixed buffer.

* `JsonWriter`: the buffer; what is written always fits.
* `escapeFrom_parses`: a string that has been escaped stands for the text it was made from.
* `received_parses`: the event is an object of JSON that holds the arguments.
-/

namespace LoraMesh

/-! ### The writer -/

/-- A buffer of `cap` bytes, and what has been written to it. -/
structure JsonWriter where
  cap : ℕ
  out : List UInt8
  fits : out.length ≤ cap

namespace JsonWriter

def new (cap : ℕ) : JsonWriter := ⟨cap, [], Nat.zero_le cap⟩

def raw (w : JsonWriter) (bytes : List UInt8) : Option JsonWriter :=
  if h : (w.out ++ bytes).length ≤ w.cap then some ⟨w.cap, w.out ++ bytes, h⟩ else none

def num (w : JsonWriter) (v : UInt64) : Option JsonWriter := w.raw (formatU64 v)

/-- A byte that does not lead a sequence, as a string holds it. -/
def escape (b : UInt8) : List UInt8 :=
  if b = 0x22 then ascii "\\\""
  else if b = 0x5c then ascii "\\\\"
  else if b = 0x0a then ascii "\\n"
  else if b = 0x0d then ascii "\\r"
  else if b = 0x09 then ascii "\\t"
  else if b = 0x08 then ascii "\\b"
  else if b = 0x0c then ascii "\\f"
  else if 0x20 ≤ b ∧ b ≤ 0x7E then [b]
  else ascii "\\u00" ++ [hexDigit (b >>> 4), hexDigit (b &&& 0x0F)]

/-- The bytes from `i` on: a sequence passes as it is, its length by its first byte. -/
def escapeFrom (w : JsonWriter) (l : List UInt8) : Option JsonWriter :=
  match l with
  | [] => some w
  | b :: l =>
    if 0xC2 ≤ b ∧ b ≤ 0xF4 then
      let len := if b ≥ 0xF0 then 4 else if b ≥ 0xE0 then 3 else 2
      -- `bytes.get(i..end)?`
      if l.length + 1 < len then none
      else do
        let w ← w.raw ((b :: l).take len)
        w.escapeFrom (l.drop (len - 1))
    else do
      let w ← w.raw (escape b)
      w.escapeFrom l
termination_by l.length
decreasing_by
  · rw [List.length_drop, List.length_cons]
    omega
  · exact Nat.lt_succ_self _

def quotedEscaped (w : JsonWriter) (bytes : List UInt8) : Option JsonWriter := do
  let w ← w.raw (ascii "\"")
  let w ← w.escapeFrom bytes
  w.raw (ascii "\"")

end JsonWriter

/-- `reply_received` into a buffer of `cap` bytes. -/
def replyReceived (contactId : UInt8) (epoch : UInt32) (sequence : UInt64) (text : List UInt8) (cap : ℕ) :
    Option (List UInt8) := do
  let w ← (JsonWriter.new cap).raw (ascii "\x7b\"event\":\"received\",\"contact_id\":")
  let w ← w.num contactId.toUInt64
  let w ← w.raw (ascii ",\"epoch\":")
  let w ← w.num epoch.toUInt64
  let w ← w.raw (ascii ",\"sequence\":")
  let w ← w.num sequence
  let w ← w.raw (ascii ",\"text\":")
  if fromUtf8 text then
    let w ← w.quotedEscaped text
    let w ← w.raw (ascii "\x7d")
    return w.out
  else none

/-! ### Characters -/

theorem fromUtf8_split {l : List UInt8} (hl : l ≠ []) (h : fromUtf8 l = true) :
    ∃ c r, utf8Split l = some (c, r) ∧ fromUtf8 r = true := by
  obtain ⟨b₀, l, rfl⟩ := List.exists_cons_of_ne_nil hl
  unfold fromUtf8 at h
  split at h
  · rename_i h0
    exact ⟨_, _, utf8Split_ascii h0, h⟩
  rename_i h0
  split at h
  · cases h
  split at h
  · rename_i htwo
    rw [Bool.and_eq_true] at h
    exact ⟨_, _, by simp only [utf8Split, if_neg h0, if_pos htwo]; exact if_pos h.1, h.2⟩
  rename_i htwo
  split at h
  · cases h
  split at h
  · rename_i hthree
    rw [Bool.and_eq_true] at h
    exact ⟨_, _, by simp only [utf8Split, if_neg h0, if_neg htwo, if_pos hthree]; exact if_pos h.1, h.2⟩
  rename_i hthree
  split at h
  · cases h
  rw [Bool.and_eq_true] at h
  exact ⟨_, _, by simp only [utf8Split, if_neg h0, if_neg htwo, if_neg hthree]; exact if_pos h.1, h.2⟩

/-- What the check lets through is made of whole characters. -/
theorem isUtf8_of_fromUtf8 {l : List UInt8} (h : fromUtf8 l = true) : IsUtf8 l := by
  induction hn : l.length using Nat.strong_induction_on generalizing l with
  | _ n ih =>
      by_cases hl : l = []
      · rw [hl]
        exact .nil
      · obtain ⟨c, r, hsplit, hr⟩ := fromUtf8_split hl h
        exact .char hsplit (ih r.length (hn ▸ utf8Split_length hsplit) hr rfl)

/-! ### Escapes -/

namespace JsonWriter

theorem raw_ok (w : JsonWriter) (bytes : List UInt8) (h : w.out.length + bytes.length ≤ w.cap) :
    ∃ w', w.raw bytes = some w' ∧ w'.out = w.out ++ bytes ∧ w'.cap = w.cap :=
  ⟨_, dif_pos (by rwa [List.length_append]), rfl, rfl⟩

/-- An escape is short, and stands for its byte. -/
theorem escape_parses {b : UInt8} (hb : b < 0x80) :
    (escape b).length ≤ 6 ∧
      ∀ rest, parseChars (escape b ++ rest) = (parseChars rest).map fun r => (b :: r.1, r.2) := by
  have hnamed {e : UInt8} (h : ∀ rest, parseEscape (e :: rest) = some ([b], rest)) (rest : List UInt8) :
      parseChars ([0x5c, e] ++ rest) = (parseChars rest).map fun r => (b :: r.1, r.2) :=
    parseChars_escape (h rest)
  unfold escape
  split
  · rename_i h
    subst h
    exact ⟨by decide, hnamed fun _ => rfl⟩
  rename_i hquote
  split
  · rename_i h
    subst h
    exact ⟨by decide, hnamed fun _ => rfl⟩
  rename_i hescape
  split
  · rename_i h
    subst h
    exact ⟨by decide, hnamed fun _ => rfl⟩
  split
  · rename_i h
    subst h
    exact ⟨by decide, hnamed fun _ => rfl⟩
  split
  · rename_i h
    subst h
    exact ⟨by decide, hnamed fun _ => rfl⟩
  split
  · rename_i h
    subst h
    exact ⟨by decide, hnamed fun _ => rfl⟩
  split
  · rename_i h
    subst h
    exact ⟨by decide, hnamed fun _ => rfl⟩
  split
  · rename_i hplain
    exact ⟨Nat.succ_le_succ (Nat.zero_le 5), fun rest =>
      parseChars_char hquote hescape (UInt8.not_lt.mpr hplain.1) (utf8Split_ascii hb)⟩
  · -- the other controls, by their code unit
    have htable : ∀ i : Fin 128, hex4 0x30 0x30 (hexDigit (UInt8.ofNat i.1 >>> 4))
        (hexDigit (UInt8.ofNat i.1 &&& 0x0F)) = some i.1 ∧
          String.utf8EncodeChar (Char.ofNat i.1) = [UInt8.ofNat i.1] := by decide +kernel
    obtain ⟨hhex, hchar⟩ := htable ⟨b.toNat, UInt8.lt_iff_toNat_lt.mp hb⟩
    rw [UInt8.ofNat_toNat] at hhex hchar
    have hlt : b.toNat < 128 := UInt8.lt_iff_toNat_lt.mp hb
    have hunit (rest : List UInt8) : parseEscape (0x75 :: 0x30 :: 0x30 :: hexDigit (b >>> 4) ::
        hexDigit (b &&& 0x0F) :: rest) = some ([b], rest) := by
      show (hex4 0x30 0x30 _ _).bind _ = _
      rw [hhex, Option.bind_some]
      unfold parseUnit
      rw [if_neg (by omega), if_neg (by omega), hchar]
    exact ⟨Nat.le_refl 6, fun rest => parseChars_escape (hunit rest)⟩

/-- A sequence passes as it is. -/
theorem escapeFrom_char {w : JsonWriter} {l c r : List UInt8} {b : UInt8} (h : l = c ++ r) (hc : c.head? = some b)
    (hlow : 0xC2 ≤ b) (hhigh : b ≤ 0xF4) (hlen : c.length = utf8Width b) :
    w.escapeFrom l = (w.raw c).bind fun w => w.escapeFrom r := by
  obtain ⟨t, rfl⟩ : ∃ t, c = b :: t := by
    cases c with
    | nil => cases hc
    | cons d t => exact ⟨t, by rw [Option.some.inj hc]⟩
  subst h
  have hwidth : (if b ≥ 0xF0 then 4 else if b ≥ 0xE0 then 3 else 2) = t.length + 1 := hlen.symm
  rw [List.cons_append, escapeFrom, if_pos ⟨hlow, hhigh⟩]
  simp only [hwidth, Nat.add_sub_cancel, List.drop_left, List.length_append, List.take_succ_cons, List.take_left]
  rw [if_neg (by omega)]
  rfl

theorem escapeFrom_ascii {w : JsonWriter} {b : UInt8} {l : List UInt8} (hb : b < 0x80) :
    w.escapeFrom (b :: l) = (w.raw (escape b)).bind fun w => w.escapeFrom l := by
  have hlead : ¬ (0xC2 ≤ b ∧ b ≤ 0xF4) := fun h =>
    absurd (UInt8.lt_of_le_of_lt h.1 hb) (by decide)
  rw [escapeFrom, if_neg hlead]
  rfl

/-- A string that has been escaped stands for the text it was made from. -/
theorem escapeFrom_parses {l : List UInt8} (hl : IsUtf8 l) :
    ∀ w : JsonWriter, w.out.length + 6 * l.length ≤ w.cap → ∃ w' s, w.escapeFrom l = some w' ∧
      w'.out = w.out ++ s ∧ w'.cap = w.cap ∧ s.length ≤ 6 * l.length ∧
        ∀ rest, parseChars (s ++ 0x22 :: rest) = some (l, rest) := by
  induction hl with
  | nil =>
      intro w _
      exact ⟨w, [], by rw [escapeFrom], (List.append_nil _).symm, rfl, Nat.zero_le _, parseChars_quote⟩
  | @char l c r h hr ih =>
      intro w hfit
      obtain ⟨hsplit, hagain, hkind⟩ := utf8Split_some h
      -- one character, as the piece `p`
      obtain ⟨p, hstep, hp, hparse⟩ : ∃ p, w.escapeFrom l = ((w.raw p).bind fun w => w.escapeFrom r) ∧
          p.length ≤ 6 * c.length ∧
          ∀ rest, parseChars (p ++ rest) = (parseChars rest).map fun r => (c ++ r.1, r.2) := by
        rcases hkind with ⟨b, rfl, hb⟩ | ⟨b, t, rfl, hlow, hhigh, hlen⟩
        · exact ⟨escape b, hsplit ▸ escapeFrom_ascii hb, escape_parses hb⟩
        · have hquote : b ≠ 0x22 := by
            rintro rfl
            exact absurd hlow (by decide)
          have hescape : b ≠ 0x5c := by
            rintro rfl
            exact absurd hlow (by decide)
          have hcontrol : ¬ b < 0x20 := fun h => absurd (UInt8.lt_of_le_of_lt hlow h) (by decide)
          exact ⟨b :: t, escapeFrom_char hsplit rfl hlow hhigh hlen, by omega, fun rest =>
            parseChars_char hquote hescape hcontrol (hagain rest)⟩
      have hlength : l.length = c.length + r.length := by rw [hsplit, List.length_append]
      obtain ⟨w₁, hw₁, hout₁, hcap₁⟩ := raw_ok w p (by omega)
      obtain ⟨w₂, s, hw₂, hout₂, hcap₂, hs, hrest⟩ := ih w₁ (by rw [hout₁, hcap₁, List.length_append]; omega)
      refine ⟨w₂, p ++ s, ?_, ?_, hcap₂.trans hcap₁, ?_, ?_⟩
      · rw [hstep, hw₁, Option.bind_some, hw₂]
      · rw [hout₂, hout₁, List.append_assoc]
      · rw [List.length_append]
        omega
      · intro rest
        rw [List.append_assoc, hparse, hrest, Option.map_some, hsplit]

theorem quotedEscaped_parses {w : JsonWriter} {text : List UInt8} (htext : IsUtf8 text)
    (hfit : w.out.length + 6 * text.length + 2 ≤ w.cap) :
    ∃ w' s, w.quotedEscaped text = some w' ∧ w'.out = w.out ++ 0x22 :: (s ++ [0x22]) ∧ w'.cap = w.cap ∧
      s.length ≤ 6 * text.length ∧ ∀ rest, parseChars (s ++ 0x22 :: rest) = some (text, rest) := by
  have hquote : ascii "\"" = [0x22] := by decide
  obtain ⟨w₁, hw₁, hout₁, hcap₁⟩ := raw_ok w [0x22] (by rw [List.length_singleton]; omega)
  have hlen₁ : w₁.out.length = w.out.length + 1 := by rw [hout₁, List.length_append, List.length_singleton]
  obtain ⟨w₂, s, hw₂, hout₂, hcap₂, hs, hrest⟩ := escapeFrom_parses htext w₁ (by omega)
  have hlen₂ : w₂.out.length = w₁.out.length + s.length := by rw [hout₂, List.length_append]
  obtain ⟨w₃, hw₃, hout₃, hcap₃⟩ := raw_ok w₂ [0x22] (by rw [List.length_singleton]; omega)
  refine ⟨w₃, s, ?_, ?_, hcap₃.trans (hcap₂.trans hcap₁), hs, hrest⟩
  · rw [quotedEscaped, hquote, hw₁]
    show (w₁.escapeFrom text).bind _ = _
    rw [hw₂, Option.bind_some, hw₃]
  · rw [hout₃, hout₂, hout₁, List.append_assoc, List.append_assoc]
    rfl

theorem num_ok {w : JsonWriter} {v : UInt64} (h : w.out.length + 20 ≤ w.cap) :
    ∃ w', w.num v = some w' ∧ w'.out = w.out ++ decimal v.toNat ∧ w'.cap = w.cap ∧
      w'.out.length ≤ w.out.length + 20 := by
  have hdigits : (decimal v.toNat).length ≤ 20 :=
    (length_decimal_le (by decide)).mpr (Nat.lt_trans v.toNat_lt (by decide))
  rw [num, formatU64_eq]
  obtain ⟨w', hw, hout, hcap⟩ := raw_ok w (decimal v.toNat) (by omega)
  exact ⟨w', hw, hout, hcap, by rw [hout, List.length_append]; omega⟩

end JsonWriter

/-! ### The event -/

/-- The pieces of an event. -/
def receivedText (contactId epoch sequence : ℕ) (s : List UInt8) : List UInt8 :=
  ascii "\x7b\"event\":\"received\",\"contact_id\":" ++ decimal contactId ++ ascii ",\"epoch\":" ++ decimal epoch ++
    ascii ",\"sequence\":" ++ decimal sequence ++ ascii ",\"text\":" ++ 0x22 :: (s ++ [0x22]) ++ [0x7d]

/-- The object of an event. -/
def receivedFields (contactId epoch sequence : ℕ) (text : List UInt8) : List (List UInt8 × JsonVal) :=
  [(ascii "event", .str (ascii "received")), (ascii "contact_id", .num contactId 0),
    (ascii "epoch", .num epoch 0), (ascii "sequence", .num sequence 0), (ascii "text", .str text)]

open JsonWriter in
theorem replyReceived_pieces (contactId : UInt8) (epoch : UInt32) (sequence : UInt64) {text : List UInt8} (cap : ℕ)
    (hutf : fromUtf8 text = true) (hcap : 6 * text.length + 200 ≤ cap) :
    ∃ s, replyReceived contactId epoch sequence text cap =
        some (receivedText contactId.toNat epoch.toNat sequence.toNat s) ∧
      ∀ rest, parseChars (s ++ 0x22 :: rest) = some (text, rest) := by
  have hlen₁ : (ascii "\x7b\"event\":\"received\",\"contact_id\":").length = 33 := by decide
  have hlen₂ : (ascii ",\"epoch\":").length = 9 := by decide
  have hlen₃ : (ascii ",\"sequence\":").length = 12 := by decide
  have hlen₄ : (ascii ",\"text\":").length = 8 := by decide
  have hlen₅ : (ascii "\x7d").length = 1 := by decide
  obtain ⟨w₁, hw₁, hout₁, hcap₁⟩ := raw_ok (.new cap)
    (ascii "\x7b\"event\":\"received\",\"contact_id\":") (by rw [hlen₁]; show 0 + 33 ≤ cap; omega)
  rw [show (JsonWriter.new cap).out = [] from rfl, List.nil_append] at hout₁
  rw [show (JsonWriter.new cap).cap = cap from rfl] at hcap₁
  have hfit₁ : w₁.out.length = 33 := by rw [hout₁, hlen₁]
  obtain ⟨w₂, hw₂, hout₂, hcap₂, hfit₂⟩ := num_ok (w := w₁) (v := contactId.toUInt64) (by omega)
  obtain ⟨w₃, hw₃, hout₃, hcap₃⟩ := raw_ok w₂ (ascii ",\"epoch\":") (by omega)
  have hfit₃ : w₃.out.length = w₂.out.length + 9 := by rw [hout₃, List.length_append, hlen₂]
  obtain ⟨w₄, hw₄, hout₄, hcap₄, hfit₄⟩ := num_ok (w := w₃) (v := epoch.toUInt64) (by omega)
  obtain ⟨w₅, hw₅, hout₅, hcap₅⟩ := raw_ok w₄ (ascii ",\"sequence\":") (by omega)
  have hfit₅ : w₅.out.length = w₄.out.length + 12 := by rw [hout₅, List.length_append, hlen₃]
  obtain ⟨w₆, hw₆, hout₆, hcap₆, hfit₆⟩ := num_ok (w := w₅) (v := sequence) (by omega)
  obtain ⟨w₇, hw₇, hout₇, hcap₇⟩ := raw_ok w₆ (ascii ",\"text\":") (by omega)
  have hfit₇ : w₇.out.length = w₆.out.length + 8 := by rw [hout₇, List.length_append, hlen₄]
  obtain ⟨w₈, s, hw₈, hout₈, hcap₈, hs, hrest⟩ :=
    quotedEscaped_parses (w := w₇) (isUtf8_of_fromUtf8 hutf) (by omega)
  have hfit₈ : w₈.out.length = w₇.out.length + s.length + 2 := by
    rw [hout₈, List.length_append, List.length_cons, List.length_append, List.length_singleton]
    omega
  obtain ⟨w₉, hw₉, hout₉, -⟩ := raw_ok w₈ (ascii "\x7d") (by omega)
  refine ⟨s, ?_, hrest⟩
  simp only [replyReceived, hw₁, hw₂, hw₃, hw₄, hw₅, hw₆, hw₇, hutf, if_true, hw₈, hw₉, Option.bind_eq_bind,
    Option.bind_some]
  rw [hout₉, hout₈, hout₇, hout₆, hout₅, hout₄, hout₃, hout₂, hout₁, UInt8.toNat_toUInt64, UInt32.toNat_toUInt64]
  rfl

theorem receivedText_parses {contactId epoch sequence : ℕ} {s text : List UInt8}
    (h : ∀ rest, parseChars (s ++ 0x22 :: rest) = some (text, rest)) :
    JsonVal.parse (receivedText contactId epoch sequence s) =
      some (.obj (receivedFields contactId epoch sequence text)) := by
  have hopen : ascii "\x7b\"event\":\"received\",\"contact_id\":" = 0x7b :: 0x22 :: (ascii "event" ++
      0x22 :: 0x3a :: 0x22 :: (ascii "received" ++ 0x22 :: 0x2c :: 0x22 :: (ascii "contact_id" ++
        [0x22, 0x3a]))) := by decide
  have hepoch : ascii ",\"epoch\":" = 0x2c :: 0x22 :: (ascii "epoch" ++ [0x22, 0x3a]) := by decide
  have hsequence : ascii ",\"sequence\":" = 0x2c :: 0x22 :: (ascii "sequence" ++ [0x22, 0x3a]) := by decide
  have htext : ascii ",\"text\":" = 0x2c :: 0x22 :: (ascii "text" ++ [0x22, 0x3a]) := by decide
  have hparts : receivedText contactId epoch sequence s = 0x7b :: 0x22 :: (ascii "event" ++
      0x22 :: 0x3a :: 0x22 :: (ascii "received" ++ 0x22 :: 0x2c :: 0x22 :: (ascii "contact_id" ++ 0x22 :: 0x3a ::
        (decimal contactId ++ 0x2c :: 0x22 :: (ascii "epoch" ++ 0x22 :: 0x3a ::
          (decimal epoch ++ 0x2c :: 0x22 :: (ascii "sequence" ++ 0x22 :: 0x3a ::
            (decimal sequence ++ 0x2c :: 0x22 :: (ascii "text" ++ 0x22 :: 0x3a :: 0x22 ::
              (s ++ 0x22 :: [0x7d])))))))))) := by
    unfold receivedText
    rw [hopen, hepoch, hsequence, htext]
    simp only [List.append_assoc, List.cons_append, List.nil_append]
  have hmembers (k : ℕ) := parseMembers_cons (k := k + 5) ⟨ascii "event", rfl⟩
    (parseValue_str (parseChars_plain ⟨ascii "received", rfl⟩ _))
    (parseMembers_cons (k := k + 4) ⟨ascii "contact_id", rfl⟩ (parseValue_num contactId (b := 0x2c) rfl)
      (parseMembers_cons (k := k + 3) ⟨ascii "epoch", rfl⟩ (parseValue_num epoch (b := 0x2c) rfl)
        (parseMembers_cons (k := k + 2) ⟨ascii "sequence", rfl⟩ (parseValue_num sequence (b := 0x2c) rfl)
          (parseMembers_one (k := k + 1) ⟨ascii "text", rfl⟩ (parseValue_str (h [0x7d]))))))
  have hdeep : 7 ≤ (receivedText contactId epoch sequence s).length := by
    rw [hparts]
    simp only [List.length_cons, List.length_append]
    have : (ascii "event").length = 5 := by decide
    omega
  obtain ⟨k, hk⟩ := Nat.exists_eq_add_of_le hdeep
  rw [JsonVal.parse, show (receivedText contactId epoch sequence s).length + 1 = (k + 6 + 1) + 1 by omega, hparts,
    parseValue_obj rfl (hmembers (k + 1))]
  rfl

theorem received_parses (contactId : UInt8) (epoch : UInt32) (sequence : UInt64) (text : List UInt8)
    (hutf : fromUtf8 text = true) (hmax : text.length ≤ 160) :
    ∃ out, replyReceived contactId epoch sequence text 4096 = some out ∧
      JsonVal.parse out = some (.obj (receivedFields contactId.toNat epoch.toNat sequence.toNat text)) := by
  obtain ⟨s, hout, hs⟩ := replyReceived_pieces contactId epoch sequence 4096 hutf (by omega)
  exact ⟨_, hout, receivedText_parses hs⟩

/-- A quote, an accent, a line end, DEL and an emoji. -/
theorem received_parses_mixed :
    ∃ out, replyReceived 3 7 9 [0x22, 0xc3, 0xa9, 0x0a, 0x7f, 0xf0, 0x9f, 0x98, 0x80] 4096 = some out ∧
      JsonVal.parse out = some (.obj (receivedFields 3 7 9 [0x22, 0xc3, 0xa9, 0x0a, 0x7f, 0xf0, 0x9f, 0x98, 0x80])) :=
  received_parses 3 7 9 [0x22, 0xc3, 0xa9, 0x0a, 0x7f, 0xf0, 0x9f, 0x98, 0x80] (by decide) (by decide)

end LoraMesh
