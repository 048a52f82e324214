import Mathlib.Data.Int.Notation
import LoraMesh.Lib.Json

/-!
# Lib — the JSON grammar

A parser of JSON texts in UTF-8, by its grammar: it accepts a text or not, and there is one value for
each text that it accepts.

* `JsonVal`: values.  A number is `m · 10 ^ e`; a string is the UTF-8 of what it stands for.
* `parseChars`: a string after its opening quote; `parseNumber`; `parseValue`.
* `JsonVal.parse`: a whole text.
* `parseChars_plain`, `parseNumber_decimal`, `parseMembers_cons`: what the parser makes of pieces.
-/

namespace LoraMesh

inductive JsonVal where
  | null
  | bool (b : Bool)
  | num (m e : ℤ)
  | str (s : List UInt8)
  | arr (xs : List JsonVal)
  | obj (fields : List (List UInt8 × JsonVal))

/-! ### Strings -/

/-- A byte that continues a sequence. -/
def continues (b : UInt8) : Bool := b &&& 0xC0 == 0x80

/-- The first character of a text, and the rest of the text. -/
def utf8Split : List UInt8 → Option (List UInt8 × List UInt8)
  | [] => none
  | b₀ :: l =>
    if b₀ < 0x80 then some ([b₀], l) else
    match l with
    | [] => none
    | b₁ :: l =>
      if 0xC2 ≤ b₀ && b₀ ≤ 0xDF then if continues b₁ then some ([b₀, b₁], l) else none else
      match l with
      | [] => none
      | b₂ :: l =>
        if 0xE0 ≤ b₀ && b₀ ≤ 0xEF then
          if continues b₁ && continues b₂ && (b₀ != 0xE0 || 0xA0 ≤ b₁) && (b₀ != 0xED || b₁ ≤ 0x9F) then
            some ([b₀, b₁, b₂], l)
          else none
        else
        match l with
        | [] => none
        | b₃ :: l =>
          if 0xF0 ≤ b₀ && b₀ ≤ 0xF4 && continues b₁ && continues b₂ && continues b₃ && (b₀ != 0xF0 || 0x90 ≤ b₁)
              && (b₀ != 0xF4 || b₁ ≤ 0x8F) then
            some ([b₀, b₁, b₂, b₃], l)
          else none

def hexValue (b : UInt8) : Option ℕ :=
  if 48 ≤ b ∧ b ≤ 57 then some (b.toNat - 48)
  else if 97 ≤ b ∧ b ≤ 102 then some (b.toNat - 87)
  else if 65 ≤ b ∧ b ≤ 70 then some (b.toNat - 55)
  else none

def hex4 (a b c d : UInt8) : Option ℕ := do
  let a ← hexValue a
  let b ← hexValue b
  let c ← hexValue c
  let d ← hexValue d
  return a * 4096 + b * 256 + c * 16 + d

/-- The character of a code unit, and what follows it. -/
def parseUnit (v : ℕ) (l : List UInt8) : Option (List UInt8 × List UInt8) :=
  if 0xD800 ≤ v ∧ v < 0xDC00 then
    -- the first of a pair
    match l with
    | 0x5c :: 0x75 :: a :: b :: c :: d :: l =>
      (hex4 a b c d).bind fun w =>
        if 0xDC00 ≤ w ∧ w < 0xE000 then
          some (String.utf8EncodeChar (Char.ofNat (0x10000 + (v - 0xD800) * 0x400 + (w - 0xDC00))), l)
        else none
    | _ => none
  else if 0xDC00 ≤ v ∧ v < 0xE000 then none
  else some (String.utf8EncodeChar (Char.ofNat v), l)

/-- What follows a backslash: the character it stands for, and the rest. -/
def parseEscape : List UInt8 → Option (List UInt8 × List UInt8)
  | 0x22 :: l => some ([0x22], l)
  | 0x5c :: l => some ([0x5c], l)
  | 0x2f :: l => some ([0x2f], l)
  | 0x62 :: l => some ([0x08], l)
  | 0x66 :: l => some ([0x0c], l)
  | 0x6e :: l => some ([0x0a], l)
  | 0x72 :: l => some ([0x0d], l)
  | 0x74 :: l => some ([0x09], l)
  | 0x75 :: a :: b :: c :: d :: l => (hex4 a b c d).bind fun v => parseUnit v l
  | _ => none

/-- How long a character is, by its first byte. -/
def utf8Width (b : UInt8) : ℕ := if b ≥ 0xF0 then 4 else if b ≥ 0xE0 then 3 else 2

theorem utf8Split_ascii {b : UInt8} {l : List UInt8} (h : b < 0x80) : utf8Split (b :: l) = some ([b], l) := by
  unfold utf8Split
  exact if_pos h

theorem utf8Width_two {b : UInt8} (h : b ≤ 0xDF) : utf8Width b = 2 := by
  have h := UInt8.le_iff_toNat_le.mp h
  change b.toNat ≤ 223 at h
  have h₃ : ¬ 0xE0 ≤ b := fun hb => by
    have hb := UInt8.le_iff_toNat_le.mp hb
    change 224 ≤ b.toNat at hb
    omega
  have h₄ : ¬ 0xF0 ≤ b := fun hb => h₃ (UInt8.le_trans (by decide) hb)
  exact (if_neg h₄).trans (if_neg h₃)

theorem utf8Width_three {b : UInt8} (hlow : 0xE0 ≤ b) (h : b ≤ 0xEF) : utf8Width b = 3 := by
  have h := UInt8.le_iff_toNat_le.mp h
  change b.toNat ≤ 239 at h
  have h₄ : ¬ 0xF0 ≤ b := fun hb => by
    have hb := UInt8.le_iff_toNat_le.mp hb
    change 240 ≤ b.toNat at hb
    omega
  exact (if_neg h₄).trans (if_pos hlow)

theorem utf8Split_some {l c r : List UInt8} (h : utf8Split l = some (c, r)) :
    l = c ++ r ∧ (∀ r', utf8Split (c ++ r') = some (c, r')) ∧
      ((∃ b, c = [b] ∧ b < 0x80) ∨ ∃ b t, c = b :: t ∧ 0xC2 ≤ b ∧ b ≤ 0xF4 ∧ c.length = utf8Width b) := by
  unfold utf8Split at h
  split at h
  · cases h
  split at h
  · rename_i hb
    cases h
    exact ⟨rfl, fun r' => utf8Split_ascii hb, .inl ⟨_, rfl, hb⟩⟩
  rename_i b₀ _ h0
  split at h
  · cases h
  rename_i b₁ _
  split at h
  · rename_i htwo
    rw [Option.ite_none_right_eq_some] at h
    obtain ⟨hcont, h⟩ := h
    cases h
    refine ⟨rfl, fun r' => ?_, .inr ⟨b₀, [b₁], rfl, ?_⟩⟩
    · simp only [utf8Split, List.cons_append, List.nil_append, if_neg h0, if_pos htwo, if_pos hcont]
    · simp only [Bool.and_eq_true, decide_eq_true_eq] at htwo
      exact ⟨htwo.1, UInt8.le_trans htwo.2 (by decide), (utf8Width_two htwo.2).symm⟩
  rename_i htwo
  split at h
  · cases h
  rename_i b₂ _
  split at h
  · rename_i hthree
    rw [Option.ite_none_right_eq_some] at h
    obtain ⟨hcont, h⟩ := h
    cases h
    refine ⟨rfl, fun r' => ?_, .inr ⟨b₀, [b₁, b₂], rfl, ?_⟩⟩
    · simp only [utf8Split, List.cons_append, List.nil_append, if_neg h0, if_neg htwo, if_pos hthree, if_pos hcont]
    · simp only [Bool.and_eq_true, decide_eq_true_eq] at hthree
      exact ⟨UInt8.le_trans (by decide) hthree.1, UInt8.le_trans hthree.2 (by decide),
        (utf8Width_three hthree.1 hthree.2).symm⟩
  rename_i hthree
  split at h
  · cases h
  rename_i b₃ _
  rw [Option.ite_none_right_eq_some] at h
  obtain ⟨hfour, h⟩ := h
  cases h
  refine ⟨rfl, fun r' => ?_, .inr ⟨b₀, [b₁, b₂, b₃], rfl, ?_⟩⟩
  · simp only [utf8Split, List.cons_append, List.nil_append, if_neg h0, if_neg htwo, if_neg hthree, if_pos hfour]
  · simp only [Bool.and_eq_true, decide_eq_true_eq] at hfour
    obtain ⟨⟨⟨⟨⟨⟨hlow, hhigh⟩, -⟩, -⟩, -⟩, -⟩, -⟩ := hfour
    exact ⟨UInt8.le_trans (by decide) hlow, hhigh, (if_pos hlow).symm⟩

theorem utf8Split_length {l c r : List UInt8} (h : utf8Split l = some (c, r)) : r.length < l.length := by
  unfold utf8Split at h
  repeat' split at h
  all_goals cases h
  all_goals simp only [List.length_cons]; omega

/-- A text of whole characters. -/
inductive IsUtf8 : List UInt8 → Prop
  | nil : IsUtf8 []
  | char {l c r : List UInt8} (h : utf8Split l = some (c, r)) (hr : IsUtf8 r) : IsUtf8 l

theorem parseUnit_length {v : ℕ} {l c r : List UInt8} (h : parseUnit v l = some (c, r)) : r.length ≤ l.length := by
  unfold parseUnit at h
  split at h
  · split at h
    · obtain ⟨w, -, h⟩ := Option.bind_eq_some_iff.mp h
      rw [Option.ite_none_right_eq_some] at h
      obtain ⟨-, rfl⟩ := Prod.mk.inj (Option.some.inj h.2)
      simp only [List.length_cons]
      omega
    · cases h
  · split at h
    · cases h
    · obtain ⟨-, rfl⟩ := Prod.mk.inj (Option.some.inj h)
      exact Nat.le_refl _

theorem parseEscape_length {l c r : List UInt8} (h : parseEscape l = some (c, r)) : r.length < l.length := by
  unfold parseEscape at h
  split at h
  case h_9 =>
      obtain ⟨v, -, h⟩ := Option.bind_eq_some_iff.mp h
      have := parseUnit_length h
      simp only [List.length_cons]
      omega
  case h_10 => cases h
  all_goals
    cases h
    exact Nat.lt_succ_self _

/-- The characters of a string up to its closing quote, and what follows it. -/
def parseChars (l : List UInt8) : Option (List UInt8 × List UInt8) :=
  match l with
  | [] => none
  | b :: l =>
    if b = 0x22 then some ([], l)
    else if b = 0x5c then
      match _h : parseEscape l with
      | none => none
      | some (c, l) => (parseChars l).map fun r => (c ++ r.1, r.2)
    else if b < 0x20 then none
    else
      match _h : utf8Split (b :: l) with
      | none => none
      | some (c, l) => (parseChars l).map fun r => (c ++ r.1, r.2)
termination_by l.length
decreasing_by
  · have := parseEscape_length _h
    simp only [List.length_cons]
    omega
  · exact utf8Split_length _h

theorem parseChars_quote (l : List UInt8) : parseChars (0x22 :: l) = some ([], l) := by
  rw [parseChars, if_pos rfl]

theorem parseChars_escape {l c r : List UInt8} (h : parseEscape l = some (c, r)) :
    parseChars (0x5c :: l) = (parseChars r).map fun x => (c ++ x.1, x.2) := by
  rw [parseChars, if_neg (by decide), if_pos rfl]
  split
  · rename_i hnone
    exact nomatch hnone.symm.trans h
  · rename_i hsome
    cases hsome.symm.trans h
    rfl

theorem parseChars_char {b : UInt8} {l c r : List UInt8} (hquote : b ≠ 0x22) (hescape : b ≠ 0x5c)
    (hcontrol : ¬ b < 0x20) (h : utf8Split (b :: l) = some (c, r)) :
    parseChars (b :: l) = (parseChars r).map fun x => (c ++ x.1, x.2) := by
  rw [parseChars, if_neg hquote, if_neg hescape, if_neg hcontrol]
  split
  · rename_i hnone
    exact nomatch hnone.symm.trans h
  · rename_i hsome
    cases hsome.symm.trans h
    rfl

/-- A string that needs no escape stands for itself. -/
theorem parseChars_plain (s : Plain) (l : List UInt8) : parseChars (s.1 ++ 0x22 :: l) = some (s.1, l) := by
  obtain ⟨s, hs⟩ := s
  induction s with
  | nil => exact parseChars_quote l
  | cons b s ih =>
      rw [List.all_cons, Bool.and_eq_true] at hs
      obtain ⟨hb, hs⟩ := hs
      simp only [plainByte, Bool.and_eq_true, decide_eq_true_eq, bne_iff_ne] at hb
      obtain ⟨⟨⟨hlow, hhigh⟩, hquote⟩, hescape⟩ := hb
      have hsplit : utf8Split (b :: (s ++ 0x22 :: l)) = some ([b], s ++ 0x22 :: l) := by
        exact utf8Split_ascii (UInt8.lt_trans hhigh (by decide))
      rw [List.cons_append, parseChars_char hquote hescape (UInt8.not_lt.mpr hlow) hsplit, ih hs]
      rfl

/-! ### Numbers -/

def isDigit (b : UInt8) : Bool := 48 ≤ b && b ≤ 57

/-- The number of some digits. -/
def ofDigits (ds : List UInt8) : ℕ := ds.foldl (fun n d => 10 * n + (d.toNat - 48)) 0

/-- The fraction of a number, if there is one: its digits, and the rest. -/
def parseFraction : List UInt8 → Option (List UInt8 × List UInt8)
  | 0x2e :: l => if l.takeWhile isDigit = [] then none else some (l.takeWhile isDigit, l.dropWhile isDigit)
  | l => some ([], l)

/-- The exponent of a number, if there is one, and the rest. -/
def parseExponent : List UInt8 → Option (ℤ × List UInt8)
  | [] => some (0, [])
  | b :: l =>
    if b = 0x65 ∨ b = 0x45 then
      let negative := l.head? = some 0x2d
      let l := if l.head? = some 0x2d ∨ l.head? = some 0x2b then l.tail else l
      let ds := l.takeWhile isDigit
      if ds = [] then none else some (if negative then -ofDigits ds else ofDigits ds, l.dropWhile isDigit)
    else some (0, b :: l)

def parseNumber (l : List UInt8) : Option (JsonVal × List UInt8) :=
  let negative := l.head? = some 0x2d
  let l := if negative then l.tail else l
  let ds := l.takeWhile isDigit
  -- no leading zeros
  if ds = [] ∨ ds.head? = some 48 ∧ 1 < ds.length then none
  else do
    let (fs, l) ← parseFraction (l.dropWhile isDigit)
    let (e, l) ← parseExponent l
    let m : ℤ := ofDigits (ds ++ fs)
    return (.num (if negative then -m else m) (e - fs.length), l)

theorem ofDigits_digits (n : ℕ) :
    ofDigits ((Nat.digits 10 n).map fun d => UInt8.ofNat (48 + d)).reverse = n := by
  have hfold : ∀ ds : List ℕ, (∀ d ∈ ds, d < 10) →
      ofDigits (ds.map fun d => UInt8.ofNat (48 + d)).reverse = Nat.ofDigits 10 ds := by
    intro ds
    induction ds with
    | nil => exact fun _ => rfl
    | cons d ds ih =>
        intro h
        obtain ⟨hd, hds⟩ := List.forall_mem_cons.mp h
        have hdigit : (UInt8.ofNat (48 + d)).toNat - 48 = d := by
          rw [UInt8.toNat_ofNat']
          omega
        rw [List.map_cons, List.reverse_cons, Nat.ofDigits_cons, ← ih hds, ofDigits, List.foldl_append]
        show 10 * _ + ((UInt8.ofNat (48 + d)).toNat - 48) = _
        rw [hdigit, Nat.add_comm]
        rfl
  rw [hfold _ fun d hd => Nat.digits_lt_base (by decide) hd, Nat.ofDigits_digits]

theorem all_isDigit_decimal (n : ℕ) : ∀ b ∈ decimal n, isDigit b = true := by
  intro b hb
  unfold decimal at hb
  split at hb
  · rw [List.mem_singleton.mp hb]
    rfl
  · obtain ⟨d, hd, rfl⟩ := List.mem_map.mp (List.mem_reverse.mp hb)
    have hlt : d < 10 := Nat.digits_lt_base (by decide) hd
    have htable : ∀ i : Fin 10, isDigit (UInt8.ofNat (48 + i.1)) = true := by decide
    exact htable ⟨d, hlt⟩

/-- The digits of a number do not start with a zero, but for zero itself. -/
theorem decimal_zero (n : ℕ) (h : (decimal n).head? = some 48) : n = 0 := by
  by_contra hn
  rw [decimal, if_neg hn, List.head?_reverse, List.getLast?_map] at h
  obtain ⟨d, hlast, hd⟩ := Option.map_eq_some_iff.mp h
  have hne : Nat.digits 10 n ≠ [] := Nat.digits_ne_nil_iff_ne_zero.mpr hn
  have hlt : d < 10 := Nat.digits_lt_base (by decide) (List.mem_of_getLast? hlast)
  have hzero : d = 0 := by
    have hnat := congrArg UInt8.toNat hd
    rw [UInt8.toNat_ofNat'] at hnat
    change (48 + d) % 256 = 48 at hnat
    omega
  rw [List.getLast?_eq_some_getLast hne] at hlast
  exact Nat.getLast_digit_ne_zero 10 hn ((Option.some.inj hlast).trans hzero)

theorem decimal_ne_nil (n : ℕ) : decimal n ≠ [] := by
  intro h
  unfold decimal at h
  split at h
  · cases h
  · rename_i hn
    rw [List.reverse_eq_nil_iff, List.map_eq_nil_iff] at h
    exact Nat.digits_ne_nil_iff_ne_zero.mpr hn h

theorem ofDigits_decimal (n : ℕ) : ofDigits (decimal n) = n := by
  unfold decimal
  split
  · rename_i hn
    rw [hn]
    rfl
  · exact ofDigits_digits n

/-- A byte that ends a number. -/
def endsNumber (b : UInt8) : Bool := !isDigit b && b != 0x2e && b != 0x65 && b != 0x45

theorem parseNumber_decimal (n : ℕ) {b : UInt8} (hb : endsNumber b = true) (l : List UInt8) :
    parseNumber (decimal n ++ b :: l) = some (.num n 0, b :: l) := by
  simp only [endsNumber, Bool.and_eq_true, Bool.not_eq_true', bne_iff_ne] at hb
  obtain ⟨⟨⟨hdigit, hpoint⟩, he⟩, hE⟩ := hb
  have hsign : ¬ (decimal n ++ b :: l).head? = some 0x2d := by
    intro h
    obtain ⟨d, ds, hd⟩ := List.exists_cons_of_ne_nil (decimal_ne_nil n)
    rw [hd, List.cons_append, List.head?_cons] at h
    have hfirst := all_isDigit_decimal n d (by rw [hd]; exact List.mem_cons_self)
    rw [Option.some.inj h] at hfirst
    cases hfirst
  have htake : (decimal n ++ b :: l).takeWhile isDigit = decimal n := by
    rw [List.takeWhile_append_of_pos (all_isDigit_decimal n), List.takeWhile_cons, hdigit]
    exact List.append_nil _
  have hdrop : (decimal n ++ b :: l).dropWhile isDigit = b :: l := by
    rw [List.dropWhile_append_of_pos (all_isDigit_decimal n), List.dropWhile_cons, hdigit]
    rfl
  have hlead : ¬ (decimal n = [] ∨ (decimal n).head? = some 48 ∧ 1 < (decimal n).length) := by
    rintro (h | ⟨h, hlen⟩)
    · exact decimal_ne_nil n h
    · rw [decimal_zero n h] at hlen
      exact absurd hlen (by decide)
  have hfraction : parseFraction (b :: l) = some ([], b :: l) := by
    unfold parseFraction
    split
    · rename_i heq
      exact absurd (List.cons.inj heq).1 hpoint
    · rfl
  have hexponent : parseExponent (b :: l) = some (0, b :: l) := if_neg fun h => h.elim he hE
  unfold parseNumber
  simp only [hsign, if_false, htake, hdrop, if_neg hlead, hfraction, hexponent, Option.bind_eq_bind, Option.bind_some,
    List.append_nil, ofDigits_decimal, List.length_nil]
  rfl

/-! ### Values -/

def isSpace (b : UInt8) : Bool := b == 0x20 || b == 0x09 || b == 0x0a || b == 0x0d

def skipSpace (l : List UInt8) : List UInt8 := l.dropWhile isSpace

/-- One of the three names. -/
def parseName (l : List UInt8) : Option (JsonVal × List UInt8) :=
  if ascii "null" <+: l then some (.null, l.drop 4)
  else if ascii "true" <+: l then some (.bool true, l.drop 4)
  else if ascii "false" <+: l then some (.bool false, l.drop 5)
  else none

mutual

/-- A value, with any spaces before it; the first argument bounds how deep it is nested. -/
def parseValue : ℕ → List UInt8 → Option (JsonVal × List UInt8)
  | 0, _ => none
  | k + 1, l =>
    match skipSpace l with
    | [] => none
    | b :: l =>
      if b = 0x22 then (parseChars l).map fun r => (.str r.1, r.2)
      else if b = 0x7b then
        if (skipSpace l).head? = some 0x7d then some (.obj [], (skipSpace l).tail)
        else (parseMembers k l).map fun r => (.obj r.1, r.2)
      else if b = 0x5b then
        if (skipSpace l).head? = some 0x5d then some (.arr [], (skipSpace l).tail)
        else (parseElements k l).map fun r => (.arr r.1, r.2)
      else (parseName (b :: l)).or (parseNumber (b :: l))

/-- The members of an object, and its closing brace. -/
def parseMembers : ℕ → List UInt8 → Option (List (List UInt8 × JsonVal) × List UInt8)
  | 0, _ => none
  | k + 1, l =>
    match skipSpace l with
    | 0x22 :: l =>
      (parseChars l).bind fun name =>
        match skipSpace name.2 with
        | 0x3a :: l =>
          (parseValue k l).bind fun v =>
            match skipSpace v.2 with
            | 0x2c :: l => (parseMembers k l).map fun r => ((name.1, v.1) :: r.1, r.2)
            | 0x7d :: l => some ([(name.1, v.1)], l)
            | _ => none
        | _ => none
    | _ => none

/-- The elements of an array, and its closing bracket. -/
def parseElements : ℕ → List UInt8 → Option (List JsonVal × List UInt8)
  | 0, _ => none
  | k + 1, l =>
    (parseValue k l).bind fun v =>
      match skipSpace v.2 with
      | 0x2c :: l => (parseElements k l).map fun r => (v.1 :: r.1, r.2)
      | 0x5d :: l => some ([v.1], l)
      | _ => none

end

/-- A text of one value. -/
def JsonVal.parse (l : List UInt8) : Option JsonVal :=
  (parseValue (l.length + 1) l).bind fun v => if skipSpace v.2 = [] then some v.1 else none

section

variable {k : ℕ} {l r rest : List UInt8} {v : JsonVal} {fs : List (List UInt8 × JsonVal)} {b : UInt8}

theorem skipSpace_cons (hb : isSpace b = false) : skipSpace (b :: l) = b :: l := by
  rw [skipSpace, List.dropWhile_cons, hb]
  rfl

theorem parseValue_str {s : List UInt8} (h : parseChars l = some (s, r)) :
    parseValue (k + 1) (0x22 :: l) = some (.str s, r) := by
  rw [parseValue, skipSpace_cons (by decide)]
  dsimp only
  rw [if_pos rfl, h, Option.map_some]

theorem parseValue_num (n : ℕ) (hb : endsNumber b = true) :
    parseValue (k + 1) (decimal n ++ b :: l) = some (.num n 0, b :: l) := by
  obtain ⟨d, ds, hd⟩ := List.exists_cons_of_ne_nil (decimal_ne_nil n)
  have hdigit : isDigit d = true := all_isDigit_decimal n d (by rw [hd]; exact List.mem_cons_self)
  have htable : ∀ d : Fin 256, isDigit (UInt8.ofNat d.1) = true → isSpace (UInt8.ofNat d.1) = false ∧
      UInt8.ofNat d.1 ≠ 0x22 ∧ UInt8.ofNat d.1 ≠ 0x7b ∧ UInt8.ofNat d.1 ≠ 0x5b ∧ UInt8.ofNat d.1 ≠ 0x6e ∧
      UInt8.ofNat d.1 ≠ 0x74 ∧ UInt8.ofNat d.1 ≠ 0x66 := by decide +kernel
  have hother := htable ⟨d.toNat, d.toNat_lt⟩
  rw [UInt8.ofNat_toNat] at hother
  obtain ⟨hspace, hquote, hbrace, hbracket, hn, ht, hf⟩ := hother hdigit
  have hname (m : List UInt8) : parseName (d :: m) = none := by
    have hno {c : UInt8} {cs : List UInt8} (hne : d ≠ c) : ¬ (c :: cs) <+: d :: m :=
      fun h => hne (List.cons_prefix_cons.mp h).1.symm
    have hnull : ¬ ascii "null" <+: d :: m := hno hn
    have htrue : ¬ ascii "true" <+: d :: m := hno ht
    have hfalse : ¬ ascii "false" <+: d :: m := hno hf
    rw [parseName, if_neg hnull, if_neg htrue, if_neg hfalse]
  have hnumber := parseNumber_decimal n hb l
  rw [hd, List.cons_append] at hnumber ⊢
  rw [parseValue, skipSpace_cons hspace]
  dsimp only
  rw [if_neg hquote, if_neg hbrace, if_neg hbracket, hname, Option.none_or, hnumber]

theorem parseValue_obj (hl : l.head? = some 0x22) (h : parseMembers k l = some (fs, r)) :
    parseValue (k + 1) (0x7b :: l) = some (.obj fs, r) := by
  obtain ⟨m, rfl⟩ : ∃ m, l = 0x22 :: m := by
    cases l with
    | nil => cases hl
    | cons c m => exact ⟨m, by rw [Option.some.inj hl]⟩
  have hopen : (skipSpace (0x22 :: m)).head? ≠ some 0x7d := by
    rw [skipSpace_cons (by decide)]
    exact nofun
  rw [parseValue, skipSpace_cons (by decide)]
  dsimp only
  rw [if_neg (by decide), if_pos rfl, if_neg hopen, h, Option.map_some]

/-- A member that another follows. -/
theorem parseMembers_cons (name : Plain) (hv : parseValue k l = some (v, 0x2c :: r))
    (hfs : parseMembers k r = some (fs, rest)) :
    parseMembers (k + 1) (0x22 :: (name.1 ++ 0x22 :: 0x3a :: l)) = some ((name.1, v) :: fs, rest) := by
  rw [parseMembers, skipSpace_cons (by decide)]
  show (parseChars (name.1 ++ 0x22 :: 0x3a :: l)).bind _ = _
  rw [parseChars_plain, Option.bind_some, skipSpace_cons (by decide)]
  show (parseValue k l).bind _ = _
  rw [hv, Option.bind_some, skipSpace_cons (by decide)]
  show (parseMembers k r).map _ = _
  rw [hfs, Option.map_some]

/-- The last member. -/
theorem parseMembers_one (name : Plain) (hv : parseValue k l = some (v, 0x7d :: rest)) :
    parseMembers (k + 1) (0x22 :: (name.1 ++ 0x22 :: 0x3a :: l)) = some ([(name.1, v)], rest) := by
  rw [parseMembers, skipSpace_cons (by decide)]
  show (parseChars (name.1 ++ 0x22 :: 0x3a :: l)).bind _ = _
  rw [parseChars_plain, Option.bind_some, skipSpace_cons (by decide)]
  show (parseValue k l).bind _ = _
  rw [hv, Option.bind_some, skipSpace_cons (by decide)]
  rfl

end

end LoraMesh
