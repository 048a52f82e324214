import Mathlib.Data.List.Induction

/-!
# Lib — the protobuf wire format

* `IsVarint`, `IsField`, `IsMessage`: the grammar, within `Limits` on the numbers.
* `readVarint`, `readField`, `readMessage`: a reader of what it generates.  Each returns how many bytes
  it takes with what they stand for, and accepts just the grammar (`readMessage_iff`).
* `Scanner`: a reader of one item at a position of a buffer, and the loop `Scanner.fold` over a whole
  buffer.
-/

namespace LoraMesh

/-! ### The grammar -/

/-- Seven bits a byte from the low end, with the high bit set on all but the last. -/
inductive IsVarint : List UInt8 → ℕ → Prop where
  | last {b : UInt8} (hb : b.toNat < 128) : IsVarint [b] b.toNat
  | more {b : UInt8} {bs : List UInt8} {v : ℕ} (hb : 128 ≤ b.toNat) (h : IsVarint bs v) :
      IsVarint (b :: bs) (b.toNat - 128 + 128 * v)

/-- Bounds that varints and field numbers stay below. -/
structure Limits where
  value : ℕ
  number : ℕ

/-- A varint of at most ten bytes. -/
def Limits.Varint (L : Limits) (bs : List UInt8) (v : ℕ) : Prop := IsVarint bs v ∧ bs.length ≤ 10 ∧ v < L.value

/-- The number of bytes, the lowest first. -/
def leNat : List UInt8 → ℕ
  | [] => 0
  | b :: l => b.toNat + 256 * leNat l

inductive WireValue where
  | varint (v : ℕ)
  /-- Eight bytes, which are not looked at. -/
  | fixed64
  | bytes (b : List UInt8)
  | fixed32 (v : ℕ)
  deriving DecidableEq

/-- A field: its number and its value. -/
abbrev WireField := ℕ × WireValue

/-- The bytes of one field: a tag of its number and wire type, and its value. -/
inductive IsField (L : Limits) : List UInt8 → WireField → Prop where
  | varint {t bs : List UInt8} {n v : ℕ} (ht : L.Varint t (8 * n)) (hn : 1 ≤ n ∧ n < L.number)
      (hv : L.Varint bs v) : IsField L (t ++ bs) (n, .varint v)
  | fixed64 {t bs : List UInt8} {n : ℕ} (ht : L.Varint t (8 * n + 1)) (hn : 1 ≤ n ∧ n < L.number)
      (hlen : bs.length = 8) : IsField L (t ++ bs) (n, .fixed64)
  | bytes {t l bs : List UInt8} {n : ℕ} (ht : L.Varint t (8 * n + 2)) (hn : 1 ≤ n ∧ n < L.number)
      (hl : L.Varint l bs.length) : IsField L (t ++ (l ++ bs)) (n, .bytes bs)
  | fixed32 {t bs : List UInt8} {n : ℕ} (ht : L.Varint t (8 * n + 5)) (hn : 1 ≤ n ∧ n < L.number)
      (hlen : bs.length = 4) : IsField L (t ++ bs) (n, .fixed32 (leNat bs))

/-- Fields, one after the other. -/
inductive IsMessage (L : Limits) : List UInt8 → List WireField → Prop where
  | nil : IsMessage L [] []
  | cons {bs rest : List UInt8} {f : WireField} {fs : List WireField} (hf : IsField L bs f)
      (h : IsMessage L rest fs) : IsMessage L (bs ++ rest) (f :: fs)

/-! ### Fields by number -/

namespace WireField

/-- The value of a varint field of this number. -/
def varintAt (n : ℕ) : WireField → Option ℕ
  | (m, .varint v) => if m = n then some v else none
  | _ => none

def bytesAt (n : ℕ) : WireField → Option (List UInt8)
  | (m, .bytes b) => if m = n then some b else none
  | _ => none

def fixed32At (n : ℕ) : WireField → Option ℕ
  | (m, .fixed32 v) => if m = n then some v else none
  | _ => none

/-- What the last field of a kind holds. -/
def lastOf {α : Type} (p : WireField → Option α) (fs : List WireField) : Option α := (fs.filterMap p).getLast?

@[simp] theorem lastOf_nil {α : Type} (p : WireField → Option α) : lastOf p [] = none := rfl

@[simp] theorem lastOf_append {α : Type} (p : WireField → Option α) (fs : List WireField) (f : WireField) :
    lastOf p (fs ++ [f]) = (p f).or (lastOf p fs) := by
  rw [lastOf, lastOf, List.filterMap_append, List.getLast?_append]
  cases h : p f with
  | none => simp [h]
  | some a => simp [h]

theorem filterMap_append_none {α : Type} {p : WireField → Option α} {fs : List WireField} {f : WireField}
    (h : p f = none) : (fs ++ [f]).filterMap p = fs.filterMap p := by
  rw [List.filterMap_append, List.filterMap_cons_none h, List.filterMap_nil, List.append_nil]

theorem filterMap_append_some {α : Type} {p : WireField → Option α} {fs : List WireField} {f : WireField} {a : α}
    (h : p f = some a) : (fs ++ [f]).filterMap p = fs.filterMap p ++ [a] := by
  rw [List.filterMap_append, List.filterMap_cons_some h, List.filterMap_nil]

theorem isSome_lastOf {α : Type} {p : WireField → Option α} {fs : List WireField} :
    (lastOf p fs).isSome = true ↔ fs.filterMap p ≠ [] := by
  rw [lastOf, List.getLast?_isSome]

theorem lastOf_eq_none {α : Type} {p : WireField → Option α} {fs : List WireField} :
    lastOf p fs = none ↔ fs.filterMap p = [] := List.getLast?_eq_none_iff

theorem lastOf_mem {α : Type} {p : WireField → Option α} {fs : List WireField} {a : α} (h : lastOf p fs = some a) :
    a ∈ fs.filterMap p := List.mem_of_getLast? h

end WireField

/-! ### The reader -/

/-- A varint of at most so many bytes. -/
def readVarint : ℕ → List UInt8 → Option (ℕ × ℕ)
  | 0, _ => none
  | _ + 1, [] => none
  | k + 1, b :: l =>
    if b.toNat < 128 then some (b.toNat, 1)
    else (readVarint k l).map fun r => (b.toNat - 128 + 128 * r.1, r.2 + 1)

def Limits.read (L : Limits) (l : List UInt8) : Option (ℕ × ℕ) := (readVarint 10 l).filter fun r => r.1 < L.value

/-- A value of this wire type. -/
def readValue (L : Limits) (wire : ℕ) (l : List UInt8) : Option (WireValue × ℕ) :=
  match wire with
  | 0 => (L.read l).map fun r => (.varint r.1, r.2)
  | 1 => if 8 ≤ l.length then some (.fixed64, 8) else none
  | 2 => (L.read l).bind fun r =>
    if r.2 + r.1 ≤ l.length then some (.bytes ((l.drop r.2).take r.1), r.2 + r.1) else none
  | 5 => if 4 ≤ l.length then some (.fixed32 (leNat (l.take 4)), 4) else none
  | _ => none

def readField (L : Limits) (l : List UInt8) : Option (WireField × ℕ) :=
  (L.read l).bind fun t =>
    if 1 ≤ t.1 / 8 ∧ t.1 / 8 < L.number then
      (readValue L (t.1 % 8) (l.drop t.2)).map fun r => ((t.1 / 8, r.1), t.2 + r.2)
    else none

theorem readVarint_append {bs : List UInt8} {v : ℕ} (h : IsVarint bs v) :
    ∀ {k : ℕ}, bs.length ≤ k → ∀ rest, readVarint k (bs ++ rest) = some (v, bs.length) := by
  induction h with
  | last hb =>
      intro k hk rest
      cases k with
      | zero => exact absurd hk (Nat.not_succ_le_zero _)
      | succ k => exact if_pos hb
  | @more b bs v hb _ ih =>
      intro k hk rest
      cases k with
      | zero => exact absurd hk (Nat.not_succ_le_zero _)
      | succ k =>
          rw [List.cons_append, readVarint, if_neg (Nat.not_lt.mpr hb), ih (Nat.le_of_succ_le_succ hk) rest]
          rfl

theorem readVarint_some : ∀ {k : ℕ} {l : List UInt8} {v n : ℕ}, readVarint k l = some (v, n) →
    ∃ bs rest, l = bs ++ rest ∧ bs.length = n ∧ IsVarint bs v ∧ n ≤ k
  | 0, _, _, _, h => nomatch h
  | _ + 1, [], _, _, h => nomatch h
  | k + 1, b :: l, v, n, h => by
      rw [readVarint] at h
      by_cases hb : b.toNat < 128
      · rw [if_pos hb] at h
        cases h
        exact ⟨[b], l, rfl, rfl, .last hb, Nat.le_add_left 1 k⟩
      · rw [if_neg hb, Option.map_eq_some_iff] at h
        obtain ⟨⟨w, m⟩, hread, heq⟩ := h
        cases heq
        obtain ⟨bs, rest, rfl, rfl, hbs, hk⟩ := readVarint_some hread
        exact ⟨b :: bs, rest, rfl, rfl, .more (Nat.not_lt.mp hb) hbs, Nat.succ_le_succ hk⟩

namespace IsVarint

theorem length_pos {bs : List UInt8} {v : ℕ} (h : IsVarint bs v) : 1 ≤ bs.length := by
  cases h with
  | last => exact Nat.le_refl 1
  | more => exact Nat.succ_le_succ (Nat.zero_le _)

end IsVarint

section

variable {L : Limits} {l bs rest : List UInt8} {v n : ℕ} {f : WireField} {fs : List WireField}

theorem Limits.read_append (h : L.Varint bs v) (rest : List UInt8) : L.read (bs ++ rest) = some (v, bs.length) := by
  rw [Limits.read, readVarint_append h.1 h.2.1]
  simp [h.2.2]

theorem Limits.read_some (h : L.read l = some (v, n)) :
    ∃ bs rest, l = bs ++ rest ∧ bs.length = n ∧ L.Varint bs v := by
  rw [Limits.read, Option.filter_eq_some_iff] at h
  obtain ⟨hread, hlt⟩ := h
  obtain ⟨bs, rest, hl, hn, hbs, hk⟩ := readVarint_some hread
  exact ⟨bs, rest, hl, hn, hbs, hn ▸ hk, of_decide_eq_true hlt⟩

theorem readField_append (h : IsField L bs f) (rest : List UInt8) : readField L (bs ++ rest) = some (f, bs.length) := by
  cases h with
  | @varint t bs n v ht hn hv =>
      rw [readField, List.append_assoc, Limits.read_append ht]
      simp only [Option.bind_some, List.drop_left, Nat.mul_mod_right, Nat.mul_div_right n (show 0 < 8 by decide),
        if_pos hn, readValue, Limits.read_append hv, Option.map_some, List.length_append]
  | @fixed64 t bs n ht hn hlen =>
      rw [readField, List.append_assoc, Limits.read_append ht]
      have hmod : (8 * n + 1) % 8 = 1 := by omega
      have hdiv : (8 * n + 1) / 8 = n := by omega
      simp [hmod, hdiv, hn, readValue, hlen]
  | @bytes t k bs n ht hn hl =>
      rw [readField, List.append_assoc, Limits.read_append ht]
      have hmod : (8 * n + 2) % 8 = 2 := by omega
      have hdiv : (8 * n + 2) / 8 = n := by omega
      simp [hmod, hdiv, hn, readValue, Limits.read_append hl]
  | @fixed32 t bs n ht hn hlen =>
      rw [readField, List.append_assoc, Limits.read_append ht]
      have hmod : (8 * n + 5) % 8 = 5 := by omega
      have hdiv : (8 * n + 5) / 8 = n := by omega
      simp [hmod, hdiv, hn, readValue, hlen]

/-- A value is read within its bytes, and a tag of its wire type before it makes a field. -/
theorem readValue_some {wire : ℕ} {x : WireValue} (hn : 1 ≤ v ∧ v < L.number)
    (h : readValue L wire l = some (x, n)) :
    ∃ bs rest, l = bs ++ rest ∧ bs.length = n ∧
      ∀ {t : List UInt8}, L.Varint t (8 * v + wire) → IsField L (t ++ bs) (v, x) := by
  unfold readValue at h
  split at h
  · obtain ⟨⟨w, m⟩, hread, heq⟩ := Option.map_eq_some_iff.mp h
    cases heq
    obtain ⟨bs, rest, rfl, rfl, hbs⟩ := Limits.read_some hread
    exact ⟨bs, rest, rfl, rfl, fun ht => .varint ht hn hbs⟩
  · rw [Option.ite_none_right_eq_some] at h
    obtain ⟨hlen, heq⟩ := h
    cases heq
    have htake : (l.take 8).length = 8 := List.length_take_of_le hlen
    exact ⟨l.take 8, l.drop 8, (List.take_append_drop 8 l).symm, htake, fun ht => .fixed64 ht hn htake⟩
  · obtain ⟨⟨w, m⟩, hread, h⟩ := Option.bind_eq_some_iff.mp h
    rw [Option.ite_none_right_eq_some] at h
    obtain ⟨hlen, heq⟩ := h
    cases heq
    obtain ⟨bs, rest, rfl, rfl, hbs⟩ := Limits.read_some hread
    rw [List.drop_left]
    have htake : (rest.take w).length = w := by
      rw [List.length_append] at hlen
      exact List.length_take_of_le (by omega)
    refine ⟨bs ++ rest.take w, rest.drop w, by rw [List.append_assoc, List.take_append_drop], ?_, fun ht => ?_⟩
    · rw [List.length_append, htake]
    · exact .bytes ht hn (by rw [htake]; exact hbs)
  · rw [Option.ite_none_right_eq_some] at h
    obtain ⟨hlen, heq⟩ := h
    cases heq
    have htake : (l.take 4).length = 4 := List.length_take_of_le hlen
    exact ⟨l.take 4, l.drop 4, (List.take_append_drop 4 l).symm, htake, fun ht => .fixed32 ht hn htake⟩
  · cases h

theorem readField_some (h : readField L l = some (f, n)) :
    ∃ bs rest, l = bs ++ rest ∧ bs.length = n ∧ 1 ≤ n ∧ IsField L bs f := by
  obtain ⟨⟨t, m⟩, hread, h⟩ := Option.bind_eq_some_iff.mp h
  rw [Option.ite_none_right_eq_some] at h
  obtain ⟨hn, h⟩ := h
  obtain ⟨⟨x, k⟩, hvalue, heq⟩ := Option.map_eq_some_iff.mp h
  cases heq
  obtain ⟨tag, rest, rfl, rfl, htag⟩ := Limits.read_some hread
  rw [List.drop_left] at hvalue
  obtain ⟨bs, rest, rfl, rfl, hfield⟩ := readValue_some hn hvalue
  refine ⟨tag ++ bs, rest, (List.append_assoc _ _ _).symm, List.length_append, ?_, hfield ?_⟩
  · exact Nat.le_trans htag.1.length_pos (Nat.le_add_right _ _)
  · rw [Nat.div_add_mod]
    exact htag

theorem readField_length (h : readField L l = some (f, n)) : 1 ≤ n ∧ n ≤ l.length := by
  obtain ⟨bs, rest, rfl, rfl, hpos, -⟩ := readField_some h
  exact ⟨hpos, by rw [List.length_append]; exact Nat.le_add_right _ _⟩

/-- The fields of a whole text. -/
def readMessage (L : Limits) (l : List UInt8) : Option (List WireField) :=
  if l = [] then some []
  else
    match _h : readField L l with
    | none => none
    | some (f, n) => (readMessage L (l.drop n)).map (f :: ·)
termination_by l.length
decreasing_by
  have := readField_length _h
  rw [List.length_drop]
  omega

theorem readMessage_cons (h : readField L l = some (f, n)) :
    readMessage L l = (readMessage L (l.drop n)).map (f :: ·) := by
  have hne : l ≠ [] := by
    rintro rfl
    exact absurd (readField_length h) (by simp; omega)
  rw [readMessage, if_neg hne]
  split
  · rename_i hnone
    exact nomatch hnone.symm.trans h
  · rename_i hsome
    cases hsome.symm.trans h
    rfl

theorem readMessage_none (hne : l ≠ []) (h : readField L l = none) : readMessage L l = none := by
  rw [readMessage, if_neg hne]
  split
  · rfl
  · rename_i hsome
    exact nomatch hsome.symm.trans h

/-- The reader accepts just the grammar. -/
theorem readMessage_iff : readMessage L l = some fs ↔ IsMessage L l fs := by
  constructor
  · intro h
    fun_induction readMessage L l generalizing fs with
    | case1 =>
        cases h
        exact .nil
    | case2 => cases h
    | case3 l hne f n hread ih =>
        obtain ⟨gs, hgs, rfl⟩ := Option.map_eq_some_iff.mp h
        obtain ⟨bs, rest, rfl, rfl, -, hf⟩ := readField_some hread
        rw [List.drop_left] at ih hgs
        exact .cons hf (ih hgs)
  · intro h
    induction h with
    | nil => rw [readMessage, if_pos rfl]
    | cons hf _ ih => rw [readMessage_cons (readField_append hf _), List.drop_left, ih, Option.map_some]

/-- A text is that of one list of fields at most. -/
theorem IsMessage.unique {gs : List WireField} (h : IsMessage L l fs) (h' : IsMessage L l gs) : fs = gs :=
  Option.some.inj ((readMessage_iff.mpr h).symm.trans (readMessage_iff.mpr h'))

theorem IsMessage.varint_lt {k : ℕ} (h : IsMessage L l fs) (hmem : v ∈ fs.filterMap (WireField.varintAt k)) :
    v < L.value := by
  induction h with
  | nil => cases hmem
  | @cons b rest f fs hf _ ih =>
      rw [List.filterMap_cons] at hmem
      split at hmem
      · exact ih hmem
      · rename_i c hc
        rcases List.mem_cons.mp hmem with rfl | hmem
        · cases hf with
          | varint _ _ hv =>
              rw [WireField.varintAt, Option.ite_none_right_eq_some] at hc
              cases hc.2
              exact hv.2.2
          | bytes => cases hc
          | fixed64 => cases hc
          | fixed32 => cases hc
        · exact ih hmem

/-- The bytes of a field are among those of the text. -/
theorem IsMessage.bytes_within {k : ℕ} (h : IsMessage L l fs) (hmem : bs ∈ fs.filterMap (WireField.bytesAt k)) :
    bs <:+: l := by
  induction h with
  | nil => cases hmem
  | @cons b rest f fs hf _ ih =>
      rw [List.filterMap_cons] at hmem
      split at hmem
      · exact (ih hmem).trans (List.suffix_append b rest).isInfix
      · rename_i c hc
        rcases List.mem_cons.mp hmem with rfl | hmem
        · have hb : bs <:+: b := by
            cases hf with
            | bytes _ _ _ =>
                rw [WireField.bytesAt, Option.ite_none_right_eq_some] at hc
                cases hc.2
                rw [← List.append_assoc]
                exact (List.suffix_append _ _).isInfix
            | varint => cases hc
            | fixed64 => cases hc
            | fixed32 => cases hc
          exact hb.trans (List.prefix_append b rest).isInfix
        · exact (ih hmem).trans (List.suffix_append b rest).isInfix

end

/-! ### Wider limits -/

section

variable {L M : Limits} {bs : List UInt8}

theorem Limits.Varint.mono (hle : L.value ≤ M.value) {v : ℕ} (h : L.Varint bs v) : M.Varint bs v :=
  ⟨h.1, h.2.1, Nat.lt_of_lt_of_le h.2.2 hle⟩

theorem IsField.mono (hv : L.value ≤ M.value) (hn : L.number ≤ M.number) {f : WireField} (h : IsField L bs f) :
    IsField M bs f := by
  cases h with
  | varint ht hnum h => exact .varint (ht.mono hv) ⟨hnum.1, Nat.lt_of_lt_of_le hnum.2 hn⟩ (h.mono hv)
  | fixed64 ht hnum hlen => exact .fixed64 (ht.mono hv) ⟨hnum.1, Nat.lt_of_lt_of_le hnum.2 hn⟩ hlen
  | bytes ht hnum h => exact .bytes (ht.mono hv) ⟨hnum.1, Nat.lt_of_lt_of_le hnum.2 hn⟩ (h.mono hv)
  | fixed32 ht hnum hlen => exact .fixed32 (ht.mono hv) ⟨hnum.1, Nat.lt_of_lt_of_le hnum.2 hn⟩ hlen

theorem IsMessage.mono (hv : L.value ≤ M.value) (hn : L.number ≤ M.number) {fs : List WireField}
    (h : IsMessage L bs fs) : IsMessage M bs fs := by
  induction h with
  | nil => exact .nil
  | cons hf _ ih => exact .cons (hf.mono hv hn) ih

end

/-! ### Scanners -/

theorem toOption_eq_some {ε α : Type} {x : Except ε α} {a : α} : x.toOption = some a ↔ x = .ok a := by
  cases x with
  | error e => exact ⟨nofun, nofun⟩
  | ok b => exact ⟨fun h => congrArg Except.ok (Option.some.inj h), fun h => congrArg some (Except.ok.inj h)⟩

theorem toOption_bind {ε α β : Type} (x : Except ε α) (f : α → Except ε β) :
    (x >>= f).toOption = x.toOption.bind fun a => (f a).toOption := by
  cases x with
  | error e => rfl
  | ok a => rfl

/-- What is read at a position is the field there, within these limits, with the position after it. -/
def ReadsFields {ε F : Type} (next : List UInt8 → ℕ → Except ε (Option (F × ℕ))) (L : Limits)
    (item : WireField → F) : Prop :=
  ∀ buf pos, (next buf pos).toOption =
    if buf.length ≤ pos then some none
    else (readField L (buf.drop pos)).map fun r => some (item r.1, pos + r.2)

/-- A reader of the item at a position of a buffer, with the position after it. -/
structure Scanner (ε F : Type) where
  next : List UInt8 → ℕ → Except ε (Option (F × ℕ))
  advances : ∀ {buf pos item pos'}, next buf pos = .ok (some (item, pos')) → pos < pos' ∧ pos' ≤ buf.length

namespace Scanner

variable {ε F σ : Type} (c : Scanner ε F)

/-- The loop over the items from a position on. -/
def fold (step : σ → F → Except ε σ) (buf : List UInt8) (pos : ℕ) (s : σ) : Except ε σ :=
  match _h : c.next buf pos with
  | .error e => .error e
  | .ok none => .ok s
  | .ok (some (item, pos')) =>
    match step s item with
    | .error e => .error e
    | .ok s => fold step buf pos' s
termination_by buf.length - pos
decreasing_by
  have := c.advances _h
  omega

/-- The items are those of the fields within these limits. -/
def Scans (L : Limits) (item : WireField → F) : Prop := ReadsFields c.next L item

/-- A reader of fields goes on at each of them. -/
def ofFields {next : List UInt8 → ℕ → Except ε (Option (F × ℕ))} {L : Limits} {item : WireField → F}
    (h : ReadsFields next L item) : Scanner ε F where
  next := next
  advances {buf pos i pos'} hnext := by
    have hscan := h buf pos
    rw [hnext] at hscan
    by_cases hpos : buf.length ≤ pos
    · rw [if_pos hpos] at hscan
      cases hscan
    · rw [if_neg hpos] at hscan
      obtain ⟨⟨f, n⟩, hread, heq⟩ := Option.map_eq_some_iff.mp hscan.symm
      cases heq
      have hlen := readField_length hread
      rw [List.length_drop] at hlen
      omega

variable {c}

/-- The loop goes through a message, and stops in anything else. -/
theorem fold_scans {L : Limits} {item : WireField → F} (hscan : c.Scans L item) (step : σ → F → Except ε σ)
    (buf : List UInt8) (pos : ℕ) (s : σ) :
    (c.fold step buf pos s).toOption =
      (readMessage L (buf.drop pos)).bind fun fs => (fs.foldlM (fun s f => step s (item f)) s).toOption := by
  fun_induction c.fold step buf pos s with
  | case1 pos s e h =>
      have hnext := hscan buf pos
      rw [h] at hnext
      by_cases hpos : buf.length ≤ pos
      · rw [if_pos hpos] at hnext
        cases hnext
      · rw [if_neg hpos] at hnext
        have hread := Option.map_eq_none_iff.mp hnext.symm
        have hne : buf.drop pos ≠ [] := fun h => hpos (List.drop_eq_nil_iff.mp h)
        rw [readMessage_none hne hread]
        rfl
  | case2 pos s h =>
      have hnext := hscan buf pos
      rw [h] at hnext
      by_cases hpos : buf.length ≤ pos
      · rw [List.drop_eq_nil_iff.mpr hpos, readMessage, if_pos rfl]
        rfl
      · rw [if_neg hpos] at hnext
        obtain ⟨r, -, hr⟩ := Option.map_eq_some_iff.mp hnext.symm
        cases hr
  | case3 pos s i pos' h e hstep =>
      have hnext := hscan buf pos
      rw [h] at hnext
      by_cases hpos : buf.length ≤ pos
      · rw [if_pos hpos] at hnext
        cases hnext
      · rw [if_neg hpos] at hnext
        obtain ⟨⟨f, n⟩, hread, hr⟩ := Option.map_eq_some_iff.mp hnext.symm
        cases hr
        rw [readMessage_cons hread]
        cases readMessage L ((buf.drop pos).drop n) with
        | none => rfl
        | some fs =>
            simp only [Option.map_some, Option.bind_some, List.foldlM_cons, hstep]
            rfl
  | case4 pos s i pos' h s' hstep ih =>
      have hnext := hscan buf pos
      rw [h] at hnext
      by_cases hpos : buf.length ≤ pos
      · rw [if_pos hpos] at hnext
        cases hnext
      · rw [if_neg hpos] at hnext
        obtain ⟨⟨f, n⟩, hread, hr⟩ := Option.map_eq_some_iff.mp hnext.symm
        cases hr
        rw [ih, readMessage_cons hread, List.drop_drop]
        cases readMessage L (buf.drop (pos + n)) with
        | none => rfl
        | some fs =>
            simp only [Option.map_some, Option.bind_some, List.foldlM_cons, hstep]
            rfl

/-- An error of the loop is one of an item or of a step. -/
theorem fold_error {E : ε → Prop} (hnext : ∀ buf pos e, c.next buf pos = .error e → E e)
    {step : σ → F → Except ε σ} (hstep : ∀ s item e, step s item = .error e → E e) {buf : List UInt8} {pos : ℕ}
    {s : σ} {e : ε} (h : c.fold step buf pos s = .error e) : E e := by
  fun_induction c.fold step buf pos s with
  | case1 pos s e' hn =>
      cases h
      exact hnext _ _ _ hn
  | case2 => cases h
  | case3 pos s i pos' hn e' hs =>
      cases h
      exact hstep _ _ _ hs
  | case4 pos s i pos' hn s' hs ih => exact ih h

/-- A run of steps that succeeds just on some lists, with a value that each list determines. -/
theorem foldlM_ok_iff {step : σ → F → Except ε σ} {Ok : List F → Prop} {value : List F → σ} (hnil : Ok [])
    (hinit : ∀ fs f, Ok (fs ++ [f]) → Ok fs)
    (hstep : ∀ fs f s, Ok fs → (step (value fs) f = .ok s ↔ Ok (fs ++ [f]) ∧ s = value (fs ++ [f])))
    (fs : List F) (s : σ) : fs.foldlM step (value []) = .ok s ↔ Ok fs ∧ s = value fs := by
  induction fs using List.reverseRecOn generalizing s with
  | nil =>
      rw [List.foldlM_nil]
      constructor
      · intro h
        cases h
        exact ⟨hnil, rfl⟩
      · rintro ⟨-, rfl⟩
        rfl
  | append_singleton fs f ih =>
      rw [List.foldlM_append]
      cases hrun : fs.foldlM step (value []) with
      | error e =>
          refine ⟨nofun, fun h => ?_⟩
          exact nomatch hrun.symm.trans ((ih _).mpr ⟨hinit fs f h.1, rfl⟩)
      | ok t =>
          obtain ⟨hok, rfl⟩ := (ih t).mp hrun
          refine Iff.trans ?_ (hstep fs f s hok)
          show (([f] : List F).foldlM step (value fs)) = .ok s ↔ _
          rw [List.foldlM_cons]
          cases step (value fs) f with
          | error e => exact Iff.rfl
          | ok t => exact Iff.rfl

/-- The loop over a whole buffer, with such steps. -/
theorem fold_ok_iff {L : Limits} {item : WireField → F} (hscan : c.Scans L item) {step : σ → F → Except ε σ}
    {Ok : List WireField → Prop} {value : List WireField → σ} (hnil : Ok [])
    (hinit : ∀ fs f, Ok (fs ++ [f]) → Ok fs)
    (hstep : ∀ fs f s, Ok fs → (step (value fs) (item f) = .ok s ↔ Ok (fs ++ [f]) ∧ s = value (fs ++ [f])))
    (buf : List UInt8) (s : σ) :
    c.fold step buf 0 (value []) = .ok s ↔ ∃ fs, IsMessage L buf fs ∧ Ok fs ∧ s = value fs := by
  have hrun := fold_scans hscan step buf 0 (value [])
  rw [List.drop_zero] at hrun
  rw [← toOption_eq_some, hrun, Option.bind_eq_some_iff]
  refine exists_congr fun fs => ?_
  rw [readMessage_iff, toOption_eq_some, foldlM_ok_iff hnil hinit hstep]

end Scanner

end LoraMesh
