import Mathlib.Algebra.Group.Nat.Defs
import Mathlib.Algebra.Group.Basic
import Mathlib.Data.List.Induction

/-!
# Lib — byte strings of fixed length, big-endian numerals and readers

* `Bytes n`: the byte strings of length `n`.
* `beNat n x`: the `n`-byte big-endian numeral of `x` modulo `256 ^ n`; `ofBeNat` reads one
  back (`ofBeNat_beNat`, `beNat_ofBeNat`).
* `Reader ε`: a parser that consumes a byte string from the left and fails with an `ε`.
  `r.Reads p bs a` says that before any further bytes `r` accepts `bs` exactly when `p`, and
  then consumes just `bs` and returns `a`; the rules `Reads.pure`, `Reads.bind`, `Reads.check`
  and `Reads.times` follow the reader's own construction.
* `r.Ensures P`: whatever `r` returns meets `P`, with the like rules.
-/

namespace LoraMesh

/-- The bytes of an ASCII literal. -/
def ascii (s : String) : List UInt8 := s.toList.map fun c => c.toUInt8

/-- The byte strings of length `n`. -/
abbrev Bytes (n : ℕ) := { l : List UInt8 // l.length = n }

namespace Bytes

/-- `n` zero bytes. -/
def zero (n : ℕ) : Bytes n := ⟨List.replicate n 0, List.length_replicate⟩

/-- `a` followed by `b`. -/
def append {m n : ℕ} (a : Bytes m) (b : Bytes n) : Bytes (m + n) :=
  ⟨a.1 ++ b.1, by rw [List.length_append, a.2, b.2]⟩

@[simp] theorem append_val {m n : ℕ} (a : Bytes m) (b : Bytes n) :
    (a.append b).1 = a.1 ++ b.1 := rfl

@[simp] theorem length_val {n : ℕ} (a : Bytes n) : a.1.length = n := a.2

end Bytes

/-- The `n` bytes of `l` from position `i` on. -/
def slice (l : List UInt8) (i n : ℕ) (h : i + n ≤ l.length) : Bytes n :=
  ⟨(l.drop i).take n, by rw [List.length_take, List.length_drop]; omega⟩

@[simp] theorem slice_val (l : List UInt8) (i n : ℕ) (h : i + n ≤ l.length) :
    (slice l i n h).1 = (l.drop i).take n := rfl

theorem slice_eq {l a b c : List UInt8} {i n : ℕ} {h : i + n ≤ l.length} {x : Bytes n}
    (hl : l = a ++ (b ++ c)) (hi : a.length = i) (hx : x.1 = b) : slice l i n h = x := by
  subst hl hi
  refine Subtype.ext ?_
  rw [slice_val, List.drop_left, hx]
  exact List.take_left' (hx ▸ x.2)

theorem drop_eq_slice_append (l : List UInt8) (i n : ℕ) (h : i + n ≤ l.length) :
    l.drop i = (slice l i n h).1 ++ l.drop (i + n) := by
  rw [slice_val, ← List.drop_drop, List.take_append_drop]

theorem eq_getElem_cons_drop {l : List UInt8} (h : 0 < l.length) : l = l[0] :: l.drop 1 := by
  cases l with
  | nil => exact absurd h (Nat.lt_irrefl 0)
  | cons a l => rfl

/-! ### Big-endian numerals -/

/-- The `n`-byte big-endian numeral of `x`. -/
def beNat : ℕ → ℕ → List UInt8
  | 0, _ => []
  | n + 1, x => beNat n (x / 256) ++ [UInt8.ofNat x]

/-- The number a big-endian numeral denotes. -/
def ofBeNat (l : List UInt8) : ℕ := l.foldl (fun a b => a * 256 + b.toNat) 0

@[simp] theorem length_beNat : ∀ n x : ℕ, (beNat n x).length = n
  | 0, _ => rfl
  | n + 1, x => by rw [beNat, List.length_append, length_beNat n, List.length_singleton]

theorem ofBeNat_append_singleton (l : List UInt8) (b : UInt8) :
    ofBeNat (l ++ [b]) = ofBeNat l * 256 + b.toNat := by
  rw [ofBeNat, List.foldl_append]; rfl

theorem ofBeNat_beNat : ∀ n x : ℕ, ofBeNat (beNat n x) = x % 256 ^ n
  | 0, x => by rw [pow_zero, Nat.mod_one]; rfl
  | n + 1, x => by
      have hlow : (UInt8.ofNat x).toNat = x % 256 := UInt8.toNat_ofNat'
      rw [beNat, ofBeNat_append_singleton, ofBeNat_beNat n, hlow, Nat.pow_succ,
        Nat.mul_comm (256 ^ n), Nat.mod_mul]
      omega

theorem ofBeNat_lt : ∀ l : List UInt8, ofBeNat l < 256 ^ l.length := by
  intro l
  induction l using List.reverseRecOn with
  | nil => exact Nat.one_pos
  | append_singleton l b ih =>
      rw [ofBeNat_append_singleton, List.length_append, List.length_singleton, pow_succ]
      have := b.toNat_lt
      omega

/-- A numeral is determined by its length and its value. -/
theorem beNat_ofBeNat (l : List UInt8) : beNat l.length (ofBeNat l) = l := by
  induction l using List.reverseRecOn with
  | nil => rfl
  | append_singleton l b ih =>
      have hb := b.toNat_lt
      have hdiv : (ofBeNat l * 256 + b.toNat) / 256 = ofBeNat l := by omega
      have hlow : UInt8.ofNat (ofBeNat l * 256 + b.toNat) = b := by
        apply UInt8.toNat_inj.mp
        rw [UInt8.toNat_ofNat']
        omega
      rw [ofBeNat_append_singleton, List.length_append, List.length_singleton, beNat, hdiv, ih,
        hlow]

/-- `to_be_bytes` at the three widths the formats use, and their inverses. -/
def be16 (x : UInt16) : List UInt8 := beNat 2 x.toNat

def be32 (x : UInt32) : List UInt8 := beNat 4 x.toNat

def be64 (x : UInt64) : List UInt8 := beNat 8 x.toNat

def ofBe16 (l : List UInt8) : UInt16 := UInt16.ofNat (ofBeNat l)

def ofBe32 (l : List UInt8) : UInt32 := UInt32.ofNat (ofBeNat l)

def ofBe64 (l : List UInt8) : UInt64 := UInt64.ofNat (ofBeNat l)

@[simp] theorem length_be16 (x : UInt16) : (be16 x).length = 2 := length_beNat 2 _

@[simp] theorem length_be32 (x : UInt32) : (be32 x).length = 4 := length_beNat 4 _

@[simp] theorem length_be64 (x : UInt64) : (be64 x).length = 8 := length_beNat 8 _

@[simp] theorem ofBe32_be32 (x : UInt32) : ofBe32 (be32 x) = x := by
  apply UInt32.toNat_inj.mp
  have := x.toNat_lt
  rw [ofBe32, be32, ofBeNat_beNat, UInt32.toNat_ofNat']
  omega

@[simp] theorem ofBe64_be64 (x : UInt64) : ofBe64 (be64 x) = x := by
  apply UInt64.toNat_inj.mp
  have := x.toNat_lt
  rw [ofBe64, be64, ofBeNat_beNat, UInt64.toNat_ofNat']
  omega

@[simp] theorem ofBe16_be16 (x : UInt16) : ofBe16 (be16 x) = x := by
  apply UInt16.toNat_inj.mp
  have := x.toNat_lt
  rw [ofBe16, be16, ofBeNat_beNat, UInt16.toNat_ofNat']
  omega

theorem be16_ofBe16 {l : List UInt8} (h : l.length = 2) : be16 (ofBe16 l) = l := by
  have hlt := ofBeNat_lt l
  rw [h] at hlt
  have hval : (ofBe16 l).toNat = ofBeNat l :=
    UInt16.toNat_ofNat'.trans (Nat.mod_eq_of_lt (Nat.lt_of_lt_of_le hlt (by decide)))
  rw [be16, hval, ← h, beNat_ofBeNat]

theorem be32_ofBe32 {l : List UInt8} (h : l.length = 4) : be32 (ofBe32 l) = l := by
  have hlt := ofBeNat_lt l
  rw [h] at hlt
  have hval : (ofBe32 l).toNat = ofBeNat l :=
    UInt32.toNat_ofNat'.trans (Nat.mod_eq_of_lt (Nat.lt_of_lt_of_le hlt (by decide)))
  rw [be32, hval, ← h, beNat_ofBeNat]

theorem be64_ofBe64 {l : List UInt8} (h : l.length = 8) : be64 (ofBe64 l) = l := by
  have hlt := ofBeNat_lt l
  rw [h] at hlt
  have hval : (ofBe64 l).toNat = ofBeNat l :=
    UInt64.toNat_ofNat'.trans (Nat.mod_eq_of_lt (Nat.lt_of_lt_of_le hlt (by decide)))
  rw [be64, hval, ← h, beNat_ofBeNat]

theorem be32_injective : Function.Injective be32 :=
  Function.LeftInverse.injective ofBe32_be32

theorem be64_injective : Function.Injective be64 :=
  Function.LeftInverse.injective ofBe64_be64

/-! ### Readers -/

/-- A parser over a byte string, failing with an `ε`. -/
abbrev Reader (ε : Type) := StateT (List UInt8) (Except ε)

namespace Reader

variable {ε α β : Type}

/-- The next `n` bytes, or `e` when fewer are left. -/
def bytes (e : ε) (n : ℕ) : Reader ε (Bytes n) := fun l =>
  if h : n ≤ l.length then .ok (slice l 0 n (by omega), l.drop n) else .error e

def u8 (e : ε) : Reader ε UInt8 := fun l =>
  match l with
  | [] => .error e
  | b :: l => .ok (b, l)

def u32 (e : ε) : Reader ε UInt32 := do return ofBe32 (← bytes e 4).1

def u64 (e : ε) : Reader ε UInt64 := do return ofBe64 (← bytes e 8).1

/-- Fail with `e` unless `p`. -/
def check (e : ε) (p : Bool) : Reader ε Unit := if p then pure () else throw e

/-- The results of running `r` `n` times. -/
def times (r : Reader ε α) : ℕ → Reader ε (List α)
  | 0 => pure []
  | n + 1 => do
      let a ← r
      let l ← times r n
      return a :: l

/-- Before any further bytes `r` accepts `bs` exactly when `p`, consuming just `bs` and
returning `a`. -/
def Reads (p : Prop) (r : Reader ε α) (bs : List UInt8) (a : α) : Prop :=
  ∀ rest x, r (bs ++ rest) = .ok x ↔ p ∧ x = (a, rest)

theorem Reads.congr {p q : Prop} {r : Reader ε α} {bs cs : List UInt8} {a b : α}
    (h : Reads p r bs a) (hp : p ↔ q) (hb : bs = cs) (ha : a = b) : Reads q r cs b := by
  subst hb ha
  exact fun rest x => (h rest x).trans (and_congr_left' hp)

theorem Reads.pure (a : α) : Reads True (pure a : Reader ε α) [] a := fun rest x => by
  show Except.ok (a, rest) = Except.ok x ↔ _
  rw [Except.ok.injEq, true_and, eq_comm]

theorem Reads.bind {p q : Prop} {r : Reader ε α} {f : α → Reader ε β} {bs cs : List UInt8}
    {a : α} {b : β} (hr : Reads p r bs a) (hf : Reads q (f a) cs b) :
    Reads (p ∧ q) (r >>= f) (bs ++ cs) b := fun rest x => by
  show (r (bs ++ cs ++ rest)).bind (fun y => f y.1 y.2) = _ ↔ _
  rw [List.append_assoc]
  cases hy : r (bs ++ (cs ++ rest)) with
  | error e =>
      have hp : ¬ p := fun hp => by
        have := (hr (cs ++ rest) _).mpr ⟨hp, rfl⟩
        rw [hy] at this
        cases this
      exact ⟨fun h => (by cases h), fun h => absurd h.1.1 hp⟩
  | ok y =>
      obtain ⟨hp, rfl⟩ := (hr _ _).mp hy
      exact (hf rest x).trans ⟨fun h => ⟨⟨hp, h.1⟩, h.2⟩, fun h => ⟨h.1.2, h.2⟩⟩

/-- A check, then the rest. -/
theorem Reads.check {p : Bool} {q : Prop} (e : ε) {r : Reader ε α} {bs : List UInt8} {a : α}
    (hr : Reads q r bs a) : Reads (p = true ∧ q) (check e p >>= fun _ => r) bs a := by
  have hcheck : Reads (p = true) (Reader.check e p) [] () := by
    intro rest x
    cases p with
    | true => exact (Reads.pure () rest x).trans ⟨fun h => ⟨rfl, h.2⟩, fun h => ⟨trivial, h.2⟩⟩
    | false => exact ⟨fun h => (by cases h), fun h => (by cases h.1)⟩
  exact hcheck.bind hr

/-- A reader of one value, then the rest. -/
theorem Reads.cons {p q : Prop} {r : Reader ε α} {f : α → Reader ε β} {bs cs : List UInt8}
    {a : α} {b : β} (hr : Reads p r bs a) (hp : p) (hf : Reads q (f a) cs b) :
    Reads q (r >>= f) (bs ++ cs) b :=
  (hr.bind hf).congr (and_iff_right hp) rfl rfl

theorem Reads.bytes (e : ε) {n : ℕ} (a : Bytes n) : Reads True (bytes e n) a.1 a := fun rest x => by
  have hle : n ≤ (a.1 ++ rest).length := by rw [List.length_append, a.2]; omega
  rw [Reader.bytes, dif_pos hle]
  have htake : slice (a.1 ++ rest) 0 n (by omega) = a :=
    Subtype.ext (by rw [slice_val, List.drop_zero]; exact List.take_left' a.2)
  rw [htake, List.drop_left' a.2, Except.ok.injEq, true_and, eq_comm]

theorem Reads.u8 (e : ε) (b : UInt8) : Reads True (u8 e) [b] b := fun rest x => by
  show Except.ok (b, rest) = Except.ok x ↔ _
  rw [Except.ok.injEq, true_and, eq_comm]

theorem Reads.u32 (e : ε) (x : UInt32) : Reads True (u32 e) (be32 x) x :=
  ((Reads.bytes e (⟨be32 x, length_be32 x⟩ : Bytes 4)).bind
    (f := fun b : Bytes 4 => (Pure.pure (ofBe32 b.1) : Reader ε UInt32)) (Reads.pure _)).congr
    and_self_iff (List.append_nil _) (ofBe32_be32 x)

theorem Reads.u64 (e : ε) (x : UInt64) : Reads True (u64 e) (be64 x) x :=
  ((Reads.bytes e (⟨be64 x, length_be64 x⟩ : Bytes 8)).bind
    (f := fun b : Bytes 8 => (Pure.pure (ofBe64 b.1) : Reader ε UInt64)) (Reads.pure _)).congr
    and_self_iff (List.append_nil _) (ofBe64_be64 x)

/-- Reading `n` items written one after another. -/
theorem Reads.times {r : Reader ε α} {p : α → Prop} {w : α → List UInt8}
    (h : ∀ a, Reads (p a) r (w a) a) :
    ∀ l : List α, Reads (∀ a ∈ l, p a) (times r l.length) (l.flatMap w) l
  | [] => (Reads.pure []).congr (by simp) rfl rfl
  | a :: l => by
      refine ((h a).bind ((Reads.times h l).bind (Reads.pure (a :: l)))).congr ?_ ?_ rfl
      · rw [List.forall_mem_cons, and_true]
      · rw [List.flatMap_cons, List.append_nil]

/-! #### What an accepted string begins with -/

theorem bind_ok {r : Reader ε α} {f : α → Reader ε β} {l : List UInt8} {x : β × List UInt8}
    (h : (r >>= f) l = .ok x) : ∃ a l', r l = .ok (a, l') ∧ f a l' = .ok x := by
  have h : (r l).bind (fun y => f y.1 y.2) = .ok x := h
  cases hr : r l with
  | error e =>
      rw [hr] at h
      cases h
  | ok y =>
      rw [hr] at h
      exact ⟨y.1, y.2, rfl, h⟩

theorem check_ok {e : ε} {p : Bool} {l : List UInt8} {x : Unit × List UInt8}
    (h : Reader.check e p l = .ok x) : p = true ∧ x.2 = l := by
  cases p with
  | true => cases h; exact ⟨rfl, rfl⟩
  | false => cases h

theorem bytes_ok {e : ε} {n : ℕ} {l : List UInt8} {x : Bytes n × List UInt8}
    (h : Reader.bytes e n l = .ok x) : l = x.1.1 ++ x.2 := by
  unfold Reader.bytes at h
  split at h
  · cases h
    rw [slice_val, List.drop_zero, List.take_append_drop]
  · cases h

theorem u8_ok {e : ε} {l : List UInt8} {x : UInt8 × List UInt8} (h : Reader.u8 e l = .ok x) :
    l = x.1 :: x.2 := by
  unfold Reader.u8 at h
  split at h
  · cases h
  · cases h
    rfl

/-! #### What is returned -/

/-- Whatever `r` returns meets `P`. -/
def Ensures (r : Reader ε α) (P : α → Prop) : Prop := ∀ l x, r l = .ok x → P x.1

theorem Ensures.pure {P : α → Prop} {a : α} (h : P a) : Ensures (pure a : Reader ε α) P :=
  fun _ x hx => by
    obtain rfl : (a, _) = x := Except.ok.inj hx
    exact h

theorem Ensures.bind {r : Reader ε α} {f : α → Reader ε β} {P : α → Prop} {Q : β → Prop}
    (hr : Ensures r P) (hf : ∀ a, P a → Ensures (f a) Q) : Ensures (r >>= f) Q := fun l x hx => by
  cases hy : r l with
  | error e =>
      have hx : (r l).bind (fun y => f y.1 y.2) = .ok x := hx
      rw [hy] at hx
      cases hx
  | ok y =>
      have hx : (r l).bind (fun y => f y.1 y.2) = .ok x := hx
      rw [hy] at hx
      exact hf y.1 (hr l y hy) y.2 x hx

/-- A reader nothing is known of, then the rest. -/
theorem Ensures.skip {r : Reader ε α} {f : α → Reader ε β} {Q : β → Prop}
    (hf : ∀ a, Ensures (f a) Q) : Ensures (r >>= f) Q :=
  Ensures.bind (P := fun _ => True) (fun _ _ _ => trivial) fun a _ => hf a

theorem Ensures.check {p : Bool} {e : ε} {r : Reader ε α} {Q : α → Prop}
    (hr : p = true → Ensures r Q) : Ensures (check e p >>= fun _ => r) Q := by
  cases p with
  | true => exact Ensures.skip fun _ => hr rfl
  | false => exact fun _ _ hx => nomatch hx

theorem Ensures.times {r : Reader ε α} {P : α → Prop} (hr : Ensures r P) :
    ∀ n, Ensures (times r n) fun l => ∀ a ∈ l, P a
  | 0 => Ensures.pure fun _ h => nomatch h
  | n + 1 => hr.bind fun _ ha => (Ensures.times hr n).bind fun _ hl =>
      Ensures.pure (List.forall_mem_cons.mpr ⟨ha, hl⟩)

theorem Ensures.times_length (r : Reader ε α) :
    ∀ n, Ensures (Reader.times r n) fun l => l.length = n
  | 0 => Ensures.pure rfl
  | n + 1 => Ensures.skip fun _ => (Ensures.times_length r n).bind fun _ hl =>
      Ensures.pure (congrArg (· + 1) hl)

end Reader

end LoraMesh
