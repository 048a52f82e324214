import Mathlib.Data.Nat.Digits.Lemmas
import Mathlib.Algebra.BigOperators.Group.List.Basic
import LoraMesh.Lib.Bytes

/-!
# Lib — JSON texts

* `Json`: values of numbers, booleans, plain strings and objects, and their compact `text`.
* `IsObject bytes fields`: the bytes are the whole text of an object with just these fields, in any
  order; `length_of_isObject` is its length, `isObject_self` one such text.
* `decimal`: the digits of a number; `length_decimal_le` is how many.
-/

namespace LoraMesh

/-- The decimal digits of a number. -/
def decimal (n : ℕ) : List UInt8 :=
  if n = 0 then [48] else ((Nat.digits 10 n).map fun d => UInt8.ofNat (48 + d)).reverse

theorem length_decimal_le {n k : ℕ} (hk : 1 ≤ k) : (decimal n).length ≤ k ↔ n < 10 ^ k := by
  unfold decimal
  split
  · rename_i h
    subst h
    simp [hk]
  · rw [List.length_reverse, List.length_map, Nat.digits_length_le_iff (by decide)]

/-- A byte that a JSON string holds as it is. -/
def plainByte (b : UInt8) : Bool := 0x20 ≤ b && b < 0x7f && b != 0x22 && b != 0x5c

/-- A string that needs no escape. -/
abbrev Plain := { s : List UInt8 // s.all plainByte = true }

/-- JSON values, of the kinds that occur. -/
inductive Json where
  | num (n : ℕ)
  | bool (b : Bool)
  | str (s : Plain)
  | obj (fields : List (Plain × Json))

namespace Json

/-- A string in quotes. -/
def quoted (s : Plain) : List UInt8 := 0x22 :: (s.1 ++ [0x22])

mutual

/-- The compact text of a value. -/
def text : Json → List UInt8
  | num n => decimal n
  | bool true => ascii "true"
  | bool false => ascii "false"
  | str s => quoted s
  | obj fields => 0x7b :: (members fields ++ [0x7d])

/-- The members of an object, with commas between them. -/
def members : List (Plain × Json) → List UInt8
  | [] => []
  | [f] => quoted f.1 ++ 0x3a :: text f.2
  | f :: g :: fs => quoted f.1 ++ 0x3a :: text f.2 ++ 0x2c :: members (g :: fs)

end

/-- The bytes are the text of one object that has just these fields. -/
def IsObject (bytes : List UInt8) (fields : List (Plain × Json)) : Prop :=
  ∃ fs : List (Plain × Json), fs.Perm fields ∧ bytes = text (obj fs)

theorem isObject_self (fields : List (Plain × Json)) : IsObject (text (obj fields)) fields :=
  ⟨fields, .refl _, rfl⟩

/-- The length of a member with its comma. -/
def memberLength (f : Plain × Json) : ℕ := (quoted f.1).length + 1 + (text f.2).length + 1

theorem length_members : ∀ fs : List (Plain × Json), fs ≠ [] →
    (members fs).length + 1 = (fs.map memberLength).sum
  | [], h => absurd rfl h
  | [f], _ => by
      simp only [members, memberLength, List.length_append, List.length_cons, List.map_cons, List.map_nil,
        List.sum_cons, List.sum_nil]
      omega
  | f :: g :: fs, _ => by
      have ih := length_members (g :: fs) (List.cons_ne_nil g fs)
      rw [members]
      simp only [List.length_append, List.length_cons, List.map_cons, List.sum_cons] at ih ⊢
      simp only [memberLength] at ih ⊢
      omega

/-- An object's text is as long in any order of its fields. -/
theorem length_of_isObject {bytes : List UInt8} {fields : List (Plain × Json)} (h : IsObject bytes fields) :
    bytes.length = (text (obj fields)).length := by
  obtain ⟨fs, hperm, rfl⟩ := h
  have hmembers : (members fs).length = (members fields).length := by
    rcases eq_or_ne fields [] with rfl | hne
    · rw [List.Perm.eq_nil hperm]
    · have hfs : fs ≠ [] := fun h => hne (List.Perm.eq_nil (h ▸ hperm).symm)
      have hsum : (fs.map memberLength).sum = (fields.map memberLength).sum := (hperm.map memberLength).sum_eq
      have h₁ := length_members fs hfs
      have h₂ := length_members fields hne
      omega
  simp only [text, List.length_cons, List.length_append, hmembers]

end Json

end LoraMesh
