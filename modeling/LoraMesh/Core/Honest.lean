import LoraMesh.Core.Pairing

/-!
# Core — Honest

What the primitives promise each other: what one of them makes, its counterpart takes back.

* `Honest`: decryption inverts encryption, signatures verify, and two sides of a key exchange
  compute one secret.
* `decryptData_encryptData`: the same of the wrappers, ciphertext and tag in one string.
-/

namespace LoraMesh

/-- The primitives invert each other; `base` is the base point of the key exchange. -/
structure Honest (C : Crypto) (base : Bytes 32) : Prop where
  opens : ∀ k n a p, C.decryptInPlace k n a (C.encryptInPlace k n a p).1 (C.encryptInPlace k n a p).2 = some p
  verifies : ∀ k m, C.edVerify (C.edPublic k) m (C.edSign k m) = true
  agrees : ∀ a b, C.x25519 a (C.x25519 b base) = C.x25519 b (C.x25519 a base)

variable {C : Crypto} {base : Bytes 32}

/-- What is encrypted decrypts to itself, into a buffer that holds it. -/
theorem Honest.decryptData_encryptData (h : Honest C base) {key : Bytes 32} {n : Bytes 12} {aad p ct : List UInt8}
    {outLen ptLen : ℕ} (henc : encryptData C key n aad p outLen = .ok ct) (hlen : p.length ≤ ptLen) :
    decryptData C key n aad ct ptLen = .ok p := by
  unfold encryptData at henc
  split at henc
  · cases henc
  cases henc
  have hct : ((C.encryptInPlace key n aad p).1 ++ (C.encryptInPlace key n aad p).2.1).length = p.length + tagLen := by
    rw [List.length_append, C.length_encryptInPlace, Bytes.length_val]
  have hpt : p.length + tagLen - tagLen = p.length := Nat.add_sub_cancel _ _
  unfold decryptData
  rw [dif_neg (by omega)]
  dsimp only
  rw [if_neg (by omega)]
  have htake : List.take (((C.encryptInPlace key n aad p).1 ++ (C.encryptInPlace key n aad p).2.1).length - tagLen)
      ((C.encryptInPlace key n aad p).1 ++ (C.encryptInPlace key n aad p).2.1) = (C.encryptInPlace key n aad p).1 := by
    rw [hct, hpt, ← C.length_encryptInPlace key n aad p, List.take_left]
  have hslice (hle) : slice ((C.encryptInPlace key n aad p).1 ++ (C.encryptInPlace key n aad p).2.1)
      (((C.encryptInPlace key n aad p).1 ++ (C.encryptInPlace key n aad p).2.1).length - tagLen) 16 hle =
        (C.encryptInPlace key n aad p).2 := by
    refine slice_eq (c := []) (by rw [List.append_nil]) ?_ rfl
    rw [hct, hpt, C.length_encryptInPlace]
  rw [htake, hslice, h.opens]

namespace Sample

theorem x25519_val (a b : Bytes 32) : ofBeNat (crypto.x25519 a b).1 = ofBeNat a.1 * ofBeNat b.1 % modulus := by
  have hlt : ofBeNat a.1 * ofBeNat b.1 % modulus < 256 ^ 32 :=
    (Nat.mod_lt _ (by decide)).trans (by decide)
  dsimp only [crypto]
  rw [ofBeNat_beNat, Nat.mod_eq_of_lt hlt]

theorem honest (base : Bytes 32) : Honest crypto base where
  opens := by
    intro k n a p
    dsimp only [crypto]
    exact if_pos rfl
  verifies := by
    intro k m
    dsimp only [crypto]
    exact beq_self_eq_true _
  agrees := by
    intro a b
    have hval (x y : Bytes 32) :
        crypto.x25519 x y = ⟨beNat 32 (ofBeNat x.1 * ofBeNat y.1 % modulus), length_beNat 32 _⟩ := by
      dsimp only [crypto]
    rw [hval a (crypto.x25519 b base), hval b (crypto.x25519 a base), Subtype.mk.injEq, x25519_val, x25519_val,
      Nat.mul_mod_mod, Nat.mul_mod_mod, Nat.mul_left_comm]

end Sample

end LoraMesh
