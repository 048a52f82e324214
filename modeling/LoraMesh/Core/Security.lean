import LoraMesh.Core.Frame
import LoraMesh.Lib.Window
import Mathlib.Data.Fin.VecNotation

/-!
# Core — Security

Key derivation, nonces, frame associated data, AEAD wrappers, replay windows and receive-window
anchors (`mesh-core/src/security.rs`), with the checked and saturating word operations they use.

The third-party primitives are the fields of `Crypto`; nothing is assumed of them here beyond
the lengths that their in-place interfaces fix.  `ReplayWindow.toWindow` reads a replay window
as a sliding window of width 64, and `accept_toWindow` says `accept` is `Window.offer` there.
-/

namespace LoraMesh

/-! ### Word arithmetic -/

/-- `a.saturating_sub(b)` at `u32`. -/
def satSub32 (a b : UInt32) : UInt32 := if b ≤ a then a - b else 0

/-- `a.saturating_add(b)` at `u32`. -/
def satAdd32 (a b : UInt32) : UInt32 :=
  if a.toNat + b.toNat < 2 ^ 32 then a + b else 0xFFFFFFFF

/-- `a.checked_add(b)` at `u64`. -/
def checkedAdd64 (a b : UInt64) : Option UInt64 :=
  if a.toNat + b.toNat < 2 ^ 64 then some (a + b) else none

/-- `a.checked_sub(b)` at `u64`. -/
def checkedSub64 (a b : UInt64) : Option UInt64 := if b ≤ a then some (a - b) else none

theorem checkedAdd64_eq_some {a b c : UInt64} :
    checkedAdd64 a b = some c ↔ c.toNat = a.toNat + b.toNat := by
  unfold checkedAdd64
  have hc := c.toNat_lt
  split
  · rename_i h
    rw [Option.some.injEq, ← UInt64.toNat_inj, UInt64.toNat_add]
    omega
  · rename_i h
    constructor
    · intro hs; cases hs
    · intro hs; exact absurd (hs ▸ hc) h

/-! ### The third-party primitives -/

/-- `sha2`, `hkdf`, `hmac`, `chacha20poly1305`, `ed25519-dalek` and `x25519-dalek`. -/
structure Crypto where
  sha256 : List UInt8 → Bytes 32
  /-- Salt, input key material and info to a 32-byte output. -/
  hkdf : Option (List UInt8) → List UInt8 → List UInt8 → Bytes 32
  hmac : List UInt8 → List UInt8 → Bytes 32
  /-- Key, nonce, associated data and plaintext to the ciphertext written over the plaintext,
  and the tag. -/
  encryptInPlace : Bytes 32 → Bytes 12 → List UInt8 → List UInt8 → List UInt8 × Bytes 16
  decryptInPlace : Bytes 32 → Bytes 12 → List UInt8 → List UInt8 → Bytes 16 → Option (List UInt8)
  length_encryptInPlace : ∀ k n a p, (encryptInPlace k n a p).1.length = p.length
  length_decryptInPlace : ∀ k n a c t p, decryptInPlace k n a c t = some p → p.length = c.length
  edPublic : Bytes 32 → Bytes 32
  edSign : Bytes 32 → List UInt8 → Bytes 64
  /-- `VerifyingKey::from_bytes` succeeds and `verify_strict` accepts. -/
  edVerify : Bytes 32 → List UInt8 → Bytes 64 → Bool
  x25519 : Bytes 32 → Bytes 32 → Bytes 32

abbrev offerLen : ℕ := 97

def domainPair : List UInt8 := ascii "LMESH-PAIR-v1"
def domainFrame : List UInt8 := ascii "LMESH-frame-v1"
def labelRoot : List UInt8 := ascii "LMESH-root-v1"
def labelSetupLR : List UInt8 := ascii "LMESH-setup-LR-v1"
def labelSetupRL : List UInt8 := ascii "LMESH-setup-RL-v1"
def labelTrafficLR : List UInt8 := ascii "LMESH-traffic-LR-v1"
def labelTrafficRL : List UInt8 := ascii "LMESH-traffic-RL-v1"
def labelAddress : List UInt8 := ascii "LMESH-address-v1"
def labelConfirm : List UInt8 := ascii "LMESH-confirm-v1"
def labelHour : List UInt8 := ascii "LMESH-hour-v1"

/-- The AEAD failure modes. -/
inductive CryptoError where
  | bufferTooSmall
  | badTag
  deriving DecidableEq

section Primitives

variable (C : Crypto)

/-- The pairing transcript of the ordered offer payloads. -/
def transcriptT (l r : Bytes offerLen) : Bytes 32 := C.sha256 (domainPair ++ l.1 ++ r.1)

def deriveRoot (dh t : Bytes 32) : Bytes 32 := C.hkdf (some t.1) dh.1 labelRoot

def deriveLabel (root : Bytes 32) (label : List UInt8) : Bytes 32 := C.hkdf none root.1 label

def hourlyKey (dirRoot : Bytes 32) (epoch : UInt32) : Bytes 32 :=
  C.hkdf none dirRoot.1 (labelHour ++ be32 epoch)

/-- `epoch_be32 || seq_be64`. -/
def nonce (epoch : UInt32) (seq : UInt64) : Bytes 12 :=
  Bytes.append ⟨be32 epoch, length_be32 epoch⟩ ⟨be64 seq, length_be64 seq⟩

/-- Domain, then every header byte but the hop count, then the body length. -/
def frameAad (h : Header) (bodyLen : UInt8) : List UInt8 :=
  domainFrame ++ ([h.version, h.flags] ++ (be32 h.dst ++ (be32 h.src ++ (be32 h.packetId ++
    (be32 h.epoch ++ (be64 h.sequence ++ [bodyLen]))))))

/-- Ciphertext followed by the tag, into a buffer of `outLen` bytes. -/
def encryptData (key : Bytes 32) (nonce12 : Bytes 12) (aad plaintext : List UInt8) (outLen : ℕ) :
    Except CryptoError (List UInt8) :=
  if outLen < plaintext.length + tagLen then .error .bufferTooSmall
  else
    let r := C.encryptInPlace key nonce12 aad plaintext
    .ok (r.1 ++ r.2.1)

theorem tag_fits {ctAndTag : List UInt8} (hlen : ¬ ctAndTag.length < tagLen) :
    ctAndTag.length - tagLen + 16 ≤ ctAndTag.length := by
  simp only [tagLen] at hlen ⊢
  omega

/-- The plaintext of a ciphertext with its tag, into a buffer of `outLen` bytes. -/
def decryptData (key : Bytes 32) (nonce12 : Bytes 12) (aad ctAndTag : List UInt8) (outLen : ℕ) :
    Except CryptoError (List UInt8) :=
  if hlen : ctAndTag.length < tagLen then .error .bufferTooSmall
  else
    let ptLen := ctAndTag.length - tagLen
    if outLen < ptLen then .error .bufferTooSmall
    else
      have htag : ptLen + 16 ≤ ctAndTag.length := tag_fits hlen
      match C.decryptInPlace key nonce12 aad (ctAndTag.take ptLen) (slice ctAndTag ptLen 16 htag) with
      | some pt => .ok pt
      | none => .error .badTag

/-- A plaintext that fits with its tag is encrypted. -/
theorem encryptData_ok {key : Bytes 32} {n : Bytes 12} {aad p : List UInt8} {outLen : ℕ}
    (h : p.length + tagLen ≤ outLen) :
    ∃ ct, encryptData C key n aad p outLen = .ok ct ∧ ct.length = p.length + tagLen :=
  ⟨_, if_neg (Nat.not_lt.mpr h), by rw [List.length_append, C.length_encryptInPlace, Bytes.length_val]⟩

theorem nonce_injective {e e' : UInt32} {s s' : UInt64} (h : nonce e s = nonce e' s') :
    e = e' ∧ s = s' := by
  have hv := congrArg Subtype.val h
  obtain ⟨h₁, h₂⟩ := List.append_inj hv (by simp)
  exact ⟨be32_injective h₁, be64_injective h₂⟩

/-- The associated data fixes every header field but the hop count, and the body length. -/
theorem frameAad_injective {h h' : Header} {n n' : UInt8} (ha : frameAad h n = frameAad h' n') :
    { h with hops := h'.hops } = h' ∧ n = n' := by
  obtain ⟨-, ha⟩ := List.append_inj ha rfl
  obtain ⟨hv, ha⟩ := List.append_inj ha rfl
  obtain ⟨hd, ha⟩ := List.append_inj ha (by simp)
  obtain ⟨hs, ha⟩ := List.append_inj ha (by simp)
  obtain ⟨hp, ha⟩ := List.append_inj ha (by simp)
  obtain ⟨he, ha⟩ := List.append_inj ha (by simp)
  obtain ⟨hq, hn⟩ := List.append_inj ha (by simp)
  obtain ⟨hv, hf⟩ : h.version = h'.version ∧ h.flags = h'.flags := by simpa using hv
  obtain rfl : n = n' := by simpa using hn
  cases h; cases h'
  simp only [Header.mk.injEq, and_true, true_and]
  exact ⟨hv, hf, be32_injective hd, be32_injective hs, be32_injective hp, be32_injective he,
    be64_injective hq⟩

end Primitives

/-! ### Replay windows -/

/-- `(highest, bitmap, empty)`; bit `k` of the bitmap stands for `highest - k`. -/
structure ReplayWindow where
  highest : UInt64
  bitmap : UInt64
  empty : Bool
  deriving DecidableEq

namespace ReplayWindow

def new : ReplayWindow := { highest := 0, bitmap := 0, empty := true }

/-- Offer an authenticated sequence number. -/
def accept (w : ReplayWindow) (seq : UInt64) : Verdict × ReplayWindow :=
  if w.empty then (.accepted, { highest := seq, bitmap := 1, empty := false })
  else if w.highest < seq then
    let shift := seq - w.highest
    (.accepted,
      { w with
        bitmap := if 64 ≤ shift then 1 else (w.bitmap <<< shift) ||| 1
        highest := seq })
  else
    let back := w.highest - seq
    if 64 ≤ back then (.stale, w)
    else
      let bit := (1 : UInt64) <<< back
      if w.bitmap &&& bit ≠ 0 then (.duplicate, w)
      else (.accepted, { w with bitmap := w.bitmap ||| bit })

def highest? (w : ReplayWindow) : Option UInt64 := if w.empty then none else some w.highest

/-- Rebuild from a persisted triple; malformed triples become the empty window. -/
def restore (highest bitmap : UInt64) (empty : Bool) : ReplayWindow :=
  if empty then new else if bitmap = 0 then new else { highest, bitmap, empty := false }

/-- Every reachable window: an empty one is `new`, a nonempty one has a bit set. -/
def WF (w : ReplayWindow) : Prop := if w.empty then w = new else w.bitmap ≠ 0

instance (w : ReplayWindow) : Decidable w.WF := by unfold WF; infer_instance

theorem wf_new : new.WF := rfl

/-- Exporting and restoring a well-formed window gives it back. -/
theorem restore_export {w : ReplayWindow} (h : w.WF) :
    restore (w.highest?.getD 0) w.bitmap w.empty = w := by
  obtain ⟨top, bits, e⟩ := w
  cases e with
  | true =>
      have h : (⟨top, bits, true⟩ : ReplayWindow) = new := h
      rw [h]; rfl
  | false =>
      have h : bits ≠ 0 := h
      show (if bits = 0 then new else _) = _
      rw [if_neg h]; rfl

/-- The window as a sliding window of width 64. -/
def toWindow (w : ReplayWindow) : Window :=
  if w.empty then .fresh
  else .upto w.highest.toNat {n | n ≤ w.highest.toNat ∧
    w.bitmap.toNat.testBit (w.highest.toNat - n)}

theorem wf_restore (h b : UInt64) (e : Bool) : (restore h b e).WF := by
  unfold restore
  split
  · exact wf_new
  · split
    · exact wf_new
    · rename_i hb; exact hb

/-! #### The bitmap -/

theorem toNat_one_shiftLeft {k : UInt64} (h : k.toNat < 64) :
    ((1 : UInt64) <<< k).toNat = 2 ^ k.toNat := by
  rw [UInt64.toNat_shiftLeft, Nat.mod_eq_of_lt h, UInt64.toNat_one, Nat.one_shiftLeft,
    Nat.mod_eq_of_lt (Nat.pow_lt_pow_right (by decide) h)]

/-- Bit `k` set by `|= 1 << k`. -/
theorem testBit_or_bit {b k : UInt64} (h : k.toNat < 64) (i : ℕ) :
    (b ||| ((1 : UInt64) <<< k)).toNat.testBit i ↔ b.toNat.testBit i ∨ i = k.toNat := by
  rw [UInt64.toNat_or, toNat_one_shiftLeft h, Nat.testBit_or, Nat.testBit_two_pow, Bool.or_eq_true,
    decide_eq_true_eq, eq_comm (a := k.toNat)]

/-- Bit `k` tested by `& (1 << k) != 0`. -/
theorem and_bit_ne_zero {b k : UInt64} (h : k.toNat < 64) :
    b &&& ((1 : UInt64) <<< k) ≠ 0 ↔ b.toNat.testBit k.toNat := by
  have hbits : (b &&& ((1 : UInt64) <<< k)).toNat = if b.toNat.testBit k.toNat then 2 ^ k.toNat else 0 := by
    rw [UInt64.toNat_and, toNat_one_shiftLeft h]
    refine Nat.eq_of_testBit_eq fun i => ?_
    rw [Nat.testBit_and, Nat.testBit_two_pow]
    by_cases hi : k.toNat = i
    · subst hi; cases hb : b.toNat.testBit k.toNat <;> simp
    · cases hb : b.toNat.testBit k.toNat <;> simp [hi]
  rw [Ne, ← UInt64.toNat_inj, hbits]
  cases hb : b.toNat.testBit k.toNat <;> simp

/-- The bitmap moved up by `k` with the new top marked. -/
theorem testBit_advance {b k : UInt64} (i : ℕ) :
    (if 64 ≤ k then 1 else (b <<< k) ||| 1 : UInt64).toNat.testBit i ↔
      i = 0 ∨ (k.toNat ≤ i ∧ i < 64 ∧ b.toNat.testBit (i - k.toNat)) := by
  split
  · rename_i h
    have hk : 64 ≤ k.toNat := UInt64.le_iff_toNat_le.mp h
    rw [UInt64.toNat_one, Nat.testBit_one_eq_true_iff_self_eq_zero]
    exact ⟨.inl, fun hi => hi.resolve_right fun hi => by omega⟩
  · rename_i h
    have hk : k.toNat < 64 := Nat.lt_of_not_le fun hk => h (UInt64.le_iff_toNat_le.mpr hk)
    rw [UInt64.toNat_or, UInt64.toNat_shiftLeft, Nat.mod_eq_of_lt hk, UInt64.toNat_one,
      Nat.testBit_or, Nat.testBit_mod_two_pow, Nat.testBit_shiftLeft, Bool.or_eq_true,
      Nat.testBit_one_eq_true_iff_self_eq_zero]
    simp only [Bool.and_eq_true, decide_eq_true_eq, ge_iff_le]
    constructor
    · rintro (⟨h64, hki, hb⟩ | h0)
      · exact .inr ⟨hki, h64, hb⟩
      · exact .inl h0
    · rintro (h0 | ⟨hki, h64, hb⟩)
      · exact .inr h0
      · exact .inl ⟨h64, hki, hb⟩

theorem or_ne_zero_left {b c : UInt64} (h : b ≠ 0) : b ||| c ≠ 0 := fun h0 =>
  h (UInt64.or_eq_zero_iff.mp h0).1

theorem or_ne_zero_right {b c : UInt64} (h : c ≠ 0) : b ||| c ≠ 0 := fun h0 =>
  h (UInt64.or_eq_zero_iff.mp h0).2

theorem accept_wf {w : ReplayWindow} (h : w.WF) (seq : UInt64) : (w.accept seq).2.WF := by
  obtain ⟨top, bits, e⟩ := w
  cases e with
  | true => exact (by decide : (1 : UInt64) ≠ 0)
  | false =>
      have hb : bits ≠ 0 := h
      show ((if top < seq then _ else _ : Verdict × ReplayWindow).2).WF
      split
      · show (if 64 ≤ seq - top then 1 else (bits <<< (seq - top)) ||| 1 : UInt64) ≠ 0
        split
        · decide
        · exact or_ne_zero_right (by decide)
      · dsimp only
        split
        · exact h
        · split
          · exact h
          · exact or_ne_zero_left hb

theorem wf_of_accept {w w' : ReplayWindow} {seq : UInt64} {v : Verdict} (h : w.WF)
    (hw : w.accept seq = (v, w')) : w'.WF := by
  have hacc := accept_wf h seq
  rwa [hw] at hacc

/-- Only an accepted number changes the window. -/
theorem accept_of_ne_accepted {w w' : ReplayWindow} {seq : UInt64} {v : Verdict}
    (h : w.accept seq = (v, w')) (hv : v ≠ .accepted) : w' = w := by
  unfold accept at h
  split at h
  · cases h; exact absurd rfl hv
  split at h
  · cases h; exact absurd rfl hv
  dsimp only at h
  split at h
  · cases h; rfl
  split at h
  · cases h; rfl
  · cases h; exact absurd rfl hv

/-! #### Refinement -/

/-- `accept` offers the number to the sliding window of width 64. -/
theorem accept_toWindow (w : ReplayWindow) (seq : UInt64) :
    w.toWindow.offer 64 seq.toNat = ((w.accept seq).1, (w.accept seq).2.toWindow) := by
  obtain ⟨top, bits, e⟩ := w
  cases e with
  | true =>
      have hset : ({seq.toNat} : Set ℕ) = {n | n ≤ seq.toNat ∧ Nat.testBit 1 (seq.toNat - n)} := by
        ext n
        rw [Set.mem_singleton_iff, Set.mem_ofPred_eq, Nat.testBit_one_eq_true_iff_self_eq_zero]
        omega
      show (Verdict.accepted, Window.upto seq.toNat {seq.toNat}) = _
      rw [hset]; rfl
  | false =>
      show (Window.upto top.toNat _).offer 64 seq.toNat = _
      rw [Window.offer]
      by_cases hlt : top < seq
      · have hlt' : top.toNat < seq.toNat := UInt64.lt_iff_toNat_lt.mp hlt
        have hshift : (seq - top).toNat = seq.toNat - top.toNat :=
          UInt64.toNat_sub_of_le _ _ (UInt64.le_of_lt hlt)
        have hacc : (⟨top, bits, false⟩ : ReplayWindow).accept seq = (.accepted,
            ⟨seq, if 64 ≤ seq - top then 1 else (bits <<< (seq - top)) ||| 1, false⟩) := if_pos hlt
        rw [if_pos hlt', hacc]
        refine congrArg (fun s => (Verdict.accepted, Window.upto seq.toNat s)) ?_
        ext n
        rw [Set.mem_ofPred_eq, testBit_advance, hshift]
        show n = _ ∨ (n ≤ top.toNat ∧ _) ∧ _ ↔
          n ≤ seq.toNat ∧ (seq.toNat - n = 0 ∨ seq.toNat - top.toNat ≤ seq.toNat - n ∧
            seq.toNat - n < 64 ∧ bits.toNat.testBit (seq.toNat - n - (seq.toNat - top.toNat)))
        constructor
        · rintro (rfl | ⟨⟨hn, hb⟩, hw⟩)
          · exact ⟨le_rfl, .inl (Nat.sub_self _)⟩
          · refine ⟨by omega, .inr ⟨by omega, by omega, ?_⟩⟩
            rwa [show seq.toNat - n - (seq.toNat - top.toNat) = top.toNat - n by omega]
        · rintro ⟨hn, h0 | ⟨hk, h64, hb⟩⟩
          · exact .inl (by omega)
          · refine .inr ⟨⟨by omega, ?_⟩, by omega⟩
            rwa [show seq.toNat - n - (seq.toNat - top.toNat) = top.toNat - n by omega] at hb
      · have hle : seq.toNat ≤ top.toNat := Nat.le_of_not_lt fun h => hlt (UInt64.lt_iff_toNat_lt.mpr h)
        have hback : (top - seq).toNat = top.toNat - seq.toNat :=
          UInt64.toNat_sub_of_le _ _ (UInt64.le_iff_toNat_le.mpr hle)
        have hacc : (⟨top, bits, false⟩ : ReplayWindow).accept seq =
            if 64 ≤ top - seq then (.stale, ⟨top, bits, false⟩)
            else if bits &&& ((1 : UInt64) <<< (top - seq)) ≠ 0 then (.duplicate, ⟨top, bits, false⟩)
            else (.accepted, ⟨top, bits ||| ((1 : UInt64) <<< (top - seq)), false⟩) := if_neg hlt
        rw [if_neg (Nat.not_lt.mpr hle), hacc]
        by_cases h64 : 64 ≤ top - seq
        · have h64' : 64 ≤ top.toNat - seq.toNat := by
            have := UInt64.le_iff_toNat_le.mp h64
            rwa [hback] at this
          rw [if_pos h64, if_pos (by omega)]; rfl
        · have h64' : (top - seq).toNat < 64 :=
            Nat.lt_of_not_le fun h => h64 (UInt64.le_iff_toNat_le.mpr h)
          rw [if_neg h64, if_neg (by omega)]
          by_cases hb : bits.toNat.testBit (top.toNat - seq.toNat) = true
          · rw [if_pos ⟨hle, hb⟩, if_pos ((and_bit_ne_zero h64').mpr (by rwa [hback]))]; rfl
          · rw [if_neg fun hm => hb hm.2,
              if_neg fun hm => hb (by have := (and_bit_ne_zero h64').mp hm; rwa [hback] at this)]
            refine congrArg (fun s => (Verdict.accepted, Window.upto top.toNat s)) ?_
            ext n
            rw [Set.mem_ofPred_eq, testBit_or_bit h64', hback]
            show n = _ ∨ (n ≤ top.toNat ∧ _) ↔ n ≤ top.toNat ∧ (_ ∨ top.toNat - n = _)
            constructor
            · rintro (rfl | ⟨hn, hb⟩)
              · exact ⟨hle, .inr rfl⟩
              · exact ⟨hn, .inl hb⟩
            · rintro ⟨hn, hb | hk⟩
              · exact .inr ⟨hn, hb⟩
              · exact .inl (by omega)

/-- The window will not accept `seq`. -/
def Refuses (w : ReplayWindow) (seq : UInt64) : Prop := w.toWindow.Refuses 64 seq.toNat

/-- The window remembers accepting `seq`. -/
def Seen (w : ReplayWindow) (seq : UInt64) : Prop := w.toWindow.Seen seq.toNat

theorem toWindow_accept (w : ReplayWindow) (seq : UInt64) :
    (w.accept seq).2.toWindow = (w.toWindow.offer 64 seq.toNat).2 := by rw [accept_toWindow]

theorem refuses_accept (w : ReplayWindow) (seq : UInt64) : (w.accept seq).2.Refuses seq := by
  rw [Refuses, toWindow_accept]
  exact Window.refuses_offer _ _

theorem Refuses.accept {w : ReplayWindow} {seq : UInt64} (h : w.Refuses seq) (seq' : UInt64) :
    (w.accept seq').2.Refuses seq := by
  rw [Refuses, toWindow_accept]
  exact Window.Refuses.offer h _

theorem Refuses.ne_accepted {w : ReplayWindow} {seq : UInt64} (h : w.Refuses seq) :
    (w.accept seq).1 ≠ .accepted := by
  have := Window.refuses_iff.mp h
  rwa [accept_toWindow] at this

end ReplayWindow

/-! ### Receive-window anchors -/

inductive AnchorError where
  | rollback
  deriving DecidableEq

/-- The hours around `e`: `e - 1`, `e`, `e + 1`, saturating. -/
def slots (e : UInt32) : Fin 3 → UInt32 := ![satSub32 e 1, e, satAdd32 e 1]

/-- A nondecreasing receive-window anchor hour. -/
structure AnchorHours where
  anchor : UInt32
  deriving DecidableEq

/-- Move the anchor to `newHour`; the list is of the retained slots that are new. -/
def AnchorHours.trustedAdvance (a : AnchorHours) (newHour : UInt32) :
    Except AnchorError (AnchorHours × List UInt32) :=
  if newHour < a.anchor then .error .rollback
  else
    let old := slots a.anchor
    let new := slots newHour
    let init := [new 0, new 1, new 2].foldl
      (fun init s => if (∀ i, old i ≠ s) ∧ s ∉ init then init ++ [s] else init) []
    .ok (⟨newHour⟩, init)

/-- Where an array of three first holds `x`. -/
def Engine.position (a : Fin 3 → UInt32) (x : UInt32) : Option (Fin 3) :=
  if a 0 = x then some 0 else if a 1 = x then some 1 else if a 2 = x then some 2 else none

/-- An anchor moves unless that is backwards. -/
theorem AnchorHours.trustedAdvance_of_le {a : AnchorHours} {newHour : UInt32}
    (h : ¬ newHour < a.anchor) : ∃ init, a.trustedAdvance newHour = .ok (⟨newHour⟩, init) := by
  unfold trustedAdvance
  rw [if_neg h]
  exact ⟨_, rfl⟩

/-! ### A computable stand-in -/

namespace Sample

def modulus : ℕ := 2 ^ 251 - 9

/-- A polynomial hash. -/
def hash (l : List UInt8) : Bytes 32 :=
  ⟨beNat 32 (l.foldl (fun a b => (a * 257 + b.toNat + 1) % modulus) 7), length_beNat 32 _⟩

def tag (k : Bytes 32) (n : Bytes 12) (a c : List UInt8) : Bytes 16 :=
  slice (hash (k.1 ++ n.1 ++ a ++ [0] ++ c)).1 16 16 (by simp)

def signature (pub : Bytes 32) (m : List UInt8) : Bytes 64 := (hash (pub.1 ++ m)).append (.zero 32)

/-- Primitives that agree with each other as the real ones do, and hide nothing: an AEAD that
only authenticates, a signature anyone can make, multiplication for the key exchange. -/
def crypto : Crypto where
  sha256 := hash
  hkdf := fun salt ikm info => hash (salt.getD [] ++ [0] ++ ikm ++ [1] ++ info)
  hmac := fun k m => hash (k ++ [2] ++ m)
  encryptInPlace := fun k n a p => (p, tag k n a p)
  decryptInPlace := fun k n a c t => if t = tag k n a c then some c else none
  length_encryptInPlace := fun _ _ _ _ => rfl
  length_decryptInPlace := fun k n a c t p h => by
    split at h
    · cases h; rfl
    · cases h
  edPublic := fun sk => hash (3 :: sk.1)
  edSign := fun sk m => signature (hash (3 :: sk.1)) m
  edVerify := fun pub m s => s == signature pub m
  x25519 := fun a b => ⟨beNat 32 (ofBeNat a.1 * ofBeNat b.1 % modulus), length_beNat 32 _⟩

/-- The 32-byte numeral of `n`. -/
def bytes32 (n : ℕ) : Bytes 32 := ⟨beNat 32 n, length_beNat 32 n⟩

def bytes8 (n : ℕ) : Bytes 8 := ⟨beNat 8 n, length_beNat 8 n⟩

end Sample

end LoraMesh
