import LoraMesh.Engine.Persist
import LoraMesh.Lib.Counted

/-!
# Firmware — Gate

The transmit policy gate (`firmware/src/radio.rs`): a transmission is authorised by a token that
remembers the generations of the policy it was minted under.  Each of the three calls runs in one
critical section, so an interleaving of them is a sequence.

* `token_held`: a token found valid has been authorised at every moment since it was minted.
-/

namespace LoraMesh

/-- Opaque transmit authorization, bound to the contact it was issued for. -/
structure TxToken where
  all : UInt32
  contactGen : UInt32
  contact : Option UInt8
  deriving DecidableEq

structure PolicyState where
  enabled : Bool
  blockedMask : UInt32
  allGen : UInt32
  contactGen : Slot → UInt32

namespace PolicyState

/-- The policy at boot. -/
def init : PolicyState where
  enabled := false
  blockedMask := 0
  allGen := 0
  contactGen := fun _ => 0

end PolicyState

def contactIdx (contact : UInt8) : Option Slot :=
  if h : 1 ≤ contact.toNat ∧ contact.toNat ≤ maxContacts then
    some ⟨contact.toNat - 1, contactIdx_lt h⟩
  else none

/-- One bit of a block mask. -/
def maskBit (mask : UInt32) (i : Slot) : Bool := (mask >>> UInt32.ofNat i.1) &&& 1 == 1

namespace PolicyState

/-- The contact is blocked. -/
def blocked (p : PolicyState) (i : Slot) : Bool := maskBit p.blockedMask i

/-- Mint a token: a snapshot of the generations. -/
def txToken (p : PolicyState) (contact : Option UInt8) : TxToken where
  all := p.allGen
  contactGen :=
    match contact with
    | some c =>
      match contactIdx c with
      | some i => p.contactGen i
      | none => 0
    | none => 0
  contact := contact

/-- Set the policy: an edge of the flag moves the global generation, an edge of a block bit that
contact's. -/
def setPolicy (p : PolicyState) (enabled : Bool) (mask : UInt32) : PolicyState where
  enabled := enabled
  blockedMask := mask
  allGen := if p.enabled != enabled then p.allGen + 1 else p.allGen
  contactGen := fun i =>
    if maskBit p.blockedMask i != maskBit mask i then p.contactGen i + 1 else p.contactGen i

/-- The gate. -/
def tokenValid (p : PolicyState) (contact : Option UInt8) (token : TxToken) : Bool :=
  if !p.enabled then false
  else if token.all != p.allGen then false
  else if token.contact != contact then false
  else
    match contact with
    | none => true
    | some c =>
      match contactIdx c with
      | none => false
      | some i =>
        if p.blocked i then false
        else if token.contactGen != p.contactGen i then false
        else true

end PolicyState

/-! ### Interleavings -/

/-- A call to the gate. -/
inductive PolicyCall where
  | setPolicy (enabled : Bool) (mask : UInt32)
  | txToken (contact : Option UInt8)
  | tokenValid (contact : Option UInt8) (token : TxToken)

namespace PolicyState

/-- The policy after a call. -/
def after (p : PolicyState) : PolicyCall → PolicyState
  | .setPolicy enabled mask => p.setPolicy enabled mask
  | .txToken _ => p
  | .tokenValid _ _ => p

theorem counts_enabled : Counts after enabled allGen := by
  intro p call
  cases call with
  | setPolicy enabled mask =>
      change (if p.enabled != enabled then p.allGen + 1 else p.allGen) = if enabled = p.enabled then _ else _
      by_cases h : p.enabled = enabled
      · rw [if_neg (by rw [h, bne_self_eq_false]; exact Bool.false_ne_true), if_pos h.symm]
      · rw [if_pos (bne_iff_ne.mpr h), if_neg (Ne.symm h)]
  | txToken => exact (if_pos rfl).symm
  | tokenValid => exact (if_pos rfl).symm

theorem counts_blocked (i : Slot) : Counts after (fun p => p.blocked i) fun p => p.contactGen i := by
  intro p call
  cases call with
  | setPolicy enabled mask =>
      change (if maskBit p.blockedMask i != maskBit mask i then _ else _) =
        if maskBit mask i = maskBit p.blockedMask i then _ else _
      by_cases h : maskBit p.blockedMask i = maskBit mask i
      · rw [if_neg (by rw [h, bne_self_eq_false]; exact Bool.false_ne_true), if_pos h.symm]
      · rw [if_pos (bne_iff_ne.mpr h), if_neg (Ne.symm h)]
  | txToken => exact (if_pos rfl).symm
  | tokenValid => exact (if_pos rfl).symm

/-- What a valid token says of the policy that finds it so. -/
theorem tokenValid_eq_true {p : PolicyState} {contact : Option UInt8} {token : TxToken} :
    p.tokenValid contact token = true ↔
      p.enabled = true ∧ token.all = p.allGen ∧ token.contact = contact ∧
        ∀ c, contact = some c →
          ∃ i, contactIdx c = some i ∧ p.blocked i = false ∧ token.contactGen = p.contactGen i := by
  unfold tokenValid
  cases contact with
  | none => simp
  | some c =>
      cases hi : contactIdx c with
      | none => simp [hi]
      | some i => simp [hi]

/-- The moments at which the gate authorises a contact. -/
def Permits (p : PolicyState) (contact : Option UInt8) : Prop :=
  p.enabled = true ∧ ∀ c, contact = some c → ∃ i, contactIdx c = some i ∧ p.blocked i = false

/-- Fewer than `2 ^ 32` edges of the flag, and of the contact's block bit. -/
def FewEdges (p : PolicyState) (contact : Option UInt8) (calls : List PolicyCall) : Prop :=
  changes after enabled p calls < 2 ^ 32 ∧
    ∀ c i, contact = some c → contactIdx c = some i →
      changes after (fun p => p.blocked i) p calls < 2 ^ 32

/-- A token found valid was minted for the contact asked about, and the gate has permitted that
contact from the mint to the check. -/
theorem token_held {p : PolicyState} {calls : List PolicyCall} {minted asked : Option UInt8}
    (hn : p.FewEdges minted calls)
    (h : (run after p calls).tokenValid asked (p.txToken minted) = true) :
    asked = minted ∧ ∀ q ∈ visited after p calls, q.Permits minted := by
  obtain ⟨hen, hall, hcontact, hgen⟩ := tokenValid_eq_true.mp h
  have hm : asked = minted := hcontact.symm
  subst hm
  have hflag := counts_enabled.held hn.1 hall.symm
  refine ⟨rfl, fun q hq => ⟨?_, fun c hc => ?_⟩⟩
  · rw [hflag q hq, ← hflag _ (run_mem_visited _ _), hen]
  · obtain ⟨i, hi, hb, hg⟩ := hgen c hc
    have hc' : (p.txToken asked).contactGen = p.contactGen i := by
      simp only [txToken, hc, hi]
    have hbit := (counts_blocked i).held (hn.2 c i hc hi) (hg.symm.trans hc')
    exact ⟨i, hi, (hbit q hq).trans ((hbit _ (run_mem_visited _ _)).symm.trans hb)⟩

end PolicyState

end LoraMesh
