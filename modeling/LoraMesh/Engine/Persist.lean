import LoraMesh.Core.Security
import Mathlib.Data.Fintype.Pi

/-!
# Engine — Persist

The persisted node record (`mesh-node/src/persist.rs`): its encoding, and the decoder with the
combinations it rejects.

* `PersistView.Valid`: what the decoder demands of a record.
* `decodeView_encodeInto`: an encoded view decodes exactly when it is valid, and then to itself.
* `decodeView_valid`: whatever the decoder accepts is valid.
-/

namespace LoraMesh

abbrev maxContacts : ℕ := 16

/-- A contact slot; `contact_id` is the slot plus one. -/
abbrev Slot := Fin maxContacts

/-- The index of a contact's slot is one. -/
theorem contactIdx_lt {id : UInt8} (h : 1 ≤ id.toNat ∧ id.toNat ≤ maxContacts) : id.toNat - 1 < maxContacts := by
  have := h.2
  simp only [maxContacts] at this ⊢
  omega

def persistMagic : Bytes 4 := ⟨ascii "LMSH", rfl⟩
abbrev persistVersion : UInt8 := 3
abbrev contactBytes : ℕ := 1 + 1 + 32 + 8 + 32 + 1 + 8 + 8 + 4 + 4 + 12 + 3 * 17 + 3 * 17
abbrev persistV2Len : ℕ := 4 + 1 + 1 + 1 + 8 + 1 + 8 + 4 + 1 + 32 + 2 * contactBytes
abbrev persistLen : ℕ := 4 + 1 + 1 + 1 + 8 + 1 + 8 + 4 + 1 + 32 + maxContacts * contactBytes

/-- A replay window as `(highest, bitmap, empty)`. -/
abbrev PersistWindow := UInt64 × UInt64 × Bool

structure PersistContact where
  present : Bool
  blocked : Bool
  edPeer : Bytes 32
  peerIdentity : Bytes 8
  root : Bytes 32
  role : UInt8
  txNext : UInt64
  txReserved : UInt64
  txEpochMax : UInt32
  anchor : UInt32
  winEpochs : Fin 3 → UInt32
  winData : Fin 3 → PersistWindow
  winAck : Fin 3 → PersistWindow

def PersistContact.empty : PersistContact where
  present := false
  blocked := false
  edPeer := .zero 32
  peerIdentity := .zero 8
  root := .zero 32
  role := 0
  txNext := 0
  txReserved := 0
  txEpochMax := 0
  anchor := 0
  winEpochs := fun _ => 0
  winData := fun _ => (0, 0, true)
  winAck := fun _ => (0, 0, true)

structure PersistView where
  provisioned : Bool
  label : UInt8
  uid : Bytes 8
  uidSet : Bool
  unixSeconds : UInt64
  persistedTxEpoch : UInt32
  armedNextBoot : Bool
  signPriv : Bytes 32
  signSet : Bool
  contacts : Slot → PersistContact

inductive PersistError where
  | badLength
  | badMagic
  | badVersion
  deriving DecidableEq

/-! ### Encoding -/

/-- `b as u8`. -/
def boolByte (b : Bool) : UInt8 := if b then 1 else 0

def encodeWindow (w : PersistWindow) : List UInt8 := be64 w.1 ++ (be64 w.2.1 ++ [boolByte w.2.2])

def encodeContact (c : PersistContact) : List UInt8 :=
  [boolByte c.present] ++ ([boolByte c.blocked] ++ (c.edPeer.1 ++ (c.peerIdentity.1 ++ (c.root.1 ++
    ([c.role] ++ (be64 c.txNext ++ (be64 c.txReserved ++ (be32 c.txEpochMax ++ (be32 c.anchor ++
    ((List.ofFn c.winEpochs).flatMap be32 ++ ((List.ofFn c.winData).flatMap encodeWindow ++
    (List.ofFn c.winAck).flatMap encodeWindow)))))))))))

/-- The `PERSIST_LEN` bytes of a view. -/
def encodeInto (v : PersistView) : List UInt8 :=
  persistMagic.1 ++ ([persistVersion] ++ ([boolByte v.provisioned ||| (boolByte v.armedNextBoot <<< 1)] ++
    ([v.label] ++ (v.uid.1 ++ ([boolByte v.uidSet] ++ (be64 v.unixSeconds ++
    (be32 v.persistedTxEpoch ++ ([boolByte v.signSet] ++ (v.signPriv.1 ++
    (List.ofFn v.contacts).flatMap encodeContact)))))))))

/-! ### Decoding -/

section Decode

open Reader PersistError

/-- An empty window has no bits, a nonempty one has some. -/
def windowOk (w : PersistWindow) : Bool :=
  !(w.2.2 && (w.1 != 0 || w.2.1 != 0)) && !(!w.2.2 && w.2.1 == 0)

def readWindow : Reader PersistError PersistWindow := do
  let h ← u64 badLength
  let b ← u64 badLength
  let e ← u8 badLength
  check badVersion (windowOk (h, b, e != 0))
  return (h, b, e != 0)

/-- An absent slot carries no residue. -/
def absentOk (c : PersistContact) : Bool :=
  c.present || !(c.blocked || c.edPeer != .zero 32 || c.peerIdentity != .zero 8
    || c.root != .zero 32 || c.txNext != 0 || c.txReserved != 0 || c.txEpochMax != 0
    || c.anchor != 0)

/-- A list of three as an array, `d` where it falls short. -/
def ofList {α : Type} {n : ℕ} (d : α) (l : List α) : Fin n → α := fun i => l.getD i d

def readContact : Reader PersistError PersistContact := do
  let present ← u8 badLength
  let blocked ← u8 badLength
  let edPeer ← Reader.bytes badLength 32
  let peerIdentity ← Reader.bytes badLength 8
  let root ← Reader.bytes badLength 32
  let role ← u8 badLength
  check badVersion (role ≤ 1)
  let txNext ← u64 badLength
  let txReserved ← u64 badLength
  check badVersion (txNext ≤ txReserved)
  let txEpochMax ← u32 badLength
  let anchor ← u32 badLength
  let winEpochs ← times (u32 badLength) 3
  let winData ← times readWindow 3
  let winAck ← times readWindow 3
  let c : PersistContact :=
    { present := present != 0, blocked := blocked != 0, edPeer, peerIdentity, root, role, txNext,
      txReserved, txEpochMax, anchor
      winEpochs := ofList 0 winEpochs
      winData := ofList (0, 0, true) winData
      winAck := ofList (0, 0, true) winAck }
  check badVersion (absentOk c)
  return c

/-- The record after its length has chosen the number of slots. -/
def readView (full : Bool) (slots : ℕ) : Reader PersistError PersistView := do
  let magic ← Reader.bytes badLength 4
  check badMagic (magic == persistMagic)
  let ver ← u8 badLength
  check badVersion (full == (ver == persistVersion) && (ver == 1 || ver == 2 || ver == persistVersion))
  let flags ← u8 badLength
  check badVersion (flags &&& ~~~(if ver == 1 then 1 else 3) == 0)
  let label ← u8 badLength
  check badVersion (label ≤ 3)
  let uid ← Reader.bytes badLength 8
  let uidSet ← u8 badLength
  let unixSeconds ← u64 badLength
  let persistedTxEpoch ← u32 badLength
  let signSet ← u8 badLength
  let signPriv ← Reader.bytes badLength 32
  let contacts ← times readContact slots
  return {
    provisioned := flags &&& 1 != 0
    armedNextBoot := flags &&& 2 != 0
    label, uid
    uidSet := uidSet != 0
    unixSeconds, persistedTxEpoch
    signSet := signSet != 0
    signPriv
    contacts := ofList .empty contacts }

/-- Every byte must have been read. -/
def allRead : Except PersistError (PersistView × List UInt8) → Except PersistError PersistView
  | .error e => .error e
  | .ok (v, rest) => if rest = [] then .ok v else .error badLength

/-- The length selects the slot count, and the version must match its own length. -/
def decodeView (bytes : List UInt8) : Except PersistError PersistView :=
  if bytes.length = persistLen ∨ bytes.length = persistV2Len then
    let full := bytes.length == persistLen
    allRead (readView full (if full then maxContacts else 2) bytes)
  else .error .badLength

end Decode

/-! ### Round trip -/

/-- What the decoder demands of a contact. -/
def PersistContact.Valid (c : PersistContact) : Prop :=
  c.role ≤ 1 ∧ c.txNext ≤ c.txReserved ∧ (∀ i, windowOk (c.winData i)) ∧
    (∀ i, windowOk (c.winAck i)) ∧ absentOk c

/-- What the decoder demands of a record. -/
def PersistView.Valid (v : PersistView) : Prop := v.label ≤ 3 ∧ ∀ i, (v.contacts i).Valid

@[simp] theorem boolByte_ne_zero (b : Bool) : (boolByte b != 0) = b := by cases b <;> rfl

theorem ofList_ofFn {α : Type} {n : ℕ} (d : α) (f : Fin n → α) : ofList d (List.ofFn f) = f := by
  funext i
  simp [ofList]

section Reads

open Reader PersistError

theorem reads_window (w : PersistWindow) :
    Reads (windowOk w = true) readWindow (encodeWindow w) w := by
  obtain ⟨h, b, e⟩ := w
  refine (((Reads.u64 _ h).cons trivial <| (Reads.u64 _ b).cons trivial <|
    ((Reads.u8 _ (boolByte e)).cons trivial <|
      Reads.check _ (Reads.pure (h, b, boolByte e != 0))).congr Iff.rfl (List.append_nil _) rfl).congr
    ?_ rfl ?_)
  · rw [and_true, boolByte_ne_zero]
  · rw [boolByte_ne_zero]

theorem reads_ofFn {α : Type} {r : Reader PersistError α} {p : α → Prop} {w : α → List UInt8}
    (h : ∀ a, Reads (p a) r (w a) a) {n : ℕ} (f : Fin n → α) :
    Reads (∀ i, p (f i)) (times r n) ((List.ofFn f).flatMap w) (List.ofFn f) := by
  have h := Reads.times h (List.ofFn f)
  rw [List.length_ofFn] at h
  exact h.congr List.forall_mem_ofFn_iff rfl rfl

theorem reads_contact (c : PersistContact) : Reads c.Valid readContact (encodeContact c) c := by
  refine Reads.congr ((Reads.u8 _ (boolByte c.present)).cons trivial <|
    (Reads.u8 _ (boolByte c.blocked)).cons trivial <| (Reads.bytes _ c.edPeer).cons trivial <| (Reads.bytes _ c.peerIdentity).cons trivial <|
    (Reads.bytes _ c.root).cons trivial <| (Reads.u8 _ c.role).cons trivial <|
    Reads.check _ <| (Reads.u64 _ c.txNext).cons trivial <|
    (Reads.u64 _ c.txReserved).cons trivial <| Reads.check _ <|
    (Reads.u32 _ c.txEpochMax).cons trivial <| (Reads.u32 _ c.anchor).cons trivial <|
    (reads_ofFn (Reads.u32 _) c.winEpochs).cons (fun _ => trivial) <|
    (reads_ofFn reads_window c.winData).bind <| (reads_ofFn reads_window c.winAck).bind <|
    Reads.check _ (Reads.pure _)) ?_ ?_ ?_
  · simp only [ofList_ofFn, boolByte_ne_zero, decide_eq_true_eq, and_true]; rfl
  · simp [encodeContact]
  · simp only [ofList_ofFn, boolByte_ne_zero]

/-- The flag byte of a view. -/
def flagByte (v : PersistView) : UInt8 := boolByte v.provisioned ||| (boolByte v.armedNextBoot <<< 1)

theorem flagByte_spec (v : PersistView) :
    (flagByte v &&& ~~~3 == 0) = true ∧ (flagByte v &&& 1 != 0) = v.provisioned ∧
      (flagByte v &&& 2 != 0) = v.armedNextBoot := by
  unfold flagByte
  cases v.provisioned <;> cases v.armedNextBoot <;> decide

theorem reads_view (v : PersistView) :
    Reads v.Valid (readView true maxContacts) (encodeInto v) v := by
  obtain ⟨hmask, hprov, harm⟩ := flagByte_spec v
  refine Reads.congr ((Reads.bytes _ persistMagic).cons trivial <| Reads.check _ <|
    (Reads.u8 _ persistVersion).cons trivial <| Reads.check _ <|
    (Reads.u8 _ (flagByte v)).cons trivial <| Reads.check _ <|
    (Reads.u8 _ v.label).cons trivial <| Reads.check _ <|
    (Reads.bytes _ v.uid).cons trivial <| (Reads.u8 _ (boolByte v.uidSet)).cons trivial <|
    (Reads.u64 _ v.unixSeconds).cons trivial <| (Reads.u32 _ v.persistedTxEpoch).cons trivial <|
    (Reads.u8 _ (boolByte v.signSet)).cons trivial <| (Reads.bytes _ v.signPriv).cons trivial <|
    (reads_ofFn reads_contact v.contacts).bind (Reads.pure _)) ?_ ?_ ?_
  · have hver : (persistVersion == 1) = false := rfl
    rw [hver, if_neg Bool.false_ne_true, hmask]
    simp [PersistView.Valid]
  · simp [encodeInto, flagByte]
  · rw [hprov, harm, boolByte_ne_zero, boolByte_ne_zero, ofList_ofFn]

end Reads

theorem length_encodeContact (c : PersistContact) : (encodeContact c).length = contactBytes := by
  simp [encodeContact, encodeWindow, contactBytes]

theorem length_encodeInto (v : PersistView) : (encodeInto v).length = persistLen := by
  have hsum : ((List.ofFn v.contacts).map fun c => (encodeContact c).length).sum
      = maxContacts * contactBytes := by
    simp only [length_encodeContact, List.map_const', List.length_ofFn, List.sum_replicate_nat]
  simp only [encodeInto, List.length_append, List.length_flatMap, hsum, Bytes.length_val,
    List.length_singleton, length_be64, length_be32]
  rfl

/-- An encoded view decodes exactly when it is valid, and then to itself. -/
theorem decodeView_encodeInto {v w : PersistView} :
    decodeView (encodeInto v) = .ok w ↔ v.Valid ∧ w = v := by
  have hread := reads_view v []
  rw [List.append_nil] at hread
  have hlen := length_encodeInto v
  unfold decodeView
  rw [if_pos (.inl hlen), hlen]
  show allRead (readView true maxContacts (encodeInto v)) = _ ↔ _
  cases hr : readView true maxContacts (encodeInto v) with
  | error e =>
      refine ⟨fun h => (by cases h), fun h => ?_⟩
      have := (hread (v, [])).mpr ⟨h.1, rfl⟩
      rw [hr] at this
      cases this
  | ok x =>
      obtain ⟨hv, rfl⟩ := (hread x).mp hr
      rw [allRead, if_pos rfl, Except.ok.injEq]
      exact ⟨fun h => ⟨hv, h.symm⟩, fun h => h.2.symm⟩

/-! ### Accepted records -/

theorem ofList_forall {α : Type} {n : ℕ} {P : α → Prop} {d : α} {l : List α} (hd : P d)
    (hl : ∀ a ∈ l, P a) (i : Fin n) : P (ofList d l i) := by
  unfold ofList
  rw [List.getD_eq_getElem?_getD]
  cases hg : l[i.1]? with
  | none => exact hd
  | some a => exact hl a (List.mem_of_getElem? hg)

section Ensures

open Reader

theorem readWindow_ensures : Ensures readWindow fun w => windowOk w = true :=
  Ensures.skip fun _ => Ensures.skip fun _ => Ensures.skip fun _ =>
    Ensures.check fun h => Ensures.pure h

theorem readContact_ensures : Ensures readContact PersistContact.Valid := by
  refine .skip fun _ => .skip fun _ => .skip fun _ => .skip fun _ => .skip fun _ => .skip fun role =>
    .check fun hrole => .skip fun _ => .skip fun _ => .check fun htx => .skip fun _ => .skip fun _ =>
    .skip fun _ => (readWindow_ensures.times 3).bind fun wd hd =>
    (readWindow_ensures.times 3).bind fun wa ha => .check fun habs => .pure ?_
  exact ⟨of_decide_eq_true hrole, of_decide_eq_true htx,
    ofList_forall (P := fun w => windowOk w = true) rfl hd,
    ofList_forall (P := fun w => windowOk w = true) rfl ha, habs⟩

theorem PersistContact.valid_empty : PersistContact.empty.Valid :=
  ⟨by decide, by decide, fun _ => rfl, fun _ => rfl, rfl⟩

theorem readView_ensures (full : Bool) (slots : ℕ) : Ensures (readView full slots) PersistView.Valid := by
  refine .skip fun _ => .check fun _ => .skip fun _ => .check fun _ => .skip fun _ => .check fun _ =>
    .skip fun _ => .check fun hlabel => .skip fun _ => .skip fun _ => .skip fun _ => .skip fun _ =>
    .skip fun _ => .skip fun _ => (readContact_ensures.times slots).bind fun cs hcs => .pure ?_
  exact ⟨of_decide_eq_true hlabel, ofList_forall PersistContact.valid_empty hcs⟩

end Ensures

/-- Whatever the decoder accepts is valid. -/
theorem decodeView_valid {bytes : List UInt8} {v : PersistView} (h : decodeView bytes = .ok v) :
    v.Valid := by
  unfold decodeView at h
  split at h
  · dsimp only at h
    generalize hr : readView _ _ bytes = r at h
    cases r with
    | error e => cases h
    | ok x =>
        rw [allRead] at h
        split at h
        · cases h; exact readView_ensures _ _ _ _ hr
        · cases h
  · cases h

end LoraMesh
