import LoraMesh.Engine.Persist

/-!
# Engine — Migration

Old node records as canonical ones (`mesh-node/src/persist.rs`).

* `decodeView_version`: an accepted record has the version of its length.
* `decodeView_short`: a record of two slots has no others.
* `persist_codec`: the codec and the migration.
-/

namespace LoraMesh

/-- Re-encode an accepted record as a canonical one of version 3. -/
def migrateToV3 (bytes : List UInt8) : Except PersistError (List UInt8) := do
  let owned ← decodeView bytes
  return encodeInto owned

/-- The version byte is that of the length. -/
def versionMatches (bytes : List UInt8) : Prop :=
  bytes.length = persistLen ∧ bytes[4]? = some persistVersion ∨
    bytes.length = persistV2Len ∧ (bytes[4]? = some 1 ∨ bytes[4]? = some 2)

section

open Reader PersistError

/-- An accepted record has the version that its length demands. -/
theorem readView_version {full : Bool} {slots : ℕ} {l : List UInt8} {x : PersistView × List UInt8}
    (h : readView full slots l = .ok x) :
    ∃ ver, l[4]? = some ver ∧ full = (ver == persistVersion) ∧ (ver = 1 ∨ ver = 2 ∨ ver = persistVersion) := by
  unfold readView at h
  obtain ⟨magic, l₁, hmagic, h⟩ := bind_ok h
  obtain ⟨_, l₂, hcheck, h⟩ := bind_ok h
  obtain ⟨ver, l₃, hver, h⟩ := bind_ok h
  obtain ⟨_, l₄, hmatch, -⟩ := bind_ok h
  obtain ⟨-, rfl⟩ := check_ok hcheck
  obtain ⟨hok, -⟩ := check_ok hmatch
  rw [Bool.and_eq_true, Bool.or_eq_true, Bool.or_eq_true, beq_iff_eq, beq_iff_eq, beq_iff_eq, beq_iff_eq,
    or_assoc] at hok
  have hl : l = magic.1 ++ ver :: l₃ := by rw [bytes_ok hmagic, u8_ok hver]
  refine ⟨ver, ?_, hok⟩
  rw [hl, List.getElem?_append_right (by rw [magic.2]), magic.2]
  rfl

theorem readView_short {full : Bool} {slots : ℕ} :
    Ensures (readView full slots) fun v => ∀ i : Slot, slots ≤ i.1 → v.contacts i = .empty := by
  refine .skip fun _ => .check fun _ => .skip fun _ => .check fun _ => .skip fun _ => .check fun _ =>
    .skip fun _ => .check fun _ => .skip fun _ => .skip fun _ => .skip fun _ => .skip fun _ =>
    .skip fun _ => .skip fun _ => (Ensures.times_length _ slots).bind fun cs hcs => .pure fun i hi => ?_
  show cs.getD i.1 .empty = .empty
  rw [List.getD_eq_getElem?_getD, List.getElem?_eq_none (hcs ▸ hi)]
  rfl

end

/-- What the decoder accepts, by the length that it has. -/
theorem decodeView_ok {bytes : List UInt8} {v : PersistView} (h : decodeView bytes = .ok v) :
    (bytes.length = persistLen ∨ bytes.length = persistV2Len) ∧
      ∃ rest, readView (bytes.length == persistLen) (if bytes.length == persistLen then maxContacts else 2)
        bytes = .ok (v, rest) := by
  unfold decodeView at h
  split at h
  · rename_i hlen
    refine ⟨hlen, ?_⟩
    dsimp only at h
    cases hr : readView (bytes.length == persistLen) (if bytes.length == persistLen then maxContacts else 2)
        bytes with
    | error e =>
        rw [hr] at h
        cases h
    | ok x =>
        rw [hr, allRead] at h
        split at h
        · cases h
          exact ⟨x.2, rfl⟩
        · cases h
  · cases h

/-- An accepted record has the version of its length. -/
theorem decodeView_version {bytes : List UInt8} {v : PersistView} (h : decodeView bytes = .ok v) :
    versionMatches bytes := by
  obtain ⟨hlen, rest, hr⟩ := decodeView_ok h
  obtain ⟨ver, h4, hfull, hver⟩ := readView_version hr
  rcases hlen with hlen | hlen
  · refine .inl ⟨hlen, ?_⟩
    rw [hlen, beq_self_eq_true, eq_comm, beq_iff_eq] at hfull
    rw [h4, hfull]
  · refine .inr ⟨hlen, ?_⟩
    have hne : ver ≠ persistVersion := by
      rw [hlen] at hfull
      exact beq_eq_false_iff_ne.mp hfull.symm
    rcases hver with rfl | rfl | rfl
    · exact .inl h4
    · exact .inr h4
    · exact absurd rfl hne

/-- A record of two slots has no others. -/
theorem decodeView_short {bytes : List UInt8} {v : PersistView} (h : decodeView bytes = .ok v)
    (hlen : bytes.length = persistV2Len) (i : Slot) (hi : 2 ≤ i.1) : v.contacts i = .empty := by
  obtain ⟨-, rest, hr⟩ := decodeView_ok h
  have hshort : (bytes.length == persistLen) = false := by
    rw [hlen]
    rfl
  rw [hshort] at hr
  exact readView_short bytes _ hr i hi

/-- **Migration.**  A valid view is decoded from its encoding; an accepted record of any version
migrates to a record that decodes to the same view, with the slots that it did not store empty, and
that migrates to itself; a record whose version is not that of its length is rejected. -/
theorem persist_codec :
    (∀ v : PersistView, v.Valid → (encodeInto v).length = persistLen ∧ decodeView (encodeInto v) = .ok v) ∧
    (∀ bytes v, decodeView bytes = .ok v →
      ∃ m, migrateToV3 bytes = .ok m ∧ m.length = persistLen ∧ decodeView m = .ok v ∧
        migrateToV3 m = .ok m ∧
        (bytes.length = persistV2Len → ∀ i : Slot, 2 ≤ i.1 → v.contacts i = .empty)) ∧
    ∀ bytes, ¬ versionMatches bytes → ∃ e, decodeView bytes = .error e := by
  refine ⟨fun v hv => ⟨length_encodeInto v, decodeView_encodeInto.mpr ⟨hv, rfl⟩⟩, fun bytes v h => ?_,
    fun bytes hne => ?_⟩
  · have hagain : decodeView (encodeInto v) = .ok v := decodeView_encodeInto.mpr ⟨decodeView_valid h, rfl⟩
    refine ⟨encodeInto v, ?_, length_encodeInto v, hagain, ?_, fun hlen => decodeView_short h hlen⟩
    · rw [migrateToV3, h]
      rfl
    · rw [migrateToV3, hagain]
      rfl
  · cases h : decodeView bytes with
    | error e => exact ⟨e, rfl⟩
    | ok v => exact absurd (decodeView_version h) hne

/-- The record of a device that has met nobody. -/
theorem persist_codec_sample :
    let v : PersistView :=
      { provisioned := true, label := 1, uid := .zero 8, uidSet := true, unixSeconds := 0, persistedTxEpoch := 0
        armedNextBoot := false, signPriv := .zero 32, signSet := true, contacts := fun _ => .empty }
    (encodeInto v).length = persistLen ∧ decodeView (encodeInto v) = .ok v :=
  persist_codec.1 _ ⟨by decide, fun _ => PersistContact.valid_empty⟩

end LoraMesh
