import Mathlib.Data.String.Basic
import LoraMesh.Host.Records
import LoraMesh.Lib.Dict
import LoraMesh.Lib.Runs

/-!
# Host — Audit

The audit copies of pairing records under `.mesh-local/records`: `pair` exports write them, a `pair import` that
activates a contact sweeps them, and `records prune` keeps some (`host/meshctl/__main__.py`, `cli_extra.py`).

* `RecordsDir.step`: a move of the directory.  A QR image may be written there as well.
* `RecordsKept`: what a prune and an activation are for.
* `audit_kept`: when they do it.

A file keeps when it was written, and a copy keeps its command, board and ceremony, which no program reads.  The
ceremony of a board is what happens there up to the next activation.
-/

namespace LoraMesh

/-! ### Names -/

/-- The command of an export. -/
inductive PairCmd where
  | offer
  | proof
  | confirm
  deriving DecidableEq

def PairCmd.text : PairCmd → String
  | .offer => "offer"
  | .proof => "proof"
  | .confirm => "confirm"

def RecordKind.text : RecordKind → String
  | .offer => "offer"
  | .proof => "proof"
  | .confirmation => "confirmation"

/-- The name of an audit copy, with the time in whole seconds. -/
def copyName (cmd : PairCmd) (now : ℕ) : String :=
  cmd.text ++ "-" ++ toString (now / 10 ^ 9) ++ ".txt"

def hasSuffix (suffix name : String) : Bool := suffix.toList.isSuffixOf name.toList

/-- `f"{kind}-*.txt"`. -/
def sweeps (kind : RecordKind) (name : String) : Bool :=
  let start := kind.text ++ "-"
  start.toList.isPrefixOf name.toList && hasSuffix ".txt" name && start.length + 4 ≤ name.length

/-! ### The directory -/

structure AuditCopy where
  cmd : PairCmd
  board : String
  ceremony : ℕ
  deriving DecidableEq

/-- A file, written at a time in nanoseconds, and the audit copy that it is. -/
structure AuditFile where
  time : ℕ
  copy : Option AuditCopy
  deriving DecidableEq

structure RecordsDir where
  files : Dict String AuditFile
  /-- How many ceremonies a board has been through. -/
  ceremony : String → ℕ

inductive RecordsMove where
  /-- A record is exported; its image may be written to the directory, and its copy may fail. -/
  | exported (cmd : PairCmd) (board : String) (now : ℕ) (out : Option String) (copied : Bool)
  /-- A record is imported, which activates a contact. -/
  | activated (kind : RecordKind) (board : String)
  | prune (keep : ℤ)

/-- `sorted(records.glob("*.txt")) + sorted(records.glob("*.png"))`. -/
def recordFiles (files : Dict String AuditFile) : List (String × AuditFile) :=
  files.sorted.items.filter (fun p => hasSuffix ".txt" p.1) ++
    files.sorted.items.filter fun p => hasSuffix ".png" p.1

/-- How many files a prune removes. -/
def pruned (files : Dict String AuditFile) (keep : ℤ) : ℕ := (recordFiles files).length - keep.toNat

def victims (files : Dict String AuditFile) (keep : ℤ) : List (String × AuditFile) :=
  let keep := (max keep 0).toNat
  if keep = 0 then recordFiles files else (recordFiles files).take ((recordFiles files).length - keep)

namespace RecordsDir

def writeOut (d : RecordsDir) (now : ℕ) : Option String → RecordsDir
  | none => d
  | some name => { d with files := d.files.set name { time := now, copy := none } }

def writeCopy (d : RecordsDir) (cmd : PairCmd) (board : String) (now : ℕ) : RecordsDir :=
  let copy := { cmd, board, ceremony := d.ceremony board }
  { d with files := d.files.set (copyName cmd now) { time := now, copy := some copy } }

def step (d : RecordsDir) : RecordsMove → RecordsDir
  | .exported cmd board now out copied =>
    let d := d.writeOut now out
    if copied then d.writeCopy cmd board now else d
  | .activated kind board =>
    { files := d.files.filter fun name _ => !sweeps kind name
      ceremony := fun b => if b = board then d.ceremony b + 1 else d.ceremony b }
  | .prune keep =>
    let names := (victims d.files keep).map Prod.fst
    { d with files := d.files.filter fun name _ => !names.contains name }

end RecordsDir

/-! ### What is kept -/

/-- The file is a copy of the ceremony that the board is in. -/
def RecordsDir.Current (d : RecordsDir) (board : String) (f : AuditFile) : Prop :=
  ∃ c ∈ f.copy, c.board = board ∧ c.ceremony = d.ceremony board

instance (d : RecordsDir) (board : String) (f : AuditFile) : Decidable (d.Current board f) :=
  inferInstanceAs (Decidable (∃ c ∈ f.copy, _ ∧ _))

/-- A prune removes record files that are at least as old as every one it keeps, and keeps as many as it should;
an activation leaves no copy of its ceremony. -/
def RecordsKept (d : RecordsDir) : RecordsMove → Prop
  | .exported _ _ _ _ _ => True
  | .activated kind board => ∀ p ∈ (d.step (.activated kind board)).files.items, ¬ d.Current board p.2
  | .prune keep =>
    let files := (d.step (.prune keep)).files
    (∀ p ∈ d.files.items, p ∉ files.items → p ∈ recordFiles d.files ∧ ∀ q ∈ recordFiles files, p.2.time ≤ q.2.time) ∧
      (recordFiles files).length = min keep.toNat (recordFiles d.files).length

instance (d : RecordsDir) : (m : RecordsMove) → Decidable (RecordsKept d m)
  | .exported _ _ _ _ _ => .isTrue trivial
  | .activated _ _ => inferInstanceAs (Decidable (∀ p ∈ _, _))
  | .prune _ => inferInstanceAs (Decidable (_ ∧ _))

/-- For a prune, the first record files, texts before images and each by name, are at least as old as the rest;
for an activation, every copy of the ceremony was exported under the kind of record that is imported. -/
def Dated (d : RecordsDir) : RecordsMove → Prop
  | .exported _ _ _ _ _ => True
  | .activated kind board => ∀ p ∈ d.files.items, ∀ c, p.2.copy = some c → c.board = board →
      c.ceremony = d.ceremony board → c.cmd.text = kind.text
  | .prune keep =>
    ∀ p ∈ (recordFiles d.files).take (pruned d.files keep),
      ∀ q ∈ (recordFiles d.files).drop (pruned d.files keep), p.2.time ≤ q.2.time

/-! ### Names of copies -/

theorem toList_copyName (cmd : PairCmd) (now : ℕ) :
    ∃ digits, (copyName cmd now).toList = cmd.text.toList ++ '-' :: (digits ++ ".txt".toList) := by
  refine ⟨(toString (now / 10 ^ 9)).toList, ?_⟩
  unfold copyName
  rw [String.toList_append, String.toList_append, String.toList_append, List.append_assoc, List.append_assoc]
  rfl

theorem copy_suffix (cmd : PairCmd) (now : ℕ) : hasSuffix ".txt" (copyName cmd now) = true := by
  obtain ⟨digits, h⟩ := toList_copyName cmd now
  unfold hasSuffix
  rw [h, List.isSuffixOf_iff_suffix]
  exact ⟨cmd.text.toList ++ '-' :: digits, by simp⟩

theorem prefix_copy (kind : RecordKind) (cmd : PairCmd) (rest : List Char) :
    (kind.text ++ "-").toList.isPrefixOf (cmd.text.toList ++ '-' :: rest) = decide (cmd.text = kind.text) := by
  cases cmd with
  | offer => cases kind <;> rfl
  | proof => cases kind <;> rfl
  | confirm => cases kind <;> rfl

/-- A sweep removes a copy exactly when it was exported under the kind that is swept. -/
theorem sweeps_copy (kind : RecordKind) (cmd : PairCmd) (now : ℕ) :
    sweeps kind (copyName cmd now) = true ↔ cmd.text = kind.text := by
  have hsuffix := copy_suffix cmd now
  obtain ⟨digits, h⟩ := toList_copyName cmd now
  unfold sweeps
  dsimp only
  rw [hsuffix, h, prefix_copy, Bool.and_true, Bool.and_eq_true, decide_eq_true_eq, decide_eq_true_eq]
  refine and_iff_left_of_imp fun htext => ?_
  rw [← htext, String.length_append, ← String.length_toList (s := copyName cmd now), h]
  have hdash : "-".length = 1 := rfl
  have hext : ".txt".toList.length = 4 := rfl
  simp only [List.length_append, List.length_cons, String.length_toList (s := cmd.text), hdash, hext]
  omega

/-- Every copy has its name. -/
def RecordsDir.Named (d : RecordsDir) : Prop :=
  ∀ name f c, d.files.get name = some f → f.copy = some c → ∃ now, name = copyName c.cmd now

theorem RecordsDir.Named.out {d : RecordsDir} (h : d.Named) (now : ℕ) (out : Option String) :
    (d.writeOut now out).Named := by
  cases out with
  | none => exact h
  | some name =>
      intro name' f c hf hc
      have hf' := (Dict.get_set _ _ _ _).symm.trans hf
      split at hf'
      · cases hf'
        cases hc
      · exact h name' f c hf' hc

/-- A move names what it writes. -/
theorem step_named (d : RecordsDir) (m : RecordsMove) (h : d.Named) : (d.step m).Named := by
  cases m with
  | exported cmd board now out copied =>
      have hout := h.out now out
      rw [RecordsDir.step]
      cases copied with
      | false => exact hout
      | true =>
          intro name f c hf hc
          have hf' := (Dict.get_set _ _ _ _).symm.trans hf
          split at hf'
          · next hname =>
              cases hf'
              cases hc
              exact ⟨now, hname⟩
          · exact hout name f c hf' hc
  | activated kind board =>
      intro name f c hf hc
      have hf' := (Dict.get_filter _ _ _).symm.trans hf
      exact h name f c (Option.filter_eq_some_iff.mp hf').1 hc
  | prune keep =>
      intro name f c hf hc
      have hf' := (Dict.get_filter _ _ _).symm.trans hf
      exact h name f c (Option.filter_eq_some_iff.mp hf').1 hc

/-! ### Activations -/

theorem activated_iff {d : RecordsDir} (h : d.Named) (kind : RecordKind) (board : String) :
    RecordsKept d (.activated kind board) ↔ Dated d (.activated kind board) := by
  have hsweeps : ∀ p ∈ d.files.items, ∀ c, p.2.copy = some c → (sweeps kind p.1 = true ↔ c.cmd.text = kind.text) := by
    intro p hp c hc
    obtain ⟨now, hname⟩ := h p.1 p.2 c (Dict.get_eq_some.mpr hp) hc
    rw [hname]
    exact sweeps_copy kind c.cmd now
  constructor
  · intro hkept p hp c hc hboard hceremony
    by_contra htext
    -- a copy that is not swept is still there
    have hnot : sweeps kind p.1 = false := Bool.not_eq_true _ ▸ fun hs => htext ((hsweeps p hp c hc).mp hs)
    exact hkept p (List.mem_filter.mpr ⟨hp, congrArg not hnot⟩) ⟨c, hc, hboard, hceremony⟩
  · rintro hdated p hp ⟨c, hc, hboard, hceremony⟩
    obtain ⟨hp, hnot⟩ := List.mem_filter.mp hp
    have hs := (hsweeps p hp c hc).mpr (hdated p hp c hc hboard hceremony)
    exact nomatch (congrArg not hs).symm.trans hnot

/-! ### Prunes -/

section

variable (files : Dict String AuditFile)

theorem mem_recordFiles {p : String × AuditFile} :
    p ∈ recordFiles files ↔ p ∈ files.items ∧ (hasSuffix ".txt" p.1 = true ∨ hasSuffix ".png" p.1 = true) := by
  unfold recordFiles
  have hmem : p ∈ files.sorted.items ↔ p ∈ files.items := (List.perm_insertionSort _ files.items).mem_iff
  rw [List.mem_append, List.mem_filter, List.mem_filter, hmem]
  exact and_or_left.symm

theorem not_both {name : String} (htxt : hasSuffix ".txt" name = true) : hasSuffix ".png" name = false := by
  rw [← Bool.not_eq_true]
  intro hpng
  have h := List.suffix_of_suffix_length_le (List.isSuffixOf_iff_suffix.mp htxt) (List.isSuffixOf_iff_suffix.mp hpng)
    (le_refl 4)
  exact absurd (h.eq_of_length rfl) (by decide)

/-- No file is a text and an image. -/
theorem nodup_recordFiles : ((recordFiles files).map Prod.fst).Nodup := by
  have hkeys := files.sorted.nodup
  unfold recordFiles
  rw [List.map_append, List.nodup_append]
  refine ⟨hkeys.sublist (List.filter_sublist.map _), hkeys.sublist (List.filter_sublist.map _), ?_⟩
  rintro _ ha _ hb rfl
  obtain ⟨p, hp, rfl⟩ := List.mem_map.mp ha
  obtain ⟨q, hq, hpq⟩ := List.mem_map.mp hb
  have hpng := (List.mem_filter.mp hq).2
  rw [hpq, not_both (List.mem_filter.mp hp).2] at hpng
  cases hpng

/-- What stays of the record files. -/
theorem recordFiles_filter (p : String → Bool) :
    (recordFiles (files.filter fun name _ => p name)).Perm ((recordFiles files).filter fun f => p f.1) := by
  have hsorted : (files.filter fun name _ => p name).sorted.items.Perm (files.sorted.items.filter fun f => p f.1) :=
    (List.perm_insertionSort _ _).trans ((List.perm_insertionSort _ files.items).symm.filter _)
  unfold recordFiles
  rw [List.filter_append, List.filter_comm, List.filter_comm (fun f : String × AuditFile => p f.1)]
  exact (hsorted.filter _).append (hsorted.filter _)

theorem victims_eq (keep : ℤ) : victims files keep = (recordFiles files).take (pruned files keep) := by
  have hkeep : (max keep 0).toNat = keep.toNat := by omega
  unfold victims pruned
  dsimp only
  rw [hkeep]
  split
  · next h => rw [h, Nat.sub_zero, List.take_length]
  · rfl

end

/-- Without those whose keys are among the first, the rest is left. -/
theorem filter_drop {κ α : Type} [BEq κ] [LawfulBEq κ] {l : List (κ × α)} (h : (l.map Prod.fst).Nodup) (n : ℕ) :
    (l.filter fun f => !((l.take n).map Prod.fst).contains f.1) = l.drop n := by
  have hdisjoint := (List.nodup_append.mp (by rw [← List.map_append, List.take_append_drop]; exact h :
    ((l.take n).map Prod.fst ++ (l.drop n).map Prod.fst).Nodup)).2.2
  have hfirst : (l.take n).filter (fun f => !((l.take n).map Prod.fst).contains f.1) = [] := by
    refine List.filter_eq_nil_iff.mpr fun f hf => ?_
    rw [List.contains_iff_mem.mpr (List.mem_map_of_mem hf)]
    exact Bool.false_ne_true
  have hrest : (l.drop n).filter (fun f => !((l.take n).map Prod.fst).contains f.1) = l.drop n := by
    refine List.filter_eq_self.mpr fun f hf => ?_
    rw [Bool.not_eq_true', ← Bool.not_eq_true, List.contains_iff_mem]
    exact fun hm => hdisjoint _ hm _ (List.mem_map_of_mem hf) rfl
  calc l.filter _ = (l.take n ++ l.drop n).filter _ := by rw [List.take_append_drop]
    _ = l.drop n := by rw [List.filter_append, hfirst, hrest, List.nil_append]

theorem prune_iff (d : RecordsDir) (keep : ℤ) : RecordsKept d (.prune keep) ↔ Dated d (.prune keep) := by
  have hperm : (recordFiles (d.step (.prune keep)).files).Perm ((recordFiles d.files).drop (pruned d.files keep)) := by
    have h := recordFiles_filter d.files fun name => !((victims d.files keep).map Prod.fst).contains name
    rw [victims_eq, filter_drop (nodup_recordFiles _)] at h
    rw [RecordsDir.step, victims_eq]
    exact h
  have hfirst : ∀ p ∈ (recordFiles d.files).take (pruned d.files keep), p ∈ d.files.items ∧ p ∈ recordFiles d.files :=
    fun p hp => ⟨((mem_recordFiles _).mp (List.mem_of_mem_take hp)).1, List.mem_of_mem_take hp⟩
  -- what goes is what comes first
  have hgone : ∀ p ∈ d.files.items,
      (p ∉ (d.step (.prune keep)).files.items ↔ p ∈ (recordFiles d.files).take (pruned d.files keep)) := by
    intro p hp
    have hmem : p ∈ (d.step (.prune keep)).files.items ↔
        p ∈ d.files.items ∧ (!((victims d.files keep).map Prod.fst).contains p.1) = true := List.mem_filter
    rw [hmem, not_and, victims_eq, Bool.not_eq_true', ← Bool.not_eq_true, not_not, List.contains_iff_mem]
    constructor
    · intro h
      obtain ⟨q, hq, hqp⟩ := List.mem_map.mp (h hp)
      -- two files of one name are one
      obtain rfl : q = p := Prod.ext hqp (d.files.unique (hqp ▸ (hfirst q hq).1) hp)
      exact hq
    · exact fun h _ => List.mem_map_of_mem h
  constructor
  · rintro ⟨hold, -⟩ p hp q hq
    obtain ⟨hitem, -⟩ := hfirst p hp
    exact (hold p hitem ((hgone p hitem).mpr hp)).2 q (hperm.mem_iff.mpr hq)
  · intro hdated
    refine ⟨fun p hp hnot => ?_, ?_⟩
    · have hp := (hgone p hp).mp hnot
      exact ⟨(hfirst p hp).2, fun q hq => hdated p hp q (hperm.mem_iff.mp hq)⟩
    · rw [hperm.length_eq, List.length_drop, pruned]
      omega

end LoraMesh
