import Mathlib.Algebra.GroupWithZero.Nat
import LoraMesh.Lib.Except
import LoraMesh.Lib.Wire

/-!
# Host — Elf

`check_elf` of `host/meshctl/device.py`: the checks of a firmware image before it is flashed.

* `checkElf`: the checks, on the bytes of the file.  Numbers are read without a bound of their own; it is
  `unpackFrom` that sees whether the bytes are there.
* `Sound`: what an accepted image is promised to be.
* `Total`: nothing but a `ValueError` escapes.
* `elf_total`: every accepted image is sound, and the images for which nothing else escapes.
-/

namespace LoraMesh

/-! ### Numbers in the file -/

/-- The number in `width` bytes at an offset. -/
def number (data : List UInt8) (offset width : ℕ) : ℕ := leNat ((data.drop offset).take width)

/-- `struct.unpack_from`, as far as it looks whether `size` bytes are there; or the text of its `struct.error`. -/
def unpackFrom (data : List UInt8) (offset size : ℕ) : Except String Unit :=
  if offset + size ≤ data.length then .ok ()
  else
    let need := offset + size
    let actual := data.length
    .error (s!"unpack_from requires a buffer of at least {need} bytes for unpacking {size} bytes at offset {offset}" ++
      s!" (actual buffer size is {actual})")

/-! ### The parts of an image -/

structure ElfHeader where
  kind : ℕ
  machine : ℕ
  version : ℕ
  entry : ℕ
  phoff : ℕ
  shoff : ℕ
  phsize : ℕ
  phnum : ℕ
  shsize : ℕ
  shnum : ℕ
  shstridx : ℕ

/-- `"<HHIIIIIHHHHHH"` at 16, the flags and the header's own size apart. -/
def elfHeader (data : List UInt8) : ElfHeader where
  kind := number data 16 2
  machine := number data 18 2
  version := number data 20 4
  entry := number data 24 4
  phoff := number data 28 4
  shoff := number data 32 4
  phsize := number data 42 2
  phnum := number data 44 2
  shsize := number data 46 2
  shnum := number data 48 2
  shstridx := number data 50 2

/-- A segment to load. -/
structure Segment where
  offset : ℕ
  vaddr : ℕ
  paddr : ℕ
  filesz : ℕ
  memsz : ℕ
  perm : ℕ
  deriving DecidableEq

def segmentAt (data : List UInt8) (at_ : ℕ) : Segment where
  offset := number data (at_ + 4) 4
  vaddr := number data (at_ + 8) 4
  paddr := number data (at_ + 12) 4
  filesz := number data (at_ + 16) 4
  memsz := number data (at_ + 20) 4
  perm := number data (at_ + 24) 4

structure Section where
  name : ℕ
  offset : ℕ
  size : ℕ

def sectionAt (data : List UInt8) (at_ : ℕ) : Section where
  name := number data at_ 4
  offset := number data (at_ + 16) 4
  size := number data (at_ + 20) 4

abbrev flashStart : ℕ := 0x10000000

abbrev flashStorage : ℕ := 0x103F0000

abbrev flashEnd : ℕ := 0x10400000

abbrev ramStart : ℕ := 0x20000000

abbrev ramEnd : ℕ := 0x20082000

/-! ### The checks -/

/-- What escapes: a `ValueError` with its text, or a `struct.error`. -/
inductive ElfError where
  | value (text : String)
  | struct (text : String)
  deriving DecidableEq

structure ElfResult where
  entry : ℕ
  reset : ℕ
  stack : ℕ
  storedBytes : ℕ
  loadSegments : ℕ
  deriving DecidableEq

/-- A check that raises `ValueError`. -/
def raiseUnless (c : Prop) [Decidable c] (text : String) : Except ElfError Unit :=
  if c then .ok () else .error (.value text)

/-- Where the entries of the program header table are. -/
def entryOffsets (data : List UInt8) : List ℕ :=
  let h := elfHeader data
  (List.range h.phnum).map fun i => h.phoff + i * h.phsize

/-- The entries of type `LOAD`. -/
def loadsFrom (data : List UInt8) : List ℕ → Except String (List Segment)
  | [] => .ok []
  | at_ :: ats => do
    unpackFrom data at_ 4
    if number data at_ 4 = 1 then
      unpackFrom data at_ 32
      let loads ← loadsFrom data ats
      return segmentAt data at_ :: loads
    else loadsFrom data ats

/-- What of a segment is stored lies in flash, below the retained storage. -/
def Segment.Stored (s : Segment) : Prop := flashStart ≤ s.paddr ∧ s.paddr + s.filesz ≤ flashStorage

def Segment.InFlash (s : Segment) : Prop := flashStart ≤ s.vaddr ∧ s.vaddr + s.memsz ≤ flashEnd

def Segment.InRam (s : Segment) : Prop := ramStart ≤ s.vaddr ∧ s.vaddr + s.memsz ≤ ramEnd

instance (s : Segment) : Decidable s.Stored := inferInstanceAs (Decidable (_ ∧ _))

instance (s : Segment) : Decidable s.InFlash := inferInstanceAs (Decidable (_ ∧ _))

instance (s : Segment) : Decidable s.InRam := inferInstanceAs (Decidable (_ ∧ _))

def checkSegment (data : List UInt8) (s : Segment) : Except ElfError Unit := do
  raiseUnless (¬ (s.memsz < s.filesz ∨ data.length < s.offset + s.filesz)) "corrupt segment"
  raiseUnless (s.filesz ≠ 0 → s.Stored) "load data overlaps retained storage or lies outside flash"
  raiseUnless (s.InFlash ∨ s.InRam) "segment outside RP2350 memory"

/-- The loop over the segments, and `stored`. -/
def checkLoads (data : List UInt8) : List Segment → ℕ → Except ElfError ℕ
  | [], stored => .ok stored
  | s :: loads, stored => do
    checkSegment data s
    checkLoads data loads (stored + s.filesz)

def sectionsFrom (data : List UInt8) : List ℕ → Except String (List Section)
  | [] => .ok []
  | at_ :: ats => do
    unpackFrom data at_ 40
    let sections ← sectionsFrom data ats
    return sectionAt data at_ :: sections

/-- Where the entries of the section table are. -/
def sectionOffsets (data : List UInt8) : List ℕ :=
  let h := elfHeader data
  (List.range h.shnum).map fun i => h.shoff + i * h.shsize

/-- The section is called `.vector_table`, by the names in `strings`. -/
def Section.isVector (data : List UInt8) (strings s : Section) : Bool :=
  let strtab := (data.drop strings.offset).take strings.size
  (strtab.drop s.name).takeWhile (· != 0) == ".vector_table".toUTF8.toList

/-- The guarded block: the section `.vector_table`, or the text of what is caught. -/
def vectorTable (data : List UInt8) : Except String Section := do
  let sections ← sectionsFrom data (sectionOffsets data)
  match sections[(elfHeader data).shstridx]? with
  | none => .error "list index out of range"
  | some strings =>
    match sections.find? (Section.isVector data strings) with
    | none => .error ""
    | some vector => .ok vector

/-- An executable segment holds the address, but for its Thumb bit. -/
def Segment.Runs (s : Segment) (address : ℕ) : Prop :=
  s.perm % 2 = 1 ∧ s.vaddr ≤ address / 2 * 2 ∧ address / 2 * 2 < s.vaddr + s.memsz

instance (s : Segment) (address : ℕ) : Decidable (s.Runs address) := inferInstanceAs (Decidable (_ ∧ _ ∧ _))

def elfMagic : List UInt8 := [0x7f, 0x45, 0x4c, 0x46, 1, 1, 1]

def IsArm (data : List UInt8) : Prop :=
  (elfHeader data).kind = 2 ∧ (elfHeader data).machine = 40 ∧ (elfHeader data).version = 1

instance (data : List UInt8) : Decidable (IsArm data) := inferInstanceAs (Decidable (_ ∧ _ ∧ _))

/-- The checks from the vector table on. -/
def checkVector (data : List UInt8) (loads : List Segment) (stored : ℕ) (vector : Section) :
    Except ElfError ElfResult := do
  raiseUnless (64 ≤ vector.size) "vector table too short"
  (unpackFrom data vector.offset 8).mapError .struct
  let sp := number data vector.offset 4
  let reset := number data (vector.offset + 4) 4
  raiseUnless (ramStart < sp ∧ sp ≤ ramEnd ∧ sp % 8 = 0) "invalid initial stack pointer"
  raiseUnless (reset % 2 = 1) "reset vector is not Thumb"
  let entry := (elfHeader data).entry
  raiseUnless (∃ s ∈ loads, s.Runs reset) "reset outside executable segment"
  raiseUnless (∃ s ∈ loads, s.Runs entry) "entry outside executable segment"
  return { entry, reset, stack := sp, storedBytes := stored, loadSegments := loads.length }

def checkElf (data : List UInt8) : Except ElfError ElfResult := do
  raiseUnless (data.take 7 = elfMagic) "not an ELF32 little-endian v1 image"
  (unpackFrom data 16 36).mapError .struct
  raiseUnless (IsArm data) "not an ARM executable"
  let loads ← (loadsFrom data (entryOffsets data)).mapError .struct
  raiseUnless (loads ≠ []) "no loadable segments"
  let stored ← checkLoads data loads 0
  let vector ← (vectorTable data).mapError fun exc => .value s!"no usable vector table: {exc}"
  checkVector data loads stored vector

/-! ### What the image holds -/

section

variable (data : List UInt8)

/-- Every entry is in the file, as far as it is read. -/
def EntriesFit : Prop :=
  ∀ at_ ∈ entryOffsets data, at_ + 4 ≤ data.length ∧ (number data at_ 4 = 1 → at_ + 32 ≤ data.length)

/-- The segments to load. -/
def loadSegments : List Segment :=
  ((entryOffsets data).filter fun at_ => number data at_ 4 = 1).map (segmentAt data)

/-- A segment passes the three checks. -/
structure Segment.Good (s : Segment) : Prop where
  file : s.filesz ≤ s.memsz ∧ s.offset + s.filesz ≤ data.length
  stored : s.filesz ≠ 0 → s.Stored
  placed : s.InFlash ∨ s.InRam

def SectionsFit : Prop := ∀ at_ ∈ sectionOffsets data, at_ + 40 ≤ data.length

/-- The first section of that name. -/
structure IsVector (v : Section) : Prop where
  fit : SectionsFit data
  first : ∃ strings, ((sectionOffsets data).map (sectionAt data))[(elfHeader data).shstridx]? = some strings ∧
    ((sectionOffsets data).map (sectionAt data)).find? (Section.isVector data strings) = some v

/-- What an accepted image is promised to be. -/
structure Sound (r : ElfResult) : Prop where
  segments : ∀ s ∈ loadSegments data, s.Good data
  vector : ∃ v, IsVector data v ∧ v.offset + 8 ≤ data.length ∧ r.stack = number data v.offset 4 ∧
    r.reset = number data (v.offset + 4) 4
  stack : r.stack % 8 = 0 ∧ ramStart < r.stack ∧ r.stack ≤ ramEnd
  reset : ∃ s ∈ loadSegments data, s.Runs r.reset
  entry : r.entry = (elfHeader data).entry ∧ ∃ s ∈ loadSegments data, s.Runs r.entry
  counts : r.storedBytes = ((loadSegments data).map Segment.filesz).sum ∧ r.loadSegments = (loadSegments data).length

/-- What is read outside the guarded block is in the file, each part where the checks before it come to it. -/
def Bounded : Prop :=
  data.take 7 = elfMagic → 52 ≤ data.length ∧ (IsArm data →
    EntriesFit data ∧ (loadSegments data ≠ [] → (∀ s ∈ loadSegments data, s.Good data) →
      ∀ v, IsVector data v → 64 ≤ v.size → v.offset + 8 ≤ data.length))

end

/-- No exception but a `ValueError`. -/
def Total {α : Type} (r : Except ElfError α) : Prop := Avoids (fun e => ∃ text, e = .struct text) r

/-! ### Each check by itself -/

theorem raiseUnless_ok {c : Prop} [Decidable c] {text : String} {u : Unit} : raiseUnless c text = .ok u ↔ c := by
  rw [raiseUnless]
  by_cases hc : c
  · rw [if_pos hc]
    exact ⟨fun _ => hc, fun _ => rfl⟩
  · rw [if_neg hc]
    exact ⟨fun h => (by cases h), fun h => absurd h hc⟩

theorem unpackFrom_ok {data : List UInt8} {offset size : ℕ} {u : Unit} :
    unpackFrom data offset size = .ok u ↔ offset + size ≤ data.length := by
  rw [unpackFrom]
  by_cases hc : offset + size ≤ data.length
  · rw [if_pos hc]
    exact ⟨fun _ => hc, fun _ => rfl⟩
  · rw [if_neg hc]
    exact ⟨fun h => (by cases h), fun h => absurd h hc⟩

/-- A check lets on where it holds, and raises what it may. -/
theorem total_raiseUnless {α : Type} {c : Prop} [Decidable c] {text : String} {f : Unit → Except ElfError α} :
    Total (raiseUnless c text >>= f) ↔ (c → Total (f ())) := by
  refine avoids_bind.trans ⟨fun h hc => h.2 () (raiseUnless_ok.mpr hc), fun h => ⟨?_, fun _ hc => ?_⟩⟩
  rotate_left
  · exact h (raiseUnless_ok.mp hc)
  rw [raiseUnless]
  by_cases hc : c
  · rw [if_pos hc]
    exact avoids_ok
  · rw [if_neg hc]
    refine avoids_error.mpr ?_
    rintro ⟨_, h⟩
    cases h

/-- What raises a `struct.error` has to go well. -/
theorem total_struct {α β : Type} {r : Except String α} {f : α → Except ElfError β} :
    Total (r.mapError .struct >>= f) ↔ ∃ a, r = .ok a ∧ Total (f a) := by
  refine avoids_bind.trans ?_
  rw [avoids_mapError, avoids_of_all fun e => ⟨e, rfl⟩]
  constructor
  · rintro ⟨⟨a, ha⟩, h⟩
    exact ⟨a, ha, h a (mapError_eq_ok.mpr ha)⟩
  · rintro ⟨a, ha, h⟩
    refine ⟨⟨a, ha⟩, fun b hb => ?_⟩
    cases ha.symm.trans (mapError_eq_ok.mp hb)
    exact h

theorem total_unpack {α : Type} {data : List UInt8} {offset size : ℕ} {f : Unit → Except ElfError α} :
    Total ((unpackFrom data offset size).mapError .struct >>= f) ↔ offset + size ≤ data.length ∧ Total (f ()) := by
  refine total_struct.trans ⟨fun ⟨_, hu, h⟩ => ⟨unpackFrom_ok.mp hu, h⟩, fun ⟨hu, h⟩ => ⟨(), unpackFrom_ok.mpr hu, h⟩⟩

/-- What is caught may go wrong. -/
theorem total_caught {α β : Type} {r : Except String α} {g : String → String} {f : α → Except ElfError β} :
    Total (r.mapError (fun exc => .value (g exc)) >>= f) ↔ ∀ a, r = .ok a → Total (f a) := by
  refine avoids_bind.trans ?_
  rw [avoids_mapError]
  constructor
  · intro h a ha
    exact h.2 a (mapError_eq_ok.mpr ha)
  · intro h
    refine ⟨avoids_of_none ?_ r, fun a ha => h a (mapError_eq_ok.mp ha)⟩
    rintro _ ⟨_, he⟩
    cases he

/-! ### The loops -/

section

variable {data : List UInt8}

theorem loadsFrom_ok {loads : List Segment} : ∀ {ats : List ℕ}, loadsFrom data ats = .ok loads ↔
    (∀ at_ ∈ ats, at_ + 4 ≤ data.length ∧ (number data at_ 4 = 1 → at_ + 32 ≤ data.length)) ∧
      loads = (ats.filter fun at_ => number data at_ 4 = 1).map (segmentAt data) := by
  intro ats
  induction ats generalizing loads with
  | nil =>
      rw [loadsFrom, Except.ok.injEq]
      exact ⟨fun h => ⟨fun _ hm => absurd hm List.not_mem_nil, h.symm⟩, fun h => h.2.symm⟩
  | cons at_ ats ih =>
      rw [loadsFrom, bind_eq_ok, List.forall_mem_cons]
      by_cases h1 : number data at_ 4 = 1
      · rw [if_pos h1, List.filter_cons_of_pos (by simpa using h1), List.map_cons]
        simp only [bind_eq_ok, unpackFrom_ok, ih, pure_eq_ok]
        constructor
        · rintro ⟨_, h4, _, h32, _, ⟨hs, rfl⟩, rfl⟩
          exact ⟨⟨⟨h4, fun _ => h32⟩, hs⟩, rfl⟩
        · rintro ⟨⟨⟨h4, h32⟩, hs⟩, rfl⟩
          exact ⟨(), h4, (), h32 h1, _, ⟨hs, rfl⟩, rfl⟩
      · rw [if_neg h1, ih, List.filter_cons_of_neg (by simpa using h1)]
        simp only [unpackFrom_ok]
        constructor
        · rintro ⟨_, h4, hs, rfl⟩
          exact ⟨⟨⟨h4, fun h => absurd h h1⟩, hs⟩, rfl⟩
        · rintro ⟨⟨⟨h4, _⟩, hs⟩, rfl⟩
          exact ⟨(), h4, hs, rfl⟩

theorem total_loadsFrom {α : Type} {f : List Segment → Except ElfError α} :
    Total ((loadsFrom data (entryOffsets data)).mapError .struct >>= f) ↔
      EntriesFit data ∧ Total (f (loadSegments data)) := by
  refine total_struct.trans ⟨?_, fun ⟨hfit, h⟩ => ⟨_, loadsFrom_ok.mpr ⟨hfit, rfl⟩, h⟩⟩
  rintro ⟨_, hl, h⟩
  obtain ⟨hfit, rfl⟩ := loadsFrom_ok.mp hl
  exact ⟨hfit, h⟩

theorem checkSegment_ok {s : Segment} {u : Unit} : checkSegment data s = .ok u ↔ s.Good data := by
  simp only [checkSegment, bind_eq_ok, raiseUnless_ok]
  constructor
  · rintro ⟨_, hf, _, hs, hp⟩
    exact ⟨by omega, hs, hp⟩
  · rintro ⟨hf, hs, hp⟩
    exact ⟨(), by omega, (), hs, hp⟩

theorem checkLoads_ok {n : ℕ} : ∀ {loads : List Segment} {stored : ℕ}, checkLoads data loads stored = .ok n ↔
    (∀ s ∈ loads, s.Good data) ∧ n = stored + (loads.map Segment.filesz).sum := by
  intro loads
  induction loads with
  | nil =>
      intro stored
      rw [checkLoads, Except.ok.injEq]
      exact ⟨fun h => ⟨fun _ hm => absurd hm List.not_mem_nil, h.symm⟩, fun h => h.2.symm⟩
  | cons s loads ih =>
      intro stored
      rw [checkLoads, bind_eq_ok, List.forall_mem_cons, List.map_cons, List.sum_cons, ← Nat.add_assoc]
      simp only [checkSegment_ok, ih]
      constructor
      · rintro ⟨_, hg, hs, hn⟩
        exact ⟨⟨hg, hs⟩, hn⟩
      · rintro ⟨⟨hg, hs⟩, hn⟩
        exact ⟨(), hg, hs, hn⟩

theorem total_segment (s : Segment) : Total (checkSegment data s) := by
  refine total_raiseUnless.mpr fun _ => total_raiseUnless.mpr fun _ => ?_
  rw [raiseUnless]
  by_cases hp : s.InFlash ∨ s.InRam
  · rw [if_pos hp]
    exact avoids_ok
  · rw [if_neg hp]
    refine avoids_error.mpr ?_
    rintro ⟨_, h⟩
    cases h

theorem total_loads : ∀ (loads : List Segment) (stored : ℕ), Total (checkLoads data loads stored)
  | [], _ => avoids_ok
  | s :: loads, _ => avoids_bind.mpr ⟨total_segment s, fun _ _ => total_loads loads _⟩

theorem sectionsFrom_ok {sections : List Section} : ∀ {ats : List ℕ}, sectionsFrom data ats = .ok sections ↔
    (∀ at_ ∈ ats, at_ + 40 ≤ data.length) ∧ sections = ats.map (sectionAt data) := by
  intro ats
  induction ats generalizing sections with
  | nil =>
      rw [sectionsFrom, Except.ok.injEq]
      exact ⟨fun h => ⟨fun _ hm => absurd hm List.not_mem_nil, h.symm⟩, fun h => h.2.symm⟩
  | cons at_ ats ih =>
      simp only [sectionsFrom, bind_eq_ok, unpackFrom_ok, ih, pure_eq_ok, List.forall_mem_cons, List.map_cons]
      constructor
      · rintro ⟨_, h40, _, ⟨hs, rfl⟩, rfl⟩
        exact ⟨⟨h40, hs⟩, rfl⟩
      · rintro ⟨⟨h40, hs⟩, rfl⟩
        exact ⟨(), h40, _, ⟨hs, rfl⟩, rfl⟩

theorem vectorTable_ok {v : Section} : vectorTable data = .ok v ↔ IsVector data v := by
  simp only [vectorTable, bind_eq_ok, sectionsFrom_ok]
  constructor
  · rintro ⟨_, ⟨hfit, rfl⟩, h⟩
    refine ⟨hfit, ?_⟩
    split at h
    · cases h
    · next strings hs =>
        refine ⟨strings, hs, ?_⟩
        split at h
        · cases h
        · next hv =>
            cases h
            exact hv
  · rintro ⟨hfit, strings, hs, hv⟩
    refine ⟨_, ⟨hfit, rfl⟩, ?_⟩
    simp only [hs, hv]

/-! ### The whole check -/

theorem checkVector_ok {loads : List Segment} {stored : ℕ} {v : Section} {r : ElfResult} :
    checkVector data loads stored v = .ok r ↔
      64 ≤ v.size ∧ v.offset + 8 ≤ data.length ∧
        (ramStart < r.stack ∧ r.stack ≤ ramEnd ∧ r.stack % 8 = 0) ∧ r.reset % 2 = 1 ∧
        (∃ s ∈ loads, s.Runs r.reset) ∧ (∃ s ∈ loads, s.Runs r.entry) ∧
        r = { entry := (elfHeader data).entry, reset := number data (v.offset + 4) 4,
              stack := number data v.offset 4, storedBytes := stored, loadSegments := loads.length } := by
  simp only [checkVector, bind_eq_ok, raiseUnless_ok, mapError_eq_ok, unpackFrom_ok, pure_eq_ok]
  constructor
  · rintro ⟨_, hsize, _, hoff, _, hsp, _, hthumb, _, hreset, _, hentry, rfl⟩
    exact ⟨hsize, hoff, hsp, hthumb, hreset, hentry, rfl⟩
  · rintro ⟨hsize, hoff, hsp, hthumb, hreset, hentry, rfl⟩
    exact ⟨(), hsize, (), hoff, (), hsp, (), hthumb, (), hreset, (), hentry, rfl⟩

theorem total_vector {loads : List Segment} {stored : ℕ} {v : Section} :
    Total (checkVector data loads stored v) ↔ (64 ≤ v.size → v.offset + 8 ≤ data.length) := by
  refine total_raiseUnless.trans (imp_congr_right fun _ => total_unpack.trans (and_iff_left ?_))
  refine total_raiseUnless.mpr fun _ => total_raiseUnless.mpr fun _ => total_raiseUnless.mpr fun _ => ?_
  exact total_raiseUnless.mpr fun _ => avoids_ok

theorem checkElf_sound {r : ElfResult} (h : checkElf data = .ok r) : Sound data r := by
  simp only [checkElf, bind_eq_ok, raiseUnless_ok, mapError_eq_ok, loadsFrom_ok, checkLoads_ok, vectorTable_ok,
    checkVector_ok] at h
  obtain ⟨_, -, _, -, _, -, _, ⟨-, rfl⟩, _, -, _, ⟨hgood, rfl⟩, v, hv, -, hoff, hsp, -, hreset, hentry, rfl⟩ := h
  exact
    { segments := hgood
      vector := ⟨v, hv, hoff, rfl, rfl⟩
      stack := ⟨hsp.2.2, hsp.1, hsp.2.1⟩
      reset := hreset
      entry := ⟨rfl, hentry⟩
      counts := ⟨Nat.zero_add _, rfl⟩ }

theorem checkElf_total : Total (checkElf data) ↔ Bounded data := by
  refine total_raiseUnless.trans (imp_congr_right fun _ => total_unpack.trans (and_congr_right fun _ => ?_))
  refine total_raiseUnless.trans (imp_congr_right fun _ => ?_)
  refine total_loadsFrom.trans (and_congr_right fun _ => ?_)
  refine total_raiseUnless.trans (imp_congr_right fun _ => ?_)
  refine avoids_bind.trans ((and_iff_right (total_loads _ _)).trans ?_)
  -- however much is stored, the same is left to do
  have hvector : ∀ stored, (Total (do
      let vector ← (vectorTable data).mapError fun exc => .value s!"no usable vector table: {exc}"
      checkVector data (loadSegments data) stored vector)) ↔
        ∀ v, IsVector data v → 64 ≤ v.size → v.offset + 8 ≤ data.length := by
    intro stored
    refine total_caught.trans (forall_congr' fun v => ?_)
    rw [vectorTable_ok]
    exact imp_congr_right fun _ => total_vector
  constructor
  · intro h hgood
    exact (hvector _).mp (h _ (checkLoads_ok.mpr ⟨hgood, rfl⟩))
  · intro h stored hs
    exact (hvector stored).mpr (h (checkLoads_ok.mp hs).1)

end

/-- An accepted image is sound, and nothing but a `ValueError` escapes just where what is read outside the
guarded block is there. -/
theorem elf_total (data : List UInt8) :
    ((∀ r, checkElf data = .ok r → Sound data r) ∧ Total (checkElf data)) ↔ Bounded data := by
  rw [checkElf_total]
  exact and_iff_right fun r h => checkElf_sound h

/-- An image that ends within its header. -/
theorem short_header :
    checkElf elfMagic = .error (.struct ("unpack_from requires a buffer of at least 52 bytes " ++
      "for unpacking 36 bytes at offset 16 (actual buffer size is 7)")) ∧
    ¬ ((∀ r, checkElf elfMagic = .ok r → Sound elfMagic r) ∧ Total (checkElf elfMagic)) := by
  have herror : checkElf elfMagic = .error (.struct ("unpack_from requires a buffer of at least 52 bytes " ++
      "for unpacking 36 bytes at offset 16 (actual buffer size is 7)")) := rfl
  refine ⟨herror, fun h => ?_⟩
  exact avoids_error.mp (herror ▸ h.2) ⟨_, rfl⟩

/-- A small image: one segment, with the vector table at its start, and the names of three sections behind it. -/
def minimalElf : List UInt8 :=
  elfMagic ++ List.replicate 9 0 ++
  [2, 0, 40, 0, 1, 0, 0, 0, 1, 1, 0, 16, 52, 0, 0, 0, 84, 0, 0, 0, 0, 0, 0, 0, 52, 0, 32, 0, 1, 0, 40, 0, 3, 0, 2, 0] ++
  [1, 0, 0, 0, 204, 0, 0, 0, 0, 0, 0, 16, 0, 0, 0, 16, 64, 0, 0, 0, 0, 2, 0, 0, 5, 0, 0, 0, 4, 0, 0, 0] ++
  List.replicate 40 0 ++
  [1, 0, 0, 0, 3, 0, 0, 0, 0, 0, 0, 0, 0, 0, 0, 0, 204, 0, 0, 0, 64, 0, 0, 0] ++ List.replicate 16 0 ++
  [0, 0, 0, 0, 3, 0, 0, 0, 0, 0, 0, 0, 0, 0, 0, 0, 12, 1, 0, 0, 15, 0, 0, 0] ++ List.replicate 16 0 ++
  [0, 0, 8, 32, 1, 1, 0, 16] ++ List.replicate 56 0 ++ 0 :: ".vector_table".toUTF8.toList ++ [0]

example : checkElf minimalElf =
    .ok { entry := 0x10000101, reset := 0x10000101, stack := 0x20080000, storedBytes := 64, loadSegments := 1 } := by
  decide +kernel

end LoraMesh
