import Mathlib.Data.List.DropRight
import Mathlib.Data.String.Basic
import LoraMesh.Lib.Dict
import LoraMesh.Lib.Runs
import LoraMesh.Host.Python

/-!
# Host — Contacts

`host/meshctl/contacts.py`: the operator's names for the contacts of a board, in one file for all boards.

* `loadMappings`: the file as it is read, its legacy keys folded into serials.
* `resolveContact`, `nameForId`: the two directions.
* `setContact`, `dropContact`: the two changes, each of which writes the file anew with its keys sorted.
* `two_way`: what a change leaves, for the two directions.

A board is a USB serial, or a device path that carries one.
-/

namespace LoraMesh

/-! ### Names, contacts and serials -/

abbrev maxNameLen : ℕ := 32

abbrev hostContacts : ℤ := 16

/-- `c.isspace()`. -/
def pySpace (c : Char) : Bool :=
  let n := c.toNat
  (9 ≤ n && n ≤ 13) || (0x1c ≤ n && n ≤ 0x20) || n == 0x85 || n == 0xa0 || n == 0x1680 ||
    (0x2000 ≤ n && n ≤ 0x200a) || n == 0x2028 || n == 0x2029 || n == 0x202f || n == 0x205f || n == 0x3000

def validName (name : String) : Bool :=
  name != "" && name.toList.any (fun c => !pySpace c) && decide (name.length ≤ maxNameLen)

/-- A name that is valid. -/
abbrev Label := { name : String // validName name = true }

def Label.of? (name : String) : Option Label := if h : validName name = true then some ⟨name, h⟩ else none

/-- A firmware contact id. -/
abbrev ContactId := { cid : ℤ // 1 ≤ cid ∧ cid ≤ hostContacts }

def ContactId.of? (cid : ℤ) : Option ContactId := if h : 1 ≤ cid ∧ cid ≤ hostContacts then some ⟨cid, h⟩ else none

/-- `os.path.basename(key.rstrip("/"))`. -/
def basename (key : String) : List Char := (key.toList.rdropWhile (· == '/')).rtakeWhile (· != '/')

/-- `base[4:-5].split("_")[-1]`. -/
def candidate (base : List Char) : List Char := ((base.take (base.length - 5)).drop 4).rtakeWhile (· != '_')

def hexDigits : List Char := "0123456789abcdef".toList

/-- The USB serial of a legacy key. -/
def serialFromKey (key : String) : Option String :=
  let base := basename key
  if "usb-".toList.isPrefixOf base && "-if00".toList.isSuffixOf base && !(candidate base).isEmpty &&
      (candidate base).all (hexDigits.contains ·) then
    some (String.ofList (candidate base))
  else none

/-- A key that is a serial already. -/
def Bare (key : String) : Prop := serialFromKey key = none ∧ '/' ∉ key.toList ∧ '\\' ∉ key.toList

instance (key : String) : Decidable (Bare key) := inferInstanceAs (Decidable (_ ∧ _ ∧ _))

abbrev Serial := { key : String // Bare key }

/-- `_key_for`. -/
def keyFor (boardOrSerial : String) : String := (serialFromKey boardOrSerial).getD boardOrSerial

/-- The serial of a board or of a key of the file; a device path that carries none has none. -/
def serialOf (boardOrSerial : String) : Option Serial :=
  if h : Bare (keyFor boardOrSerial) then some ⟨keyFor boardOrSerial, h⟩ else none

/-! ### The file -/

/-- The names of a board, each with its contact. -/
abbrev Names := Dict Label ContactId

abbrev Mappings := Dict Serial Names

/-- The contact id that an item of the file gives a name. -/
def contactOf : PyVal → Option ContactId
  | .int cid => ContactId.of? cid
  | _ => none

/-- The items of an entry, into the names of its board. -/
def addEntry (slot : Names) (entry : Fields) : Names :=
  entry.foldl (fun slot item =>
    match Label.of? item.1, contactOf item.2 with
    | some name, some cid => slot.setdefault name cid
    | _, _ => slot) slot

/-- An entry of the file, with its key. -/
def addKey (merged : Mappings) (item : String × PyVal) : Mappings :=
  match item.2, serialOf item.1 with
  | .dict entry, some serial => merged.alter serial .empty fun slot => addEntry slot entry
  | _, _ => merged

/-- `merged`, once the file's object has been gone through. -/
def fold (raw : Dict String PyVal) : Mappings := raw.items.foldl addKey .empty

/-- `.mesh-local/host-contacts.json`: absent, no JSON object, or an object. -/
inductive MappingFile where
  | missing
  | corrupt
  | object (raw : Dict String PyVal)

/-- What the functions raise: `BAD_REQUEST`, a device path for a board, or a file that is no JSON object. -/
inductive ContactsError where
  | badRequest
  | devicePath
  | corrupt
  deriving DecidableEq

def loadMappings : MappingFile → Except ContactsError Mappings
  | .missing => .ok .empty
  | .corrupt => .error .corrupt
  | .object raw => .ok (fold raw)

/-- The names of a board as JSON. -/
def jsonNames (names : Names) : Fields := names.sorted.items.map fun p => (p.1.1, .int p.2.1)

/-- `write_json_private(contacts_path(), ports)`, and the file read again: the keys are sorted. -/
def written (ports : Mappings) : MappingFile := .object {
  items := ports.sorted.items.map fun p => (p.1.1, .dict (jsonNames p.2))
  nodup := by
    rw [List.map_map]
    exact (List.map_map ▸ ports.sorted.nodup.map Subtype.val_injective :
      (ports.sorted.items.map ((fun s : Serial => s.1) ∘ Prod.fst)).Nodup) }

/-! ### The functions -/

/-- The contact that a loaded file gives a name of a board. -/
def Mappings.idOf (ports : Mappings) (board : String) (name : Label) : Option ContactId :=
  ((serialOf board).bind ports.get).bind fun entry => entry.get name

def resolveContact (file : MappingFile) (board name : String) : Except ContactsError (Option ContactId) :=
  match Label.of? name with
  | none => .ok none
  | some name => do
    let ports ← loadMappings file
    return ports.idOf board name

/-- The first name that the file gives a contact. -/
def nameForId (file : MappingFile) (board : String) (contactId : ℤ) : Except ContactsError (Option Label) := do
  let ports ← loadMappings file
  return ((serialOf board).bind ports.get).bind fun entry =>
    (entry.items.find? fun p => p.2.1 == contactId).map Prod.fst

def setContact (file : MappingFile) (board name : String) (contactId : ℤ) : Except ContactsError MappingFile :=
  match Label.of? name, ContactId.of? contactId with
  | some name, some cid =>
    match serialOf board with
    | none => .error .devicePath
    | some key => do
      let ports ← loadMappings file
      return written (ports.alter key .empty fun entry => entry.set name cid)
  | _, _ => .error .badRequest

/-- `entry.pop(name, None)`. -/
def popName (entry : Names) (name : String) : Names :=
  match Label.of? name with
  | none => entry
  | some name => entry.pop name

def dropContact (file : MappingFile) (board name : String) (contactId : ℤ) : Except ContactsError MappingFile := do
  let ports ← loadMappings file
  match serialOf board with
  | none => return file
  | some key =>
    match ports.get key with
    | none => return file
    | some entry => return written (ports.set key ((popName entry name).filter fun _ cid => cid.1 != contactId))

/-! ### Serials -/

theorem mem_hexDigits {l : List Char} (h : l.all (hexDigits.contains ·) = true) {c : Char} (hc : c ∈ l) :
    c ∈ hexDigits := List.contains_iff_mem.mp (List.all_eq_true.mp h c hc)

theorem serialFromKey_hex {l : List Char} (h : l.all (hexDigits.contains ·) = true) :
    serialFromKey (String.ofList l) = none := by
  have hslash : ∀ c ∈ l, c ≠ '/' := by
    rintro c hc rfl
    exact absurd (mem_hexDigits h hc) (by decide)
  have hdrop : l.rdropWhile (· == '/') = l := by
    refine List.rdropWhile_eq_self_iff.mpr fun hl hlast => ?_
    exact hslash _ (List.getLast_mem hl) (beq_iff_eq.mp hlast)
  have hbase : basename (String.ofList l) = l := by
    unfold basename
    rw [String.toList_ofList, hdrop]
    exact List.rtakeWhile_eq_self_iff.mpr fun c hc => bne_iff_ne.mpr (hslash c hc)
  have husb : "usb-".toList.isPrefixOf l = false := by
    cases hp : "usb-".toList.isPrefixOf l with
    | false => rfl
    | true =>
        have hu : 'u' ∈ l := (List.isPrefixOf_iff_prefix.mp hp).subset (by decide)
        exact absurd (mem_hexDigits h hu) (by decide)
  unfold serialFromKey
  dsimp only
  rw [hbase, husb]
  rfl

/-- What a legacy key carries is a serial. -/
theorem bare_of_legacy {key s : String} (h : serialFromKey key = some s) : Bare s := by
  unfold serialFromKey at h
  dsimp only at h
  split at h
  · rename_i hif
    have hhex := (Bool.and_eq_true_iff.mp hif).2
    obtain rfl := Option.some.inj h
    refine ⟨serialFromKey_hex hhex, ?_, ?_⟩
    · rw [String.toList_ofList]
      exact fun hc => absurd (mem_hexDigits hhex hc) (by decide)
    · rw [String.toList_ofList]
      exact fun hc => absurd (mem_hexDigits hhex hc) (by decide)
  · cases h

theorem serialOf_eq_some {key : String} {s : Serial} :
    serialOf key = some s ↔ key = s.1 ∨ serialFromKey key = some s.1 := by
  unfold serialOf keyFor
  cases hkey : serialFromKey key with
  | none =>
      constructor
      · intro h
        split at h
        · cases h
          exact .inl rfl
        · cases h
      · rintro (rfl | h)
        · exact dif_pos s.2
        · cases h
  | some t =>
      have ht : Bare t := bare_of_legacy hkey
      constructor
      · intro h
        rw [Option.getD_some, dif_pos ht] at h
        cases h
        exact .inr rfl
      · rintro (rfl | h)
        · exact nomatch s.2.1.symm.trans hkey
        · cases h
          exact dif_pos s.2

@[simp] theorem serialOf_serial (s : Serial) : serialOf s.1 = some s := serialOf_eq_some.mpr (.inl rfl)

@[simp] theorem labelOf_label (name : Label) : Label.of? name.1 = some name := dif_pos name.2

@[simp] theorem contactOf_contact (cid : ContactId) : contactOf (.int cid.1) = some cid := dif_pos cid.2

theorem labelOf_eq_some {name : String} {l : Label} : Label.of? name = some l ↔ name = l.1 := by
  constructor
  · intro h
    unfold Label.of? at h
    split at h
    · cases h
      rfl
    · cases h
  · rintro rfl
    exact labelOf_label l

/-! ### Reading the file -/

/-- The contact that an entry gives a name: the keys of a `dict` are distinct. -/
def entryId (entry : Fields) (name : Label) : Option ContactId :=
  entry.findSome? fun item => if item.1 = name.1 then contactOf item.2 else none

theorem get_addEntry (entry : Fields) (name : Label) :
    ∀ slot : Names, (addEntry slot entry).get name = (slot.get name).or (entryId entry name) := by
  unfold addEntry entryId
  induction entry with
  | nil =>
      intro slot
      exact Option.or_none.symm
  | cons item entry ih =>
      intro slot
      rw [List.foldl_cons, ih, List.findSome?_cons]
      split
      · rename_i l cid hl hcid
        rw [Dict.get_setdefault, labelOf_eq_some.mp hl, hcid]
        by_cases hname : name = l
        · subst hname
          rw [if_pos rfl, if_pos rfl]
          cases slot.get name <;> rfl
        · rw [if_neg hname, if_neg fun h => hname (Subtype.ext h.symm)]
      · rename_i hnot
        by_cases hname : item.1 = name.1
        · cases hcid : contactOf item.2 with
          | none => rw [if_pos hname]
          | some cid => exact absurd hcid (hnot name cid (labelOf_eq_some.mpr hname))
        · rw [if_neg hname]

/-- The entries of the keys of a serial. -/
def entriesOf (serial : Serial) (items : List (String × PyVal)) : List Fields :=
  items.filterMap fun item =>
    match item.2 with
    | .dict entry => if serialOf item.1 = some serial then some entry else none
    | _ => none

theorem get_foldl_addKey (serial : Serial) (items : List (String × PyVal)) : ∀ merged : Mappings,
    (items.foldl addKey merged).get serial =
      match entriesOf serial items with
      | [] => merged.get serial
      | entry :: entries => some ((entry :: entries).foldl addEntry ((merged.get serial).getD .empty)) := by
  induction items with
  | nil =>
      intro merged
      rfl
  | cons item items ih =>
      intro merged
      rw [List.foldl_cons, ih]
      obtain ⟨key, v⟩ := item
      cases v with
      | dict entry =>
          cases hserial : serialOf key with
          | none =>
              have haddKey : addKey merged (key, .dict entry) = merged := by simp only [addKey, hserial]
              have hentries : entriesOf serial ((key, .dict entry) :: items) = entriesOf serial items := by
                simp only [entriesOf, List.filterMap_cons, hserial, reduceCtorEq, if_false]
              rw [haddKey, hentries]
          | some s =>
              have haddKey : addKey merged (key, .dict entry) =
                  merged.alter s .empty fun slot => addEntry slot entry := by simp only [addKey, hserial]
              rw [haddKey, Dict.get_alter]
              by_cases hs : serial = s
              · subst hs
                have hentries : entriesOf serial ((key, .dict entry) :: items) = entry :: entriesOf serial items := by
                  simp only [entriesOf, List.filterMap_cons, hserial, if_true]
                rw [hentries, if_pos rfl]
                cases entriesOf serial items with
                | nil => rfl
                | cons e es => rfl
              · have hentries : entriesOf serial ((key, .dict entry) :: items) = entriesOf serial items := by
                  simp only [entriesOf, List.filterMap_cons, hserial, Option.some.injEq, Ne.symm hs, if_false]
                rw [hentries, if_neg hs]
      | _ => rfl

/-- The contact of a name is what the first key of its serial to give it one says. -/
theorem get_fold (raw : Dict String PyVal) (serial : Serial) (name : Label) :
    ((fold raw).get serial).bind (fun entry => entry.get name) =
      (entriesOf serial raw.items).findSome? fun entry => entryId entry name := by
  have hfold : ∀ (entries : List Fields) (slot : Names), (entries.foldl addEntry slot).get name =
      (slot.get name).or (entries.findSome? fun entry => entryId entry name) := by
    intro entries
    induction entries with
    | nil =>
        intro slot
        exact Option.or_none.symm
    | cons entry entries ih =>
        intro slot
        rw [List.foldl_cons, ih, get_addEntry, Option.or_assoc, List.findSome?_cons]
        cases entryId entry name <;> rfl
  unfold fold
  rw [get_foldl_addKey]
  cases entriesOf serial raw.items with
  | nil => rfl
  | cons entry entries => exact hfold (entry :: entries) .empty

/-! ### What is written is read back -/

theorem addEntry_fresh (items : List (Label × ContactId)) : ∀ slot : Names,
    ((slot.items ++ items).map Prod.fst).Nodup →
      (addEntry slot (items.map fun p => (p.1.1, .int p.2.1))).items = slot.items ++ items := by
  induction items with
  | nil =>
      intro slot _
      exact (List.append_nil _).symm
  | cons p items ih =>
      intro slot h
      have hnew : p.1 ∉ slot.items.map Prod.fst := by
        rw [List.map_append, List.nodup_append] at h
        exact fun hp => h.2.2 p.1 hp p.1 List.mem_cons_self rfl
      have hitems : (slot.setdefault p.1 p.2).items = slot.items ++ [p] := Dict.items_alter_new hnew p.2 id
      have hstep : addEntry slot ((p :: items).map fun p => (p.1.1, .int p.2.1)) =
          addEntry (slot.setdefault p.1 p.2) (items.map fun p => (p.1.1, .int p.2.1)) := by
        simp only [addEntry, List.map_cons, List.foldl_cons, labelOf_label, contactOf_contact]
      rw [hstep, ih _ (by rw [hitems, List.append_assoc]; exact h), hitems, List.append_assoc]
      rfl

theorem addEntry_json (names : Names) : addEntry .empty (jsonNames names) = names.sorted :=
  Dict.ext (addEntry_fresh names.sorted.items .empty names.sorted.nodup)

theorem foldl_addKey_fresh (items : List (Serial × Names)) : ∀ merged : Mappings,
    ((merged.items ++ items).map Prod.fst).Nodup →
      ((items.map fun p => (p.1.1, PyVal.dict (jsonNames p.2))).foldl addKey merged).items =
        merged.items ++ items.map fun p => (p.1, p.2.sorted) := by
  induction items with
  | nil =>
      intro merged _
      exact (List.append_nil _).symm
  | cons p items ih =>
      intro merged h
      have hnew : p.1 ∉ merged.items.map Prod.fst := by
        rw [List.map_append, List.nodup_append] at h
        exact fun hp => h.2.2 p.1 hp p.1 List.mem_cons_self rfl
      have hadd : (addKey merged (p.1.1, .dict (jsonNames p.2))).items = merged.items ++ [(p.1, p.2.sorted)] := by
        simp only [addKey, serialOf_serial]
        rw [Dict.items_alter_new hnew, addEntry_json]
      rw [List.map_cons, List.foldl_cons, ih, hadd, List.append_assoc]
      · rfl
      · rw [hadd, List.append_assoc, List.map_append]
        rw [List.map_append] at h
        exact h

/-- Mappings as they are read back. -/
def Mappings.readBack (ports : Mappings) : Mappings := ports.sorted.mapItems fun _ names => names.sorted

theorem load_written (ports : Mappings) : loadMappings (written ports) = .ok ports.readBack :=
  congrArg Except.ok (Dict.ext (foldl_addKey_fresh ports.sorted.items .empty ports.sorted.nodup))

theorem get_readBack (ports : Mappings) (serial : Serial) :
    ports.readBack.get serial = (ports.get serial).map Dict.sorted := by
  unfold Mappings.readBack
  rw [Dict.get_mapItems, Dict.get_sorted]

@[simp] theorem idOf_readBack (ports : Mappings) (board : String) (name : Label) :
    ports.readBack.idOf board name = ports.idOf board name := by
  unfold Mappings.idOf
  cases serialOf board with
  | none => rfl
  | some serial =>
      rw [Option.bind_some, Option.bind_some, get_readBack]
      cases ports.get serial with
      | none => rfl
      | some names => exact Dict.get_sorted names name

/-! ### The two directions -/

/-- The name resolves to this contact. -/
def Resolves (file : MappingFile) (board name : String) (contactId : ℤ) : Prop :=
  ∃ cid : ContactId, cid.1 = contactId ∧ resolveContact file board name = .ok (some cid)

/-- This name is found for the contact. -/
def NamedFor (file : MappingFile) (board name : String) (contactId : ℤ) : Prop :=
  ∃ label : Label, label.1 = name ∧ nameForId file board contactId = .ok (some label)

inductive ContactsCall where
  | set (board name : String) (contactId : ℤ)
  | drop (board name : String) (contactId : ℤ)

def ContactsCall.apply (file : MappingFile) : ContactsCall → Except ContactsError MappingFile
  | .set board name contactId => setContact file board name contactId
  | .drop board name contactId => dropContact file board name contactId

/-- The file after a call; one that raises leaves it. -/
def callStep (file : MappingFile) (call : ContactsCall) : MappingFile :=
  match call.apply file with
  | .ok file' => file'
  | .error _ => file

/-- What a call that returns leaves: the two directions agree on the name that is set, no name resolves to the
contact that is dropped, and no other mapping has changed. -/
def TwoWay (file : MappingFile) (call : ContactsCall) : Prop :=
  ∀ file', call.apply file = .ok file' →
    match call with
    | .set board name contactId =>
      Resolves file' board name contactId ∧ NamedFor file' board name contactId ∧
        ∀ board' name', serialOf board' ≠ serialOf board ∨ name' ≠ name →
          resolveContact file' board' name' = resolveContact file board' name'
    | .drop board name contactId =>
      (∀ name', ¬ Resolves file' board name' contactId) ∧
        ∀ board' name', serialOf board' ≠ serialOf board ∨ name' ≠ name ∧ ¬ Resolves file board' name' contactId →
          resolveContact file' board' name' = resolveContact file board' name'

/-- A contact is given a name only where no name before it, in the order of the file, has the contact already. -/
def FirstName (file : MappingFile) (call : ContactsCall) : Prop :=
  ∀ file', call.apply file = .ok file' →
    match call with
    | .set board name contactId => ∀ name' < name, ¬ Resolves file board name' contactId
    | .drop _ _ _ => True

section

variable {file file' : MappingFile} {board name : String} {contactId : ℤ}

theorem resolve_loaded {ports : Mappings} (h : loadMappings file = .ok ports) (board name : String) :
    resolveContact file board name = .ok ((Label.of? name).bind fun label => ports.idOf board label) := by
  unfold resolveContact
  cases Label.of? name with
  | none => rfl
  | some label => simp only [h, bind, Except.bind, pure, Except.pure, Option.bind_some]

theorem setContact_ok (h : setContact file board name contactId = .ok file') :
    ∃ (label : Label) (cid : ContactId) (key : Serial) (ports : Mappings), name = label.1 ∧ contactId = cid.1 ∧
      serialOf board = some key ∧ loadMappings file = .ok ports ∧
        file' = written (ports.alter key .empty fun entry => entry.set label cid) := by
  unfold setContact at h
  split at h
  · rename_i label cid hlabel hcid
    split at h
    · cases h
    · rename_i key hkey
      cases hload : loadMappings file with
      | error e =>
          rw [hload] at h
          cases h
      | ok ports =>
          rw [hload] at h
          refine ⟨label, cid, key, ports, labelOf_eq_some.mp hlabel, ?_, hkey, rfl, (Except.ok.inj h).symm⟩
          unfold ContactId.of? at hcid
          split at hcid
          · cases hcid
            rfl
          · cases hcid
  · cases h

theorem dropContact_ok (h : dropContact file board name contactId = .ok file') :
    ∃ ports : Mappings, loadMappings file = .ok ports ∧
      (((serialOf board).bind ports.get = none ∧ file' = file) ∨
        ∃ key entry, serialOf board = some key ∧ ports.get key = some entry ∧
          file' = written (ports.set key ((popName entry name).filter fun _ cid => cid.1 != contactId))) := by
  unfold dropContact at h
  cases hload : loadMappings file with
  | error e =>
      rw [hload] at h
      cases h
  | ok ports =>
      rw [hload] at h
      refine ⟨ports, rfl, ?_⟩
      cases hkey : serialOf board with
      | none =>
          rw [hkey] at h
          exact .inl ⟨rfl, (Except.ok.inj h).symm⟩
      | some key =>
          rw [hkey] at h
          cases hentry : ports.get key with
          | none =>
              simp only [bind, Except.bind, hentry] at h
              exact .inl ⟨hentry, (Except.ok.inj h).symm⟩
          | some entry =>
              simp only [bind, Except.bind, hentry] at h
              exact .inr ⟨key, entry, rfl, hentry, (Except.ok.inj h).symm⟩

theorem get_popName (entry : Names) (name : String) (label : Label) :
    (popName entry name).get label = if label.1 = name then none else entry.get label := by
  unfold popName
  cases hname : Label.of? name with
  | none =>
      refine (if_neg ?_).symm
      rintro rfl
      rw [labelOf_label] at hname
      cases hname
  | some l =>
      obtain rfl := labelOf_eq_some.mp hname
      rw [Dict.get_pop]
      simp only [Subtype.ext_iff]

theorem resolves_iff {ports : Mappings} (h : loadMappings file = .ok ports) :
    Resolves file board name contactId ↔
      ∃ label : Label, name = label.1 ∧ (ports.idOf board label).any (fun cid => cid.1 == contactId) = true := by
  unfold Resolves
  rw [resolve_loaded h]
  constructor
  · rintro ⟨cid, rfl, hcid⟩
    cases hname : Label.of? name with
    | none =>
        rw [hname] at hcid
        cases hcid
    | some label =>
        rw [hname, Option.bind_some] at hcid
        refine ⟨label, labelOf_eq_some.mp hname, ?_⟩
        rw [Except.ok.inj hcid]
        exact beq_self_eq_true cid.1
  · rintro ⟨label, rfl, hany⟩
    obtain ⟨cid, hcid, hid⟩ := (Option.any_eq_true _ _).mp hany
    refine ⟨cid, beq_iff_eq.mp hid, ?_⟩
    rw [labelOf_label, Option.bind_some, hcid]

theorem namedFor_iff {ports : Mappings} (h : loadMappings file = .ok ports) (label : Label) :
    NamedFor file board label.1 contactId ↔
      (((serialOf board).bind ports.get).bind fun entry =>
        (entry.items.find? fun p => p.2.1 == contactId).map Prod.fst) = some label := by
  unfold NamedFor nameForId
  rw [h]
  constructor
  · rintro ⟨l, hl, hfound⟩
    obtain rfl := Subtype.ext hl
    exact Except.ok.inj hfound
  · intro hfound
    exact ⟨label, rfl, congrArg Except.ok hfound⟩

theorem idOf_set (ports : Mappings) {key : Serial} (hkey : serialOf board = some key) (label : Label) (cid : ContactId)
    (board' : String) (label' : Label) :
    Mappings.idOf (ports.alter key .empty fun entry => entry.set label cid) board' label' =
      if serialOf board' = serialOf board ∧ label' = label then some cid else ports.idOf board' label' := by
  unfold Mappings.idOf
  rw [hkey]
  cases serialOf board' with
  | none => rfl
  | some key' =>
      simp only [Option.bind_some, Dict.get_alter, Option.some.injEq]
      by_cases hk : key' = key
      · subst hk
        rw [if_pos rfl, Option.bind_some, Dict.get_set]
        by_cases hl : label' = label
        · rw [if_pos hl, if_pos ⟨rfl, hl⟩]
        · rw [if_neg hl, if_neg fun h => hl h.2]
          cases ports.get key' <;> rfl
      · rw [if_neg hk, if_neg fun h => hk h.1]

/-- What is set: the first name that is not before the new one is the new one. -/
theorem set_twoWay (h : setContact file board name contactId = .ok file') :
    Resolves file' board name contactId ∧
      (NamedFor file' board name contactId ↔ ∀ name' < name, ¬ Resolves file board name' contactId) ∧
        ∀ board' name', serialOf board' ≠ serialOf board ∨ name' ≠ name →
          resolveContact file' board' name' = resolveContact file board' name' := by
  obtain ⟨label, cid, key, ports, rfl, rfl, hkey, hload, rfl⟩ := setContact_ok h
  have hload' := load_written (ports.alter key .empty fun entry => entry.set label cid)
  refine ⟨?_, ?_, ?_⟩
  · refine (resolves_iff hload').mpr ⟨label, rfl, ?_⟩
    rw [idOf_readBack, idOf_set ports hkey, if_pos ⟨rfl, rfl⟩]
    exact beq_self_eq_true cid.1
  · rw [namedFor_iff hload', hkey, Option.bind_some, get_readBack, Dict.get_alter, if_pos rfl, Option.map_some,
      Option.bind_some, Dict.find_sorted _ fun c : ContactId => c.1 == cid.1]
    have hnew : ((((ports.get key).getD .empty).set label cid).get label).any (fun c => c.1 == cid.1) = true := by
      rw [Dict.get_set, if_pos rfl]
      exact beq_self_eq_true cid.1
    have hold : ∀ l < label, (((ports.get key).getD .empty).set label cid).get l = ports.idOf board l := by
      intro l hl
      unfold Mappings.idOf
      rw [Dict.get_set, if_neg hl.ne, hkey, Option.bind_some]
      cases ports.get key <;> rfl
    constructor
    · rintro ⟨-, hleast⟩ name' hlt hres
      obtain ⟨l, rfl, hany⟩ := (resolves_iff hload).mp hres
      have hl := hleast l hlt
      rw [hold l hlt] at hl
      cases hl.symm.trans hany
    · intro hfirst
      refine ⟨hnew, fun l hl => ?_⟩
      rw [hold l hl, ← Bool.not_eq_true]
      exact fun hany => hfirst l.1 hl ((resolves_iff hload).mpr ⟨l, rfl, hany⟩)
  · intro board' name' hother
    rw [resolve_loaded hload', resolve_loaded hload]
    cases hname : Label.of? name' with
    | none => rw [Option.bind_none, Option.bind_none]
    | some l =>
        obtain rfl := labelOf_eq_some.mp hname
        rw [Option.bind_some, Option.bind_some, idOf_readBack, idOf_set ports hkey, if_neg]
        rintro ⟨hb, rfl⟩
        rcases hother with hother | hother
        · exact hother hb
        · exact hother rfl

theorem idOf_drop {ports : Mappings} {key : Serial} {entry : Names} (hkey : serialOf board = some key)
    (hentry : ports.get key = some entry) (name : String) (contactId : ℤ) (board' : String) (label : Label) :
    Mappings.idOf (ports.set key ((popName entry name).filter fun _ cid => cid.1 != contactId)) board' label =
      if serialOf board' = serialOf board then
        (if label.1 = name then none else ports.idOf board' label).filter fun cid => cid.1 != contactId
      else ports.idOf board' label := by
  unfold Mappings.idOf
  rw [hkey]
  cases serialOf board' with
  | none => rfl
  | some key' =>
      simp only [Option.bind_some, Dict.get_set, Option.some.injEq]
      by_cases hk : key' = key
      · subst hk
        rw [if_pos rfl, if_pos rfl, Option.bind_some, Dict.get_filter, get_popName, hentry, Option.bind_some]
      · rw [if_neg hk, if_neg hk]

/-- What is dropped: the name, and every name of the contact. -/
theorem resolve_drop (h : dropContact file board name contactId = .ok file') (board' name' : String) :
    (serialOf board' = serialOf board ∧ (name' = name ∨ Resolves file board' name' contactId) ∧
      resolveContact file' board' name' = .ok none) ∨
    (resolveContact file' board' name' = resolveContact file board' name' ∧
      (serialOf board' = serialOf board → ¬ Resolves file board' name' contactId)) := by
  obtain ⟨ports, hload, ⟨hnone, rfl⟩ | ⟨key, entry, hkey, hentry, rfl⟩⟩ := dropContact_ok h
  · refine .inr ⟨rfl, fun hb hres => ?_⟩
    obtain ⟨l, -, hany⟩ := (resolves_iff hload).mp hres
    unfold Mappings.idOf at hany
    rw [hb, hnone] at hany
    cases hany
  · have hload' := load_written (ports.set key ((popName entry name).filter fun _ cid => cid.1 != contactId))
    rw [resolve_loaded hload', resolve_loaded hload, resolves_iff hload]
    cases hname : Label.of? name' with
    | none =>
        rw [Option.bind_none, Option.bind_none]
        refine .inr ⟨rfl, ?_⟩
        rintro - ⟨l, rfl, -⟩
        rw [labelOf_label] at hname
        cases hname
    | some l =>
        obtain rfl := labelOf_eq_some.mp hname
        rw [Option.bind_some, Option.bind_some, idOf_readBack, idOf_drop hkey hentry]
        by_cases hb : serialOf board' = serialOf board
        · rw [if_pos hb]
          by_cases hl : l.1 = name
          · rw [if_pos hl]
            exact .inl ⟨hb, .inl hl, rfl⟩
          · rw [if_neg hl]
            cases hcid : ports.idOf board' l with
            | none =>
                refine .inr ⟨rfl, ?_⟩
                rintro - ⟨l', hl', hany⟩
                rw [← Subtype.ext hl', hcid] at hany
                cases hany
            | some cid =>
                by_cases hc : cid.1 = contactId
                · refine .inl ⟨hb, .inr ⟨l, rfl, ?_⟩, congrArg Except.ok (Option.filter_some_neg ?_)⟩
                  · rw [hcid]
                    exact beq_iff_eq.mpr hc
                  · exact bne_eq_false_iff_eq.mpr hc
                · refine .inr ⟨congrArg Except.ok (Option.filter_some_pos (bne_iff_ne.mpr hc)), ?_⟩
                  rintro - ⟨l', hl', hany⟩
                  rw [← Subtype.ext hl', hcid] at hany
                  exact hc (beq_iff_eq.mp hany)
        · rw [if_neg hb]
          exact .inr ⟨rfl, fun h => absurd h hb⟩

theorem drop_twoWay (h : dropContact file board name contactId = .ok file') :
    (∀ name', ¬ Resolves file' board name' contactId) ∧
      ∀ board' name', serialOf board' ≠ serialOf board ∨ name' ≠ name ∧ ¬ Resolves file board' name' contactId →
        resolveContact file' board' name' = resolveContact file board' name' := by
  constructor
  · rintro name' ⟨cid, hcid, hres⟩
    rcases resolve_drop h board name' with ⟨-, -, hnone⟩ | ⟨hsame, hnot⟩
    · rw [hnone] at hres
      cases hres
    · exact hnot rfl ⟨cid, hcid, hsame ▸ hres⟩
  · intro board' name' hother
    rcases resolve_drop h board' name' with ⟨hb, hname, -⟩ | ⟨hsame, -⟩
    · rcases hother with hother | ⟨hne, hkeep⟩
      · exact absurd hb hother
      · rcases hname with hname | hname
        · exact absurd hname hne
        · exact absurd hname hkeep
    · exact hsame

theorem twoWay_iff (file : MappingFile) (call : ContactsCall) : TwoWay file call ↔ FirstName file call := by
  unfold TwoWay FirstName
  refine forall_congr' fun file' => forall_congr' fun h => ?_
  cases call with
  | set board name contactId =>
      have hset : setContact file board name contactId = .ok file' := h
      obtain ⟨hres, hnamed, hframe⟩ := set_twoWay hset
      exact ⟨fun h => hnamed.mp h.2.1, fun h => ⟨hres, hnamed.mpr h, hframe⟩⟩
  | drop board name contactId =>
      have hdrop : dropContact file board name contactId = .ok file' := h
      exact iff_of_true (drop_twoWay hdrop) trivial

end

/-- **Two ways.**  In every run from every file, the calls leave the two directions in agreement exactly when no
contact is given a name while a name before it has the contact. -/
theorem two_way (file : MappingFile) (calls : List ContactsCall) :
    Along callStep TwoWay file calls ↔ Along callStep FirstName file calls :=
  ⟨Along.mono (fun file call => (twoWay_iff file call).mp) calls,
    Along.mono (fun file call => (twoWay_iff file call).mpr) calls⟩

theorem setContact_set {file : MappingFile} {ports : Mappings} (h : loadMappings file = .ok ports) (key : Serial)
    (label : Label) (cid : ContactId) :
    setContact file key.1 label.1 cid.1 = .ok (written (ports.alter key .empty fun entry => entry.set label cid)) := by
  have hcid : ContactId.of? cid.1 = some cid := dif_pos cid.2
  unfold setContact
  simp only [labelOf_label, hcid, serialOf_serial, h, bind, Except.bind, pure, Except.pure]

theorem callStep_ok {file file' : MappingFile} {call : ContactsCall} (h : call.apply file = .ok file') :
    callStep file call = file' := by
  unfold callStep
  rw [h]

def board : Serial := ⟨"e66044", by decide +kernel⟩

def alice : Label := ⟨"alice", by decide +kernel⟩

def zoe : Label := ⟨"zoe", by decide +kernel⟩

/-- A second name for a contact: the contact is still found under the first. -/
theorem names_disagree :
    ¬ Along callStep TwoWay .missing [.set "e66044" "alice" 1, .set "e66044" "zoe" 1] := by
  intro h
  have hset := @setContact_set .missing .empty rfl board alice ⟨1, by decide⟩
  have hstep : callStep .missing (.set "e66044" "alice" 1) =
      written (Dict.alter .empty board .empty fun entry => entry.set alice ⟨1, by decide⟩) := callStep_ok hset
  have hagain := h.2.1
  rw [hstep] at hagain
  have hfirst := (twoWay_iff _ _).mp hagain _ (setContact_set (load_written _) board zoe ⟨1, by decide⟩)
  exact hfirst "alice" (by decide +kernel) (set_twoWay hset).1

end LoraMesh
