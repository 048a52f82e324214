import LoraMesh.Host.Bus
import LoraMesh.Host.Contacts

/-!
# Host — History

The message history that `meshctl` keeps on the host, a database a port (`host/meshctl/history.py`), the three
that write it, and `contact delete`, which scrubs it.

* `HistoryHost.step`: a move of the host.  A command that sends or deletes is two moves: the name is resolved,
  and the board has answered.  What the command hears in between is moves of its own.
* `Scrubs`: a delete removes every row of the contact, and none of another.
* `history_scrubbed`: when it does.
* `steady_findable`: it does as long as every board is used through one port and every contact under one name.

A row keeps, which no program reads, the board and the contact that it is about.
-/

namespace LoraMesh

/-! ### Ports -/

/-- What `comports()` lists, each device with its serial number; none where there is no such list. -/
abbrev Comports := Option (List (String × Option String))

def serialForPort (comports : Comports) (port : String) : String :=
  match comports with
  | none => port
  | some cands =>
    match cands.findSome? fun cand => if cand.1 = port then cand.2.filter (· != "") else none with
    | some serial => serial
    | none => (serialFromKey port).getD port

/-- What the history calls of the library. -/
structure HistoryPython where
  /-- `str(v)`. -/
  str : PyVal → String
  /-- `int(v)`. -/
  int : PyVal → Except IntError ℤ
  /-- `hashlib.sha1(port.encode("utf-8")).hexdigest()`. -/
  sha1 : String → String

def portSlug (py : HistoryPython) (port : String) : String :=
  let words := (port.toList.splitOnP fun c => !c.isAlphanum).filter fun w => !w.isEmpty
  let slug := if words.isEmpty then "port" else "_".intercalate (words.map String.ofList)
  let digest := String.ofList ((py.sha1 port).toList.take 8)
  s!"{slug}_{digest}"

def historyPathFor (py : HistoryPython) (port : String) : String :=
  let slug := portSlug py port
  s!"history-{slug}.sqlite3"

/-! ### Rows -/

inductive Direction where
  | inward
  | outward
  deriving DecidableEq

structure HistoryRow where
  path : String
  contact : String
  direction : Direction
  epoch : ℤ
  sequence : ℤ
  text : String
  board : String
  about : Option ℤ
  deriving DecidableEq

/-- The row that is inserted; none is a `ValueError`.  The sequence is stored as a signed number. -/
def recordMessage (row : HistoryRow) : Option HistoryRow :=
  if row.contact ≠ "" ∧ (0 ≤ row.epoch ∧ row.epoch < 2 ^ 32) ∧ 0 ≤ row.sequence ∧ row.sequence < 2 ^ 64 then
    some { row with sequence := if row.sequence < 2 ^ 63 then row.sequence else row.sequence - 2 ^ 64 }
  else none

/-- A command on a port: the board that is there, what `comports()` says, and whether the history is kept, that
is neither `--no-history` is given nor opening the database fails. -/
structure PortCall where
  port : String
  board : String
  comports : Comports
  keeps : Bool
  deriving DecidableEq

def PortCall.serial (c : PortCall) : String := serialForPort c.comports c.port

/-! ### The writers -/

/-- `evt.get("event") == "received"`. -/
def isReceived (evt : Fields) : Bool :=
  match evt.get "event" with
  | some (.str s) => s == "received"
  | _ => false

/-- The label of a contact without a name. -/
def idLabel (py : HistoryPython) : PyVal → String
  | .int n => s!"id{n}"
  | .bool b => if b then "idTrue" else "idFalse"
  | v => py.str v

def contactField (evt : Fields) : PyVal := (evt.get "contact_id").getD .none

def aboutOf : PyVal → Option ℤ
  | .int n => some n
  | _ => none

/-- The label of an event in `_note_received`. -/
def noteLabel (py : HistoryPython) (file : MappingFile) (c : PortCall) (contactId : PyVal) :
    Except ContactsError String :=
  match contactId with
  | .int n => do
    let name ← nameForId file c.serial n
    return (name.map Subtype.val).getD (idLabel py (.int n))
  | v => return idLabel py v

/-- An event under its label.  Where an exception escapes, no row is written either. -/
def fileEvent (py : HistoryPython) (c : PortCall) (evt : Fields) (label : String) : Option HistoryRow :=
  if c.keeps ∧ isReceived evt then
    match py.int ((evt.get "epoch").getD (.int 0)), py.int ((evt.get "sequence").getD (.int 0)) with
    | .ok epoch, .ok sequence =>
      recordMessage {
        path := historyPathFor py c.port
        contact := label
        direction := .inward
        epoch
        sequence
        text := py.str ((evt.get "text").getD (.str ""))
        board := c.board
        about := aboutOf (contactField evt) }
    | _, _ => none
  else none

def noteReceived (py : HistoryPython) (file : MappingFile) (c : PortCall) (evt : Fields) : Option HistoryRow :=
  match noteLabel py file c (contactField evt) with
  | .ok label => fileEvent py c evt label
  | .error _ => none

/-- `_preserve_events`, for one of the events. -/
def preserveEvent (py : HistoryPython) (c : PortCall) (evt : Fields) : Option HistoryRow :=
  fileEvent py c evt (idLabel py (contactField evt))

/-- `_record_out`, to a contact. -/
def recordOut (py : HistoryPython) (c : PortCall) (name text : String) (cid : ContactId) : Option HistoryRow :=
  if c.keeps then
    recordMessage {
      path := historyPathFor py c.port
      contact := name
      direction := .outward
      epoch := 0
      sequence := 0
      text
      board := c.board
      about := some cid.1 }
  else none

abbrev maxTextBytes : ℕ := 160

/-! ### The host -/

inductive Purpose where
  | send
  | delete
  deriving DecidableEq

/-- A name that a command has resolved. -/
structure Target where
  call : PortCall
  name : String
  cid : ContactId
  purpose : Purpose
  deriving DecidableEq

structure HistoryHost where
  contacts : MappingFile
  rows : List HistoryRow
  /-- Of the commands that run, and of chats. -/
  targets : List Target

inductive HistoryMove where
  /-- An event that is listened for, or comes with the answer to a command. -/
  | received (c : PortCall) (evt : Fields)
  /-- One that comes with the answer to a `request`. -/
  | preserved (c : PortCall) (evt : Fields)
  | resolve (c : PortCall) (name : String) (purpose : Purpose)
  /-- The board has taken a text. -/
  | sent (t : Target) (text : String)
  /-- A pair import has activated a contact. -/
  | set (c : PortCall) (name : String) (contactId : ℤ)
  /-- The board has deleted a contact. -/
  | deleted (t : Target)

/-- The row is in the database of the port that is given, under the name that is given. -/
def Target.Finds (py : HistoryPython) (t : Target) (row : HistoryRow) : Prop :=
  t.call.keeps = true ∧ row.path = historyPathFor py t.call.port ∧ row.contact = t.name

instance (py : HistoryPython) (t : Target) (row : HistoryRow) : Decidable (t.Finds py row) :=
  inferInstanceAs (Decidable (_ ∧ _ ∧ _))

namespace HistoryHost

def write (h : HistoryHost) (row : Option HistoryRow) : HistoryHost := { h with rows := h.rows ++ row.toList }

/-- `cmd_delete`, once the board has answered. -/
def delete (py : HistoryPython) (h : HistoryHost) (t : Target) : Except ContactsError HistoryHost := do
  let contacts ← dropContact h.contacts t.call.serial t.name t.cid.1
  return { h with contacts, rows := h.rows.filter fun row => ¬ t.Finds py row }

def step (py : HistoryPython) (h : HistoryHost) : HistoryMove → HistoryHost
  | .received c evt => h.write (noteReceived py h.contacts c evt)
  | .preserved c evt => h.write (preserveEvent py c evt)
  | .resolve c name purpose =>
    match resolveContact h.contacts c.serial name with
    | .ok (some cid) => { h with targets := { call := c, name, cid, purpose } :: h.targets }
    | _ => h
  | .sent t text =>
    if t ∈ h.targets ∧ t.purpose = .send ∧ 1 ≤ text.utf8ByteSize ∧ text.utf8ByteSize ≤ maxTextBytes then
      h.write (recordOut py t.call t.name text t.cid)
    else h
  | .set c name contactId =>
    match setContact h.contacts c.serial name contactId with
    | .ok contacts => { h with contacts }
    | .error _ => h
  | .deleted t =>
    if t ∈ h.targets ∧ t.purpose = .delete then
      let h := { h with targets := h.targets.erase t }
      (h.delete py t).toOption.getD h
    else h

/-- The delete of a contact that is well. -/
def Deletes (py : HistoryPython) (h : HistoryHost) (t : Target) : Prop :=
  t ∈ h.targets ∧ t.purpose = .delete ∧ (h.delete py t).toBool = true

instance (py : HistoryPython) (h : HistoryHost) (t : Target) : Decidable (h.Deletes py t) :=
  inferInstanceAs (Decidable (_ ∧ _ ∧ _))

end HistoryHost

/-! ### What a delete is for -/

/-- The row is about the contact. -/
def Target.Owns (t : Target) (row : HistoryRow) : Prop := row.board = t.call.board ∧ row.about = some t.cid.1

instance (t : Target) (row : HistoryRow) : Decidable (t.Owns row) := inferInstanceAs (Decidable (_ ∧ _))

/-- The row is about a contact, and another. -/
def Target.Foreign (t : Target) (row : HistoryRow) : Prop := row.about ≠ none ∧ ¬ t.Owns row

instance (t : Target) (row : HistoryRow) : Decidable (t.Foreign row) := inferInstanceAs (Decidable (_ ∧ _))

section

variable (py : HistoryPython)

/-- A delete removes every row of the contact, and none of another. -/
def Scrubs (h : HistoryHost) : HistoryMove → Prop
  | .deleted t => h.Deletes py t →
      (∀ row ∈ (h.step py (.deleted t)).rows, ¬ t.Owns row) ∧
        (h.step py (.deleted t)).rows.filter (t.Foreign ·) = h.rows.filter (t.Foreign ·)
  | _ => True

instance (h : HistoryHost) : (m : HistoryMove) → Decidable (Scrubs py h m)
  | .deleted t => inferInstanceAs (Decidable (h.Deletes py t → _ ∧ _))
  | .received _ _ | .preserved _ _ | .resolve _ _ _ | .sent _ _ | .set _ _ _ => .isTrue trivial

/-- The rows of the contact, and none of another, are where the delete looks for them. -/
def Findable (h : HistoryHost) : HistoryMove → Prop
  | .deleted t => h.Deletes py t →
      ∀ row ∈ h.rows, (t.Owns row → t.Finds py row) ∧ (t.Foreign row → ¬ t.Finds py row)
  | _ => True

variable {py}

theorem HistoryHost.Deletes.rows {h : HistoryHost} {t : Target} (hd : h.Deletes py t) :
    (h.step py (.deleted t)).rows = h.rows.filter fun row => ¬ t.Finds py row := by
  obtain ⟨ht, hp, hok⟩ := hd
  rw [HistoryHost.step, if_pos ⟨ht, hp⟩]
  unfold HistoryHost.delete at hok ⊢
  cases hdrop : dropContact h.contacts t.call.serial t.name t.cid.1 with
  | error e =>
      rw [hdrop] at hok
      cases hok
  | ok file =>
      dsimp only
      rw [hdrop]
      rfl

theorem scrubs_iff (h : HistoryHost) (m : HistoryMove) : Scrubs py h m ↔ Findable py h m := by
  cases m with
  | deleted t =>
      refine imp_congr_right fun hd => ?_
      rw [hd.rows, List.filter_filter]
      constructor
      · rintro ⟨hgone, hkept⟩ row hrow
        refine ⟨fun ho => by_contra fun hf => ?_, fun hfo => ?_⟩
        · exact hgone row (List.mem_filter.mpr ⟨hrow, decide_eq_true hf⟩) ho
        · -- a row of another contact is among those that are kept
          have hmem : row ∈ h.rows.filter (t.Foreign ·) := List.mem_filter.mpr ⟨hrow, decide_eq_true hfo⟩
          rw [← hkept] at hmem
          exact of_decide_eq_true (Bool.and_eq_true_iff.mp (List.mem_filter.mp hmem).2).2
      · intro h
        constructor
        · intro row hrow ho
          obtain ⟨hrow, hf⟩ := List.mem_filter.mp hrow
          exact of_decide_eq_true hf ((h row hrow).1 ho)
        · refine List.filter_congr fun row hrow => ?_
          by_cases hfo : t.Foreign row
          · simp [hfo, (h row hrow).2 hfo]
          · simp [hfo]
  | received _ _ | preserved _ _ | resolve _ _ _ | sent _ _ | set _ _ _ => exact Iff.rfl

end

/-! ### One port and one name each -/

section

variable (py : HistoryPython) (home : String → String) (names : String → ℤ → String)

/-- What is done to a board is done through its home, and to a contact under its name. -/
def SteadyUse (h : HistoryHost) : HistoryMove → Prop
  | .received c evt => historyPathFor py c.port = home c.board ∧ ∀ n, contactField evt = .int n →
      ∃ name : Label, nameForId h.contacts c.serial n = .ok (some name) ∧ name.1 = names c.board n
  | .preserved c evt => historyPathFor py c.port = home c.board ∧ ∀ n, contactField evt = .int n →
      idLabel py (.int n) = names c.board n
  | .sent t _ => historyPathFor py t.call.port = home t.call.board ∧ t.name = names t.call.board t.cid.1
  | .deleted t => t.call.keeps = true ∧ historyPathFor py t.call.port = home t.call.board ∧
      t.name = names t.call.board t.cid.1
  | _ => True

/-- A row about a contact lies in the home of its board, under the name of the contact. -/
def HistoryRow.Home (row : HistoryRow) : Prop :=
  ∀ n, row.about = some n → row.path = home row.board ∧ row.contact = names row.board n

variable {py home names}

theorem home_record {row row' : HistoryRow} (h : recordMessage row = some row') (hrow : row.Home home names) :
    row'.Home home names := by
  unfold recordMessage at h
  split at h
  · cases h
    exact hrow
  · cases h

theorem home_file {c : PortCall} {evt : Fields} {label : String} {row : HistoryRow}
    (h : fileEvent py c evt label = some row) (hhome : historyPathFor py c.port = home c.board)
    (hname : ∀ n, contactField evt = .int n → label = names c.board n) : row.Home home names := by
  unfold fileEvent at h
  split at h
  · split at h
    · refine home_record h fun n hn => ⟨hhome, hname n ?_⟩
      revert hn
      cases contactField evt <;> intro hn <;> cases hn
      rfl
    · cases h
  · cases h

theorem home_note {file : MappingFile} {c : PortCall} {evt : Fields} {row : HistoryRow}
    (h : noteReceived py file c evt = some row) (hhome : historyPathFor py c.port = home c.board)
    (hname : ∀ n, contactField evt = .int n →
      ∃ name : Label, nameForId file c.serial n = .ok (some name) ∧ name.1 = names c.board n) :
    row.Home home names := by
  unfold noteReceived at h
  split at h
  · next label hlabel =>
      refine home_file h hhome fun n hn => ?_
      obtain ⟨name, hfound, hcalled⟩ := hname n hn
      rw [hn] at hlabel
      unfold noteLabel at hlabel
      simp only [hfound] at hlabel
      cases hlabel
      exact hcalled
  · cases h

theorem home_out {c : PortCall} {name text : String} {cid : ContactId} {row : HistoryRow}
    (h : recordOut py c name text cid = some row) (hhome : historyPathFor py c.port = home c.board)
    (hname : name = names c.board cid.1) : row.Home home names := by
  unfold recordOut at h
  split at h
  · refine home_record h fun n hn => ⟨hhome, ?_⟩
    cases hn
    exact hname
  · cases h

theorem home_write {h : HistoryHost} {row? : Option HistoryRow} (hh : ∀ row ∈ h.rows, row.Home home names)
    (hrow : ∀ row, row? = some row → row.Home home names) : ∀ row ∈ (h.write row?).rows, row.Home home names := by
  intro row hmem
  rcases List.mem_append.mp hmem with hmem | hmem
  · exact hh row hmem
  · exact hrow row (Option.mem_toList.mp hmem)

/-- A steady move files its row at home. -/
theorem step_home {h : HistoryHost} {m : HistoryMove} (hh : ∀ row ∈ h.rows, row.Home home names)
    (hm : SteadyUse py home names h m) : ∀ row ∈ (h.step py m).rows, row.Home home names := by
  cases m with
  | received c evt => exact home_write hh fun row hrow => home_note hrow hm.1 hm.2
  | preserved c evt =>
      refine home_write hh fun row hrow => home_file hrow hm.1 fun n hn => ?_
      rw [hn]
      exact hm.2 n hn
  | resolve c name purpose =>
      rw [HistoryHost.step]
      split
      · exact hh
      · exact hh
  | sent t text =>
      rw [HistoryHost.step]
      split
      · exact home_write hh fun row hrow => home_out hrow hm.1 hm.2
      · exact hh
  | set c name contactId =>
      rw [HistoryHost.step]
      split
      · exact hh
      · exact hh
  | deleted t =>
      intro row hrow
      rw [HistoryHost.step] at hrow
      split at hrow
      · unfold HistoryHost.delete at hrow
        dsimp only at hrow
        cases hdrop : dropContact h.contacts t.call.serial t.name t.cid.1 with
        | error e =>
            rw [hdrop] at hrow
            exact hh row hrow
        | ok file =>
            rw [hdrop] at hrow
            exact hh row (List.mem_of_mem_filter hrow)
      · exact hh row hrow

/-- Where all rows are at home, and the homes of boards and the names of contacts are different ones, a steady
delete finds its rows. -/
theorem findable_of_home {h : HistoryHost} {m : HistoryMove} (hhome : Function.Injective home)
    (hnames : ∀ b, Function.Injective (names b)) (hh : ∀ row ∈ h.rows, row.Home home names)
    (hm : SteadyUse py home names h m) : Findable py h m := by
  cases m with
  | deleted t =>
      intro _ row hrow
      obtain ⟨hkeeps, hpath, hname⟩ := hm
      constructor
      · rintro ⟨hb, ha⟩
        obtain ⟨hp, hn⟩ := hh row hrow _ ha
        refine ⟨hkeeps, ?_, ?_⟩
        · rw [hp, hb, hpath]
        · rw [hn, hb, hname]
      · rintro ⟨habout, hother⟩ ⟨-, hp, hn⟩
        obtain ⟨n, ha⟩ := Option.ne_none_iff_exists'.mp habout
        obtain ⟨hp', hn'⟩ := hh row hrow n ha
        have hb : row.board = t.call.board := hhome (by rw [← hp', hp, hpath])
        have hc : n = t.cid.1 := by
          refine hnames t.call.board ?_
          rw [← hb, ← hn', hn, hname, hb]
        exact hother ⟨hb, by rw [ha, hc]⟩
  | received _ _ | preserved _ _ | resolve _ _ _ | sent _ _ | set _ _ _ => trivial

end

/-- A host that uses every board through one port and every contact under one name can delete. -/
theorem steady_findable (py : HistoryPython) {home : String → String} {names : String → ℤ → String}
    (hhome : Function.Injective home) (hnames : ∀ b, Function.Injective (names b)) (moves : List HistoryMove) :
    ∀ {h : HistoryHost}, (∀ row ∈ h.rows, row.Home home names) →
      Along (HistoryHost.step py) (SteadyUse py home names) h moves →
        Along (HistoryHost.step py) (Findable py) h moves := by
  induction moves with
  | nil => exact fun _ _ => trivial
  | cons m moves ih =>
      intro h hh ha
      exact ⟨findable_of_home hhome hnames hh ha.1, ih (step_home hh ha.1) ha.2⟩

/-! ### Scrubbing -/

/-- A command on the port of a board. -/
def usbCall : PortCall := ⟨"/dev/ttyACM0", "e66044", some [("/dev/ttyACM0", some "e66044")], true⟩

def plainPython : HistoryPython where
  str v := match v with
    | .str s => s
    | _ => "None"
  int v := match v with
    | .int n => .ok n
    | _ => .error .typeOrValue
  sha1 _ := "00000000"

end LoraMesh
