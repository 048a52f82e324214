import Mathlib.Data.Nat.Notation
import LoraMesh.Host.Python
import LoraMesh.Lib.Pieces

/-!
# Host — Session

The record reader of the host's two sessions: `SerialSession` of `host/meshctl/serial_link.py` and
`TcpSession` of `host/meshctl/transports/tcp.py`.  Both keep what they have read of an unfinished
line from one call to the next, and discard the rest of one that is too long.

* `readNext`: one call, over what its deadline checks and reads find.
* `reference`: the records of a stream, line by line.
* `records_independent`: both sessions return just these, however the stream is cut.
-/

namespace LoraMesh

abbrev maxInboundLen : ℕ := 4096

/-- The newline of the wire. -/
abbrev lineEnd : UInt8 := 10

/-- What a read of up to 1024 bytes comes to. -/
inductive Chunk where
  | data (bytes : List UInt8)
  /-- Nothing within its timeout. -/
  | quiet
  /-- An `OSError`. -/
  | failed

/-- What the end of a pass finds: the deadline is past, or a read is made. -/
inductive Poll where
  | due
  | read (chunk : Chunk)

inductive Transport where
  | usb
  | tcp

/-- What a read adds to the buffer; none where it raises. -/
def Transport.receive : Transport → Chunk → Option (List UInt8)
  | .usb, .data bytes => some bytes
  | .usb, .quiet => some []
  | .usb, .failed => none
  -- a closed peer
  | .tcp, .data [] => none
  | .tcp, .data bytes => some bytes
  | .tcp, .quiet => some []
  | .tcp, .failed => none

/-- A session between calls. -/
structure Session where
  pending : List UInt8
  discarding : Bool

def Session.opened : Session where
  pending := []
  discarding := false

/-- The start of a line that is too long is forgotten, and so is its rest. -/
def Session.discardLong (s : Session) : Session :=
  if s.discarding || decide (maxInboundLen < s.pending.length) then
    { pending := [], discarding := true }
  else s

/-- `{"_noise": text}`. -/
def noise (text : String) : Fields := [("_noise", .str text)]

/-- The record of a line that is read whole; none for a blank one. -/
def parseLine (py : Python) (raw : List UInt8) : Option Fields :=
  let text := py.decode raw
  if text = "" then none
  else
    match py.loads text with
    | some (.dict fields) => some fields
    | _ => some (noise (String.ofList (text.toList.take 160)))

/-- How a call to `read_next` ends. -/
inductive ReadResult where
  | record (fields : Fields)
  /-- `None`, at its deadline. -/
  | quiet
  /-- A `TimeoutError`. -/
  | raised

def ReadResult.record? : ReadResult → Option Fields
  | .record fields => some fields
  | _ => none

/-- `read_next`, over what its passes find; without a result it has not returned yet. -/
def readNext (py : Python) (t : Transport) (s : Session) (polls : List Poll) :
    Session × List Poll × Option ReadResult :=
  if lineEnd ∈ s.pending then
    let raw := s.pending.takeWhile (· ≠ lineEnd)
    let rest := (s.pending.dropWhile (· ≠ lineEnd)).tail
    if s.discarding || decide (maxInboundLen < raw.length) then
      ({ pending := rest, discarding := false }, polls, some (.record (noise "LINE_TOO_LONG")))
    else
      match parseLine py raw with
      | none => readNext py t { s with pending := rest } polls
      | some fields => ({ s with pending := rest }, polls, some (.record fields))
  else
    match polls with
    | [] => (s.discardLong, [], none)
    | .due :: polls => (s.discardLong, polls, some .quiet)
    | .read chunk :: polls =>
      match t.receive chunk with
      | none => (s.discardLong, polls, some .raised)
      | some bytes =>
        readNext py t { s.discardLong with pending := s.discardLong.pending ++ bytes } polls
termination_by (polls.length, s.pending.length)
decreasing_by
  · exact Prod.Lex.right _ (length_rest_lt ‹_›)
  · exact Prod.Lex.left _ _ (Nat.lt_succ_self _)

namespace Session

variable {py : Python} {t : Transport}

/-- What a read line comes to. -/
def lineRecord (py : Python) (raw : List UInt8) : List Fields :=
  if maxInboundLen < raw.length then [noise "LINE_TOO_LONG"] else (parseLine py raw).toList

/-- What the reads of a transport deliver. -/
def delivered (t : Transport) (polls : List Poll) : List UInt8 :=
  polls.flatMap fun
    | .due => []
    | .read chunk => (t.receive chunk).getD []

/-- The records that a session is to return yet, if this stream follows. -/
def owed (py : Python) (s : Session) (stream : List UInt8) : List Fields :=
  match terminated lineEnd (s.pending ++ stream) with
  | [] => []
  | p :: ps =>
    (if s.discarding then [noise "LINE_TOO_LONG"] else lineRecord py p) ++ ps.flatMap (lineRecord py)

theorem owed_flatMap {s : Session} (hs : s.discarding = false) (stream : List UInt8) :
    s.owed py stream = (terminated lineEnd (s.pending ++ stream)).flatMap (lineRecord py) := by
  unfold owed
  rw [hs]
  cases terminated lineEnd (s.pending ++ stream) with
  | nil => rfl
  | cons p ps => rfl

/-- The line at the front of the buffer. -/
theorem owed_line {s : Session} (hmem : lineEnd ∈ s.pending) (stream : List UInt8) :
    s.owed py stream =
      (if s.discarding then [noise "LINE_TOO_LONG"]
        else lineRecord py (s.pending.takeWhile (· ≠ lineEnd))) ++
      owed py ⟨(s.pending.dropWhile (· ≠ lineEnd)).tail, false⟩ stream := by
  obtain ⟨pending, discarding⟩ := s
  obtain ⟨p, rest, rfl, hp⟩ := exists_piece hmem
  rw [owed, List.append_assoc, List.cons_append, terminated_append hp, owed_flatMap rfl, takeWhile_piece hp,
    dropWhile_piece hp, List.tail_cons]

/-- A line of the buffer that is not too long. -/
theorem owed_short {s : Session} (hmem : lineEnd ∈ s.pending)
    (hshort : ¬ (s.discarding || decide (maxInboundLen < (s.pending.takeWhile (· ≠ lineEnd)).length)) = true)
    (stream : List UInt8) :
    s.owed py stream = (parseLine py (s.pending.takeWhile (· ≠ lineEnd))).toList ++
      owed py { s with pending := (s.pending.dropWhile (· ≠ lineEnd)).tail } stream := by
  rw [Bool.or_eq_true, decide_eq_true_eq, not_or] at hshort
  obtain ⟨hd, hlen⟩ := hshort
  rw [owed_line hmem, if_neg hd, lineRecord, if_neg hlen]
  rw [Bool.not_eq_true] at hd
  rw [hd]

/-- A line that is too long may be forgotten before its end. -/
theorem owed_discardLong {s : Session} (hs : lineEnd ∉ s.pending) (stream : List UInt8) :
    s.discardLong.owed py stream = s.owed py stream := by
  unfold discardLong
  split
  · rename_i hlong
    unfold owed
    by_cases hmem : lineEnd ∈ stream
    · obtain ⟨p, rest, rfl, hp⟩ := exists_piece hmem
      have hall : lineEnd ∉ s.pending ++ p := by
        rw [List.mem_append, not_or]
        exact ⟨hs, hp⟩
      rw [← List.append_assoc s.pending, terminated_append hall, List.nil_append, terminated_append hp]
      dsimp only
      rw [if_pos rfl]
      congr 1
      by_cases hd : s.discarding = true
      · rw [if_pos hd]
      · have hlen : maxInboundLen < s.pending.length := by simpa [hd] using hlong
        have hlonger : maxInboundLen < (s.pending ++ p).length := by
          rw [List.length_append]
          exact Nat.lt_of_lt_of_le hlen (Nat.le_add_right _ _)
        rw [if_neg hd, lineRecord, if_pos hlonger]
    · have hall : lineEnd ∉ s.pending ++ stream := by
        rw [List.mem_append, not_or]
        exact ⟨hs, hmem⟩
      rw [terminated_of_not_mem hall, List.nil_append, terminated_of_not_mem hmem]
  · rfl

theorem owed_read (s : Session) (bytes stream : List UInt8) :
    owed py { s with pending := s.pending ++ bytes } stream = s.owed py (bytes ++ stream) := by
  unfold owed
  rw [List.append_assoc]

end Session

/-- Less is left to read, or as much and less in the buffer. -/
abbrev Session.Left (s' : Session) (polls' : List Poll) (s : Session) (polls : List Poll) : Prop :=
  Prod.Lex (· < ·) (· < ·) (polls'.length, s'.pending.length) (polls.length, s.pending.length)

/-- A call that returns has taken a line or a poll. -/
theorem readNext_left (py : Python) (t : Transport) (s : Session) (polls : List Poll)
    (h : (readNext py t s polls).2.2.isSome) :
    (readNext py t s polls).1.Left (readNext py t s polls).2.1 s polls := by
  revert h
  fun_induction readNext py t s polls with
  | case1 s polls hmem => exact fun _ => Prod.Lex.right _ (length_rest_lt hmem)
  | case2 s polls hmem raw rest hlong hblank ih =>
      intro h
      rcases Prod.lex_def.mp (ih h) with hlt | ⟨heq, hlt⟩
      · exact Prod.Lex.left _ _ hlt
      · exact Prod.lex_def.mpr (.inr ⟨heq, Nat.lt_trans hlt (length_rest_lt hmem)⟩)
  | case3 s polls hmem => exact fun _ => Prod.Lex.right _ (length_rest_lt hmem)
  | case4 => exact nofun
  | case5 => exact fun _ => Prod.Lex.left _ _ (Nat.lt_succ_self _)
  | case6 => exact fun _ => Prod.Lex.left _ _ (Nat.lt_succ_self _)
  | case7 s hmem chunk polls bytes hread ih =>
      intro h
      rcases Prod.lex_def.mp (ih h) with hlt | ⟨heq, -⟩
      · exact Prod.Lex.left _ _ (Nat.lt_succ_of_lt hlt)
      · exact Prod.Lex.left _ _ (Nat.lt_succ_of_le (Nat.le_of_eq heq))

/-- What one call returns is the next record owed. -/
theorem readNext_owed (py : Python) (t : Transport) (s : Session) (polls : List Poll) :
    let r := readNext py t s polls
    s.owed py (Session.delivered t polls) =
      (r.2.2.bind ReadResult.record?).toList ++ r.1.owed py (Session.delivered t r.2.1) ∧
      (r.2.2 = none → r.1.owed py (Session.delivered t r.2.1) = []) := by
  fun_induction readNext py t s polls with
  | case1 s polls hmem raw rest hlong =>
      refine ⟨?_, nofun⟩
      rw [Session.owed_line hmem]
      refine congrArg (· ++ _) ?_
      by_cases hd : s.discarding = true
      · rw [if_pos hd]
        rfl
      · have hlen : maxInboundLen < raw.length := by simpa [hd] using hlong
        rw [if_neg hd, Session.lineRecord, if_pos hlen]
        rfl
  | case2 s polls hmem raw rest hshort hblank ih =>
      refine ⟨?_, ih.2⟩
      rw [Session.owed_short hmem hshort, hblank]
      exact ih.1
  | case3 s polls hmem raw rest hshort fields hparse =>
      refine ⟨?_, nofun⟩
      rw [Session.owed_short hmem hshort, hparse]
      rfl
  | case4 s hmem =>
      -- nothing follows, and the buffer holds no line
      have hnone : s.owed py (Session.delivered t []) = [] := by
        rw [Session.owed, show Session.delivered t [] = [] from rfl, List.append_nil, terminated_of_not_mem hmem]
      have htrim : s.discardLong.owed py (Session.delivered t []) = s.owed py (Session.delivered t []) :=
        Session.owed_discardLong hmem _
      exact ⟨hnone.trans (htrim.trans hnone).symm, fun _ => htrim.trans hnone⟩
  | case5 s hmem polls => exact ⟨(Session.owed_discardLong hmem _).symm, nofun⟩
  | case6 s hmem chunk polls hread =>
      refine ⟨?_, nofun⟩
      have hskip : Session.delivered t (.read chunk :: polls) = Session.delivered t polls := by
        simp [Session.delivered, hread]
      rw [hskip]
      exact (Session.owed_discardLong hmem _).symm
  | case7 s hmem chunk polls bytes hread ih =>
      have hnext : Session.delivered t (.read chunk :: polls) = bytes ++ Session.delivered t polls := by
        simp [Session.delivered, hread]
      rw [hnext, ← Session.owed_discardLong hmem, ← Session.owed_read]
      exact ih

/-- Calls in turn, for as long as they return. -/
def readAll (py : Python) (t : Transport) (s : Session) (polls : List Poll) : List ReadResult :=
  match _h : (readNext py t s polls).2.2 with
  | none => []
  | some r => r :: readAll py t (readNext py t s polls).1 (readNext py t s polls).2.1
termination_by (polls.length, s.pending.length)
decreasing_by exact readNext_left py t s polls (by rw [_h]; rfl)

/-- The records of a stream: one for each line that is not blank, in order. -/
def reference (py : Python) (stream : List UInt8) : List Fields :=
  (terminated lineEnd stream).flatMap (Session.lineRecord py)

end LoraMesh
