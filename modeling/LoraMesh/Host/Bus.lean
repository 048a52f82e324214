import Mathlib.Algebra.Order.Group.Multiset
import Mathlib.Tactic.Abel
import LoraMesh.Lib.Runs
import LoraMesh.Host.Exchange

/-!
# Host — Bus

`EventBus` of `host/meshctl/bus.py`, one link of it from the start of its worker: the callers that request
and detach, one of them at a time under the lock, and the worker, which owns the session.  Between any two
moves of the worker the callers make any moves and any time passes.

* `EventBus.step`: a move of the bus; what the calls of the session do is part of it.
* `OneOutcome`: every request that was queued has one outcome once the worker has exited.
* `one_outcome`: so it has, while nothing strikes a request that is queued or in hand.

A log keeps every event, latest first, with the request that it ends; no program reads it.
-/

namespace LoraMesh

/-! ### Events -/

inductive EventKind where
  | reply
  | notice
  | error
  | received
  deriving DecidableEq

/-- An event for the UI, its board apart. -/
structure BusEvent where
  kind : EventKind
  text : String
  contactId : ℤ := 0
  epoch : ℤ := 0
  sequence : ℤ := 0

/-- Why `int(v)` raises: a `TypeError` or a `ValueError`, or an `OverflowError`. -/
inductive IntError where
  | typeOrValue
  | overflow
  deriving DecidableEq

/-- The library functions that the bus calls besides. -/
structure BusPython extends Python where
  /-- `json.dumps(obj, ensure_ascii=False)`, of what `json.loads` has built. -/
  text : Fields → String
  /-- `str(v)`. -/
  str : PyVal → String
  /-- `int(v)`. -/
  int : PyVal → Except IntError ℤ
  /-- `str(exc)` of what `json.dumps` raises. -/
  complaint : Fields → String

/-- An exception: one of those that the worker catches, with its text, or another. -/
inductive Raised where
  | caught (text : String)
  | escapes

/-- What `session.read_next` does, and, if the record is told of a deleted contact, the text of what
`contacts.drop_contact` raises. -/
inductive BusRead where
  | quiet
  | raised (x : Raised)
  | record (obj : Fields) (cleanup : Option String)

/-- What the session's calls do. -/
structure SessionCalls where
  wrote : Option Raised
  read : BusRead

namespace BusEvent

def error (text : String) : BusEvent := { kind := .error, text }

def noReply (cmdId : ℤ) (op : String) : BusEvent := error s!"no reply (id {cmdId}, {op})"

def expired (op : String) : BusEvent := error s!"request expired before write ({op})"

def late (cmdId : ℤ) (op : String) : BusEvent := error s!"late reply (id {cmdId}, {op})"

def disconnected (cmdId : ℤ) (op : String) : BusEvent := error s!"disconnected before reply (id {cmdId}, {op})"

def serialError (text : String) : BusEvent := error s!"serial error: {text}"

def reply (py : BusPython) (obj : Fields) : BusEvent := { kind := .reply, text := py.text obj }

def notice (py : BusPython) (obj : Fields) : BusEvent := { kind := .notice, text := py.text obj }

end BusEvent

/-- A queued command. -/
structure Command where
  op : String
  params : Fields
  deadline : ℕ

/-- The events that end a request. -/
inductive Terminal (py : BusPython) (r : Command) : BusEvent → Prop
  | reply (obj : Fields) : Terminal py r (.reply py obj)
  | noReply (cmdId : ℤ) : Terminal py r (.noReply cmdId r.op)
  | expired : Terminal py r (.expired r.op)
  | late (cmdId : ℤ) : Terminal py r (.late cmdId r.op)
  | disconnected (cmdId : ℤ) : Terminal py r (.disconnected cmdId r.op)

/-- An event put, and the request it ends. -/
structure Posted where
  event : BusEvent
  ends : Option Command

/-! ### The bus -/

/-- Where the worker stands. -/
inductive Worker where
  /-- Before it looks at `stop`. -/
  | loop
  | take
  /-- With a command in hand. -/
  | write (r : Command)
  | read
  /-- In its `finally` block. -/
  | close
  | leave
  | exited

namespace Worker

/-- The worker is still to look at the queue again. -/
def serves : Worker → Bool
  | .loop => true
  | .take => true
  | .write _ => true
  | .read => true
  | _ => false

def hand : Worker → List Command
  | .write r => [r]
  | _ => []

end Worker

/-- The bounds of a timeout, in milliseconds. -/
abbrev minTimeout : ℕ := 100

abbrev maxTimeout : ℕ := 120000

structure EventBus where
  /-- `time.monotonic()`, in milliseconds. -/
  now : ℕ
  commands : List Command
  stop : Bool
  /-- The link is in the table. -/
  attached : Bool
  /-- A `request` that holds the lock and has found the link: operation, parameters, timeout. -/
  asking : Option (String × Fields × ℕ)
  /-- The `detach`es that wait for the worker. -/
  joining : ℕ
  phase : Worker
  /-- The worker's `pending`, in its order. -/
  pending : List (ℤ × Command)
  nextId : ℤ
  /-- Every command ever queued. -/
  issued : List Command
  log : List Posted

namespace EventBus

/-- As `attach` leaves it. -/
def start : EventBus where
  now := 0
  commands := []
  stop := false
  attached := true
  asking := none
  joining := 0
  phase := .loop
  pending := []
  nextId := 1
  issued := []
  log := []

/-- `events.put`. -/
def put (s : EventBus) (event : BusEvent) : EventBus := { s with log := { event, ends := none } :: s.log }

/-- `events.put` of the event that ends a request. -/
def finish (s : EventBus) (r : Command) (event : BusEvent) : EventBus :=
  { s with log := { event, ends := some r } :: s.log }

/-! ### Callers -/

section

variable (py : BusPython)

/-- `str(exc)` of what `encode_request` raises. -/
def encodeError (body : Fields) : ExchangeError → String
  | .unserialisable => py.complaint body
  | _ => "LINE_TOO_LONG"

/-- `request`, as far as it finds the link; it waits while another holds the lock. -/
def request (s : EventBus) (op : String) (params : Fields) (timeout : ℕ) : EventBus :=
  match encodeRequest py.toPython 1 op params with
  | .error e => s.put (.error (encodeError py params e))
  | .ok _ =>
    if s.asking.isSome then s
    else if !s.attached || s.stop then s.put (.error "not attached")
    else { s with asking := some (op, params, min (max timeout minTimeout) maxTimeout) }

/-- And its `commands.put`. -/
def enqueue (s : EventBus) : EventBus :=
  match s.asking with
  | none => s
  | some (op, params, timeout) =>
    let r : Command := { op, params, deadline := s.now + timeout }
    { s with commands := s.commands ++ [r], asking := none, issued := s.issued ++ [r] }

/-- `detach`, as far as its `join`. -/
def detach (s : EventBus) : EventBus :=
  if s.asking.isSome || !s.attached then s else { s with stop := true, joining := s.joining + 1 }

/-- And its end, once the worker has exited. -/
def joined (s : EventBus) : EventBus :=
  match s.phase, s.joining with
  | .exited, n + 1 => { s with joining := n }.put { kind := .notice, text := "detached" }
  | _, _ => s

/-! ### The worker -/

/-- An exception in the loop. -/
def raise (s : EventBus) : Raised → EventBus
  | .caught text => { s with phase := .close }.put (.serialError text)
  | .escapes => { s with phase := .close }

/-- The expiry at the top of the loop. -/
def expire (s : EventBus) : EventBus :=
  let due := s.pending.filter fun p => decide (p.2.deadline ≤ s.now)
  let rest := s.pending.filter fun p => !decide (p.2.deadline ≤ s.now)
  due.foldl (fun s p => s.finish p.2 (.noReply p.1 p.2.op)) { s with pending := rest }

/-- The loop's condition, and the expiry. -/
def loop (s : EventBus) : EventBus :=
  if s.stop then { s with phase := .close } else { s.expire with phase := .take }

/-- `commands.get_nowait`. -/
def take (s : EventBus) : EventBus :=
  match s.commands with
  | [] => { s with phase := .read }
  | r :: commands => { s with commands, phase := .write r }

/-- `pending[cmd_id] = ...`. -/
def register (pending : List (ℤ × Command)) (cmdId : ℤ) (r : Command) : List (ℤ × Command) :=
  if (pending.lookup cmdId).isSome then pending.map fun p => if p.1 = cmdId then (cmdId, r) else p
  else pending ++ [(cmdId, r)]

/-- The command in hand is written, or has expired. -/
def write (s : EventBus) (r : Command) (wrote : Option Raised) : EventBus :=
  if r.deadline ≤ s.now then { s with phase := .read }.finish r (.expired r.op)
  else
    let cmdId := s.nextId
    let s := { s with nextId := if cmdId < 2 ^ 31 - 1 then cmdId + 1 else 1 }
    match encodeRequest py.toPython cmdId r.op r.params with
    | .error .unserialisable => s.raise .escapes
    | .error _ => s.raise (.caught "LINE_TOO_LONG")
    | .ok _ =>
      match wrote with
      | some x => s.raise x
      | none => { s with pending := register s.pending cmdId r, phase := .read }

/-- `"event" not in obj`, an integer `id` and a truth value `ok`: the two. -/
def replyOf (obj : Fields) : Option (ℤ × Bool) :=
  match obj.get "event", obj.int? "id", obj.bool? "ok" with
  | none, some cmdId, some ok => some (cmdId, ok)
  | _, _, _ => none

/-- A message that the board has received. -/
def receivedEvent (obj : Fields) : Except IntError BusEvent := do
  let contactId ← py.int ((obj.get "contact_id").getD (.int 0))
  let epoch ← py.int ((obj.get "epoch").getD (.int 0))
  let sequence ← py.int ((obj.get "sequence").getD (.int 0))
  return { kind := .received, text := py.str ((obj.get "text").getD (.str "")), contactId, epoch, sequence }

def isReceived (obj : Fields) : Bool :=
  match obj.get "event" with
  | some (.str event) => event == "received"
  | _ => false

/-- Whether the board has deleted the contact; `none` where `result` is no object, and its `get` raises. -/
def deleted (obj : Fields) : Option Bool :=
  match obj.get "result" with
  | none => some false
  | some (.dict fields) => some (Fields.bool? fields "deleted" == some true)
  | some _ => none

/-- The mapping of a deleted contact is dropped. -/
def dropContact (s : EventBus) (r : Command) (cleanup : Option String) : EventBus :=
  match r.params.int? "contact_id" with
  | none => s.put (.error "deleted on board; mapping cleanup skipped: bad contact_id")
  | some _ =>
    match cleanup with
    | none => s
    | some text => s.put (.error s!"deleted on board; mapping cleanup failed: {text}")

/-- A reply to a pending request, which is no longer pending. -/
def answer (s : EventBus) (cmdId : ℤ) (r : Command) (ok : Bool) (obj : Fields) (cleanup : Option String) : EventBus :=
  let s := { s with pending := s.pending.eraseP fun p => p.1 == cmdId, phase := .loop }
  if r.deadline ≤ s.now then s.finish r (.late cmdId r.op)
  else if r.op == "contact_delete" && ok then
    match deleted obj with
    | none => s.raise .escapes
    | some true => (s.dropContact r cleanup).finish r (.reply py obj)
    | some false => s.finish r (.reply py obj)
  else s.finish r (.reply py obj)

/-- A record. -/
def handle (s : EventBus) (obj : Fields) (cleanup : Option String) : EventBus :=
  if isReceived obj then
    match receivedEvent py obj with
    | .ok event => { s with phase := .loop }.put event
    | .error .typeOrValue => { s with phase := .loop }.put (.error "malformed received event")
    | .error .overflow => s.raise .escapes
  else
    match replyOf obj with
    | some (cmdId, ok) =>
      match s.pending.find? fun p => p.1 == cmdId with
      | some (_, r) => s.answer py cmdId r ok obj cleanup
      | none => { s with phase := .loop }.put (.notice py obj)
    | none => { s with phase := .loop }.put (.notice py obj)

/-- `session.read_next`. -/
def read (s : EventBus) : BusRead → EventBus
  | .quiet => { s with phase := .loop }
  | .raised x => s.raise x
  | .record obj cleanup => s.handle py obj cleanup

/-- The `finally` block; `pending` goes with the worker. -/
def close (s : EventBus) : EventBus :=
  s.pending.foldl (fun s p => s.finish p.2 (.disconnected p.1 p.2.op))
    { s with stop := true, pending := [], phase := .leave }

/-- The end of the `finally` block, for which the worker waits for the lock. -/
def leave (s : EventBus) : EventBus :=
  if s.asking.isSome then s else { s with attached := false, phase := .exited }

/-- A move of the worker. -/
def work (s : EventBus) (calls : SessionCalls) : EventBus :=
  match s.phase with
  | .loop => s.loop
  | .take => s.take
  | .write r => s.write py r calls.wrote
  | .read => s.read py calls.read
  | .close => s.close
  | .leave => s.leave
  | .exited => s

end

/-- A move of the bus. -/
inductive Move where
  | tick (ms : ℕ)
  | request (op : String) (params : Fields) (timeout : ℕ)
  | enqueue
  | detach
  | joined
  | work (calls : SessionCalls)

def step (py : BusPython) (s : EventBus) : Move → EventBus
  | .tick ms => { s with now := s.now + ms }
  | .request op params timeout => s.request py op params timeout
  | .enqueue => s.enqueue
  | .detach => s.detach
  | .joined => s.joined
  | .work calls => s.work py calls

/-! ### What is lost -/

/-- A record costs no request its outcome: the board tells of a deleted contact by an object, and where the
numbers of a message overflow, nothing is queued. -/
def RecordSpared (py : BusPython) (s : EventBus) (obj : Fields) : Prop :=
  if isReceived obj then
    match receivedEvent py obj with
    | .error .overflow => s.commands.isEmpty = true
    | _ => True
  else
    match replyOf obj with
    | some (cmdId, ok) =>
      match s.pending.find? fun p => p.1 == cmdId with
      | some (_, r) => s.now < r.deadline → (r.op == "contact_delete" && ok) = true → (deleted obj).isSome = true
      | none => True
    | none => True

/-- Nothing strikes a request that is queued or in hand: the worker leaves its loop only when nothing is queued,
nothing is queued afterwards, and a command in hand is written, under an id that is free. -/
def Spared (py : BusPython) (s : EventBus) : Move → Prop
  | .enqueue => s.asking.isSome = true → s.phase.serves = true
  | .work calls =>
    match s.phase with
    | .loop => s.stop = true → s.commands.isEmpty = true
    | .write r => s.now < r.deadline →
      (encodeRequest py.toPython s.nextId r.op r.params).isOk = true ∧ calls.wrote.isNone = true ∧
        (s.pending.lookup s.nextId).isNone = true
    | .read =>
      match calls.read with
      | .quiet => True
      | .raised _ => s.commands.isEmpty = true
      | .record obj _ => s.RecordSpared py obj
    | _ => True
  | _ => True

instance (py : BusPython) (s : EventBus) (obj : Fields) : Decidable (s.RecordSpared py obj) := by
  unfold RecordSpared
  split
  · split
    · infer_instance
    · infer_instance
  · split
    · split
      · infer_instance
      · infer_instance
    · infer_instance

instance (py : BusPython) (s : EventBus) (i : Move) : Decidable (s.Spared py i) := by
  unfold Spared
  split
  · infer_instance
  · split
    · infer_instance
    · infer_instance
    · split
      · infer_instance
      · infer_instance
      · infer_instance
    · infer_instance
  · infer_instance

/-- The requests that have ended. -/
def outcomes (s : EventBus) : List Command := s.log.filterMap Posted.ends

/-- No request has two outcomes, each once the worker has exited and left the table, and every outcome is an
event that ends a request. -/
structure OneOutcome (py : BusPython) (s : EventBus) : Prop where
  atMost : s.outcomes.Subperm s.issued
  exactly : s.phase = .exited → s.outcomes.Perm s.issued ∧ s.attached = false
  terminal : ∀ e ∈ s.log, ∀ r, e.ends = some r → Terminal py r e.event

/-! ### Where a request is -/

/-- Every request is queued, in hand, pending or ended. -/
def held (s : EventBus) : Multiset Command :=
  (s.commands : Multiset Command) + (s.phase.hand : Multiset Command) + (s.pending.map Prod.snd : Multiset Command) +
    (s.outcomes : Multiset Command)

structure Accounted (py : BusPython) (s : EventBus) : Prop where
  all : s.held = (s.issued : Multiset Command)
  drained : s.phase.serves = false → s.commands = []
  closed : s.phase = .leave ∨ s.phase = .exited → s.pending = []
  gone : s.phase = .exited → s.attached = false
  terminal : ∀ e ∈ s.log, ∀ r, e.ends = some r → Terminal py r e.event

section

variable {py : BusPython} {s : EventBus}

theorem foldl_finish (f : ℤ × Command → BusEvent) (due : List (ℤ × Command)) : ∀ s : EventBus,
    due.foldl (fun s p => s.finish p.2 (f p)) s =
      { s with log := (due.map fun p => ({ event := f p, ends := some p.2 } : Posted)).reverse ++ s.log } := by
  induction due with
  | nil => exact fun _ => rfl
  | cons p due ih =>
      intro s
      rw [List.foldl_cons, ih]
      simp only [finish, List.map_cons, List.reverse_cons, List.append_assoc, List.singleton_append]

theorem ended_coe (f : ℤ × Command → BusEvent) (due : List (ℤ × Command)) (log : List Posted) :
    (((due.map fun p => ({ event := f p, ends := some p.2 } : Posted)).reverse ++ log).filterMap Posted.ends :
      Multiset Command) = (due.map Prod.snd : Multiset Command) + (log.filterMap Posted.ends : Multiset Command) := by
  have hends : (due.map fun p => ({ event := f p, ends := some p.2 } : Posted)).filterMap Posted.ends =
      due.map Prod.snd := by
    rw [List.filterMap_map]
    exact congrFun (List.filterMap_eq_map (f := Prod.snd)) due
  rw [List.filterMap_append, List.filterMap_reverse, hends, ← Multiset.coe_add, Multiset.coe_reverse]

/-- What has expired, and what stays. -/
theorem pending_split (p : ℤ × Command → Bool) (pending : List (ℤ × Command)) :
    (pending.map Prod.snd : Multiset Command) =
      ((pending.filter p).map Prod.snd : Multiset Command) +
        ((pending.filter fun x => !p x).map Prod.snd : Multiset Command) := by
  rw [Multiset.coe_add, ← List.map_append]
  exact Multiset.coe_eq_coe.mpr ((List.filter_append_perm p pending).symm.map Prod.snd)

/-- What is popped, and what stays. -/
theorem pending_popped {p : ℤ × Command → Bool} {x : ℤ × Command} : ∀ {pending : List (ℤ × Command)},
    pending.find? p = some x →
      (pending.map Prod.snd : Multiset Command) = x.2 ::ₘ ((pending.eraseP p).map Prod.snd : Multiset Command)
  | [], h => nomatch h
  | y :: pending, h => by
      by_cases hy : p y = true
      · rw [List.find?_cons_of_pos hy] at h
        cases h
        rw [List.eraseP_cons_of_pos hy]
        rfl
      · rw [List.find?_cons_of_neg hy] at h
        rw [List.eraseP_cons_of_neg hy, List.map_cons, List.map_cons, ← Multiset.cons_coe, ← Multiset.cons_coe,
          pending_popped h, Multiset.cons_swap]

theorem terminal_cons {entry : Posted} {log : List Posted} (he : ∀ r, entry.ends = some r → Terminal py r entry.event)
    (hlog : ∀ e ∈ log, ∀ r, e.ends = some r → Terminal py r e.event) :
    ∀ e ∈ entry :: log, ∀ r, e.ends = some r → Terminal py r e.event :=
  List.forall_mem_cons.mpr ⟨he, hlog⟩

theorem terminal_append (h : Accounted py s) {f : ℤ × Command → BusEvent} (hf : ∀ p, Terminal py p.2 (f p))
    (due : List (ℤ × Command)) :
    ∀ e ∈ (due.map fun p => ({ event := f p, ends := some p.2 } : Posted)).reverse ++ s.log,
      ∀ r, e.ends = some r → Terminal py r e.event := by
  intro e he r hr
  rcases List.mem_append.mp he with he | he
  · obtain ⟨p, -, rfl⟩ := List.mem_map.mp (List.mem_reverse.mp he)
    cases hr
    exact hf p
  · exact h.terminal e he r hr

theorem Accounted.put (h : Accounted py s) (event : BusEvent) : Accounted py (s.put event) :=
  ⟨h.all, h.drained, h.closed, h.gone, terminal_cons nofun h.terminal⟩

/-- The worker goes on, with nothing in hand. -/
theorem Accounted.goesOn (h : Accounted py s) (hhand : s.phase.hand = []) {phase : Worker}
    (hp : phase.serves = true) (hand : phase.hand = []) : Accounted py { s with phase } where
  all := by
    rw [← h.all]
    simp only [held, hhand, hand, outcomes]
  drained hs := nomatch hp.symm.trans hs
  closed hs := by
    rcases hs with rfl | rfl
    · cases hp
    · cases hp
  gone := by
    rintro rfl
    cases hp
  terminal := h.terminal

/-- The worker leaves its loop, with nothing in hand and nothing queued. -/
theorem Accounted.closes (h : Accounted py s) (hhand : s.phase.hand = []) (hq : s.commands = []) :
    Accounted py { s with phase := .close } where
  all := by
    rw [← h.all]
    rw [held, held, hhand]
    rfl
  drained _ := hq
  closed hs := by rcases hs with hs | hs <;> cases hs
  gone := nofun
  terminal := h.terminal

theorem Accounted.raised (h : Accounted py s) (hhand : s.phase.hand = []) (hq : s.commands = []) (x : Raised) :
    Accounted py (s.raise x) := by
  cases x with
  | caught text => exact (h.closes hhand hq).put _
  | escapes => exact h.closes hhand hq

theorem enqueue_accounted (h : Accounted py s) (hok : s.Spared py .enqueue) : Accounted py s.enqueue := by
  unfold enqueue
  cases ha : s.asking with
  | none => exact h
  | some a =>
      have hserves : s.phase.serves = true := hok (by rw [ha]; rfl)
      refine ⟨?_, fun hs => (nomatch hserves.symm.trans hs), h.closed, h.gone, h.terminal⟩
      rw [← Multiset.coe_add, ← h.all]
      simp only [held, ← Multiset.coe_add, outcomes]
      abel

theorem loop_accounted (h : Accounted py s) (hp : s.phase = .loop) (hok : s.stop = true → s.commands = []) :
    Accounted py s.loop := by
  unfold loop
  split
  · exact h.closes (by rw [hp]; rfl) (hok ‹_›)
  · unfold expire
    rw [foldl_finish fun p => .noReply p.1 p.2.op]
    refine ⟨?_, nofun, ?_, nofun, terminal_append h (fun p => .noReply p.1) _⟩
    · rw [← h.all]
      simp only [held, outcomes, hp, Worker.hand, ended_coe,
        pending_split (fun p => decide (p.2.deadline ≤ s.now)) s.pending]
      abel
    · intro hs
      rcases hs with hs | hs <;> cases hs

theorem take_accounted (h : Accounted py s) (hp : s.phase = .take) : Accounted py s.take := by
  unfold take
  split
  · exact h.goesOn (by rw [hp]; rfl) rfl rfl
  · rename_i r commands hq
    refine ⟨?_, nofun, ?_, nofun, h.terminal⟩
    · rw [← h.all]
      simp only [held, hp, hq, Worker.hand, outcomes, ← Multiset.cons_coe, Multiset.coe_nil, ← Multiset.singleton_add]
      abel
    · intro hs
      rcases hs with hs | hs <;> cases hs

theorem close_accounted (h : Accounted py s) (hp : s.phase = .close) : Accounted py s.close := by
  have hq : s.commands = [] := h.drained (by rw [hp]; rfl)
  unfold close
  rw [foldl_finish fun p => .disconnected p.1 p.2.op]
  refine ⟨?_, fun _ => hq, fun _ => rfl, nofun, terminal_append h (fun p => .disconnected p.1) _⟩
  rw [← h.all]
  simp only [held, outcomes, hp, Worker.hand, ended_coe, List.map_nil, Multiset.coe_nil]
  abel

theorem leave_accounted (h : Accounted py s) (hp : s.phase = .leave) : Accounted py s.leave := by
  unfold leave
  split
  · exact h
  · refine ⟨?_, fun _ => h.drained (by rw [hp]; rfl), fun _ => h.closed (.inl hp), fun _ => rfl, h.terminal⟩
    rw [← h.all]
    simp only [held, outcomes, hp, Worker.hand]

/-- The command in hand ends. -/
theorem Accounted.finishHand (h : Accounted py s) {r : Command} (hp : s.phase = .write r) {event : BusEvent}
    (he : Terminal py r event) : Accounted py ({ s with phase := .read }.finish r event) := by
  refine ⟨?_, nofun, ?_, nofun, terminal_cons ?_ h.terminal⟩
  · refine Eq.trans ?_ h.all
    simp only [held, outcomes, finish, hp, Worker.hand, List.filterMap_cons, ← Multiset.cons_coe, Multiset.coe_nil,
      ← Multiset.singleton_add]
    abel
  · intro hs
    rcases hs with hs | hs <;> cases hs
  · rintro r' ⟨⟩
    exact he

theorem write_accounted (h : Accounted py s) {r : Command} (hp : s.phase = .write r) {wrote : Option Raised}
    (hok : s.now < r.deadline → (encodeRequest py.toPython s.nextId r.op r.params).isOk = true ∧ wrote.isNone = true ∧
      (s.pending.lookup s.nextId).isNone = true) : Accounted py (s.write py r wrote) := by
  unfold write
  split
  · exact h.finishHand hp .expired
  · obtain ⟨henc, hwrote, hfree⟩ := hok (Nat.lt_of_not_le ‹_›)
    obtain ⟨line, henc⟩ : ∃ line, encodeRequest py.toPython s.nextId r.op r.params = .ok line := by
      cases he : encodeRequest py.toPython s.nextId r.op r.params with
      | ok line => exact ⟨line, rfl⟩
      | error e => rw [he] at henc; cases henc
    rw [Option.isNone_iff_eq_none] at hwrote hfree
    simp only [henc, hwrote, register, hfree, Option.isSome_none, Bool.false_eq_true, if_false]
    refine ⟨?_, nofun, ?_, nofun, h.terminal⟩
    · rw [← h.all]
      simp only [held, outcomes, hp, Worker.hand, List.map_append, List.map_cons, List.map_nil, ← Multiset.coe_add]
      abel
    · intro hs
      rcases hs with hs | hs <;> cases hs

/-- But for one request, every request is queued, in hand, pending or ended. -/
structure Limbo (py : BusPython) (r : Command) (s : EventBus) : Prop where
  all : r ::ₘ s.held = (s.issued : Multiset Command)
  phase : s.phase = .loop
  terminal : ∀ e ∈ s.log, ∀ r, e.ends = some r → Terminal py r e.event

theorem Limbo.put {r : Command} (h : Limbo py r s) (event : BusEvent) : Limbo py r (s.put event) :=
  ⟨h.all, h.phase, terminal_cons nofun h.terminal⟩

theorem Limbo.finish {r : Command} (h : Limbo py r s) {event : BusEvent} (he : Terminal py r event) :
    Accounted py (s.finish r event) where
  all := by
    refine Eq.trans ?_ h.all
    simp only [held, outcomes, EventBus.finish, List.filterMap_cons, ← Multiset.cons_coe, ← Multiset.singleton_add]
    abel
  drained hs := nomatch (congrArg Worker.serves h.phase).symm.trans hs
  closed hs := by
    rcases hs with hs | hs
    · exact nomatch h.phase.symm.trans hs
    · exact nomatch h.phase.symm.trans hs
  gone hs := nomatch h.phase.symm.trans hs
  terminal := terminal_cons (by rintro r' ⟨⟩; exact he) h.terminal

theorem answer_accounted (h : Accounted py s) (hp : s.phase = .read) {cmdId c : ℤ} {r : Command}
    (hfind : (s.pending.find? fun p => p.1 == cmdId) = some (c, r)) {ok : Bool} {obj : Fields} {cleanup : Option String}
    (hok : s.now < r.deadline → (r.op == "contact_delete" && ok) = true → (deleted obj).isSome = true) :
    Accounted py (s.answer py cmdId r ok obj cleanup) := by
  have hlimbo : Limbo py r { s with pending := s.pending.eraseP fun p => p.1 == cmdId, phase := .loop } := by
    refine ⟨?_, rfl, h.terminal⟩
    refine Eq.trans ?_ h.all
    simp only [held, outcomes, hp, Worker.hand, pending_popped hfind, ← Multiset.singleton_add]
    abel
  unfold answer
  dsimp only
  split
  · exact hlimbo.finish (.late cmdId)
  · split
    · have hdel := hok (Nat.lt_of_not_le ‹_›) ‹_›
      split
      · rename_i hnone
        rw [hnone] at hdel
        cases hdel
      · refine Limbo.finish ?_ (.reply obj)
        unfold dropContact
        split
        · exact hlimbo.put _
        · split
          · exact hlimbo
          · exact hlimbo.put _
      · exact hlimbo.finish (.reply obj)
    · exact hlimbo.finish (.reply obj)

theorem handle_accounted (h : Accounted py s) (hp : s.phase = .read) {obj : Fields} (hok : s.RecordSpared py obj)
    (cleanup : Option String) : Accounted py (s.handle py obj cleanup) := by
  have hloop : Accounted py { s with phase := .loop } := h.goesOn (by rw [hp]; rfl) rfl rfl
  unfold RecordSpared at hok
  unfold handle
  split
  · rename_i hrec
    rw [if_pos hrec] at hok
    split
    · exact hloop.put _
    · exact hloop.put _
    · rename_i hover
      rw [hover] at hok
      exact h.raised (by rw [hp]; rfl) (List.isEmpty_iff.mp hok) .escapes
  · rename_i hrec
    rw [if_neg hrec] at hok
    split
    · rename_i cmdId ok hreply
      rw [hreply] at hok
      dsimp only at hok
      split
      · rename_i c r hfind
        rw [hfind] at hok
        exact answer_accounted h hp hfind hok
      · exact hloop.put _
    · exact hloop.put _

theorem read_accounted (h : Accounted py s) (hp : s.phase = .read) {read : BusRead}
    (hok : match read with
      | .quiet => True
      | .raised _ => s.commands.isEmpty = true
      | .record obj _ => s.RecordSpared py obj) : Accounted py (s.read py read) := by
  cases read with
  | quiet => exact h.goesOn (by rw [hp]; rfl) rfl rfl
  | raised x => exact h.raised (by rw [hp]; rfl) (List.isEmpty_iff.mp hok) x
  | record obj cleanup => exact handle_accounted h hp hok cleanup

/-! ### Runs -/

theorem request_accounted (h : Accounted py s) (op : String) (params : Fields) (timeout : ℕ) :
    Accounted py (s.request py op params timeout) := by
  unfold request
  split
  · exact h.put _
  · split
    · exact h
    · split
      · exact h.put _
      · exact ⟨h.all, h.drained, h.closed, h.gone, h.terminal⟩

theorem detach_accounted (h : Accounted py s) : Accounted py s.detach := by
  unfold detach
  split
  · exact h
  · exact ⟨h.all, h.drained, h.closed, h.gone, h.terminal⟩

theorem joined_accounted (h : Accounted py s) : Accounted py s.joined := by
  unfold joined
  split
  · rename_i n _ _
    have hjoin : Accounted py { s with joining := n } := ⟨h.all, h.drained, h.closed, h.gone, h.terminal⟩
    exact hjoin.put _
  · exact h

theorem work_accounted (h : Accounted py s) (calls : SessionCalls) (hok : s.Spared py (.work calls)) :
    Accounted py (s.work py calls) := by
  unfold Spared at hok
  unfold work
  cases hp : s.phase with
  | loop =>
      simp only [hp] at hok
      exact loop_accounted h hp fun hs => List.isEmpty_iff.mp (hok hs)
  | take => exact take_accounted h hp
  | write r =>
      simp only [hp] at hok
      exact write_accounted h hp hok
  | read =>
      simp only [hp] at hok
      exact read_accounted h hp hok
  | close => exact close_accounted h hp
  | leave => exact leave_accounted h hp
  | exited => exact h

theorem step_accounted (h : Accounted py s) (i : Move) (hok : s.Spared py i) : Accounted py (s.step py i) := by
  cases i with
  | tick ms => exact ⟨h.all, h.drained, h.closed, h.gone, h.terminal⟩
  | request op params timeout => exact request_accounted h op params timeout
  | enqueue => exact enqueue_accounted h hok
  | detach => exact detach_accounted h
  | joined => exact joined_accounted h
  | work calls => exact work_accounted h calls hok

theorem Accounted.oneOutcome (h : Accounted py s) : OneOutcome py s where
  atMost := by
    refine Multiset.coe_le.mp ?_
    rw [← h.all]
    exact Multiset.le_add_left _ _
  exactly hp := by
    refine ⟨Multiset.coe_eq_coe.mp ?_, h.gone hp⟩
    rw [← h.all]
    simp only [held, hp, Worker.hand, h.drained (by rw [hp]; rfl), h.closed (.inr hp), List.map_nil, Multiset.coe_nil,
      zero_add]
  terminal := h.terminal

end

/-- Every request that was queued has exactly one outcome once the worker has exited, in every run in which nothing
strikes one that is queued or in hand. -/
theorem one_outcome (py : BusPython) (is : List Move) (hok : Along (step py) (Spared py) start is) :
    OneOutcome py (run (step py) start is) := by
  have hstart : Accounted py start := ⟨rfl, fun _ => rfl, fun _ => rfl, nofun, nofun⟩
  exact (run_invariant (I := Accounted py) (fun _ i h hi => step_accounted h i hi) is hstart hok).oneOutcome

/-! ### Sample runs -/

/-- A library on requests without parameters, and on replies to them. -/
def library : BusPython where
  decode _ := ""
  loads _ := none
  dumps
    | [("id", .int n), ("op", .str op)] => some (ascii s!"\x7b\"id\": {n}, \"op\": \"{op}\"\x7d")
    | _ => none
  text
    | [("id", .int n), ("ok", .bool true)] => s!"\x7b\"id\": {n}, \"ok\": true\x7d"
    | _ => ""
  str _ := ""
  int
    | .int n => .ok n
    | _ => .error .typeOrValue
  complaint _ := ""

/-- A move of the worker in which the session reads this. -/
def reads (read : BusRead) : Move := .work { wrote := none, read }

/-- A request for an operation without parameters. -/
def asks (op : String) : List Move := [.request op [] 5000, .enqueue]

/-- The board accepts the request of this id, with this result if any. -/
def accepted (cmdId : ℤ) (result : Fields) : BusRead :=
  .record ([("id", .int cmdId), ("ok", .bool true)] ++ result) none

/-- A round of the worker's loop with a request queued. -/
def round (read : BusRead) : List Move := [reads .quiet, reads .quiet, reads .quiet, reads read]

/-- A round with nothing queued, or the worker's way out. -/
def idle : List Move := [reads .quiet, reads .quiet, reads .quiet]

/-- One request is answered, one expires, and the callers detach. -/
def served : List Move :=
  asks "status" ++ asks "contacts" ++ round (accepted 1 []) ++ round .quiet ++ [.tick 5000] ++ idle ++ [.detach] ++
    idle ++ [.joined]

theorem one_outcome_served : OneOutcome library (run (step library) start served) :=
  one_outcome library served (by decide +kernel)

/-- A request is queued as the callers detach. -/
def detached : List Move := asks "status" ++ [.detach] ++ idle

/-- The session fails to write a request. -/
def unwritten : List Move :=
  asks "status" ++ [reads .quiet, reads .quiet, .work { wrote := some (.caught "TIMEOUT"), read := .quiet }] ++ idle

/-- The board says of a deletion only that it is done. -/
def unexplained : List Move :=
  asks "contact_delete" ++ round (accepted 1 [("result", .str "done")]) ++ idle

theorem not_oneOutcome {py : BusPython} {s : EventBus} (hp : s.phase = .exited)
    (hlen : s.outcomes.length ≠ s.issued.length) : ¬ OneOutcome py s := fun h => hlen (h.exactly hp).1.length_eq

theorem outcomes_lost :
    ¬ OneOutcome library (run (step library) start detached) ∧
      ¬ OneOutcome library (run (step library) start unwritten) ∧
        ¬ OneOutcome library (run (step library) start unexplained) :=
  ⟨not_oneOutcome (by rfl) (by decide +kernel), not_oneOutcome (by rfl) (by decide +kernel),
    not_oneOutcome (by rfl) (by decide +kernel)⟩

end EventBus

end LoraMesh
