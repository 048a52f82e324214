import LoraMesh.Lib.Runs
import Mathlib.Data.List.Basic

/-!
# Firmware — Ports

The two ways a host reaches the radio image: the USB CDC loops of `firmware/src/main.rs` and the
TCP serve loop of `firmware/src/wifi.rs`.  Both feed packets into `USB_RX`, from which the runtime
task assembles lines, and both take records from `USB_TX`.  A packet and a record carry the port
they came in by; nothing reads that.

* `ports_share`: what any interleaving makes of the packets and the records.
* `serve_timely`: exactly when no record waits on a serve loop that is blocked in its read.
-/

namespace LoraMesh

/-! ### Lines -/

abbrev maxLineLen : ℕ := 1024

abbrev newline : UInt8 := 10

abbrev carriageReturn : UInt8 := 13

/-- The line assembled so far. -/
structure LineBuffer where
  buf : List UInt8
  discarding : Bool
  fits : buf.length ≤ maxLineLen
  empty : discarding = true → buf = []

/-- What a byte completes. -/
inductive LineEvent where
  | line (bytes : List UInt8)
  | tooLong
  deriving DecidableEq

namespace LineBuffer

def new : LineBuffer where
  buf := []
  discarding := false
  fits := Nat.zero_le _
  empty := nofun

def push (b : LineBuffer) (byte : UInt8) : LineBuffer × Option LineEvent :=
  if b.discarding then
    if byte = newline then (new, some .tooLong) else (b, none)
  else if byte = newline then (new, some (.line b.buf))
  else if byte = carriageReturn then (b, none)
  else if h : b.buf.length < maxLineLen then
    ({ buf := b.buf ++ [byte], discarding := false
       fits := by rw [List.length_append]; exact h, empty := nofun }, none)
  else ({ buf := [], discarding := true, fits := Nat.zero_le _, empty := fun _ => rfl }, none)

/-- Bytes in turn, and the events in order, each under the tag of the byte that completes it. -/
def feed {α : Type} (b : LineBuffer) : List (α × UInt8) → LineBuffer × List (α × LineEvent)
  | [] => (b, [])
  | (tag, byte) :: bytes =>
    let r := b.push byte
    let rest := r.1.feed bytes
    (rest.1, (r.2.toList.map fun ev => (tag, ev)) ++ rest.2)

variable {α : Type}

theorem feed_append (xs ys : List (α × UInt8)) : ∀ b : LineBuffer,
    b.feed (xs ++ ys) =
      (((b.feed xs).1.feed ys).1, (b.feed xs).2 ++ ((b.feed xs).1.feed ys).2) := by
  induction xs with
  | nil => exact fun _ => rfl
  | cons x xs ih =>
      intro b
      simp only [List.cons_append, feed, ih, List.append_assoc]

/-- Between lines, whatever came before. -/
theorem push_newline (b : LineBuffer) : (b.push newline).1 = new := by
  unfold push
  split
  · rw [if_pos rfl]
  · rw [if_pos rfl]

/-- Nothing of what came before a newline is left. -/
theorem feed_newline (b : LineBuffer) (xs : List (α × UInt8)) (tag : α) :
    (b.feed (xs ++ [(tag, newline)])).1 = new := by
  rw [feed_append]
  exact push_newline _

/-- What the buffer keeps of a line. -/
def kept (xs : List UInt8) : List UInt8 := xs.filter (· ≠ carriageReturn)

theorem kept_cons {x : UInt8} (h : x ≠ carriageReturn) (xs : List UInt8) :
    kept (x :: xs) = x :: kept xs := List.filter_cons_of_pos (by simpa using h)

/-- A byte that neither ends the line nor overflows it. -/
theorem push_byte {b : LineBuffer} {x : UInt8} (hb : b.discarding = false) (hx : x ≠ newline)
    (hlen : b.buf.length + (kept [x]).length ≤ maxLineLen) :
    (b.push x).1.discarding = false ∧ (b.push x).1.buf = b.buf ++ kept [x] ∧ (b.push x).2 = none := by
  unfold push
  rw [hb, if_neg Bool.false_ne_true, if_neg hx]
  by_cases hcr : x = carriageReturn
  · rw [if_pos hcr, hcr]
    exact ⟨hb, (List.append_nil _).symm, rfl⟩
  · rw [kept_cons hcr] at hlen ⊢
    have hlt : b.buf.length < maxLineLen := hlen
    rw [if_neg hcr, dif_pos hlt]
    exact ⟨rfl, rfl, rfl⟩

/-- Bytes that neither end the line nor overflow it. -/
theorem feed_bytes (tag : α) (xs : List UInt8) : ∀ b : LineBuffer, b.discarding = false →
    newline ∉ xs → b.buf.length + (kept xs).length ≤ maxLineLen →
    (b.feed (xs.map fun x => (tag, x))).1.discarding = false ∧
      (b.feed (xs.map fun x => (tag, x))).1.buf = b.buf ++ kept xs ∧
      (b.feed (xs.map fun x => (tag, x))).2 = [] := by
  induction xs with
  | nil => exact fun b hb _ _ => ⟨hb, (List.append_nil _).symm, rfl⟩
  | cons x xs ih =>
      intro b hb hx hlen
      have hsplit : kept (x :: xs) = kept [x] ++ kept xs := List.filter_append [x] xs
      rw [hsplit, List.length_append, ← Nat.add_assoc] at hlen
      have hne : x ≠ newline := fun h => hx (h ▸ List.mem_cons_self)
      obtain ⟨hd, hbuf, hev⟩ := push_byte hb hne (Nat.le_of_add_right_le hlen)
      obtain ⟨hd', hbuf', hev'⟩ := ih (b.push x).1 hd (fun h => hx (List.mem_cons_of_mem x h))
        (by rw [hbuf, List.length_append]; exact hlen)
      refine ⟨hd', ?_, ?_⟩
      · rw [hsplit, ← List.append_assoc, ← hbuf]
        exact hbuf'
      · simp only [List.map_cons, feed, hev, hev', Option.toList_none, List.map_nil, List.nil_append]

/-- A line that fits, from the start of a line. -/
theorem feed_line (tag : α) {xs : List UInt8} (hx : newline ∉ xs)
    (hlen : (kept xs).length ≤ maxLineLen) :
    new.feed ((xs ++ [newline]).map fun x => (tag, x)) = (new, [(tag, .line (kept xs))]) := by
  have hnil : new.buf = [] := rfl
  obtain ⟨hd, hbuf, hev⟩ := feed_bytes tag xs new rfl hx
    (by rw [hnil, List.length_nil, Nat.zero_add]; exact hlen)
  rw [hnil, List.nil_append] at hbuf
  have hpush : (new.feed (xs.map fun x => (tag, x))).1.push newline =
      (new, some (.line (kept xs))) := by
    rw [push, hd, if_neg Bool.false_ne_true, if_pos rfl, hbuf]
  rw [List.map_append, feed_append, hev, List.map_singleton, feed, hpush]
  rfl

end LineBuffer

/-! ### Ports -/

inductive Port where
  | usb
  | tcp
  deriving DecidableEq

abbrev packetLen : ℕ := 64

/-- The capacity of `USB_RX` and of `USB_TX`. -/
abbrev queueDepth : ℕ := 8

/-- The bytes of a reply or an event. -/
abbrev Record := List UInt8

/-- Where the TCP serve loop stands. -/
inductive Serve where
  /-- In `accept`. -/
  | accepting
  /-- In `socket.read`. -/
  | reading
  /-- In `USB_RX.send`, with a packet. -/
  | sending (packet : List UInt8)
  /-- At `USB_TX.try_receive`. -/
  | draining
  deriving DecidableEq

/-- The ports and what they share. -/
structure Ports where
  /-- The bytes of the client that the socket holds. -/
  inbound : List UInt8
  serve : Serve
  /-- The packet with which the USB receive loop waits in `USB_RX.send`. -/
  usbHeld : Option (List UInt8)
  rx : List (Port × List UInt8)
  /-- The packet the runtime task has taken, as far as it is not yet fed. -/
  work : List (Port × UInt8)
  lines : LineBuffer
  /-- The records queued, each with the port its request came in by. -/
  tx : List (Option Port × Record)
  /-- What happened: the bytes in the order of `USB_RX`, what they completed, the records queued,
  and those taken, each by the port whose writer took it. -/
  entered : List (Port × UInt8)
  dispatched : List (Port × LineEvent)
  queued : List (Option Port × Record)
  taken : List (Port × (Option Port × Record))

namespace Ports

def init : Ports where
  inbound := []
  serve := .accepting
  usbHeld := none
  rx := []
  work := []
  lines := .new
  tx := []
  entered := []
  dispatched := []
  queued := []
  taken := []

/-- What one of the tasks, or a host, does. -/
inductive Act where
  /-- `rx.read_packet` returns. -/
  | usbRead (packet : List UInt8)
  /-- `USB_RX.send` returns to the USB receive loop. -/
  | usbSend
  /-- The USB transmit loop takes a record; with no connection it is lost. -/
  | usbWrite
  /-- Bytes of the client arrive at the socket. -/
  | arrive (bytes : List UInt8)
  | accept
  /-- `socket.read` returns what has arrived, up to a buffer. -/
  | read
  /-- `socket.read` returns none, or fails. -/
  | close
  /-- `USB_RX.send` returns to the serve loop. -/
  | send
  /-- The serve loop takes a record, if there is one, and writes it; whether that succeeds. -/
  | drain (ok : Bool)
  /-- The runtime task takes a packet. -/
  | take
  /-- The runtime task feeds the next byte, and replies at once with these records to what it
  completes. -/
  | feed (replies : List Record)
  /-- The runtime task queues these records later, or of itself. -/
  | emit (origin : Option Port) (records : List Record)

/-- `USB_TX.try_send`: a record that finds no room is dropped. -/
def put (s : Ports) (r : Option Port × Record) : Ports :=
  if s.tx.length < queueDepth then { s with tx := s.tx ++ [r], queued := s.queued ++ [r] } else s

def putAll (s : Ports) (rs : List (Option Port × Record)) : Ports := rs.foldl put s

/-- A packet enters `USB_RX`. -/
def enter (s : Ports) (port : Port) (packet : List UInt8) : Ports :=
  { s with
    rx := s.rx ++ [(port, packet)]
    entered := s.entered ++ packet.map fun b => (port, b) }

/-- Take the first record and write it. -/
def write (s : Ports) (port : Port) : Ports :=
  match s.tx with
  | [] => s
  | r :: tx => { s with tx := tx, taken := s.taken ++ [(port, r)] }

def step (s : Ports) : Act → Ports
  | .usbRead packet =>
    if s.usbHeld.isNone && decide (packet.length ≤ packetLen) then { s with usbHeld := some packet }
    else s
  | .usbSend =>
    match s.usbHeld with
    | some packet =>
      if s.rx.length < queueDepth then { s.enter .usb packet with usbHeld := none } else s
    | none => s
  | .usbWrite => s.write .usb
  | .arrive bytes => if s.serve = .accepting then s else { s with inbound := s.inbound ++ bytes }
  | .accept => if s.serve = .accepting then { s with serve := .reading } else s
  | .read =>
    if s.serve = .reading ∧ s.inbound ≠ [] then
      { s with serve := .sending (s.inbound.take packetLen), inbound := s.inbound.drop packetLen }
    else s
  | .close => if s.serve = .reading then { s with serve := .accepting, inbound := [] } else s
  | .send =>
    match s.serve with
    | .sending packet =>
      if s.rx.length < queueDepth then { s.enter .tcp packet with serve := .draining } else s
    | _ => s
  | .drain ok =>
    if s.serve = .draining then
      if ok || s.tx.isEmpty then { s.write .tcp with serve := .reading }
      else { s.write .tcp with serve := .accepting, inbound := [] }
    else s
  | .take =>
    match s.work, s.rx with
    | [], (port, packet) :: rx => { s with rx := rx, work := packet.map fun b => (port, b) }
    | _, _ => s
  | .feed replies =>
    match s.work with
    | [] => s
    | (port, byte) :: work =>
      let r := s.lines.push byte
      let s := { s with work := work, lines := r.1 }
      match r.2 with
      | some ev =>
        { s with dispatched := s.dispatched ++ [(port, ev)] }.putAll (replies.map fun r => (some port, r))
      | none => s
  | .emit origin records => s.putAll (records.map fun r => (origin, r))

/-- Records fill the room there is. -/
theorem putAll_eq (rs : List (Option Port × Record)) : ∀ s : Ports, s.putAll rs =
    { s with
      tx := s.tx ++ rs.take (queueDepth - s.tx.length)
      queued := s.queued ++ rs.take (queueDepth - s.tx.length) } := by
  induction rs with
  | nil =>
      intro s
      rw [List.take_nil, List.append_nil, List.append_nil]
      rfl
  | cons r rs ih =>
      intro s
      have hcons : s.putAll (r :: rs) = (s.put r).putAll rs := rfl
      rw [hcons, ih, put]
      by_cases hroom : s.tx.length < queueDepth
      · obtain ⟨k, hk⟩ := Nat.exists_eq_add_of_lt hroom
        have hk : queueDepth - s.tx.length = k + 1 := by omega
        have hk' : queueDepth - (s.tx ++ [r]).length = k := by
          rw [List.length_append, List.length_singleton]
          omega
        rw [if_pos hroom, hk]
        dsimp only
        rw [hk', List.take_succ_cons, List.append_assoc, List.append_assoc]
        rfl
      · have hk : queueDepth - s.tx.length = 0 := by omega
        rw [if_neg hroom, hk, List.take_zero, List.take_zero]

/-! ### What is shared -/

/-- The bytes of the packets that wait in `USB_RX`. -/
def waiting (s : Ports) : List (Port × UInt8) := s.rx.flatMap fun p => p.2.map fun b => (p.1, b)

/-- Every byte that entered was fed, or is yet to be, in one order; every record that was queued
was taken, or waits. -/
structure Accounted (s : Ports) : Prop where
  bytes : ∃ fed, s.entered = fed ++ (s.work ++ s.waiting) ∧ LineBuffer.new.feed fed = (s.lines, s.dispatched)
  records : s.taken.map Prod.snd ++ s.tx = s.queued

theorem accounted_put {s : Ports} (h : s.Accounted) (rs : List (Option Port × Record)) :
    (s.putAll rs).Accounted := by
  rw [putAll_eq]
  refine ⟨h.bytes, ?_⟩
  rw [← h.records, List.append_assoc]

theorem accounted_write {s : Ports} (h : s.Accounted) (port : Port) : (s.write port).Accounted := by
  unfold write
  split
  · exact h
  · rename_i r tx htx
    refine ⟨h.bytes, ?_⟩
    have hrec := h.records
    rw [htx] at hrec
    rw [List.map_append, List.append_assoc]
    exact hrec

theorem accounted_enter {s : Ports} (h : s.Accounted) (port : Port) (packet : List UInt8) :
    (s.enter port packet).Accounted := by
  obtain ⟨fed, hentered, hfed⟩ := h.bytes
  refine ⟨⟨fed, ?_, hfed⟩, h.records⟩
  simp only [enter, waiting, hentered, List.flatMap_append, List.flatMap_singleton, List.append_assoc]

theorem accounted_ite {p : Prop} [Decidable p] {s s' : Ports} (h' : s'.Accounted) (h : s.Accounted) :
    (if p then s' else s).Accounted := by
  split
  · exact h'
  · exact h

theorem accounted_step {s : Ports} (h : s.Accounted) (a : Act) : (s.step a).Accounted := by
  have he := accounted_enter h
  cases a with
  | usbRead packet => exact accounted_ite ⟨h.bytes, h.records⟩ h
  | usbSend =>
      unfold step
      dsimp only
      split
      · rename_i packet _
        have hp := he .usb packet
        exact accounted_ite ⟨hp.bytes, hp.records⟩ h
      · exact h
  | usbWrite => exact accounted_write h .usb
  | arrive bytes => exact accounted_ite h ⟨h.bytes, h.records⟩
  | accept => exact accounted_ite ⟨h.bytes, h.records⟩ h
  | read => exact accounted_ite ⟨h.bytes, h.records⟩ h
  | close => exact accounted_ite ⟨h.bytes, h.records⟩ h
  | send =>
      unfold step
      dsimp only
      split
      · rename_i packet _
        have hp := he .tcp packet
        exact accounted_ite ⟨hp.bytes, hp.records⟩ h
      · exact h
  | drain ok =>
      have hw := accounted_write h .tcp
      exact accounted_ite (accounted_ite ⟨hw.bytes, hw.records⟩ ⟨hw.bytes, hw.records⟩) h
  | take =>
      unfold step
      dsimp only
      split
      · rename_i hwork hrx
        obtain ⟨fed, hentered, hfed⟩ := h.bytes
        refine ⟨⟨fed, ?_, hfed⟩, h.records⟩
        rw [hentered, hwork, List.nil_append, waiting, hrx, List.flatMap_cons]
        rfl
      · exact h
  | feed replies =>
      unfold step
      dsimp only
      split
      · exact h
      · rename_i port byte work hwork
        obtain ⟨fed, hentered, hfed⟩ := h.bytes
        have hnext : s.entered = (fed ++ [(port, byte)]) ++ (work ++ s.waiting) := by
          rw [hentered, hwork, List.append_assoc]
          rfl
        have hfed' : LineBuffer.new.feed (fed ++ [(port, byte)]) = ((s.lines.push byte).1,
            s.dispatched ++ (s.lines.push byte).2.toList.map fun ev => (port, ev)) := by
          rw [LineBuffer.feed_append, hfed]
          simp only [LineBuffer.feed, List.append_nil]
        split
        · rename_i ev hev
          rw [hev] at hfed'
          have hs : Accounted { s with
              work := work, lines := (s.lines.push byte).1
              dispatched := s.dispatched ++ [(port, ev)] } := ⟨⟨_, hnext, hfed'⟩, h.records⟩
          exact accounted_put hs _
        · rename_i hev
          rw [hev, Option.toList_none, List.map_nil, List.append_nil] at hfed'
          exact ⟨⟨_, hnext, hfed'⟩, h.records⟩
  | emit origin records => exact accounted_put h _

theorem accounted_init : init.Accounted := ⟨⟨[], rfl, rfl⟩, rfl⟩

end Ports

/-- **What the ports share.**  Whatever the interleaving of the packets, the lines dispatched are
those of the one sequence of bytes that entered `USB_RX`.  A line whose bytes enter back to back,
with no other line begun before it, is dispatched as it was sent, but for carriage returns.  Every
record queued is taken once, and in order, by whichever writer comes first. -/
theorem ports_share (acts : List Ports.Act) :
    let s := run Ports.step .init acts
    (∃ fed, s.entered = fed ++ (s.work ++ s.waiting) ∧ s.dispatched = (LineBuffer.new.feed fed).2 ∧
      ∀ pre line post port,
        fed = pre ++ ((line ++ [newline]).map fun b => (port, b)) ++ post →
        (∀ p ∈ pre.getLast?, p.2 = newline) → newline ∉ line →
        (LineBuffer.kept line).length ≤ maxLineLen →
        s.dispatched = (LineBuffer.new.feed pre).2 ++
          (port, .line (LineBuffer.kept line)) :: (LineBuffer.new.feed post).2) ∧
      s.taken.map Prod.snd ++ s.tx = s.queued := by
  intro s
  have h : s.Accounted := run_invariant_of_all (I := Ports.Accounted)
    (fun _ a h => Ports.accounted_step h a) acts Ports.accounted_init
  obtain ⟨fed, hentered, hfed⟩ := h.bytes
  have hd : s.dispatched = (LineBuffer.new.feed fed).2 := by rw [hfed]
  refine ⟨⟨fed, hentered, hd, ?_⟩, h.records⟩
  rintro pre line post port rfl hpre hline hlen
  -- the bytes before have ended with a newline, so the line starts from nothing
  have hstart : (LineBuffer.new.feed pre).1 = .new := by
    rcases List.eq_nil_or_concat pre with rfl | ⟨init, ⟨tag, b⟩, rfl⟩
    · rfl
    · rw [List.concat_eq_append, List.getLast?_concat] at hpre
      obtain rfl : b = newline := hpre _ rfl
      rw [List.concat_eq_append]
      exact LineBuffer.feed_newline ..
  rw [hd, LineBuffer.feed_append, LineBuffer.feed_append, hstart, LineBuffer.feed_line port hline hlen,
    List.append_assoc]
  rfl

/-- The start of a line from USB, then a whole line from TCP, then the reply: one line is
dispatched, and the reply leaves by USB. -/
theorem ports_mix :
    let s := run Ports.step .init
      [.usbRead [97], .usbSend, .accept, .arrive [98, newline], .read, .send, .take, .feed [], .take,
        .feed [], .feed [[99]], .usbWrite]
    s.entered = [(.usb, 97), (.tcp, 98), (.tcp, newline)] ∧
      s.dispatched = [(.tcp, .line [97, 98])] ∧ s.taken = [(.usb, (some .tcp, [99]))] := by
  decide

/-! ### Records that wait -/

namespace Ports

/-- No input is left that nobody has fed to the runtime. -/
def Still (s : Ports) : Prop := s.inbound = [] ∧ s.usbHeld = none ∧ s.rx = [] ∧ s.work = []

instance (s : Ports) : Decidable s.Still := by unfold Still; infer_instance

/-- The serve loop is blocked in its read with no input left, and a record waits. -/
def Stranded (s : Ports) : Prop := s.serve = .reading ∧ s.Still ∧ s.tx ≠ []

instance (s : Ports) : Decidable s.Stranded := by unfold Stranded; infer_instance

/-- The record leaves in time: the serve loop does not go into its read, from `accept` or from a
drain, past a record that waits when no input is left; and no record comes up, and no last packet
turns out empty, while it is blocked there with no other input left. -/
def Timely (s : Ports) : Act → Prop
  | .accept => ¬ (s.serve = .accepting ∧ s.Still ∧ s.tx ≠ [])
  | .drain ok => ¬ (s.serve = .draining ∧ s.Still ∧ ok = true ∧ 2 ≤ s.tx.length)
  | .take =>
    ¬ (s.serve = .reading ∧ Still { s with rx := s.rx.tail } ∧ s.rx.map Prod.snd = [[]] ∧ s.tx ≠ [])
  | .feed replies =>
    ¬ (s.serve = .reading ∧ Still { s with work := s.work.tail } ∧
      ∃ p ∈ s.work.head?, s.tx ≠ [] ∨ replies ≠ [] ∧ (s.lines.push p.2).2.isSome)
  | .emit _ records => ¬ (s.serve = .reading ∧ s.Still ∧ records ≠ [])
  | _ => True

theorem putAll_still (s : Ports) (rs : List (Option Port × Record)) :
    (s.putAll rs).serve = s.serve ∧ ((s.putAll rs).Still ↔ s.Still) ∧
      ((s.putAll rs).tx ≠ [] ↔ s.tx ≠ [] ∨ rs ≠ []) := by
  rw [putAll_eq]
  refine ⟨rfl, Iff.rfl, ?_⟩
  dsimp only
  cases htx : s.tx with
  | nil =>
      cases rs with
      | nil => simp
      | cons r rs => simp [queueDepth]
  | cons r tx => simp

/-- A record taken strands none. -/
theorem write_stranded {s : Ports} {port : Port} (h : (s.write port).Stranded) : s.Stranded := by
  unfold write at h
  split at h
  · exact h
  · rename_i r tx htx
    refine ⟨h.1, h.2.1, ?_⟩
    rw [htx]
    exact List.cons_ne_nil r tx

theorem not_stranded_ite {p : Prop} [Decidable p] {s s' : Ports} (h' : ¬ s'.Stranded)
    (h : ¬ s.Stranded) : ¬ (if p then s' else s).Stranded := by
  split
  · exact h'
  · exact h

/-- What enters `USB_RX` is yet to be fed. -/
theorem enter_rx (s : Ports) (port : Port) (packet : List UInt8) : (s.enter port packet).rx ≠ [] :=
  List.append_ne_nil_of_right_ne_nil _ (List.cons_ne_nil _ _)

/-- One step, from where no record is stranded. -/
theorem stranded_step {s : Ports} (h : ¬ s.Stranded) (a : Act) : ¬ (s.step a).Stranded ↔ s.Timely a := by
  cases a with
  | usbRead packet => exact iff_of_true (not_stranded_ite (fun hs => nomatch hs.2.1.2.1) h) trivial
  | usbSend =>
      refine iff_of_true ?_ trivial
      unfold step
      dsimp only
      split
      · exact not_stranded_ite (fun hs => enter_rx s .usb _ hs.2.1.2.2.1) h
      · exact h
  | usbWrite => exact iff_of_true (fun hs => h (write_stranded hs)) trivial
  | arrive bytes =>
      refine iff_of_true (not_stranded_ite h fun hs => h ?_) trivial
      obtain ⟨hserve, ⟨hin, hrest⟩, htx⟩ := hs
      exact ⟨hserve, ⟨(List.append_eq_nil_iff.mp hin).1, hrest⟩, htx⟩
  | accept =>
      unfold step Timely
      dsimp only
      split
      · rename_i hserve
        refine not_congr ⟨fun hs => ⟨hserve, hs.2⟩, fun hs => ⟨rfl, hs.2⟩⟩
      · rename_i hserve
        exact iff_of_true h fun hs => hserve hs.1
  | read => exact iff_of_true (not_stranded_ite (fun hs => nomatch hs.1) h) trivial
  | close => exact iff_of_true (not_stranded_ite (fun hs => nomatch hs.1) h) trivial
  | send =>
      refine iff_of_true ?_ trivial
      unfold step
      dsimp only
      split
      · exact not_stranded_ite (fun hs => nomatch hs.1) h
      · exact h
  | drain ok =>
      unfold step Timely
      dsimp only
      split
      · rename_i hserve
        unfold write
        cases htx : s.tx with
        | nil =>
            refine iff_of_true (not_stranded_ite (fun hs => hs.2.2 htx) fun hs => nomatch hs.1) ?_
            rintro ⟨-, -, -, hlen⟩
            cases hlen
        | cons r tx =>
            cases ok with
            | false => exact iff_of_true (fun hs => nomatch hs.1) fun hs => nomatch hs.2.2.1
            | true =>
                refine not_congr ⟨fun hs => ⟨hserve, hs.2.1, rfl, ?_⟩, fun hs => ⟨rfl, hs.2.1, ?_⟩⟩
                · exact Nat.succ_le_succ (List.length_pos_iff.mpr hs.2.2)
                · exact List.length_pos_iff.mp (Nat.le_of_succ_le_succ hs.2.2.2)
      · rename_i hserve
        exact iff_of_true h fun hs => hserve hs.1
  | take =>
      unfold step Timely
      dsimp only
      split
      · rename_i port packet rx hwork hrx
        rw [hrx]
        refine not_congr ⟨?_, ?_⟩
        · rintro ⟨hserve, ⟨hin, hheld, hrx', hpacket⟩, htx⟩
          have hnil : packet = [] := List.map_eq_nil_iff.mp hpacket
          have hnil' : rx = [] := hrx'
          rw [hnil, hnil']
          exact ⟨hserve, ⟨hin, hheld, rfl, hwork⟩, rfl, htx⟩
        · rintro ⟨hserve, ⟨hin, hheld, hrx', -⟩, hpacket, htx⟩
          have hnil : packet = [] := (List.cons.inj hpacket).1
          rw [hnil]
          exact ⟨hserve, ⟨hin, hheld, hrx', rfl⟩, htx⟩
      · rename_i hno
        refine iff_of_true h ?_
        rintro ⟨-, ⟨-, -, -, hwork⟩, hpacket, -⟩
        cases hrx : s.rx with
        | nil =>
            rw [hrx] at hpacket
            cases hpacket
        | cons p rx => exact hno p.1 p.2 rx hwork hrx
  | feed replies =>
      unfold step Timely
      dsimp only
      split
      · rename_i hwork
        refine iff_of_true h ?_
        rintro ⟨-, -, p, hp, -⟩
        rw [hwork] at hp
        cases hp
      · rename_i port byte work hwork
        rw [hwork]
        split
        · rename_i ev hev
          obtain ⟨hserve, hstill, htx⟩ := putAll_still
            { s with
              work := work, lines := (s.lines.push byte).1
              dispatched := s.dispatched ++ [(port, ev)] } (replies.map fun r => (some port, r))
          refine not_congr ⟨fun hs => ?_, fun hs => ?_⟩
          · refine ⟨hserve.symm.trans hs.1, hstill.mp hs.2.1, (port, byte), rfl, ?_⟩
            rcases htx.mp hs.2.2 with htx | hrep
            · exact .inl htx
            · exact .inr ⟨fun hnil => hrep (hnil ▸ rfl), hev ▸ rfl⟩
          · obtain ⟨hreading, hst, p, -, hrec⟩ := hs
            refine ⟨hserve.trans hreading, hstill.mpr hst, htx.mpr ?_⟩
            rcases hrec with htx | ⟨hrep, -⟩
            · exact .inl htx
            · exact .inr fun hnil => hrep (List.map_eq_nil_iff.mp hnil)
        · rename_i hev
          refine not_congr ⟨fun hs => ⟨hs.1, hs.2.1, (port, byte), rfl, .inl hs.2.2⟩, fun hs => ?_⟩
          obtain ⟨hreading, hst, p, hp, hrec⟩ := hs
          obtain rfl : (port, byte) = p := Option.some.inj hp
          rcases hrec with htx | ⟨-, hsome⟩
          · exact ⟨hreading, hst, htx⟩
          · rw [hev] at hsome
            cases hsome
  | emit origin records =>
      obtain ⟨hserve, hstill, htx⟩ := s.putAll_still (records.map fun r => (origin, r))
      refine not_congr ⟨fun hs => ?_, fun hs => ?_⟩
      · have hst := hstill.mp hs.2.1
        refine ⟨hserve ▸ hs.1, hst, fun hnil => h ⟨hserve ▸ hs.1, hst, ?_⟩⟩
        rcases htx.mp hs.2.2 with htx | hrec
        · exact htx
        · exact absurd (hnil ▸ rfl) hrec
      · exact ⟨hserve.trans hs.1, hstill.mpr hs.2.1, htx.mpr (.inr fun hnil =>
          hs.2.2 (List.map_eq_nil_iff.mp hnil))⟩

end Ports

/-- **When a record waits for input.**  In every state of a run no record is stranded exactly when
every step of the run is timely. -/
theorem serve_timely (acts : List Ports.Act) :
    (∀ s ∈ visited Ports.step .init acts, ¬ s.Stranded) ↔
      Along Ports.step Ports.Timely .init acts := by
  have key : ∀ (acts : List Ports.Act) (s : Ports), ¬ s.Stranded →
      ((∀ s' ∈ visited Ports.step s acts, ¬ s'.Stranded) ↔ Along Ports.step Ports.Timely s acts) := by
    intro acts
    induction acts with
    | nil =>
        intro s hs
        refine iff_of_true (fun s' hs' => ?_) trivial
        obtain rfl := List.mem_singleton.mp hs'
        exact hs
    | cons a acts ih =>
        intro s hs
        have hstep := Ports.stranded_step hs a
        constructor
        · intro hall
          have hnext : ¬ (s.step a).Stranded := hall _ (List.mem_cons_of_mem s (first_mem_visited acts _))
          exact ⟨hstep.mp hnext, (ih _ hnext).mp fun s' hs' => hall s' (List.mem_cons_of_mem s hs')⟩
        · rintro ⟨ha, hrest⟩ s' hs'
          rcases List.mem_cons.mp hs' with rfl | hs'
          · exact hs
          · exact (ih _ (hstep.mpr ha)).mpr hrest s' hs'
  exact key acts .init fun hs => nomatch hs.1

/-- A client sends one line and waits: the serve loop looks for a reply before the runtime task has
fed the line, and blocks in its read; the reply then waits. -/
theorem serve_strands :
    let s := run Ports.step .init
      [.accept, .arrive [98, newline], .read, .send, .drain true, .take, .feed [], .feed [[99]]]
    s.serve = .reading ∧ s.Still ∧ s.tx = [(some .tcp, [99])] ∧ s.taken = [] := by
  decide

end LoraMesh
