import LoraMesh.Firmware.Ports
import LoraMesh.Lib.Pieces

/-!
# Firmware — Assembly

The lines that `LineBuffer` makes of a stream of bytes (`firmware/src/usb.rs`), against a splitter
that sees the whole stream.

* `reference`: the newline-terminated pieces, each without its carriage returns.
* `line_assembly`: the buffer, fed byte by byte, completes just these.
-/

namespace LoraMesh

namespace LineBuffer

/-- The bytes of a stream, fed one by one. -/
def assemble (stream : List UInt8) : LineBuffer × List (Unit × LineEvent) :=
  new.feed (stream.map fun byte => ((), byte))

/-- What a newline-terminated piece should complete. -/
def eventOf (piece : List UInt8) : LineEvent :=
  if (kept piece).length ≤ maxLineLen then .line (kept piece) else .tooLong

/-- The reference splitter. -/
def reference (stream : List UInt8) : List LineEvent := (terminated newline stream).map eventOf

section

variable {α : Type}

theorem push_discarding {b : LineBuffer} {x : UInt8} (hb : b.discarding = true) (hx : x ≠ newline) :
    b.push x = (b, none) := by
  rw [push, hb, if_pos rfl, if_neg hx]

/-- Bytes of a line of which the buffer discards the rest, or which do not fit. -/
theorem feed_over (tag : α) (xs : List UInt8) : ∀ b : LineBuffer, newline ∉ xs →
    (b.discarding = true ∨ maxLineLen < b.buf.length + (kept xs).length) →
    (b.feed (xs.map fun x => (tag, x))).1.discarding = true ∧
      (b.feed (xs.map fun x => (tag, x))).2 = [] := by
  induction xs with
  | nil =>
      intro b _ hover
      rcases hover with hb | hover
      · exact ⟨hb, rfl⟩
      · exact absurd b.fits (Nat.not_le.mpr hover)
  | cons x xs ih =>
      intro b hx hover
      have hne : x ≠ newline := fun h => hx (h ▸ List.mem_cons_self)
      have hxs : newline ∉ xs := fun h => hx (List.mem_cons_of_mem x h)
      suffices hstep : (b.push x).2 = none ∧ ((b.push x).1.discarding = true ∨
          maxLineLen < (b.push x).1.buf.length + (kept xs).length) by
        obtain ⟨hev, hover⟩ := hstep
        obtain ⟨hd, hevs⟩ := ih (b.push x).1 hxs hover
        refine ⟨hd, ?_⟩
        simp only [List.map_cons, feed, hev, hevs, Option.toList_none, List.map_nil, List.nil_append]
      cases hb : b.discarding with
      | true =>
          rw [push_discarding hb hne]
          exact ⟨rfl, .inl hb⟩
      | false =>
          have hlong := hover.resolve_left (by rw [hb]; exact Bool.false_ne_true)
          have hsplit : kept (x :: xs) = kept [x] ++ kept xs := List.filter_append [x] xs
          rw [hsplit, List.length_append] at hlong
          by_cases hfit : b.buf.length + (kept [x]).length ≤ maxLineLen
          · obtain ⟨-, hbuf, hev⟩ := push_byte hb hne hfit
            refine ⟨hev, .inr ?_⟩
            rw [hbuf, List.length_append]
            omega
          · -- the byte that does not fit starts the discarding
            have hcr : x ≠ carriageReturn := by
              rintro rfl
              exact hfit b.fits
            have hfull : ¬ b.buf.length < maxLineLen := by
              rw [kept_cons hcr] at hfit
              exact fun h => hfit h
            rw [push, hb, if_neg Bool.false_ne_true, if_neg hne, if_neg hcr, dif_neg hfull]
            exact ⟨rfl, .inl rfl⟩

/-- A line, from the start of a line. -/
theorem feed_piece (tag : α) {xs : List UInt8} (hx : newline ∉ xs) :
    new.feed ((xs ++ [newline]).map fun x => (tag, x)) = (new, [(tag, eventOf xs)]) := by
  unfold eventOf
  by_cases hlen : (kept xs).length ≤ maxLineLen
  · rw [if_pos hlen]
    exact feed_line tag hx hlen
  · rw [if_neg hlen]
    have hnil : new.buf.length + (kept xs).length = (kept xs).length := Nat.zero_add _
    obtain ⟨hd, hev⟩ := feed_over tag xs new hx (.inr (by rw [hnil]; exact Nat.not_le.mp hlen))
    have hpush : (new.feed (xs.map fun x => (tag, x))).1.push newline = (new, some .tooLong) := by
      rw [push, hd, if_pos rfl, if_pos rfl]
    rw [List.map_append, feed_append, hev, List.map_singleton, feed, hpush]
    rfl

end

/-- The rest of a stream is assembled as if the first line had not been. -/
theorem assemble_append {p : List UInt8} (hp : newline ∉ p) (rest : List UInt8) :
    assemble (p ++ newline :: rest) = ((assemble rest).1, ((), eventOf p) :: (assemble rest).2) := by
  have hsplit : p ++ newline :: rest = (p ++ [newline]) ++ rest := by
    rw [List.append_assoc, List.singleton_append]
  rw [assemble, hsplit, List.map_append, feed_append, feed_piece () hp]
  rfl

/-- What is left of a stream after its last newline completes nothing. -/
theorem assemble_tail {p : List UInt8} (hp : newline ∉ p) : (assemble p).2 = [] := by
  by_cases hlen : (kept p).length ≤ maxLineLen
  · exact (feed_bytes () p new rfl hp (by rw [show new.buf.length = 0 from rfl, Nat.zero_add]; exact hlen)).2.2
  · refine (feed_over () p new hp (.inr ?_)).2
    rw [show new.buf.length = 0 from rfl, Nat.zero_add]
    exact Nat.not_le.mp hlen

end LineBuffer

/-- **Line assembly.**  The events of every stream are those of the reference splitter, and however
much of the stream was fed, the line assembled so far is within the buffer. -/
theorem line_assembly (stream : List UInt8) :
    (LineBuffer.assemble stream).2.map Prod.snd = LineBuffer.reference stream ∧
      ∀ n, (LineBuffer.assemble (stream.take n)).1.buf.length ≤ maxLineLen := by
  refine ⟨?_, fun n => (LineBuffer.assemble (stream.take n)).1.fits⟩
  induction stream using pieces_induction (d := newline) with
  | tail p hp =>
      rw [LineBuffer.assemble_tail hp, LineBuffer.reference, terminated_of_not_mem hp]
      rfl
  | piece p rest hp ih =>
      rw [LineBuffer.assemble_append hp, LineBuffer.reference, terminated_append hp]
      exact congrArg (LineBuffer.eventOf p :: ·) ih

end LoraMesh
