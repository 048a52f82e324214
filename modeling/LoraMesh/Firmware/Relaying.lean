import LoraMesh.Firmware.Frames

/-!
# Firmware — Relaying

Everything but the relaying itself leaves the relaying as it was.  A statement about the relay
cache, the forward that waits and the log is kept by every program of the runtime, once the programs
of the relaying keep it.

* `RelayFrame`, `RelayQuiet`, `RelayInvariant`: what such a statement must satisfy.
* `RelayInvariant.holds`: then it holds in every run.
-/

namespace LoraMesh

open Std.Do

set_option mvcgen.warning false

/-- What the relaying looks at. -/
def World.relayView (w : World) := (w.engine, w.now, w.forward, w.log)

/-- The happenings that the relaying takes note of. -/
def Happening.relays : Happening → Bool
  | .engine _ _ _ => true
  | .queued _ use _ => use.relays
  | .failClosed _ _ => true
  | .cleared _ => true
  | _ => false

/-- A statement about the relaying that the moves of the other programs keep: `I` on the way, `S`
where the runtime stands at an `await`. -/
structure RelayFrame (C : Crypto) (I S : World → Prop) : Prop where
  stands : ∀ w, I w → S w
  view : ∀ {w w'}, I w → w'.relayView = w.relayView → I w'
  record : ∀ {w x}, I w → x.relays = false → I (w.record x)
  tick : ∀ {w} ticks, I w → I { w with now := w.now + ticks }
  call : ∀ {w op}, I w → op.relays = false → I (w.called C op)

/-- And that `fail_radio_closed` keeps. -/
structure RelayQuiet (C : Crypto) (I S : World → Prop) : Prop extends RelayFrame C I S where
  stood : ∀ {w}, S w → S { w with suspended := true }
  close : Keeps I S (failRadioClosed C)

/-- And that the programs of the relaying keep. -/
structure RelayInvariant (C : Crypto) (I S : World → Prop) : Prop extends RelayQuiet C I S where
  forwardDone : ∀ id, Keeps I S (forwardDone id)
  receive : ∀ frame, Keeps I S (onRx C frame)
  forward : Keeps I S pollForward
  clear : ∀ enabled, Keeps I S (clearInFlight enabled)

section

variable {C : Crypto} {I S : World → Prop}

theorem RelayFrame.live (h : RelayFrame C I S) : LiveFrame C I S where
  stands := h.stands
  view hw hv := by
    simp only [World.liveView, Prod.mk.injEq] at hv
    obtain ⟨he, hn, -, -, hf, -, hl⟩ := hv
    refine h.view hw ?_
    simp only [World.relayView, he, hn, hf, hl]
  record := by
    intro w x hw hx
    refine h.record hw ?_
    cases x with
    | queued cmd use valid =>
        cases use with
        | ack => cases hx
        | forward => cases hx
        | _ => rfl
    | _ => first | rfl | cases hx
  tick := h.tick
  radio _ hw := h.view hw rfl
  call := h.call

theorem RelayFrame.replies (h : RelayFrame C I S) (r : Reply) (ends : Option Flight) :
    Keeps I S (reply r ends) :=
  triple_iff.mpr fun _ hw => h.record hw rfl

theorem RelayQuiet.live (h : RelayQuiet C I S) : LiveQuiet C I S where
  toLiveFrame := h.toRelayFrame.live
  stood := h.stood
  close := h.close

theorem RelayQuiet.quiet (h : RelayQuiet C I S) : QuietKeep C I S where
  toIdleKeep := h.live.idle
  sends _ hw := h.view hw rfl
  taken _ hw := h.record hw rfl
  ends r _ := h.replies r (some .send)
  data cmd _ := by
    unfold trySend
    mvcgen
    · rename_i w hw _
      have hrec : I (w.record (.queued cmd .data (w.cmdValid cmd))) := h.record hw rfl
      exact h.view hrec rfl
    · rename_i w hw _
      exact h.record hw rfl
  pings _ hw := h.view hw rfl
  counted _ hw := h.view hw rfl
  begun _ hw := h.record hw rfl
  probed _ hw := h.record hw rfl
  ended r _ := h.replies r (some .ping)

theorem RelayInvariant.live (h : RelayInvariant C I S) : LiveInvariant C I S where
  toLiveQuiet := h.toRelayQuiet.live
  ends := h.quiet.send.ends
  prep := h.quiet.send.prep
  retry := h.quiet.send.retry
  pingPrep := drivePingPrep_ends h.quiet.toPingKeep
  cadDone := h.quiet.send.cadDone
  txDone := onTxDone_keeps h.quiet.toSendsKeep h.forwardDone
  receive := h.receive
  forward := h.forward
  clear := h.clear

/-- Between the turns of a run `I` holds, and at an `await` at least `S`. -/
theorem RelayInvariant.holds (h : RelayInvariant C I S) {w : World} (hs : w.suspended = false) (hw : I w)
    (is : List Input) :
    if (run (World.step C) w is).suspended then S (run (World.step C) w is)
      else I (run (World.step C) w is) :=
  h.live.holds hs hw is

end

end LoraMesh
