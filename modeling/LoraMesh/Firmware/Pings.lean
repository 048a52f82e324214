import LoraMesh.Firmware.Hosts

/-!
# Firmware — Pings

The result of a ping (`firmware/src/runtime.rs`, `drive_ping_prep` and `on_cad_done`).  What the ping was
asked for is kept twice: in the record of the ping in flight, as the probes that remain, and on the USB
side, as a count that the next request overwrites.

* `lastPing`: the ping that was last accepted, and what its probes have found.
* `PingsConsistent`: every result that was reported is the one of its ping.
* `pings_consistent`: so it is, while no request for another count comes in during a ping.
-/

namespace LoraMesh

open Std.Do

set_option mvcgen.warning false

/-! ### What a ping is owed -/

/-- The count that the last line asked a ping for. -/
def requested : List Happening → Option UInt8
  | [] => none
  | .dispatched (.request _ (.ping count)) _ :: _ => count
  | .dispatched _ _ :: _ => none
  | _ :: log => requested log

/-- A ping: what it was asked for, and what its probes have found, latest first. -/
structure Pinging where
  id : UInt64
  count : UInt8
  found : List Bool

/-- The ping last accepted. -/
def lastPing : List Happening → Option Pinging
  | [] => none
  | .accepted .ping id :: log => (requested log).map fun count => { id, count, found := [] }
  | .probed clear :: log => (lastPing log).map fun p => { p with found := clear :: p.found }
  | _ :: log => lastPing log

/-- The body of a reply is the result of a ping all of whose probes were answered. -/
def Pinging.Results (p : Pinging) (body : Body) : Prop :=
  ∃ clear : UInt8, body = .ping p.count clear ∧ p.found.length = p.count.toNat ∧ p.found.count true = clear.toNat

/-- Every success reply that ends a ping is its result. -/
def PingsConsistent (log : List Happening) : Prop :=
  ∀ id body later earlier, log = later ++ .reply (.ok id body) (some .ping) :: earlier →
    ∃ p ∈ lastPing earlier, p.id = id ∧ p.Results body

/-- The channel was not found clear more often than it was probed. -/
theorem Pinging.Results.clear_le {p : Pinging} {probes clear : UInt8} (h : p.Results (.ping probes clear)) :
    clear ≤ probes := by
  obtain ⟨c, hbody, hlen, hclear⟩ := h
  obtain ⟨rfl, rfl⟩ := Body.ping.inj hbody
  rw [UInt8.le_iff_toNat_le, ← hlen, ← hclear]
  exact List.count_le_length

theorem pingsConsistent_cons {x : Happening} {log : List Happening} : PingsConsistent (x :: log) ↔
    (∀ id body, x = .reply (.ok id body) (some .ping) → ∃ p ∈ lastPing log, p.id = id ∧ p.Results body) ∧
      PingsConsistent log := by
  constructor
  · intro h
    refine ⟨fun id body hx => h id body [] log (by rw [hx]; rfl), fun id body later earlier hlog => ?_⟩
    exact h id body (x :: later) earlier (by rw [hlog]; rfl)
  · rintro ⟨hx, h⟩ id body later earlier hlog
    cases later with
    | nil =>
        obtain ⟨rfl, rfl⟩ := List.cons.inj hlog
        exact hx id body rfl
    | cons y later =>
        obtain ⟨-, rfl⟩ := List.cons.inj hlog
        exact h id body later earlier rfl

section

variable {x : Happening} {log : List Happening}

theorem lastPing_unheeded (hx : x.heeded = false) : lastPing (x :: log) = lastPing log := by
  cases x with
  | accepted f id =>
      cases f with
      | send => rfl
      | ping => cases hx
  | probed clear => cases hx
  | _ => rfl

theorem requested_unheeded (hx : x.heeded = false) : requested (x :: log) = requested log := by
  cases x with
  | dispatched line snapshot => cases hx
  | _ => rfl

theorem pingsConsistent_unheeded (hx : x.heeded = false) (h : PingsConsistent log) : PingsConsistent (x :: log) := by
  refine pingsConsistent_cons.mpr ⟨?_, h⟩
  rintro id body rfl
  cases hx

end

/-! ### The ping in flight -/

/-- A ping in flight is the one last accepted, and the two counts agree. -/
structure Backed (w : World) (ping : PingInFlight) : Prop where
  last : ∃ p ∈ lastPing w.log, p.id = ping.replyId ∧ p.count = w.pingCount ∧
    p.found.length + ping.remaining.toNat = p.count.toNat ∧ p.found.count true = ping.clear.toNat
  log : PingsConsistent w.log

structure Pinged (w : World) : Prop where
  live : ∀ ping, w.ping = some ping → ping.remaining ≠ 0 ∧ Backed w ping
  log : PingsConsistent w.log

/-- A line has asked for a ping. -/
structure Asked (count : UInt8) (w : World) : Prop extends Pinged w where
  count : requested w.log = some count ∧ w.pingCount = count

section

variable {w w' : World} {ping : PingInFlight} {count : UInt8}

theorem Backed.of_view (h : Backed w ping) (hv : w'.hostSide = w.hostSide) : Backed w' ping := by
  simp only [World.hostSide, World.config, Prod.mk.injEq] at hv
  obtain ⟨-, -, -, ⟨-, -, -, -, -, hc⟩, hl⟩ := hv
  exact ⟨by rw [hl, hc]; exact h.last, hl ▸ h.log⟩

theorem Backed.record (h : Backed w ping) {x : Happening} (hx : x.heeded = false) : Backed (w.record x) ping :=
  ⟨by rw [show (w.record x).log = x :: w.log from rfl, lastPing_unheeded hx]; exact h.last,
    pingsConsistent_unheeded hx h.log⟩

/-- One more probe is answered. -/
theorem Backed.probed (h : Backed w ping) (hr : ping.remaining ≠ 0) (clear : Bool) :
    Backed (w.record (.probed clear))
      { ping with
        clear := if clear then ping.clear + 1 else ping.clear
        remaining := ping.remaining - 1 } := by
  obtain ⟨p, hp, hid, hcount, hlen, hclear⟩ := h.last
  refine ⟨⟨{ p with found := clear :: p.found }, ?_, hid, hcount, ?_, ?_⟩, ?_⟩
  · show (lastPing w.log).map _ = _
    rw [hp]
    rfl
  · have hpos : 1 ≤ ping.remaining := by
      rw [UInt8.le_iff_toNat_le]
      exact Nat.one_le_iff_ne_zero.mpr fun h => hr (UInt8.toNat_inj.mp h)
    have hone : 1 ≤ ping.remaining.toNat := UInt8.le_iff_toNat_le.mp hpos
    have hsub : (ping.remaining - 1).toNat = ping.remaining.toNat - 1 := UInt8.toNat_sub_of_le _ _ hpos
    show (clear :: p.found).length + (ping.remaining - 1).toNat = p.count.toNat
    rw [hsub, List.length_cons]
    omega
  · show (clear :: p.found).count true = _
    cases clear with
    | false => exact (List.count_cons_of_ne (by decide)).trans hclear
    | true =>
        have hle : p.found.count true ≤ p.found.length := List.count_le_length
        have hlt : p.count.toNat < 256 := p.count.toNat_lt
        have hne : ping.remaining.toNat ≠ 0 := fun h => hr (UInt8.toNat_inj.mp h)
        rw [List.count_cons_self, if_pos rfl, UInt8.toNat_add, hclear]
        exact (Nat.mod_eq_of_lt (by show ping.clear.toNat + 1 < 256; omega)).symm
  · exact pingsConsistent_cons.mpr ⟨nofun, h.log⟩

/-- Its result, once no probe remains. -/
theorem Backed.result (h : Backed w ping) (hr : ping.remaining = 0) :
    PingsConsistent (.reply (.ok ping.replyId (.ping w.pingCount ping.clear)) (some .ping) :: w.log) := by
  refine pingsConsistent_cons.mpr ⟨?_, h.log⟩
  rintro id body ⟨⟩
  obtain ⟨p, hp, hid, hcount, hlen, hclear⟩ := h.last
  rw [hr] at hlen
  exact ⟨p, hp, hid, ping.clear, by rw [hcount], hlen, hclear⟩

theorem Pinged.of_ping (h : Pinged w) (hp : w'.ping = w.ping) (hc : w'.pingCount = w.pingCount)
    (hl : w'.log = w.log) : Pinged w' := by
  refine ⟨fun ping hping => ?_, hl ▸ h.log⟩
  obtain ⟨hr, hb⟩ := h.live ping (hp ▸ hping)
  exact ⟨hr, by rw [hl, hc]; exact hb.last, hl ▸ hb.log⟩

theorem Pinged.of_view (h : Pinged w) (hv : w'.hostSide = w.hostSide) : Pinged w' := by
  simp only [World.hostSide, World.config, Prod.mk.injEq] at hv
  obtain ⟨-, -, hp, ⟨-, -, -, -, -, hc⟩, hl⟩ := hv
  exact h.of_ping hp hc hl

/-- A happening that is neither a ping's nor its probes'. -/
theorem Pinged.note (h : Pinged w) {x : Happening} (hx : lastPing (x :: w.log) = lastPing w.log)
    (hlog : PingsConsistent (x :: w.log)) : Pinged (w.record x) where
  live ping hp := by
    obtain ⟨hr, hb⟩ := h.live ping hp
    exact ⟨hr, by rw [show (w.record x).log = x :: w.log from rfl, hx]; exact hb.last, hlog⟩
  log := hlog

theorem Pinged.record (h : Pinged w) {x : Happening} (hx : x.heeded = false) : Pinged (w.record x) where
  live ping hp := ⟨(h.live ping hp).1, (h.live ping hp).2.record hx⟩
  log := pingsConsistent_unheeded hx h.log

end

theorem pinged_frame : HostFrame Pinged fun w => PingsConsistent w.log where
  stands _ h := h.log
  stood h := h
  view := Pinged.of_view
  record h hx := h.record hx
  noPing h := ⟨nofun, h.log⟩
  fault h := ⟨fun ping hp => ⟨(h.live ping hp).1, (h.live ping hp).2.last, h.log⟩, h.log⟩

theorem backed_frame (ping : PingInFlight) : HostFrame (Backed · ping) fun w => PingsConsistent w.log where
  stands _ h := h.log
  stood h := h
  view := Backed.of_view
  record h hx := h.record hx
  noPing h := ⟨h.last, h.log⟩
  fault h := ⟨h.last, h.log⟩

theorem asked_frame (count : UInt8) : HostFrame (Asked count) fun w => PingsConsistent w.log where
  stands _ h := h.log
  stood h := h
  view h hv := by
    refine ⟨h.toPinged.of_view hv, ?_⟩
    simp only [World.hostSide, World.config, Prod.mk.injEq] at hv
    rw [hv.2.2.2.2, hv.2.2.2.1.2.2.2.2.2]
    exact h.count
  record h hx := ⟨h.toPinged.record hx, (requested_unheeded hx).trans h.count.1, h.count.2⟩
  noPing h := ⟨pinged_frame.noPing h.toPinged, h.count⟩
  fault h := ⟨pinged_frame.fault h.toPinged, h.count⟩

/-! ### Programs -/

section

variable {C : Crypto}

theorem onCadDone_pinged (id : ℕ) (result : Except TxFault Bool) :
    Keeps Pinged (fun w => PingsConsistent w.log) (onCadDone id result) := by
  have alloc (ping : PingInFlight) := (backed_frame ping).alloc
  have queue (ping : PingInFlight) := (backed_frame ping).queue
  -- an error ends the ping in flight
  have ended {w : World} {id : UInt64} {code : ErrCode} (h : PingsConsistent w.log) :
      PingsConsistent (.reply (.err id code) (some .ping) :: w.log) := pingsConsistent_cons.mpr ⟨by rintro _ _ ⟨⟩, h⟩
  unfold onCadDone endPing reply
  mvcgen [alloc, queue]
  case vc1 =>
    rename_i w hw ping hp _ clear _ _ _ hr _ _ _
    obtain ⟨hne, hb⟩ := hw.live ping hp
    exact ⟨by rintro _ ⟨⟩, (hb.probed hne clear).result hr⟩
  case vc3 =>
    rename_i w hw ping hp _ clear _ _ _ _
    obtain ⟨hne, hb⟩ := hw.live ping hp
    exact hb.probed hne clear
  case vc6 =>
    -- the next probe is queued
    rename_i hr cmd _ _ _ _ w hw _
    exact ⟨by rintro _ ⟨⟩; exact ⟨hr, hw.last, hw.log⟩, hw.log⟩
  case vc7 =>
    have hw : Backed _ _ := ‹_›
    exact ⟨by rintro _ ⟨⟩, ended hw.log⟩
  all_goals
    have hw : Pinged _ := ‹_›
    exact ⟨by rintro _ ⟨⟩, ended hw.log⟩

/-- The ping that a line has asked for, if it is accepted. -/
theorem drivePingPrep_asked :
    ⦃fun w => ⌜Pinged w ∧ ∀ id count, w.pendingOp = some (.pingPrep id count) → count ≠ 0 ∧ Asked count w⌝⦄
    drivePingPrep
    ⦃post⟨fun o w => ⌜o ≠ .needsCommit ∧ Pinged w⌝, fun _ w => ⌜PingsConsistent w.log⌝⟩⦄ := by
  have alloc (count : UInt8) := (asked_frame count).alloc
  have queue (count : UInt8) := (asked_frame count).queue
  unfold drivePingPrep
  mvcgen [alloc, queue]
  case vc3 =>
    rename_i hw _ _ hp _
    exact (asked_frame _).view (hw.2 _ _ hp).2 rfl
  case vc6 =>
    rename_i w hw id count hp _ cmd _ _ _ _ w' hask _
    refine ⟨fun ho => (by cases ho), ⟨?_, pingsConsistent_cons.mpr ⟨by rintro _ _ ⟨⟩, hask.log⟩⟩⟩
    rintro _ ⟨⟩
    refine ⟨(hw.2 _ _ hp).1, ⟨⟨{ id, count, found := [] }, ?_, rfl, hask.count.2.symm, ?_, rfl⟩, ?_⟩⟩
    · show (requested w'.log).map _ = _
      rw [hask.count.1]
      rfl
    · exact Nat.zero_add _
    · exact pingsConsistent_cons.mpr ⟨by rintro _ _ ⟨⟩, hask.log⟩
  case vc7 =>
    have hask : Asked _ _ := ‹_›
    exact ⟨fun ho => (by cases ho), hask.toPinged⟩
  all_goals
    have hw : Pinged _ ∧ _ := ‹_›
    exact ⟨fun ho => (by cases ho), hw.1.of_view rfl⟩

theorem pinged_relay (C : Crypto) : RelayKeep C Pinged fun w => PingsConsistent w.log :=
  pinged_frame.free.relays onCadDone_pinged

theorem pinged_host (C : Crypto) : HostKeep C Pinged fun w => PingsConsistent w.log where
  toRelayKeep := pinged_relay C
  host h hv hc := by
    simp only [World.hostView, Prod.mk.injEq] at hv
    obtain ⟨⟨-, -, -, -, -, hp, -, -⟩, -, -, -, hl⟩ := hv
    exact h.of_ping hp hc hl
  kept := by
    intro w x hx h
    refine h.note ?_ (pingsConsistent_cons.mpr ⟨?_, h.log⟩)
    · cases x <;> first | rfl | cases hx
    · rintro id body rfl
      cases hx
  record _ _ h := h.note rfl (pingsConsistent_cons.mpr ⟨nofun, h.log⟩)
  flag _ _ := pinged_frame.queue _ _
  replies r := pinged_frame.replies r none nofun

/-- A settings record or a WiFi record. -/
theorem dispatch_pinged (id : UInt64) {req : Request} (hreq : ∀ count, req ≠ .ping count) :
    ⦃fun w => ⌜Pinged w⌝⦄ dispatch C id req
    ⦃post⟨fun o w => ⌜o ≠ .needsPingPrep ∧ Pinged w⌝, fun _ w => ⌜PingsConsistent w.log⌝⟩⦄ := by
  by_cases hplain : req.configures = false
  · refine triple_mono (dispatch_settles pinged_frame (fun _ h => h.of_ping rfl rfl rfl) id hplain) (fun _ h => h) ?_
      fun _ h => h
    rintro o w ⟨ho, hw⟩
    exact ⟨by rintro rfl; exact ho, hw⟩
  · unfold dispatch opSettingsSet opWifiSet opWifiForget
    cases req with
    | ping count => exact absurd rfl (hreq count)
    | settingsSet key value =>
        mvcgen
        all_goals
          have hw : Pinged _ := ‹_›
          exact ⟨fun ho => (by cases ho), hw.of_ping rfl rfl rfl⟩
    | wifiSet ssid pass =>
        mvcgen
        all_goals
          have hw : Pinged _ := ‹_›
          exact ⟨fun ho => (by cases ho), hw.of_ping rfl rfl rfl⟩
    | wifiForget =>
        mvcgen -trivial
        all_goals
          have hw : Pinged _ := ‹_›
          exact ⟨fun ho => (by cases ho), hw.of_ping rfl rfl rfl⟩
    | _ => exact absurd rfl hplain

/-- A line that asks for no ping. -/
theorem onLine_pinged {line : Line} (hline : ∀ id count, line ≠ .request id (.ping count)) :
    Keeps Pinged (fun w => PingsConsistent w.log) (onLine C line) := by
  refine (pinged_host C).onLine line ?_
  cases line with
  | tooLong => exact triple_iff.mpr fun w hw => ⟨nofun, hw⟩
  | malformed => exact triple_iff.mpr fun w hw => ⟨nofun, hw⟩
  | request id req =>
      have dispatch := dispatch_pinged (C := C) id fun count h => hline id count (h ▸ rfl)
      unfold dispatchLine
      mvcgen [dispatch]
      · have hw : Pinged _ := ‹_›
        exact hw.of_ping rfl rfl rfl
      · exact fun ho hw => ⟨fun h => absurd h ho, hw⟩

/-! ### A line that asks for a ping -/

/-- A ping asked for while another is in flight is for the same count. -/
def PingOk (w : World) (t : LoopTurn) : Prop :=
  match t with
  | .usb (.request _ (.ping (some count))) =>
    w.ping.isSome = true → 1 ≤ count → count ≤ 3 → w.health ≠ .fault → count = w.pingCount
  | _ => True

instance (w : World) (t : LoopTurn) : Decidable (PingOk w t) := by
  unfold PingOk
  split
  · infer_instance
  · infer_instance

/-- What the dispatch leaves. -/
def Prepared (count : Option UInt8) (o : Outcome) (w : World) : Prop :=
  match o with
  | .needsPingPrep => Pinged w ∧ ∀ id c, w.pendingOp = some (.pingPrep id c) → c ≠ 0 ∧ count = some c ∧ w.pingCount = c
  | .inline _ => Pinged w
  | _ => False

theorem dispatchLine_ping (id : UInt64) (count : Option UInt8) :
    ⦃fun w => ⌜Pinged w ∧ PingOk w (.usb (.request id (.ping count)))⌝⦄
    dispatchLine C (.request id (.ping count))
    ⦃post⟨fun o w => ⌜Prepared count o w⌝, fun _ w => ⌜PingsConsistent w.log⌝⟩⦄ := by
  unfold dispatchLine dispatch opPing
  mvcgen
  case vc4 =>
    rename_i w hw _ hh c hc hvalid _
    subst hc
    simp only [Bool.or_eq_true, decide_eq_true_eq, not_or, UInt8.not_lt] at hvalid
    refine ⟨⟨fun ping hp => ?_, hw.1.log⟩, ?_⟩
    · -- the count stays as it is
      have hsame : c = w.pingCount := hw.2 (Option.isSome_iff_exists.mpr ⟨ping, hp⟩) hvalid.1 hvalid.2 hh
      obtain ⟨hr, hb⟩ := hw.1.live ping hp
      refine ⟨hr, ?_, hb.log⟩
      show ∃ p ∈ lastPing w.log, p.id = ping.replyId ∧ p.count = c ∧ _
      rw [hsame]
      exact hb.last
    · rintro _ _ ⟨⟩
      refine ⟨?_, rfl, rfl⟩
      rintro rfl
      exact absurd hvalid.1 (by decide)
  all_goals
    have hw : Pinged _ ∧ PingOk _ _ := ‹_›
    exact hw.1.of_ping rfl rfl rfl

/-- What the line leaves. -/
def Driven (o : Outcome) (w : World) : Prop :=
  match o with
  | .needsPingPrep => Pinged w ∧ ∀ id count, w.pendingOp = some (.pingPrep id count) → count ≠ 0 ∧ Asked count w
  | .inline _ => Pinged w
  | _ => False

omit C in
theorem Prepared.driven {count : Option UInt8} {o : Outcome} {w : World} (h : Prepared count o w) (id : UInt64)
    (snapshot : Option (List UInt8)) : Driven o (w.record (.dispatched (.request id (.ping count)) snapshot)) := by
  have hrec {w : World} (h : Pinged w) : Pinged (w.record (.dispatched (.request id (.ping count)) snapshot)) :=
    h.note rfl (pingsConsistent_cons.mpr ⟨nofun, h.log⟩)
  cases o with
  | needsPingPrep =>
      refine ⟨hrec h.1, fun id c hp => ?_⟩
      obtain ⟨hpos, hcount, hc⟩ := h.2 id c hp
      exact ⟨hpos, hrec h.1, hcount, hc⟩
  | inline r => exact hrec h
  | _ => exact h

theorem onUsbOutcome_ping (o : Outcome) :
    ⦃fun w => ⌜Driven o w⌝⦄ onUsbOutcome C o
    ⦃post⟨fun _ w => ⌜Pinged w⌝, fun _ w => ⌜PingsConsistent w.log⌝⟩⦄ := by
  have prep : ⦃fun w => ⌜Driven .needsPingPrep w⌝⦄ drivePingPrep
      ⦃post⟨fun _ w => ⌜Pinged w⌝, fun _ w => ⌜PingsConsistent w.log⌝⟩⦄ :=
    triple_mono drivePingPrep_asked (fun _ hw => hw) (fun _ _ hw => hw.2) fun _ hw => hw
  have commit := (pinged_host C).onNeedsCommit
  have reply (r : Reply) := pinged_frame.replies r none nofun
  unfold onUsbOutcome
  cases o with
  | needsPingPrep =>
      mvcgen [prep, commit, reply]
      have hw : Pinged _ := ‹_›
      exact hw.of_ping rfl rfl rfl
  | inline r => mvcgen [reply]
  | _ => exact triple_iff.mpr fun _ hw => hw.elim

theorem onLine_ping (id : UInt64) (count : Option UInt8) :
    ⦃fun w => ⌜Pinged w ∧ PingOk w (.usb (.request id (.ping count)))⌝⦄ onLine C (.request id (.ping count))
    ⦃post⟨fun _ w => ⌜Pinged w⌝, fun _ w => ⌜PingsConsistent w.log⌝⟩⦄ := by
  have dispatch := dispatchLine_ping (C := C) id count
  have outcome := onUsbOutcome_ping (C := C)
  unfold onLine
  mvcgen [dispatch, outcome]
  have hw : Prepared count _ _ := ‹_›
  exact hw.driven id _

/-! ### Runs -/

theorem turn_pinged {t : LoopTurn} (hping : ∀ id count, t ≠ .usb (.request id (.ping count))) :
    Keeps Pinged (fun w => PingsConsistent w.log) (turn C t) :=
  turn_keeps (pinged_relay C) t fun _ hl => onLine_pinged fun id count h => hping id count (h ▸ hl)

theorem step_pinged {w : World} {i : Input} (hok : PingOk w i.turn)
    (hw : if w.suspended then PingsConsistent w.log else Pinged w) :
    if (w.step C i).suspended then PingsConsistent (w.step C i).log else Pinged (w.step C i) := by
  refine step_of_turn (I := Pinged) (S := fun w => PingsConsistent w.log) pinged_frame.stands pinged_frame.stood w i ?_
    (fun hw => hw.of_view rfl) hw
  by_cases hping : ∃ id count, i.turn = .usb (.request id (.ping count))
  · obtain ⟨id, count, hturn⟩ := hping
    rw [hturn] at hok ⊢
    refine triple_mono (onLine_ping id count) (fun w' h => ⟨h.2, ?_⟩) (fun _ _ h => h) fun _ h => h
    rw [h.1]
    cases count with
    | none => trivial
    | some count => exact hok
  · exact triple_mono (turn_pinged fun id count h => hping ⟨id, count, h⟩) (fun _ h => h.2) (fun _ _ h => h)
      fun _ h => h

theorem pinged_boot (stored : Option (List UInt8)) (uid : Bytes 8) (hw : Bool) :
    Pinged (.boot C stored uid hw) :=
  ⟨nofun, fun _ _ _ _ h => (nomatch (List.append_eq_nil_iff.mp h.symm).2)⟩

end

/-- The results of pings are consistent while no ping in flight is asked for again with another count. -/
theorem pings_consistent (C : Crypto) (stored : Option (List UInt8)) (uid : Bytes 8) (hw : Bool) (is : List Input)
    (hok : Along (World.step C) (fun w i => PingOk w i.turn) (.boot C stored uid hw) is) :
    PingsConsistent (run (World.step C) (.boot C stored uid hw) is).log := by
  have h := run_invariant (I := fun w : World => if w.suspended then PingsConsistent w.log else Pinged w)
    (fun w i hw hi => step_pinged hi hw) is (s := .boot C stored uid hw) (pinged_boot stored uid hw) hok
  split at h
  · exact h
  · exact h.log

namespace Sample

/-- A host asks for a ping. -/
def asks (id : UInt64) (count : UInt8) : Input where
  turn := .usb (.request id (.ping (some count)))
  wakes := []

/-- The radio task takes a probe and finds the channel clear. -/
def answered : List Input :=
  [{ turn := .sleep, wakes := [wake [take, go, go, go]] }, { turn := .radioEvt, wakes := [] }]

/-- A ping of two probes. -/
def pinging : List Input := [switchOn, asks 2 2] ++ answered ++ answered

/-- During a ping of three probes, one of one probe is refused. -/
def overtaken : List Input := [switchOn, asks 2 3, asks 3 1] ++ answered ++ answered ++ answered

end Sample

theorem pings_consistent_sample :
    PingsConsistent
      (run (World.step Sample.crypto) (.boot Sample.crypto none (Sample.bytes8 1) true) Sample.pinging).log :=
  pings_consistent Sample.crypto none (Sample.bytes8 1) true Sample.pinging (by decide +kernel)

/-- The result of a ping, where a happening is one. -/
def Happening.pingResult : Happening → Option (UInt64 × UInt8 × UInt8)
  | .reply (.ok id (.ping probes clear)) (some .ping) => some (id, probes, clear)
  | _ => none

theorem eq_of_pingResult {x : Happening} {id : UInt64} {probes clear : UInt8}
    (h : x.pingResult = some (id, probes, clear)) : x = .reply (.ok id (.ping probes clear)) (some .ping) := by
  unfold Happening.pingResult at h
  split at h
  · cases h
    rfl
  · cases h

/-- Three probes are reported as one. -/
theorem pings_inconsistent :
    ¬ PingsConsistent
      (run (World.step Sample.crypto) (.boot Sample.crypto none (Sample.bytes8 1) true) Sample.overtaken).log := by
  have hlog : ∀ log : List Happening, log.head?.bind Happening.pingResult = some (2, 1, 3) →
      (lastPing log.tail).map Pinging.count = some 3 → ¬ PingsConsistent log := by
    intro log hhead hlast h
    obtain ⟨x, hx, hresult⟩ := Option.bind_eq_some_iff.mp hhead
    obtain ⟨earlier, rfl⟩ := List.head?_eq_some_iff.mp hx
    obtain ⟨p, hp, -, clear, hbody, -⟩ := (pingsConsistent_cons.mp h).1 2 (.ping 1 3) (eq_of_pingResult hresult)
    obtain ⟨hcount, -⟩ := Body.ping.inj hbody
    have hlast : (lastPing earlier).map Pinging.count = some 3 := hlast
    rw [hp, Option.map_some, ← hcount] at hlast
    exact absurd hlast (by decide)
  have hrun : (run (World.step Sample.crypto) (.boot Sample.crypto none (Sample.bytes8 1) true)
      Sample.overtaken).log.head?.bind Happening.pingResult = some (2, 1, 3) ∧
      (lastPing (run (World.step Sample.crypto) (.boot Sample.crypto none (Sample.bytes8 1) true)
        Sample.overtaken).log.tail).map Pinging.count = some 3 := by decide +kernel
  exact hlog _ hrun.1 hrun.2

end LoraMesh
