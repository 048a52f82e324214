import LoraMesh.Firmware.Hosts

/-!
# Firmware — Configured

What a host has configured: the settings and the WiFi credential (`firmware/src/usb.rs`, `commit_settings`
and `commit_wifi` of `firmware/src/runtime.rs`).  A request changes the live copy, a credential its staging
place, before the storage owner has answered.

* `Stored`: what the storage holds, `storedAfter` a log; `Shows`: the live copies are those.
* `Lawful`: every record that is stored is what its own line makes of the record before.
* `configuration_kept`: so it stays, and exactly so where no failed commit leaves something else behind.
-/

namespace LoraMesh

open Std.Do

set_option mvcgen.warning false

/-! ### The reports -/

/-- An entry of `settings_get`. -/
structure SettingEntry where
  key : SettingKey
  value : ℕ
  min : ℕ
  max : ℕ
  readonly : Bool
  applied : Bool
  deriving DecidableEq

namespace SettingKey

/-- `KEYS`, in its order. -/
def all : List SettingKey := [.txPower, .maxTx, .ackWait, .relayTtl, .relayJitter, .cadAttempts, .syncWord]

/-- The range of a key, of a read-only one its value. -/
def bounds : SettingKey → ℕ × ℕ
  | .txPower => (2, 2)
  | .maxTx => (1, 10)
  | .ackWait => (1, 60)
  | .relayTtl => (1000, 60000)
  | .relayJitter => (20, 300)
  | .cadAttempts => (1, 10)
  | .syncWord => (18, 18)

end SettingKey

/-- `op_settings_get`: every entry, or that of one key. -/
def UsbState.settingsGet (u : UsbState) (filter : Option SettingKey) : List SettingEntry :=
  (SettingKey.all.filter fun key => filter.all (· == key)).map fun key =>
    { key
      value := u.settings.value key
      min := key.bounds.1
      max := key.bounds.2
      readonly := (Settings.range key).isNone
      applied := !(key == .txPower && u.settingsTxPending) }

/-- `op_wifi_status`: whether a credential is configured, and the length of its SSID. -/
def UsbState.wifiStatus (u : UsbState) : Bool × ℕ :=
  let (ssidLen, configured) :=
    match u.stagedWifi with
    | some c => (c.1.length, true)
    | none => (u.wifiSsidLen, u.wifiConfigured)
  (configured || u.stagedWifi.isSome, ssidLen)

/-! ### What is stored -/

/-- The settings record and the WiFi record. -/
structure Stored where
  settings : Settings
  wifi : Option (List UInt8 × List UInt8)

namespace Stored

def ssidLen (s : Stored) : ℕ := (s.wifi.map fun c => c.1.length).getD 0

/-- The records as a line is to leave them. -/
def apply (s : Stored) : Line → Stored
  | .request _ (.settingsSet (some key) (some value)) =>
    match s.settings.set key value with
    | some (settings, _) => { s with settings }
    | none => s
  | .request _ (.wifiSet (some ssid) (some pass)) => { s with wifi := some (ssid, pass) }
  | .request _ .wifiForget => { s with wifi := none }
  | _ => s

end Stored

/-- What is stored after a log that began with `s`. -/
def storedAfter (s : Stored) : List Happening → Stored
  | [] => s
  | .keptSettings settings :: log => { storedAfter s log with settings }
  | .keptWifi wifi :: log => { storedAfter s log with wifi }
  | _ :: log => storedAfter s log

/-- The line last dispatched. -/
def lastLine : List Happening → Option Line
  | [] => none
  | .dispatched line _ :: _ => some line
  | _ :: log => lastLine log

/-- A record is stored as the last line is to leave it; a credential is published as it is stored. -/
def Happening.LawfulAfter (s : Stored) (earlier : List Happening) : Happening → Prop
  | .keptSettings settings =>
    (lastLine earlier).map (storedAfter s earlier).apply = some { storedAfter s earlier with settings }
  | .keptWifi wifi => (lastLine earlier).map (storedAfter s earlier).apply = some { storedAfter s earlier with wifi }
  | .published c => (storedAfter s earlier).wifi = some c
  | _ => True

def Lawful (s : Stored) (log : List Happening) : Prop :=
  ∀ later x earlier, log = later ++ x :: earlier → x.LawfulAfter s earlier

/-- The live copies are those that are stored; a credential that a failed commit has left is not told from
the one that is stored. -/
structure Shows (s : Stored) (u : UsbState) : Prop where
  settings : u.settings = s.settings
  applied : u.settingsTxPending = false
  configured : u.wifiConfigured = s.wifi.isSome
  length : u.wifiSsidLen = s.ssidLen
  staged : ∀ c, u.stagedWifi = some c → s.wifi.isSome = true ∧ c.1.length = s.ssidLen

/-- The radio image as its storage has it. -/
def Stored.boot (s : Stored) (C : Crypto) (stored : Option (List UInt8)) (uid : Bytes 8) (hw : Bool) : World :=
  { World.boot C stored uid hw with
    settings := s.settings
    wifiConfigured := s.wifi.isSome
    wifiSsidLen := s.ssidLen }

theorem Stored.boot_shows (s : Stored) (C : Crypto) (stored : Option (List UInt8)) (uid : Bytes 8) (hw : Bool) :
    Shows s (s.boot C stored uid hw).toUsbState := ⟨rfl, rfl, rfl, rfl, nofun⟩

theorem Shows.wifiStatus {s : Stored} {u : UsbState} (h : Shows s u) : u.wifiStatus = (s.wifi.isSome, s.ssidLen) := by
  unfold UsbState.wifiStatus
  cases hs : u.stagedWifi with
  | none => simp only [Option.isSome_none, Bool.or_false, h.configured, h.length]
  | some c =>
      obtain ⟨hsome, hlen⟩ := h.staged c hs
      simp only [Option.isSome_some, Bool.or_true, hsome, hlen]

/-- What shows the same records reports the same. -/
theorem Shows.reports {s : Stored} {u v : UsbState} (hu : Shows s u) (hv : Shows s v) :
    (∀ filter, u.settingsGet filter = v.settingsGet filter) ∧ u.wifiStatus = v.wifiStatus := by
  refine ⟨fun filter => ?_, hu.wifiStatus.trans hv.wifiStatus.symm⟩
  simp only [UsbState.settingsGet, hu.settings, hv.settings, hu.applied, hv.applied]

theorem lawful_cons {s : Stored} {x : Happening} {log : List Happening} :
    Lawful s (x :: log) ↔ x.LawfulAfter s log ∧ Lawful s log := by
  constructor
  · intro h
    exact ⟨h [] x log rfl, fun later y earlier hlog => h (x :: later) y earlier (by rw [hlog]; rfl)⟩
  · rintro ⟨hx, h⟩ later y earlier hlog
    cases later with
    | nil =>
        obtain ⟨rfl, rfl⟩ := List.cons.inj hlog
        exact hx
    | cons z later =>
        obtain ⟨-, rfl⟩ := List.cons.inj hlog
        exact h later y earlier rfl

theorem storedAfter_record {s : Stored} {x : Happening} {log : List Happening} (hx : x.kept = false) :
    storedAfter s (x :: log) = storedAfter s log := by
  cases x with
  | keptSettings => cases hx
  | keptWifi => cases hx
  | _ => rfl

theorem lawful_record {s : Stored} {x : Happening} {log : List Happening} (hx : x.kept = false)
    (h : Lawful s log) : Lawful s (x :: log) := by
  refine lawful_cons.mpr ⟨?_, h⟩
  cases x with
  | keptSettings => cases hx
  | keptWifi => cases hx
  | published => cases hx
  | _ => trivial

theorem kept_unheeded {x : Happening} (hx : x.heeded = false) : x.kept = false := by
  cases x <;> first | rfl | cases hx

/-! ### What the programs keep -/

/-- What the reports are read off. -/
def UsbState.shown (u : UsbState) :=
  (u.settings, u.settingsTxPending, u.stagedWifi, u.wifiConfigured, u.wifiSsidLen)

theorem Shows.of_shown {s : Stored} {u u' : UsbState} (h : Shows s u) (hu : u'.shown = u.shown) : Shows s u' := by
  simp only [UsbState.shown, Prod.mk.injEq] at hu
  obtain ⟨hs, hp, hw, hc, hl⟩ := hu
  exact ⟨hs.trans h.settings, hp.trans h.applied, hc.trans h.configured, hl.trans h.length,
    fun c hc => h.staged c (hw ▸ hc)⟩

theorem shown_of_host {w w' : World} (hv : w'.hostSide = w.hostSide) : w'.shown = w.shown := by
  simp only [World.hostSide, World.config, Prod.mk.injEq] at hv
  obtain ⟨-, -, -, ⟨hs, hp, hw, hc, hl, -⟩, -⟩ := hv
  simp only [UsbState.shown, hs, hp, hw, hc, hl]

/-- The log is lawful, and the live copies are those that are stored unless the node has failed. -/
structure Configured (s : Stored) (w : World) : Prop where
  log : Lawful s w.log
  shows : w.health ≠ .fault → Shows (storedAfter s w.log) w.toUsbState

section

variable {s : Stored} {w w' : World}

theorem Configured.of_shown (h : Configured s w) (hh : w'.health = w.health) (hu : w'.shown = w.shown)
    (hl : w'.log = w.log) : Configured s w' where
  log := hl ▸ h.log
  shows hf := by
    rw [hl]
    exact (h.shows (hh ▸ hf)).of_shown hu

theorem Configured.of_host (h : Configured s w) (hv : w'.hostSide = w.hostSide) : Configured s w' :=
  h.of_shown (congrArg Prod.fst hv) (shown_of_host hv) (congrArg (fun v => v.2.2.2.2) hv)

theorem Configured.record (h : Configured s w) {x : Happening} (hx : x.kept = false) : Configured s (w.record x) where
  log := lawful_record hx h.log
  shows hf := by
    show Shows (storedAfter s (x :: w.log)) _
    rw [storedAfter_record hx]
    exact h.shows hf

end

theorem configured_frame (s : Stored) : HostFrame (Configured s) fun w => Lawful s w.log where
  stands _ h := h.log
  stood h := h
  view := Configured.of_host
  record h hx := h.record (kept_unheeded hx)
  noPing h := h.of_shown rfl rfl rfl
  fault h := ⟨h.log, fun hf => absurd rfl hf⟩

theorem configured_unpinged (s : Stored) : Unpinged (Configured s) where
  pings _ _ h := h.of_shown rfl rfl rfl
  notes hx h := h.record hx

/-- The configuration is kept, and the reply owed is so. -/
abbrev Owes (s : Stored) (p : Option StagedReply → Prop) (w : World) : Prop := Configured s w ∧ p w.stagedReply

theorem owes_frame (s : Stored) (p : Option StagedReply → Prop) : HostFrame (Owes s p) fun w => Lawful s w.log :=
  (configured_frame s).owing p

theorem owes_relay (C : Crypto) (s : Stored) (p : Option StagedReply → Prop) :
    RelayKeep C (Owes s p) fun w => Lawful s w.log := (owes_frame s p).relay ((configured_unpinged s).owing p)

/-! ### Replies owed -/

/-- What `commit_reply` leaves. -/
def UsbState.paid (u : UsbState) : UsbState :=
  match u.stagedReply with
  | some (.wifiSet _) =>
    { u with
      stagedReply := none
      stagedWifi := none
      wifiConfigured := true
      wifiSsidLen := (u.stagedWifi.map fun c => c.1.length).getD u.wifiSsidLen }
  | some (.wifiForget _) =>
    { u with stagedReply := none, stagedWifi := none, wifiConfigured := false, wifiSsidLen := 0 }
  | _ => { u with stagedReply := none }

theorem paid_shown {u u' : UsbState} (hr : u'.stagedReply = u.stagedReply) (hu : u'.shown = u.shown) :
    u'.paid.shown = u.paid.shown := by
  simp only [UsbState.shown, Prod.mk.injEq] at hu
  obtain ⟨hs, hp, hw, hc, hl⟩ := hu
  simp only [UsbState.paid, hr, hw, hl]
  split
  · simp only [UsbState.shown, hs, hp]
  · simp only [UsbState.shown, hs, hp]
  · simp only [UsbState.shown, hs, hp, hc]

/-- The reply that is owed will tell what is stored. -/
structure Due (s : Stored) (w : World) : Prop where
  log : Lawful s w.log
  shows : w.health ≠ .fault → Shows (storedAfter s w.log) w.toUsbState.paid

theorem due_frame (s : Stored) : HostFrame (Due s) fun w => Lawful s w.log where
  stands _ h := h.log
  stood h := h
  view {w w'} h hv := by
    have hl : w'.log = w.log := congrArg (fun v => v.2.2.2.2) hv
    have hh : w'.health = w.health := congrArg Prod.fst hv
    refine ⟨hl ▸ h.log, fun hf => ?_⟩
    rw [hl]
    exact (h.shows (hh ▸ hf)).of_shown (paid_shown (congrArg (fun v => v.2.1) hv) (shown_of_host hv))
  record {w x} h hx := by
    refine ⟨lawful_record (kept_unheeded hx) h.log, fun hf => ?_⟩
    show Shows (storedAfter s (x :: w.log)) _
    rw [storedAfter_record (kept_unheeded hx)]
    exact h.shows hf
  noPing h := ⟨h.log, h.shows⟩
  fault h := ⟨h.log, fun hf => absurd rfl hf⟩

/-- No reply is owed for a record that is committed apart. -/
def OwesPlain (r : Option StagedReply) : Prop := ∀ owed, r = some owed → owed.settingsOnly = false

section

variable {C : Crypto} {s : Stored}

theorem Configured.due {w : World} (h : Configured s w) (hr : w.toUsbState.paid.shown = w.shown) : Due s w :=
  ⟨h.log, fun hf => (h.shows hf).of_shown hr⟩

theorem plain_paid {u : UsbState} (h : OwesPlain u.stagedReply) : u.paid.shown = u.shown := by
  unfold UsbState.paid
  split
  · cases h _ ‹_›
  · cases h _ ‹_›
  · rfl

theorem Configured.applied {w : World} (h : Configured s w) : Configured s { w with settingsTxPending := false } where
  log := h.log
  shows hf := (h.shows hf).of_shown (by simp only [UsbState.shown, (h.shows hf).applied])

theorem commitReply_due :
    ⦃fun w => ⌜Due s w⌝⦄ commitReply ⦃post⟨fun _ w => ⌜Owes s OwesPlain w⌝, fun _ w => ⌜Lawful s w.log⌝⟩⦄ := by
  have reply (r : Reply) := (owes_frame s OwesPlain).replies r none nofun
  have paid {w w' : World} (h : Due s w) (hu : w'.shown = w.toUsbState.paid.shown) (hr : w'.stagedReply = none)
      (hh : w'.health = w.health) (hl : w'.log = w.log) : Owes s OwesPlain w' := by
    refine ⟨⟨hl ▸ h.log, fun hf => ?_⟩, ?_⟩
    · rw [hl]
      exact (h.shows (hh ▸ hf)).of_shown hu
    · rw [hr]
      nofun
  unfold commitReply
  mvcgen [reply]
  case vc1 =>
    rename_i w hw hr
    have hp : OwesPlain w.stagedReply := by rw [hr]; nofun
    exact ⟨⟨hw.log, fun hf => (hw.shows hf).of_shown (plain_paid hp).symm⟩, hp⟩
  all_goals
    subst_vars
    have hw : Due s _ := ‹_›
    have hr : _ = some _ := ‹_›
    exact paid hw (by simp only [UsbState.paid, hr]; rfl) rfl rfl rfl

/-! ### The commits of a line -/

theorem commitReply_plain : Keeps (Owes s OwesPlain) (fun w => Lawful s w.log) commitReply :=
  triple_mono commitReply_due (fun _ hw => hw.1.due (plain_paid hw.2)) (fun _ _ hw => hw) fun _ hw => hw

theorem controlSetRadio_plain (id : UInt64) (enabled : Bool) :
    Keeps (Owes s OwesPlain) (fun w => Lawful s w.log) (controlSetRadio C id enabled) := by
  have frame := owes_frame s OwesPlain
  have commit := frame.commits (C := C)
  have sync := frame.sync
  have alloc := frame.alloc
  have queue (cmd : ℕ) := frame.queue (.setEnabled cmd enabled) .control
  have barrier := barrier_keeps (owes_relay C s OwesPlain)
  have clear := clearInFlight_keeps (frame.free (C := C)) enabled
  have reply (r : Reply) := frame.replies r none nofun
  have done := commitReply_plain (s := s)
  unfold controlSetRadio emitErr
  mvcgen [commit, sync, alloc, queue, barrier, clear, reply, done]
  all_goals
    have hw : Owes s OwesPlain _ := ‹_›
    exact ⟨hw.1.applied, hw.2⟩

theorem controlSetBlocked_plain (id : UInt64) :
    Keeps (Owes s OwesPlain) (fun w => Lawful s w.log) (controlSetBlocked C id) := by
  have frame := owes_frame s OwesPlain
  have commit := frame.commits (C := C)
  have sync := frame.sync
  have barrier := barrier_keeps (owes_relay C s OwesPlain)
  have reply (r : Reply) := frame.replies r none nofun
  have done := commitReply_plain (s := s)
  unfold controlSetBlocked emitErr
  mvcgen [commit, sync, barrier, reply, done]

/-- A commit that stores no configuration. -/
theorem onNeedsCommit_plain : Keeps (Owes s OwesPlain) (fun w => Lawful s w.log) (onNeedsCommit C) := by
  have frame := owes_frame s OwesPlain
  have setRadio := controlSetRadio_plain (C := C) (s := s)
  have setBlocked := controlSetBlocked_plain (C := C) (s := s)
  have delete := controlDelete_keeps (owes_relay C s OwesPlain)
  have commit := frame.commits (C := C)
  have reply (r : Reply) := frame.replies r none nofun
  have done := commitReply_plain (s := s)
  -- the records of the host are not committed here
  have never (m : Async Bool) :
      ⦃fun _ => ⌜False⌝⦄ m ⦃post⟨fun _ w => ⌜Owes s OwesPlain w⌝, fun _ w => ⌜Lawful s w.log⌝⟩⦄ :=
    triple_iff.mpr fun _ hw => hw.elim
  have settings := never commitSettings
  have wifi := never commitWifi
  unfold onNeedsCommit emitErr
  mvcgen [setRadio, setBlocked, delete, settings, wifi, commit, reply, done]
  all_goals
    have hw : Owes s OwesPlain _ := ‹_›
    first
      | exact frame.view hw rfl
      | cases hw.2 _ ‹_›

end

/-! ### Records asked for -/

/-- The storage owner's next answer is that it has failed. -/
def breaks (wakes : List Wake) : Bool := (wakes.head?.bind Wake.answer).any fun k => !k.stored

/-- What a wait keeps, and whether its answer is a failure. -/
theorem await_breaks {I S : World → Prop} (wait : Keeps I S await) (d : Prop) :
    ⦃fun w => ⌜I w ∧ (breaks w.wakes = true → d)⌝⦄ await
    ⦃post⟨fun k w => ⌜I w ∧ (k.stored = false → d)⌝, fun _ w => ⌜S w⌝⟩⦄ := by
  refine triple_iff.mpr fun w hw => ?_
  have hi := triple_iff.mp wait w hw.1
  cases hk : w.wakes with
  | nil => simpa only [OptionT.run, await, hk] using hi
  | cons k ks =>
      have hrun : await.run w = (k.answer, run World.envStep { w with wakes := ks } k.env) := by
        simp only [OptionT.run, await, hk]
      rw [hrun] at hi ⊢
      cases ha : k.answer with
      | none => simpa only [ha] using hi
      | some a =>
          rw [ha] at hi
          refine ⟨hi, fun hs => hw.2 ?_⟩
          simp only [breaks, hk, List.head?_cons, Option.bind_some, ha, Option.any_some, hs, Bool.not_false]

/-- A settings record is to be committed; where that fails, so much is known. -/
structure SettingsAsked (s : Stored) (settings : Settings) (d : Prop) (w : World) : Prop where
  log : Lawful s w.log
  asked : (lastLine w.log).map (storedAfter s w.log).apply = some { storedAfter s w.log with settings }
  shows : Shows { storedAfter s w.log with settings } w.toUsbState
  spared : d → (storedAfter s w.log).settings = .default
  owed : ∃ id key value clamped, w.stagedReply = some (.settingsSet id key value clamped)

/-- A WiFi record is to be committed. -/
structure WifiAsked (s : Stored) (wifi : Option (List UInt8 × List UInt8)) (d : Prop) (w : World) : Prop where
  log : Lawful s w.log
  asked : (lastLine w.log).map (storedAfter s w.log).apply = some { storedAfter s w.log with wifi }
  staged : w.stagedWifi = wifi
  shows : Shows (storedAfter s w.log) { w.toUsbState with stagedWifi := none }
  spared : d → ∀ c, wifi = some c →
    (storedAfter s w.log).wifi.isSome = true ∧ c.1.length = (storedAfter s w.log).ssidLen
  owed : ∃ id, w.stagedReply = some (if wifi.isSome then .wifiSet id else .wifiForget id)

section

variable {C : Crypto} {s : Stored} {d : Prop}

/-- What the storage owner's answer leaves. -/
def Committed (s : Stored) (ok : Bool) (w : World) : Prop :=
  match ok with
  | true => Due s w
  | false => Configured s w

theorem SettingsAsked.due {settings : Settings} {w : World} (h : SettingsAsked s settings d w) :
    Due s (w.record (.keptSettings settings)) where
  log := lawful_cons.mpr ⟨h.asked, h.log⟩
  shows _ := by
    obtain ⟨id, key, value, clamped, ho⟩ := h.owed
    refine h.shows.of_shown ?_
    show w.toUsbState.paid.shown = _
    simp only [UsbState.paid, ho]
    rfl

/-- The defaults that the failure leaves are the settings that are stored. -/
theorem SettingsAsked.fallen {settings : Settings} {w : World} (h : SettingsAsked s settings d w) (hd : d) :
    Configured s { w with settings := .default, settingsTxPending := false } where
  log := h.log
  shows _ := ⟨(h.spared hd).symm, rfl, h.shows.configured, h.shows.length, h.shows.staged⟩

theorem WifiAsked.due {c : Option (List UInt8 × List UInt8)} {w : World} (h : WifiAsked s c d w) :
    Due s (w.record (.keptWifi c)).publishWifi := by
  have hrec : Lawful s (.keptWifi c :: w.log) := lawful_cons.mpr ⟨h.asked, h.log⟩
  obtain ⟨id, ho⟩ := h.owed
  cases c with
  | none =>
      have hpub : (w.record (.keptWifi none)).publishWifi =
          { w.record (.keptWifi none) with wifiSsidLen := 0, stagedWifi := none } := by
        simp only [World.publishWifi, World.record, ho, h.staged, Option.isSome_none, Bool.false_eq_true, if_false,
          if_true]
      rw [hpub]
      refine ⟨hrec, fun _ => ?_⟩
      simp only [UsbState.paid, World.record, ho, Option.isSome_none, Bool.false_eq_true, if_false]
      exact ⟨h.shows.settings, h.shows.applied, rfl, rfl, fun _ ho => (by cases ho)⟩
  | some c =>
      have hpub : (w.record (.keptWifi (some c))).publishWifi =
          { w.record (.keptWifi (some c)) with wifiSsidLen := c.1.length, stagedWifi := none }.record
            (.published c) := by
        simp only [World.publishWifi, World.record, ho, h.staged, Option.isSome_some, Bool.false_eq_true, if_false,
          if_true, Option.map_some, Option.getD_some]
      rw [hpub]
      refine ⟨lawful_cons.mpr ⟨rfl, hrec⟩, fun _ => ?_⟩
      simp only [UsbState.paid, World.record, ho, Option.isSome_some, if_true]
      exact ⟨h.shows.settings, h.shows.applied, rfl, rfl, fun _ ho => (by cases ho)⟩

/-- A credential that is not stored is not told from the one that is. -/
theorem WifiAsked.left {c : Option (List UInt8 × List UInt8)} {w : World} (h : WifiAsked s c d w) (hd : d) :
    Configured s w where
  log := h.log
  shows _ :=
    ⟨h.shows.settings, h.shows.applied, h.shows.configured, h.shows.length,
      fun x hx => h.spared hd x (h.staged.symm.trans hx)⟩

theorem commitSettings_asked (settings : Settings) :
    ⦃fun w => ⌜SettingsAsked s settings d w ∧ (breaks w.wakes = true → d)⌝⦄ commitSettings
    ⦃post⟨fun ok w => ⌜Committed s ok w⌝, fun _ w => ⌜Lawful s w.log⌝⟩⦄ := by
  have keeps : Keeps (SettingsAsked s settings d) (fun w => Lawful s w.log) await :=
    triple_mono (await_keeps (P := SettingsAsked s settings d)
      (fun _ _ h => ⟨h.log, h.asked, h.shows, h.spared, h.owed⟩)
      (fun _ _ h => ⟨h.log, h.asked, h.shows, h.spared, h.owed⟩)
      (fun _ _ h => ⟨h.log, h.asked, h.shows, h.spared, h.owed⟩)
      fun _ _ h => ⟨lawful_record rfl h.log, h.asked, h.shows, h.spared, h.owed⟩)
      (fun _ h => h) (fun _ _ h => h) fun _ h => h.log
  have wait := await_breaks keeps d
  unfold commitSettings
  mvcgen [wait]
  · rename_i w₀ hw₀ _ _ w hw _
    show Due s (w.record (.keptSettings w₀.settings))
    rw [hw₀.1.shows.settings]
    exact hw.1.due
  · rename_i hs w hw _
    exact hw.1.fallen (hw.2 (Bool.eq_false_iff.mpr hs))

theorem commitWifi_asked (c : Option (List UInt8 × List UInt8)) :
    ⦃fun w => ⌜WifiAsked s c d w ∧ (breaks w.wakes = true → d)⌝⦄ commitWifi
    ⦃post⟨fun ok w => ⌜Committed s ok w⌝, fun _ w => ⌜Lawful s w.log⌝⟩⦄ := by
  have keeps : Keeps (WifiAsked s c d) (fun w => Lawful s w.log) await :=
    triple_mono (await_keeps (P := WifiAsked s c d)
      (fun _ _ h => ⟨h.log, h.asked, h.staged, h.shows, h.spared, h.owed⟩)
      (fun _ _ h => ⟨h.log, h.asked, h.staged, h.shows, h.spared, h.owed⟩)
      (fun _ _ h => ⟨h.log, h.asked, h.staged, h.shows, h.spared, h.owed⟩)
      fun _ _ h => ⟨lawful_record rfl h.log, h.asked, h.staged, h.shows, h.spared, h.owed⟩)
      (fun _ h => h) (fun _ _ h => h) fun _ h => h.log
  have wait := await_breaks keeps d
  unfold commitWifi
  mvcgen [wait]
  · rename_i hs w hw
    exact hw.1.left (hw.2 (by simpa only [Bool.not_eq_true'] using hs))
  · rename_i w₀ hw₀ _ _ w hw _ _
    show Due s (w.record (.keptWifi w₀.stagedWifi)).publishWifi
    rw [hw₀.1.staged]
    exact hw.1.due

theorem Due.failed {w : World} (h : Due s w) (hf : w.health = .fault) : Configured s w :=
  ⟨h.log, fun hn => absurd hf hn⟩

/-- A record of the host is committed, and then what the engine has staged. -/
theorem commit_record {P : World → Prop} {store : Async Bool}
    (hstore : ⦃fun w => ⌜P w⌝⦄ store ⦃post⟨fun ok w => ⌜Committed s ok w⌝, fun _ w => ⌜Lawful s w.log⌝⟩⦄)
    (id : UInt64) :
    ⦃fun w => ⌜P w⌝⦄
    (do
      let ok ← store
      let next (goOn : Bool) : Async Unit := do
        if goOn then
          if ← commit C then commitReply
          else reply (.err (← get).replyId .storageFault) none
      if !ok then do
        reply (.err id .storageFault) none
        next ok
      else next ok : Async Unit)
    ⦃post⟨fun _ w => ⌜Configured s w⌝, fun _ w => ⌜Lawful s w.log⌝⟩⦄ := by
  have commit := (due_frame s).commits_fault (C := C)
  have done := commitReply_due (s := s)
  have reply (r : Reply) : Keeps (Configured s) (fun w => Lawful s w.log) (reply r none) :=
    triple_iff.mpr fun _ hw => hw.record rfl
  mvcgen [hstore, commit, done, reply]
  all_goals grind [Committed, Due.failed]

theorem onNeedsCommit_settings (settings : Settings) :
    ⦃fun w => ⌜SettingsAsked s settings d w ∧ (breaks w.wakes = true → d)⌝⦄ onNeedsCommit C
    ⦃post⟨fun _ w => ⌜Configured s w⌝, fun _ w => ⌜Lawful s w.log⌝⟩⦄ := by
  refine triple_get fun w hw => ?_
  obtain ⟨id, key, value, clamped, ho⟩ := hw.1.owed
  rw [ho]
  exact commit_record (commitSettings_asked settings) w.replyId

theorem onNeedsCommit_wifi (c : Option (List UInt8 × List UInt8)) :
    ⦃fun w => ⌜WifiAsked s c d w ∧ (breaks w.wakes = true → d)⌝⦄ onNeedsCommit C
    ⦃post⟨fun _ w => ⌜Configured s w⌝, fun _ w => ⌜Lawful s w.log⌝⟩⦄ := by
  refine triple_get fun w hw => ?_
  obtain ⟨id, ho⟩ := hw.1.owed
  rw [ho]
  cases c with
  | none => exact commit_record (commitWifi_asked none) w.replyId
  | some c => exact commit_record (commitWifi_asked (some c)) w.replyId

end

/-! ### Lines -/

/-- What a dispatched line leaves to be done. -/
def Dispatches (s : Stored) (o : Outcome) (w : World) : Prop :=
  match o with
  | .needsCommit =>
    Owes s OwesPlain w ∨ (∃ settings, SettingsAsked s settings (breaks w.wakes = true) w) ∨
      ∃ c, WifiAsked s c (breaks w.wakes = true) w
  | _ => Configured s w

section

variable {C : Crypto} {s : Stored}

theorem onNeedsCommit_dispatches :
    ⦃fun w => ⌜Dispatches s .needsCommit w⌝⦄ onNeedsCommit C
    ⦃post⟨fun _ w => ⌜Configured s w⌝, fun _ w => ⌜Lawful s w.log⌝⟩⦄ := by
  refine triple_iff.mpr fun w hw => ?_
  rcases hw with hw | ⟨settings, hw⟩ | ⟨c, hw⟩
  · exact triple_iff.mp (triple_mono onNeedsCommit_plain (fun _ h => h) (fun _ _ h => h.1) fun _ h => h) w hw
  · exact triple_iff.mp (onNeedsCommit_settings settings) w ⟨hw, id⟩
  · exact triple_iff.mp (onNeedsCommit_wifi c) w ⟨hw, id⟩

theorem onUsbOutcome_dispatches (o : Outcome) :
    ⦃fun w => ⌜Dispatches s o w⌝⦄ onUsbOutcome C o
    ⦃post⟨fun _ w => ⌜Configured s w⌝, fun _ w => ⌜Lawful s w.log⌝⟩⦄ := by
  have frame := configured_frame s
  have trng := driveTrngOp_ends (frame.idle (C := C))
  have send := driveSendPrep_ends (frame.free (C := C)).toSendsKeep
  have ping := drivePingPrep_ends (frame.pinging (C := C) (configured_unpinged s))
  have commit := onNeedsCommit_dispatches (C := C) (s := s)
  have reply (r : Reply) := frame.replies r none nofun
  unfold onUsbOutcome
  cases o with
  | needsCommit => mvcgen [commit]
  | needsRebootBootsel =>
      mvcgen [reply]
      rename_i w hw
      have hw : Configured s w := hw
      exact hw.of_shown rfl rfl rfl
  | _ =>
      mvcgen [trng, send, ping, commit, reply]
      all_goals
        have hw : _ ≠ Outcome.needsCommit ∧ Configured s _ := ‹_›
        first
          | exact absurd rfl hw.1
          | exact hw.2
          | exact hw.2.of_shown rfl rfl rfl

theorem onLine_dispatches (line : Line) {P : World → Prop}
    (dispatch : ⦃fun w => ⌜P w⌝⦄ dispatchLine C line
      ⦃post⟨fun o w => ⌜∀ snapshot, Dispatches s o (w.record (.dispatched line snapshot))⌝, fun _ w => ⌜Lawful s w.log⌝⟩⦄) :
    ⦃fun w => ⌜P w⌝⦄ onLine C line ⦃post⟨fun _ w => ⌜Configured s w⌝, fun _ w => ⌜Lawful s w.log⌝⟩⦄ := by
  have outcome := onUsbOutcome_dispatches (C := C) (s := s)
  unfold onLine
  mvcgen [dispatch, outcome]
  have hw : ∀ snapshot, Dispatches s _ _ := ‹_›
  exact hw _

/-- A line that asks for nothing to be configured. -/
theorem dispatch_plain (id : UInt64) {req : Request} (hreq : req.configures = false ∨ ∃ count, req = .ping count) :
    ⦃fun w => ⌜Configured s w⌝⦄ dispatch C id req
    ⦃post⟨fun o w => ⌜(o = .needsCommit → OwesPlain w.stagedReply) ∧ Configured s w⌝, fun _ w => ⌜Lawful s w.log⌝⟩⦄ := by
  rcases hreq with hreq | ⟨count, rfl⟩
  · refine triple_mono (dispatch_settles (configured_frame s) (fun _ h => h.of_shown rfl rfl rfl) id hreq)
      (fun _ h => h) ?_ fun _ h => h
    rintro o w ⟨ho, hw⟩
    refine ⟨?_, hw⟩
    rintro rfl
    obtain ⟨owed, hr, hs⟩ := ho
    intro owed' hr'
    rw [hr] at hr'
    cases hr'
    exact hs
  · unfold dispatch opPing
    mvcgen
    all_goals
      have hw : Configured s _ := ‹_›
      exact ⟨fun ho => (by cases ho), hw.of_shown rfl rfl rfl⟩

theorem onLine_plain (line : Line)
    (hline : ∀ id req, line = .request id req → req.configures = false ∨ ∃ count, req = .ping count) :
    Keeps (Configured s) (fun w => Lawful s w.log) (onLine C line) := by
  refine onLine_dispatches line ?_
  cases line with
  | tooLong => exact triple_iff.mpr fun w hw snapshot => hw.record rfl
  | malformed => exact triple_iff.mpr fun w hw snapshot => hw.record rfl
  | request id req =>
      have dispatch := dispatch_plain (C := C) (s := s) id (hline id req rfl)
      unfold dispatchLine
      mvcgen [dispatch]
      · have hw : Configured s _ := ‹_›
        exact hw.of_shown rfl rfl rfl
      · rename_i o w
        intro ho hw snapshot
        cases o with
        | needsCommit => exact .inl ⟨hw.record rfl, ho rfl⟩
        | _ => exact hw.record rfl

end

/-! ### A line that configures -/

/-- What `wifi_set` refuses. -/
def wifiRefused (ssid pass : List UInt8) : Bool :=
  ssid.length < 1 || 32 < ssid.length || 63 < pass.length || !fromUtf8 ssid || !fromUtf8 pass

/-- The commit of a record fails only where that leaves nothing else: the settings are the defaults, or the
credential is as long as one that is configured. -/
def World.Spared (w : World) : Line → Prop
  | .request _ (.settingsSet (some key) (some value)) =>
    (w.settings.set key value).isSome = true → w.settings = .default
  | .request _ (.wifiSet (some ssid) (some pass)) =>
    wifiRefused ssid pass = false → w.wifiConfigured = true ∧ w.wifiSsidLen = ssid.length
  | _ => True

instance (w : World) (line : Line) : Decidable (w.Spared line) := by
  unfold World.Spared
  split
  · infer_instance
  · infer_instance
  · infer_instance

section

variable {C : Crypto} {s : Stored}

theorem set_ne_txPower {settings : Settings} {key : SettingKey} {value : ℤ} {r : Settings × Bool}
    (h : settings.set key value = some r) : (key == SettingKey.txPower) = false := by
  cases key with
  | txPower => cases h
  | _ => rfl

theorem settingsAsked {w : World} {id : UInt64} {key : SettingKey} {value : ℤ} {settings : Settings} {clamped : Bool}
    (h : Configured s w) (hh : w.health ≠ .fault) (hset : w.settings.set key value = some (settings, clamped))
    (hok : breaks w.wakes = true → w.Spared (.request id (.settingsSet (some key) (some value))))
    (snapshot : Option (List UInt8)) :
    SettingsAsked s settings (breaks w.wakes = true)
      ({ w with
          replyId := id
          settings := settings
          settingsTxPending := w.settingsTxPending || (key == SettingKey.txPower && w.engine.radioOn)
          stagedReply := some (.settingsSet id key (settings.value key) clamped) }.record
        (.dispatched (.request id (.settingsSet (some key) (some value))) snapshot)) := by
  have hs := h.shows hh
  refine ⟨lawful_record rfl h.log, ?_, ⟨rfl, ?_, hs.configured, hs.length, hs.staged⟩, ?_, ⟨_, _, _, _, rfl⟩⟩
  · show some ((storedAfter s w.log).apply (.request id (.settingsSet (some key) (some value)))) = _
    simp only [Stored.apply, ← hs.settings, hset]
    rfl
  · show (w.settingsTxPending || (key == SettingKey.txPower && w.engine.radioOn)) = false
    rw [hs.applied, set_ne_txPower hset]
    rfl
  · intro hb
    exact hs.settings.symm.trans (hok hb (by rw [hset]; rfl))

theorem wifiSetAsked {w : World} {id : UInt64} {ssid pass : List UInt8} (h : Configured s w) (hh : w.health ≠ .fault)
    (hvalid : wifiRefused ssid pass = false)
    (hok : breaks w.wakes = true → w.Spared (.request id (.wifiSet (some ssid) (some pass))))
    (snapshot : Option (List UInt8)) :
    WifiAsked s (some (ssid, pass)) (breaks w.wakes = true)
      ({ w with replyId := id, stagedWifi := some (ssid, pass), stagedReply := some (.wifiSet id) }.record
        (.dispatched (.request id (.wifiSet (some ssid) (some pass))) snapshot)) := by
  have hs := h.shows hh
  refine ⟨lawful_record rfl h.log, rfl, rfl, ⟨hs.settings, hs.applied, hs.configured, hs.length, nofun⟩, ?_, ⟨_, rfl⟩⟩
  rintro hb c ⟨⟩
  obtain ⟨hconf, hlen⟩ := hok hb hvalid
  exact ⟨hs.configured.symm.trans hconf, hlen.symm.trans hs.length⟩

theorem wifiForgetAsked {w : World} {id : UInt64} (h : Configured s w) (hh : w.health ≠ .fault)
    (snapshot : Option (List UInt8)) :
    WifiAsked s none (breaks w.wakes = true)
      ({ w with replyId := id, stagedWifi := none, stagedReply := some (.wifiForget id) }.record
        (.dispatched (.request id .wifiForget) snapshot)) := by
  have hs := h.shows hh
  exact ⟨lawful_record rfl h.log, rfl, rfl, ⟨hs.settings, hs.applied, hs.configured, hs.length, nofun⟩, fun _ => nofun,
    ⟨_, rfl⟩⟩

theorem Configured.refused {w : World} (h : Configured s w) (id : UInt64) (r : Reply) (line : Line)
    (snapshot : Option (List UInt8)) :
    Dispatches s (.inline r) ({ w with replyId := id }.record (.dispatched line snapshot)) := by
  have h' : Configured s { w with replyId := id } := h.of_shown rfl rfl rfl
  exact h'.record rfl

theorem onLine_configured (line : Line) :
    ⦃fun w => ⌜Configured s w ∧ (w.health ≠ .fault → breaks w.wakes = true → w.Spared line)⌝⦄ onLine C line
    ⦃post⟨fun _ w => ⌜Configured s w⌝, fun _ w => ⌜Lawful s w.log⌝⟩⦄ := by
  by_cases hline : ∀ id req, line = .request id req → req.configures = false ∨ ∃ count, req = .ping count
  · exact triple_mono (onLine_plain line hline) (fun _ h => h.1) (fun _ _ h => h) fun _ h => h
  · refine onLine_dispatches line ?_
    cases line with
    | tooLong => exact absurd nofun hline
    | malformed => exact absurd nofun hline
    | request id req =>
        unfold dispatchLine dispatch opSettingsSet opWifiSet opWifiForget
        cases req with
        | settingsSet key value =>
            mvcgen
            case vc3 =>
              rename_i w hw _ hh key value _ _ settings clamped hset
              subst_vars
              exact fun snapshot => .inr (.inl ⟨settings, settingsAsked hw.1 hh hset (hw.2 hh) snapshot⟩)
            all_goals
              have hw : Configured s _ ∧ _ := ‹_›
              exact hw.1.refused id _ _
        | wifiSet ssid pass =>
            mvcgen
            case vc3 =>
              rename_i w hw _ hh ssid pass _ _ hvalid _
              subst_vars
              have hvalid : wifiRefused ssid pass = false := Bool.eq_false_iff.mpr hvalid
              exact fun snapshot => .inr (.inr ⟨_, wifiSetAsked hw.1 hh hvalid (hw.2 hh) snapshot⟩)
            all_goals
              have hw : Configured s _ ∧ _ := ‹_›
              exact hw.1.refused id _ _
        | wifiForget =>
            mvcgen -trivial
            · rename_i hw _ _
              exact hw.1.refused id _ _
            · rename_i hw _ hh _
              exact fun snapshot => .inr (.inr ⟨none, wifiForgetAsked hw.1 hh snapshot⟩)
        | ping count => exact absurd (by rintro _ _ ⟨⟩; exact .inr ⟨_, rfl⟩) hline
        | _ => exact absurd (by rintro _ _ ⟨⟩; exact .inl rfl) hline

/-! ### Runs -/

/-- No commit of a configuration fails that leaves something else behind. -/
def ConfigOk (w : World) (i : Input) : Prop :=
  match i.turn with
  | .usb line => w.suspended = true ∨ w.health = .fault ∨ breaks i.wakes = false ∨ w.Spared line
  | _ => True

instance (w : World) (i : Input) : Decidable (ConfigOk w i) := by
  unfold ConfigOk
  split
  · infer_instance
  · infer_instance

theorem step_configured {w : World} {i : Input} (hok : ConfigOk w i)
    (hw : if w.suspended then Lawful s w.log else Configured s w) :
    if (w.step C i).suspended then Lawful s (w.step C i).log else Configured s (w.step C i) := by
  by_cases hs : w.suspended = true
  · have hstep : w.step C i = w := if_pos hs
    rwa [hstep]
  · have frame := configured_frame s
    refine step_of_turn (I := Configured s) (S := fun w => Lawful s w.log) frame.stands frame.stood w i ?_
      (fun hw => hw.of_shown rfl rfl rfl) hw
    by_cases hline : ∃ line, i.turn = .usb line
    · obtain ⟨line, hturn⟩ := hline
      simp only [ConfigOk, hturn] at hok
      rw [hturn]
      refine triple_mono (onLine_configured line) ?_ (fun _ _ h => h) fun _ h => h
      rintro _ ⟨rfl, h⟩
      refine ⟨h, fun hh hb => ?_⟩
      rcases hok with hsus | hf | hn | hspared
      · exact absurd hsus hs
      · exact absurd hf hh
      · exact absurd hb (by rw [hn]; exact Bool.false_ne_true)
      · exact hspared
    · exact triple_mono (turn_keeps (frame.relay (configured_unpinged s)) i.turn fun line hl => absurd ⟨line, hl⟩ hline)
        (fun _ h => h.2) (fun _ _ h => h) fun _ h => h

end

/-- The records are those that were asked for, and the reports those of the records. -/
structure ConfigurationKept (C : Crypto) (stored : Option (List UInt8)) (uid : Bytes 8) (hw : Bool) (s : Stored)
    (w : World) : Prop where
  lawful : Lawful s w.log
  settings : w.suspended = false → w.health ≠ .fault →
    ∀ filter, w.settingsGet filter = ((storedAfter s w.log).boot C stored uid hw).settingsGet filter
  wifi : w.suspended = false → w.health ≠ .fault →
    w.wifiStatus = ((storedAfter s w.log).boot C stored uid hw).wifiStatus

/-- What is configured is what is stored, in every run in which no commit fails that leaves something else. -/
theorem configuration_kept (C : Crypto) (stored : Option (List UInt8)) (uid : Bytes 8) (hw : Bool) (s : Stored)
    (is : List Input) (hok : Along (World.step C) ConfigOk (s.boot C stored uid hw) is) :
    ConfigurationKept C stored uid hw s (run (World.step C) (s.boot C stored uid hw) is) := by
  have hboot : Configured s (s.boot C stored uid hw) :=
    ⟨fun _ _ _ h => (nomatch (List.append_eq_nil_iff.mp h.symm).2), fun _ => s.boot_shows C stored uid hw⟩
  have h := run_invariant (I := fun w : World => if w.suspended then Lawful s w.log else Configured s w)
    (fun w i hw hi => step_configured hi hw) is (s := s.boot C stored uid hw) hboot hok
  generalize run (World.step C) (s.boot C stored uid hw) is = w at h
  have reports (hs : w.suspended = false) (hh : w.health ≠ .fault) := by
    rw [hs, if_neg Bool.false_ne_true] at h
    exact (h.shows hh).reports ((storedAfter s w.log).boot_shows C stored uid hw)
  refine ⟨?_, fun hs hh => (reports hs hh).1, fun hs hh => (reports hs hh).2⟩
  split at h
  · exact h
  · exact h.log

namespace Sample

/-- Nothing but the defaults is stored. -/
def unset : Stored where
  settings := .default
  wifi := none

/-- A host sends the credential of a network. -/
def joins (id : UInt64) (ssid : List UInt8) (answer : Wake) : Input where
  turn := .usb (.request id (.wifiSet (some ssid) (some [112, 119])))
  wakes := [answer, wake []]

/-- A host sets the number of transmissions. -/
def retries (id : UInt64) (count : ℤ) (answer : Wake) : Input where
  turn := .usb (.request id (.settingsSet (some .maxTx) (some count)))
  wakes := [answer, wake []]

/-- The settings fail to be stored while they are the defaults, a credential while one as long is configured. -/
def configuring : List Input :=
  [retries 1 9 (broken []), retries 2 7 (wake []), joins 3 [97, 98] (wake []), joins 4 [99, 100] (broken [])]

end Sample

theorem configuration_kept_sample :
    ConfigurationKept Sample.crypto none (Sample.bytes8 1) true Sample.unset
      (run (World.step Sample.crypto) (Sample.unset.boot Sample.crypto none (Sample.bytes8 1) true)
        Sample.configuring) :=
  configuration_kept Sample.crypto none (Sample.bytes8 1) true Sample.unset Sample.configuring (by decide +kernel)

/-- A credential that was not stored is reported as configured, and where settings fail to be stored, those that are
stored are not reported. -/
theorem configuration_lost :
    (¬ ConfigurationKept Sample.crypto none (Sample.bytes8 1) true Sample.unset
      (run (World.step Sample.crypto) (Sample.unset.boot Sample.crypto none (Sample.bytes8 1) true)
        [Sample.joins 1 [97] (Sample.broken [])])) ∧
    ¬ ConfigurationKept Sample.crypto none (Sample.bytes8 1) true Sample.unset
      (run (World.step Sample.crypto) (Sample.unset.boot Sample.crypto none (Sample.bytes8 1) true)
        [Sample.retries 1 7 (Sample.wake []), Sample.retries 2 9 (Sample.broken [])]) := by
  constructor
  · intro h
    exact absurd (h.wifi (by decide +kernel) (by decide +kernel)) (by decide +kernel)
  · intro h
    exact absurd (h.settings (by decide +kernel) (by decide +kernel) none) (by decide +kernel)

end LoraMesh
