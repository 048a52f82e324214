import LoraMesh.Firmware.Flash

/-!
# Firmware — PowerCycle

A reset of the radio image at any point of a run, and the boot after it.  What the boot takes up is the flash that
the storage owner has left, byte for byte; nothing is carried over in memory.

* `Storable`: whatever is handed to the storage owner can be read back from its record.
* `records_exact`: the records of the settings and of the credential.
* `power_cycle`: the boot finds what was stored last, whatever the flash held before.
* `power_cycle_reports`: so a host is told the same before and after.
-/

namespace LoraMesh

open Std.Do

set_option mvcgen.warning false

/-- **The records.**  Settings in range come back from their record, and whatever is accepted is in range; the accepted
WiFi records are those of the credentials that can be set, which come back with the bytes that were set. -/
theorem records_exact :
    (∀ s : Settings, s.InRange → Settings.decode s.encode = some s) ∧
    (∀ bytes s, Settings.decode bytes = some s → s.InRange) ∧
    (∀ (s s' : Settings) key value clamped, s.InRange → s.set key value = some (s', clamped) →
      Settings.decode s'.encode = some s') ∧
    (∀ bytes c, WifiCred.decode bytes = some c ↔
      (∃ ssid pass, WifiCred.fromSlices ssid pass = some c) ∧ bytes = c.encode) ∧
    ∀ ssid pass c, WifiCred.fromSlices ssid pass = some c → c.used = (ssid, pass) := by
  refine ⟨fun s h => Settings.decode_encode h, fun bytes s h => Settings.decode_inRange h,
    fun s s' key value clamped hs h => Settings.decode_encode (hs.set h), fun bytes c => ?_,
    fun ssid pass c h => (WifiCred.fromSlices_iff.mp h).2⟩
  rw [WifiCred.decode_iff]
  constructor
  · rintro ⟨hv, hb⟩
    exact ⟨⟨c.used.1, c.used.2, WifiCred.fromSlices_iff.mpr ⟨hv, rfl⟩⟩, hb⟩
  · rintro ⟨⟨ssid, pass, h⟩, hb⟩
    exact ⟨(WifiCred.fromSlices_iff.mp h).1, hb⟩

theorem records_exact_sample : Settings.decode Settings.default.encode = some .default :=
  records_exact.1 .default Settings.default_inRange

/-! ### What is handed to the storage owner -/

def LogFits (w : World) : Prop := ∀ x ∈ w.log, x.Fits

/-- The live settings and the staged credential can be stored, and all that was stored could. -/
structure Storable (w : World) : Prop where
  settings : w.settings.InRange
  staged : ∀ c, w.stagedWifi = some c → (WifiCred.fromSlices c.1 c.2).isSome = true
  log : LogFits w

theorem fits_unkept {x : Happening} (hx : x.kept = false) : x.Fits := by
  cases x with
  | keptSettings => cases hx
  | keptWifi => cases hx
  | _ => trivial

theorem LogFits.record {w : World} (h : LogFits w) {x : Happening} (hx : x.Fits) : LogFits (w.record x) := by
  intro y hy
  rcases List.mem_cons.mp hy with rfl | hy
  · exact hx
  · exact h y hy

section

variable {w w' : World}

theorem Storable.of_parts (h : Storable w) (hs : w'.settings = w.settings)
    (hw : ∀ c, w'.stagedWifi = some c → w.stagedWifi = some c) (hl : w'.log = w.log) : Storable w' where
  settings := hs ▸ h.settings
  staged c hc := h.staged c (hw c hc)
  log x hx := h.log x (hl ▸ hx)

theorem Storable.record (h : Storable w) {x : Happening} (hx : x.Fits) : Storable (w.record x) :=
  ⟨h.settings, h.staged, h.log.record hx⟩

/-- The credential is published and dropped. -/
theorem Storable.published (h : Storable w) : Storable w.publishWifi := by
  have hdropped (n : ℕ) : Storable { w with wifiSsidLen := n, stagedWifi := none } :=
    h.of_parts rfl (fun _ hc => (by cases hc)) rfl
  unfold World.publishWifi
  dsimp only
  split
  · split
    · exact hdropped _
    · exact (hdropped _).record trivial
  · exact hdropped _

end

theorem storable_frame : HostFrame Storable LogFits where
  stands _ h := h.log
  stood h := h
  view h hv := by
    simp only [World.hostSide, World.config, Prod.mk.injEq] at hv
    obtain ⟨-, -, -, ⟨hs, -, hw, -, -, -⟩, hl⟩ := hv
    exact h.of_parts hs (fun c hc => hw ▸ hc) hl
  record h hx := h.record (fits_unkept (kept_unheeded hx))
  noPing h := h.of_parts rfl (fun _ hc => hc) rfl
  fault h := h.of_parts rfl (fun _ hc => hc) rfl

theorem storable_unpinged : Unpinged Storable where
  pings _ _ h := h.of_parts rfl (fun _ hc => hc) rfl
  notes hx h := h.record (fits_unkept hx)

section

variable {C : Crypto}

theorem commitSettings_storable : Keeps Storable LogFits commitSettings := by
  have wait := storable_frame.wait
  unfold commitSettings
  mvcgen [wait]
  -- the record is that of the settings as they were before the wait
  · rename_i w₀ hw₀ _ _ w hw _
    have hw : Storable w := hw
    exact hw.record (hw₀ : Storable w₀).settings
  -- the commit failed: the defaults are taken up
  · rename_i w hw _
    have hw : Storable w := hw
    exact ⟨Settings.default_inRange, hw.staged, hw.log⟩

theorem commitWifi_storable : Keeps Storable LogFits commitWifi := by
  have wait := storable_frame.wait
  unfold commitWifi
  mvcgen [wait]
  rename_i w₀ hw₀ _ _ w hw _ _
  have hw : Storable w := hw
  have hfits : (Happening.keptWifi w₀.stagedWifi).Fits := by
    cases hc : w₀.stagedWifi with
    | none => trivial
    | some c => exact (hw₀ : Storable w₀).staged c hc
  exact (hw.record hfits).published

theorem commitReply_storable : Keeps Storable LogFits commitReply := by
  have reply (r : Reply) := storable_frame.replies r none (Option.some_ne_none _).symm
  unfold commitReply
  mvcgen [reply]
  all_goals
    have hw : Storable _ := ‹_›
    first
      | exact hw.of_parts rfl (fun _ hc => hc) rfl
      | exact hw.of_parts rfl (fun _ hc => (by cases hc)) rfl

theorem controlSetRadio_storable (id : UInt64) (enabled : Bool) :
    Keeps Storable LogFits (controlSetRadio C id enabled) := by
  have commit := storable_frame.commits (C := C)
  have sync := storable_frame.sync
  have alloc := storable_frame.alloc
  have queue (cmd : ℕ) := storable_frame.queue (.setEnabled cmd enabled) .control
  have barrier := barrier_keeps (storable_frame.relay (C := C) storable_unpinged)
  have clear := clearInFlight_keeps (storable_frame.free (C := C)) enabled
  have reply (r : Reply) := storable_frame.replies r none (Option.some_ne_none _).symm
  have done := commitReply_storable
  unfold controlSetRadio emitErr
  mvcgen [commit, sync, alloc, queue, barrier, clear, reply, done]
  all_goals
    have hw : Storable _ := ‹_›
    exact hw.of_parts rfl (fun _ hc => hc) rfl

theorem controlSetBlocked_storable (id : UInt64) : Keeps Storable LogFits (controlSetBlocked C id) := by
  have commit := storable_frame.commits (C := C)
  have sync := storable_frame.sync
  have barrier := barrier_keeps (storable_frame.relay (C := C) storable_unpinged)
  have reply (r : Reply) := storable_frame.replies r none (Option.some_ne_none _).symm
  have done := commitReply_storable
  unfold controlSetBlocked emitErr
  mvcgen [commit, sync, barrier, reply, done]

theorem onNeedsCommit_storable : Keeps Storable LogFits (onNeedsCommit C) := by
  have setRadio := controlSetRadio_storable (C := C)
  have setBlocked := controlSetBlocked_storable (C := C)
  have delete := controlDelete_keeps (storable_frame.relay (C := C) storable_unpinged)
  have settings := commitSettings_storable
  have wifi := commitWifi_storable
  have commit := storable_frame.commits (C := C)
  have reply (r : Reply) := storable_frame.replies r none (Option.some_ne_none _).symm
  have done := commitReply_storable
  unfold onNeedsCommit emitErr
  mvcgen [setRadio, setBlocked, delete, settings, wifi, commit, reply, done]
  all_goals
    have hw : Storable _ := ‹_›
    exact hw.of_parts rfl (fun _ hc => hc) rfl

theorem onUsbOutcome_storable (o : Outcome) : Keeps Storable LogFits (onUsbOutcome C o) := by
  have trng := defers (driveTrngOp_ends (storable_frame.idle (C := C)))
  have send := defers (driveSendPrep_ends (storable_frame.free (C := C)).toSendsKeep)
  have ping := defers (drivePingPrep_ends (storable_frame.pinging (C := C) storable_unpinged))
  have commit := onNeedsCommit_storable (C := C)
  have reply (r : Reply) := storable_frame.replies r none (Option.some_ne_none _).symm
  unfold onUsbOutcome
  mvcgen [trng, send, ping, commit, reply]
  all_goals
    have hw : Storable _ := ‹_›
    exact hw.of_parts rfl (fun _ hc => hc) rfl

/-- What `wifi_set` takes can be stored. -/
theorem fromSlices_taken {ssid pass : List UInt8} (h : wifiRefused ssid pass = false) :
    (WifiCred.fromSlices ssid pass).isSome = true := by
  simp only [wifiRefused, Bool.or_eq_false_iff, decide_eq_false_iff_not, Nat.not_lt] at h
  obtain ⟨⟨⟨⟨hne, hssid⟩, hpass⟩, -⟩, -⟩ := h
  rw [WifiCred.fromSlices, if_neg]
  · rfl
  · simp only [not_or, Nat.not_lt]
    exact ⟨List.length_pos_iff.mp hne, hssid, hpass⟩

/-- What a host asks to be stored can be. -/
theorem dispatch_storable (id : UInt64) (req : Request) : Keeps Storable LogFits (dispatch C id req) := by
  by_cases hreq : req.configures = false
  · exact triple_mono (dispatch_settles storable_frame (fun _ h => h.of_parts rfl (fun _ hc => hc) rfl) id hreq)
      (fun _ h => h) (fun _ _ h => h.2) fun _ h => h
  · unfold dispatch opPing opSettingsSet opWifiSet opWifiForget
    cases req with
    | settingsSet key value =>
        mvcgen
        all_goals
          have hw : Storable _ := ‹_›
          first
            | exact hw
            | exact ⟨hw.settings.set ‹_›, hw.staged, hw.log⟩
    | wifiSet ssid pass =>
        mvcgen
        rename_i w hw _ ssid pass _ _ hvalid _
        have hw : Storable w := hw
        refine ⟨hw.settings, ?_, hw.log⟩
        -- the credential is staged only when its lengths are those of a record
        rintro c ⟨⟩
        exact fromSlices_taken (Bool.eq_false_iff.mpr hvalid)
    | wifiForget =>
        mvcgen
        all_goals
          have hw : Storable _ := ‹_›
          first
            | exact hw
            | exact hw.of_parts rfl (fun _ hc => (by cases hc)) rfl
    | ping count =>
        mvcgen
        all_goals
          have hw : Storable _ := ‹_›
          first
            | exact hw
            | exact hw.of_parts rfl (fun _ hc => hc) rfl
    | _ => exact absurd rfl hreq

theorem onLine_storable (line : Line) : Keeps Storable LogFits (onLine C line) := by
  have dispatch := dispatch_storable (C := C)
  have outcome := onUsbOutcome_storable (C := C)
  unfold onLine dispatchLine
  cases line with
  | request id req =>
      mvcgen [dispatch, outcome]
      all_goals
        have hw : Storable _ := ‹_›
        first
          | exact hw.of_parts rfl (fun _ hc => hc) rfl
          | exact hw.record trivial
  | _ =>
      mvcgen [outcome]
      all_goals
        have hw : Storable _ := ‹_›
        exact hw.record trivial

/-- Whatever is stored in a run can be read back. -/
theorem run_fits {st : Stored} (hs : st.settings.InRange) (stored : Option (List UInt8)) (uid : Bytes 8) (hw : Bool)
    (is : List Input) : LogFits (run (World.step C) (st.boot C stored uid hw) is) :=
  run_stands (storable_frame.relay storable_unpinged) is (fun _ _ l _ => onLine_storable l) rfl
    ⟨hs, fun _ hc => (by cases hc), fun _ hx => absurd hx List.not_mem_nil⟩

end

/-! ### Power cycles -/

section

variable {σ : Type} {M : MapStorage σ}

/-- **Power cycle.**  Whatever the flash holds, a boot takes up a node record, settings and a credential; and the boot
from the flash as a run has left it takes up those that the run has stored last. -/
theorem power_cycle (hM : M.Lawful) (C : Crypto) {s₀ s : σ} {uid uid' : Bytes 8} {hw hw' : Bool} {w₀ : World}
    {cred₀ : Option WifiCred} (h₀ : World.bootFrom M s₀ C uid hw = some (w₀, cred₀)) (is : List Input)
    (hs : M.Follows s₀ (run (World.step C) w₀ is).log s) :
    ∃ stored st, w₀ = st.boot C stored uid hw ∧ cred₀ = st.cred ∧
      World.bootFrom M s C uid' hw' =
        some ((storedAfter st (run (World.step C) w₀ is).log).boot C (flash stored (run (World.step C) w₀ is).log)
          uid' hw', (storedAfter st (run (World.step C) w₀ is).log).cred) := by
  obtain ⟨stored, st, hst⟩ := exists_holds M s₀
  rw [bootFrom_holds hst] at h₀
  cases h₀
  have hend := holds_follows hM hst hs (run_fits hst.fits.1 stored uid hw is)
  exact ⟨stored, st, rfl, rfl, bootFrom_holds hend C uid' hw'⟩

/-- A host is told the same after a power cycle as before it, in every run in which no commit of a configuration fails
that leaves something else. -/
theorem power_cycle_reports (hM : M.Lawful) (C : Crypto) {s₀ s : σ} {uid uid' : Bytes 8} {hw hw' : Bool}
    {w₀ : World} {cred₀ : Option WifiCred} (h₀ : World.bootFrom M s₀ C uid hw = some (w₀, cred₀)) (is : List Input)
    (hok : Along (World.step C) ConfigOk w₀ is) (hs : M.Follows s₀ (run (World.step C) w₀ is).log s)
    (hawake : (run (World.step C) w₀ is).suspended = false) (hready : (run (World.step C) w₀ is).health ≠ .fault) :
    ∃ w cred, World.bootFrom M s C uid' hw' = some (w, cred) ∧ cred.isSome = w.wifiConfigured ∧
      (∀ filter, (run (World.step C) w₀ is).settingsGet filter = w.settingsGet filter) ∧
      (run (World.step C) w₀ is).wifiStatus = w.wifiStatus := by
  obtain ⟨stored, st, hst⟩ := exists_holds M s₀
  rw [bootFrom_holds hst] at h₀
  cases h₀
  have hend := holds_follows hM hst hs (run_fits hst.fits.1 stored uid hw is)
  refine ⟨_, _, bootFrom_holds hend C uid' hw', hend.cred_isSome, ?_⟩
  have hboot : Configured st (st.boot C stored uid hw) :=
    ⟨fun _ _ _ h => absurd (List.append_eq_nil_iff.mp h.symm).2 (List.cons_ne_nil _ _),
      fun _ => st.boot_shows C stored uid hw⟩
  -- of a run that is still in a wait only the log is known
  have h := run_invariant (I := fun w : World => if w.suspended then Lawful st w.log else Configured st w)
    (fun w i hw hi => step_configured hi hw) is (s := st.boot C stored uid hw) hboot hok
  rw [hawake, if_neg Bool.false_ne_true] at h
  exact (h.shows hready).reports (Stored.boot_shows _ C _ uid' hw')

/-! ### A flash that does not fail -/

/-- The owner's answers to the writes of a log are those of a flash that does not fail. -/
def Happening.smooth : Happening → Bool
  | .stored bytes _ ok => ok && bytes.length == persistLen
  | _ => true

/-- The flash after the writes of a log. -/
def flashAfter (M : MapStorage σ) (s₀ : σ) : List Happening → σ
  | [] => s₀
  | .stored bytes _ _ :: log => (M.serve (flashAfter M s₀ log) (.commit bytes bytes.length)).2
  | .keptSettings settings :: log => (M.serve (flashAfter M s₀ log) (.commitSettings settings.encode)).2
  | .keptWifi wifi :: log => (M.serve (flashAfter M s₀ log) (.commitWifi (wifiRecord wifi))).2
  | _ :: log => flashAfter M s₀ log

theorem follows_flashAfter (hM : ∀ s key item, (M.storeItem s key item).1 = true) (s₀ : σ) {log : List Happening}
    (h : log.all Happening.smooth = true) : M.Follows s₀ log (flashAfter M s₀ log) := by
  induction log with
  | nil => exact .start
  | cons x log ih =>
      obtain ⟨hx, hlog⟩ := Bool.and_eq_true_iff.mp h
      have hrest := ih hlog
      cases x with
      | stored bytes pending ok =>
          obtain ⟨rfl, hlen⟩ := Bool.and_eq_true_iff.mp hx
          refine .node bytes pending true hrest ?_
          simp only [MapStorage.serve, if_neg (not_not.mpr (beq_iff_eq.mp hlen)), hM]
      | keptSettings settings =>
          refine .settings settings hrest ?_
          simp only [MapStorage.serve, hM]
      | keptWifi wifi =>
          refine .wifi wifi hrest ?_
          simp only [MapStorage.serve, hM]
      | _ => exact .other hrest rfl

end

namespace Sample

/-- A flash that does not fail. -/
def plainFlash : MapStorage (UInt8 → Option (List UInt8)) where
  fetchItem s key := .ok (s key)
  storeItem s key item := (true, fun other => if other = key then some item else s other)

theorem plainFlash_lawful : plainFlash.Lawful where
  stored s key item _ := congrArg Except.ok (if_pos rfl)
  failed _ _ _ h := (by cases h)
  apart s key item other h := congrArg Except.ok (if_neg h)

/-- A host sets the number of transmissions and joins a network. -/
def setsUp : List Input := [retries 1 7 (wake []), joins 2 [97, 98] (wake [])]

def setUp : World :=
  run (World.step crypto) (unset.boot crypto none (bytes8 1) true) setsUp

theorem unset_held : plainFlash.Holds (fun _ => none) none unset :=
  ⟨rfl, rfl, rfl⟩

theorem unset_booted :
    World.bootFrom plainFlash (fun _ => none) crypto (bytes8 1) true =
      some (unset.boot crypto none (bytes8 1) true, none) :=
  bootFrom_holds unset_held crypto (bytes8 1) true

end Sample

theorem power_cycle_sample :
    ∃ stored st, Sample.unset.boot Sample.crypto none (Sample.bytes8 1) true =
        Stored.boot st Sample.crypto stored (Sample.bytes8 1) true ∧ none = st.cred ∧
      World.bootFrom Sample.plainFlash (flashAfter Sample.plainFlash (fun _ => none) Sample.setUp.log) Sample.crypto
          (Sample.bytes8 1) true =
        some ((storedAfter st Sample.setUp.log).boot Sample.crypto (flash stored Sample.setUp.log)
          (Sample.bytes8 1) true, (storedAfter st Sample.setUp.log).cred) :=
  power_cycle Sample.plainFlash_lawful Sample.crypto Sample.unset_booted Sample.setsUp
    (follows_flashAfter (fun _ _ _ => rfl) _ (by decide +kernel))

theorem power_cycle_reports_sample :
    ∃ w cred,
      World.bootFrom Sample.plainFlash (flashAfter Sample.plainFlash (fun _ => none) Sample.setUp.log) Sample.crypto
        (Sample.bytes8 1) true = some (w, cred) ∧ cred.isSome = w.wifiConfigured ∧
      (∀ filter, Sample.setUp.settingsGet filter = w.settingsGet filter) ∧ Sample.setUp.wifiStatus = w.wifiStatus :=
  power_cycle_reports Sample.plainFlash_lawful Sample.crypto Sample.unset_booted Sample.setsUp (by decide +kernel)
    (follows_flashAfter (fun _ _ _ => rfl) _ (by decide +kernel)) (by decide +kernel) (by decide +kernel)

end LoraMesh
