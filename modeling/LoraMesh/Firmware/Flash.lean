import LoraMesh.Engine.Migration
import LoraMesh.Firmware.Configured

/-!
# Firmware — Flash

What the flash holds beside the node record, the settings (`mesh-node/src/settings.rs`) and the WiFi credential
(`firmware/src/wifi.rs`), the storage owner that writes all three (`firmware/src/storage.rs`), and the load at boot
(`firmware/src/main.rs`).

* `Settings.decode_encode`, `Settings.decode_inRange`: what a settings record brings back.
* `WifiCred.decode_iff`, `WifiCred.fromSlices_iff`: the WiFi records that are accepted are those of a credential.
* `serve`: one request of the storage owner; `MapStorage.Lawful` is what it relies on.
* `bootFrom_holds`: the load takes up what the flash holds; `holds_follows`: which is what was stored last.
-/

namespace LoraMesh

/-! ### The settings record -/

def settingsMagic : Bytes 4 := ⟨ascii "LSET", rfl⟩

def settingsVersion : UInt8 := 1

abbrev settingsLen : ℕ := 13

/-- `clamp_u32`: the value in its range, and whether it moved. -/
def clampTo (v lo hi : ℕ) : ℕ × Bool :=
  if v < lo then (lo, true)
  else if hi < v then (hi, true)
  else (v, false)

namespace Settings

/-- Clamp every field into its range; whether any moved. -/
def clampAll (s : Settings) : Settings × Bool :=
  -- the power is read-only: records of older images clamp down to 2
  ({ txPowerDbm := (clampTo s.txPowerDbm 2 2).1
     maxTx := (clampTo s.maxTx 1 10).1
     ackWaitS := (clampTo s.ackWaitS 1 60).1
     relayTtlMs := (clampTo s.relayTtlMs 1000 60000).1
     relayJitterMs := (clampTo s.relayJitterMs 20 300).1
     cadAttempts := (clampTo s.cadAttempts 1 10).1 },
    (clampTo s.txPowerDbm 2 2).2 || (clampTo s.maxTx 1 10).2 || (clampTo s.ackWaitS 1 60).2 ||
      (clampTo s.relayTtlMs 1000 60000).2 || (clampTo s.relayJitterMs 20 300).2 || (clampTo s.cadAttempts 1 10).2)

/-- The record of `SETTINGS_LEN` bytes. -/
def encode (s : Settings) : List UInt8 :=
  settingsMagic.1 ++ ([settingsVersion, .ofNat s.txPowerDbm, .ofNat s.maxTx, .ofNat s.ackWaitS] ++
    (be16 (.ofNat s.relayTtlMs) ++ (be16 (.ofNat s.relayJitterMs) ++ [.ofNat s.cadAttempts])))

/-- A record of another length, magic or version is none. -/
def decode : List UInt8 → Option Settings
  | [m₀, m₁, m₂, m₃, version, txPower, maxTx, ackWait, t₀, t₁, j₀, j₁, cad] =>
    if [m₀, m₁, m₂, m₃] ≠ settingsMagic.1 ∨ version ≠ settingsVersion then none
    else
      let s : Settings :=
        { txPowerDbm := txPower.toNat
          maxTx := maxTx.toNat
          ackWaitS := ackWait.toNat
          relayTtlMs := (ofBe16 [t₀, t₁]).toNat
          relayJitterMs := (ofBe16 [j₀, j₁]).toNat
          cadAttempts := cad.toNat }
      some s.clampAll.1
  | _ => none

/-- Every value is in the range of its key. -/
def InRange (s : Settings) : Prop := ∀ key : SettingKey, key.bounds.1 ≤ s.value key ∧ s.value key ≤ key.bounds.2

/-- The fields are `u8`, or `u16`. -/
structure Typed (s : Settings) : Prop where
  txPowerDbm : s.txPowerDbm < 2 ^ 8
  maxTx : s.maxTx < 2 ^ 8
  ackWaitS : s.ackWaitS < 2 ^ 8
  relayTtlMs : s.relayTtlMs < 2 ^ 16
  relayJitterMs : s.relayJitterMs < 2 ^ 16
  cadAttempts : s.cadAttempts < 2 ^ 8

end Settings

theorem clampTo_mem {lo hi : ℕ} (h : lo ≤ hi) (v : ℕ) : lo ≤ (clampTo v lo hi).1 ∧ (clampTo v lo hi).1 ≤ hi := by
  unfold clampTo
  split
  · exact ⟨le_rfl, h⟩
  · split
    · exact ⟨h, le_rfl⟩
    · exact ⟨Nat.le_of_not_lt ‹_›, Nat.le_of_not_lt ‹_›⟩

theorem clampTo_of_mem {lo hi v : ℕ} (h : lo ≤ v ∧ v ≤ hi) : clampTo v lo hi = (v, false) := by
  rw [clampTo, if_neg (Nat.not_lt.mpr h.1), if_neg (Nat.not_lt.mpr h.2)]

namespace Settings

/-- The ranges of `clamp_all` are those of the table. -/
theorem value_clampAll (s : Settings) (key : SettingKey) :
    s.clampAll.1.value key = (clampTo (s.value key) key.bounds.1 key.bounds.2).1 := by
  cases key <;> rfl

theorem clampAll_inRange (s : Settings) : s.clampAll.1.InRange := by
  intro key
  rw [value_clampAll]
  refine clampTo_mem ?_ _
  cases key <;> decide

/-- What is in range is left as it is. -/
theorem InRange.clampAll {s : Settings} (h : s.InRange) : s.clampAll = (s, false) := by
  have txPower : clampTo s.txPowerDbm 2 2 = (s.txPowerDbm, false) := clampTo_of_mem (h .txPower)
  have maxTx : clampTo s.maxTx 1 10 = (s.maxTx, false) := clampTo_of_mem (h .maxTx)
  have ackWait : clampTo s.ackWaitS 1 60 = (s.ackWaitS, false) := clampTo_of_mem (h .ackWait)
  have relayTtl : clampTo s.relayTtlMs 1000 60000 = (s.relayTtlMs, false) := clampTo_of_mem (h .relayTtl)
  have relayJitter : clampTo s.relayJitterMs 20 300 = (s.relayJitterMs, false) := clampTo_of_mem (h .relayJitter)
  have cadAttempts : clampTo s.cadAttempts 1 10 = (s.cadAttempts, false) := clampTo_of_mem (h .cadAttempts)
  rw [Settings.clampAll, txPower, maxTx, ackWait, relayTtl, relayJitter, cadAttempts]
  rfl

theorem InRange.typed {s : Settings} (h : s.InRange) : s.Typed where
  txPowerDbm := (h .txPower).2.trans_lt (by decide)
  maxTx := (h .maxTx).2.trans_lt (by decide)
  ackWaitS := (h .ackWait).2.trans_lt (by decide)
  relayTtlMs := (h .relayTtl).2.trans_lt (by decide)
  relayJitterMs := (h .relayJitter).2.trans_lt (by decide)
  cadAttempts := (h .cadAttempts).2.trans_lt (by decide)

theorem default_inRange : default.InRange := by
  intro key
  cases key <;> decide

/-- The value of a key that may be written, after it is set; the others are as before. -/
theorem value_set {s s' : Settings} {key : SettingKey} {value : ℤ} {clamped : Bool}
    (h : s.set key value = some (s', clamped)) (k : SettingKey) :
    s'.value k = if k = key then (max (key.bounds.1 : ℤ) (min value key.bounds.2)).toNat else s.value k := by
  cases key with
  | txPower => cases h
  | syncWord => cases h
  | _ =>
      cases h
      cases k <;> rfl

/-- A set keeps the values in range. -/
theorem InRange.set {s s' : Settings} {key : SettingKey} {value : ℤ} {clamped : Bool} (hs : s.InRange)
    (h : s.set key value = some (s', clamped)) : s'.InRange := by
  intro k
  rw [value_set h k]
  split
  · subst k
    have hle : key.bounds.1 ≤ key.bounds.2 := by cases key <;> decide
    omega
  · exact hs k

/-- A record brings back the fields, clamped. -/
theorem decode_encode_typed {s : Settings} (h : s.Typed) : decode s.encode = some s.clampAll.1 := by
  have byte {n : ℕ} (hn : n < 2 ^ 8) : (UInt8.ofNat n).toNat = n := by
    rw [UInt8.toNat_ofNat']
    exact Nat.mod_eq_of_lt hn
  have word {n : ℕ} (hn : n < 2 ^ 16) : (ofBe16 (be16 (.ofNat n))).toNat = n := by
    rw [ofBe16_be16, UInt16.toNat_ofNat']
    exact Nat.mod_eq_of_lt hn
  change some (Settings.clampAll
    { txPowerDbm := (UInt8.ofNat s.txPowerDbm).toNat
      maxTx := (UInt8.ofNat s.maxTx).toNat
      ackWaitS := (UInt8.ofNat s.ackWaitS).toNat
      relayTtlMs := (ofBe16 (be16 (.ofNat s.relayTtlMs))).toNat
      relayJitterMs := (ofBe16 (be16 (.ofNat s.relayJitterMs))).toNat
      cadAttempts := (UInt8.ofNat s.cadAttempts).toNat }).1 = _
  rw [byte h.txPowerDbm, byte h.maxTx, byte h.ackWaitS, word h.relayTtlMs, word h.relayJitterMs, byte h.cadAttempts]

/-- Settings in range come back from their record. -/
theorem decode_encode {s : Settings} (h : s.InRange) : decode s.encode = some s := by
  rw [decode_encode_typed h.typed, h.clampAll]

/-- Whatever is accepted is in range. -/
theorem decode_inRange {bytes : List UInt8} {s : Settings} (h : decode bytes = some s) : s.InRange := by
  unfold decode at h
  split at h
  · split at h
    · cases h
    · rw [← Option.some.inj h]
      exact clampAll_inRange _
  · cases h

@[simp] theorem length_encode (s : Settings) : s.encode.length = settingsLen := rfl

end Settings

/-! ### The WiFi record -/

theorem length_zeroPadded (n : ℕ) (l : List UInt8) : ((l ++ List.replicate n 0).take n).length = n := by
  rw [List.length_take, List.length_append, List.length_replicate]
  omega

/-- The first `n` bytes, zeros where there are fewer: a buffer that was zeroed and copied into. -/
def zeroPadded (n : ℕ) (l : List UInt8) : Bytes n :=
  ⟨(l ++ List.replicate n 0).take n, length_zeroPadded n l⟩

theorem zeroPadded_val {n : ℕ} {l : List UInt8} (h : l.length ≤ n) :
    (zeroPadded n l).1 = l ++ List.replicate (n - l.length) 0 := by
  show (l ++ List.replicate n 0).take n = _
  rw [List.take_append, List.take_of_length_le h, List.take_replicate, Nat.min_eq_left (Nat.sub_le n l.length)]

theorem zeroPadded_take {n : ℕ} {l : List UInt8} (h : n ≤ l.length) : (zeroPadded n l).1 = l.take n := by
  show (l ++ List.replicate n 0).take n = _
  rw [List.take_append_of_le_length h]

def wifiMagic : Bytes 4 := ⟨ascii "WSET", rfl⟩

def wifiVersion : UInt8 := 1

abbrev wifiLen : ℕ := 102

/-- A credential: buffers, and how much of each is in use. -/
structure WifiCred where
  ssidLen : UInt8
  passLen : UInt8
  ssid : Bytes 32
  pass : Bytes 63
  deriving DecidableEq

namespace WifiCred

def empty : WifiCred where
  ssidLen := 0
  passLen := 0
  ssid := .zero 32
  pass := .zero 63

def fromSlices (ssid pass : List UInt8) : Option WifiCred :=
  if ssid = [] ∨ 32 < ssid.length ∨ 63 < pass.length then none
  else
    some
      { ssidLen := .ofNat ssid.length
        passLen := .ofNat pass.length
        ssid := zeroPadded 32 ssid
        pass := zeroPadded 63 pass }

/-- The record of `WIFI_LEN` bytes. -/
def encode (c : WifiCred) : List UInt8 :=
  wifiMagic.1 ++ (wifiVersion :: c.ssidLen :: c.passLen :: (c.ssid.1 ++ c.pass.1))

/-- Only zeros beyond the bytes in use. -/
def padded (c : WifiCred) : Bool :=
  (c.ssid.1.drop c.ssidLen.toNat).all (· == 0) && (c.pass.1.drop c.passLen.toNat).all (· == 0)

/-- A record of another length, magic or version is none, nor is one with bytes that are not in use. -/
def decode (bytes : List UInt8) : Option WifiCred :=
  if bytes.length ≠ wifiLen ∨ bytes.take 4 ≠ wifiMagic.1 ∨ bytes.getD 4 0 ≠ wifiVersion then none
  else if bytes.getD 5 0 = 0 ∨ 32 < (bytes.getD 5 0).toNat ∨ 63 < (bytes.getD 6 0).toNat then none
  else
    let c : WifiCred :=
      { ssidLen := bytes.getD 5 0
        passLen := bytes.getD 6 0
        ssid := zeroPadded 32 (bytes.drop 7)
        pass := zeroPadded 63 (bytes.drop 39) }
    if c.padded then some c else none

/-- What a decoded credential meets. -/
structure Valid (c : WifiCred) : Prop where
  ssid : 0 < c.ssidLen.toNat ∧ c.ssidLen.toNat ≤ 32
  pass : c.passLen.toNat ≤ 63
  padded : c.padded = true

/-- The bytes in use. -/
def used (c : WifiCred) : List UInt8 × List UInt8 :=
  (c.ssid.1.take c.ssidLen.toNat, c.pass.1.take c.passLen.toNat)

theorem Valid.used_lengths {c : WifiCred} (h : c.Valid) :
    c.used.1.length = c.ssidLen.toNat ∧ c.used.2.length = c.passLen.toNat := by
  have hs : (c.ssid.1.take c.ssidLen.toNat).length = c.ssidLen.toNat := by
    rw [List.length_take, c.ssid.2, Nat.min_eq_left h.ssid.2]
  have hp : (c.pass.1.take c.passLen.toNat).length = c.passLen.toNat := by
    rw [List.length_take, c.pass.2, Nat.min_eq_left h.pass]
  exact ⟨hs, hp⟩

@[simp] theorem length_encode (c : WifiCred) : c.encode.length = wifiLen := by
  simp only [encode, List.length_append, List.length_cons, Bytes.length_val]

/-- A buffer is its bytes in use and zeros. -/
theorem buffer_eq {n k : ℕ} {b : Bytes n} (h : (b.1.drop k).all (· == 0) = true) (hk : k ≤ n) :
    zeroPadded n (b.1.take k) = b := by
  have hlen : (b.1.take k).length = k := by rw [List.length_take, b.2, Nat.min_eq_left hk]
  have hzero : b.1.drop k = List.replicate (n - k) 0 := by
    refine List.eq_replicate_iff.mpr ⟨by rw [List.length_drop, b.2], fun x hx => ?_⟩
    exact beq_iff_eq.mp (List.all_eq_true.mp h x hx)
  refine Subtype.ext ?_
  rw [zeroPadded_val (hlen.trans_le hk), hlen, ← hzero, List.take_append_drop]

/-- An accepted record is that of a valid credential. -/
theorem decode_eq_some {bytes : List UInt8} {c : WifiCred} (h : decode bytes = some c) :
    c.Valid ∧ bytes = c.encode := by
  unfold decode at h
  split at h
  · cases h
  rename_i hhead
  simp only [not_or, not_not] at hhead
  obtain ⟨hlen, hmagic, hversion⟩ := hhead
  split at h
  · cases h
  rename_i hlens
  simp only [not_or, Nat.not_lt] at hlens
  obtain ⟨hne, hssid, hpass⟩ := hlens
  dsimp only at h
  split at h
  · rename_i hpad
    cases h
    refine ⟨⟨⟨Nat.pos_of_ne_zero fun h0 => hne (UInt8.toNat_inj.mp h0), hssid⟩, hpass, hpad⟩, ?_⟩
    -- the record is taken apart from its end, a byte of the head at a time
    have byte (i : ℕ) (hi : i < bytes.length) : bytes.drop i = bytes.getD i 0 :: bytes.drop (i + 1) := by
      rw [List.getD_eq_getElem _ _ hi]
      exact List.drop_eq_getElem_cons hi
    have hsplit : bytes.drop 7 = (bytes.drop 7).take 32 ++ bytes.drop 39 := by
      have hdrop := List.take_append_drop 32 (bytes.drop 7)
      rw [List.drop_drop] at hdrop
      exact hdrop.symm
    have hend : (bytes.drop 39).take 63 = bytes.drop 39 :=
      List.take_of_length_le (by rw [List.length_drop, hlen]; decide)
    rw [encode, zeroPadded_take (by rw [List.length_drop, hlen]; decide),
      zeroPadded_take (by rw [List.length_drop, hlen]; decide), hend, ← hsplit, ← hversion,
      ← byte 6 (by rw [hlen]; decide), ← byte 5 (by rw [hlen]; decide), ← byte 4 (by rw [hlen]; decide), ← hmagic,
      List.take_append_drop]
  · cases h

/-- A valid credential comes back from its record. -/
theorem Valid.decode_encode {c : WifiCred} (h : c.Valid) : decode c.encode = some c := by
  have hssid : zeroPadded 32 (c.encode.drop 7) = c.ssid := by
    refine Subtype.ext ((zeroPadded_take (by rw [List.length_drop, length_encode]; decide)).trans ?_)
    exact List.take_left' c.ssid.2
  have hpass : zeroPadded 63 (c.encode.drop 39) = c.pass := by
    have hdrop : (c.ssid.1 ++ c.pass.1).drop 32 = c.pass.1 := List.drop_left' c.ssid.2
    change (c.encode.drop 39) = c.pass.1 at hdrop
    refine Subtype.ext ((zeroPadded_take (by rw [List.length_drop, length_encode]; decide)).trans ?_)
    rw [hdrop]
    exact List.take_of_length_le c.pass.2.le
  have hzero : c.ssidLen ≠ 0 := by
    intro h0
    have hpos := h.ssid.1
    rw [h0] at hpos
    exact absurd hpos (by decide)
  have hlens : ¬ (c.ssidLen = 0 ∨ 32 < c.ssidLen.toNat ∨ 63 < c.passLen.toNat) := by
    simp only [not_or, Nat.not_lt]
    exact ⟨hzero, h.ssid.2, h.pass⟩
  rw [decode, if_neg (by simp [encode, wifiMagic, ascii, wifiVersion])]
  change (if c.ssidLen = 0 ∨ 32 < c.ssidLen.toNat ∨ 63 < c.passLen.toNat then none else _) = _
  rw [if_neg hlens, hssid, hpass]
  exact if_pos h.padded

/-- The accepted records are those of the valid credentials. -/
theorem decode_iff {bytes : List UInt8} {c : WifiCred} : decode bytes = some c ↔ c.Valid ∧ bytes = c.encode := by
  constructor
  · exact decode_eq_some
  · rintro ⟨hv, rfl⟩
    exact hv.decode_encode

/-- The slices that are taken make a valid credential that uses them. -/
theorem fromSlices_eq_some {ssid pass : List UInt8} {c : WifiCred} (h : fromSlices ssid pass = some c) :
    c.Valid ∧ c.used = (ssid, pass) := by
  unfold fromSlices at h
  split at h
  · cases h
  rename_i hlens
  simp only [not_or, Nat.not_lt] at hlens
  obtain ⟨hne, hssid, hpass⟩ := hlens
  cases h
  have hs : (UInt8.ofNat ssid.length).toNat = ssid.length := by
    rw [UInt8.toNat_ofNat', Nat.mod_eq_of_lt (by omega)]
  have hp : (UInt8.ofNat pass.length).toNat = pass.length := by
    rw [UInt8.toNat_ofNat', Nat.mod_eq_of_lt (by omega)]
  refine ⟨⟨⟨?_, hs.trans_le hssid⟩, hp.trans_le hpass, ?_⟩, ?_⟩
  · show 0 < (UInt8.ofNat ssid.length).toNat
    rw [hs]
    exact List.length_pos_iff.mpr hne
  · simp only [padded, hs, hp, zeroPadded_val hssid, zeroPadded_val hpass, List.drop_left, List.all_replicate]
    simp
  · simp only [used, hs, hp, zeroPadded_val hssid, zeroPadded_val hpass, List.take_left]

/-- A valid credential is that of the bytes it uses. -/
theorem Valid.fromSlices_used {c : WifiCred} (h : c.Valid) : fromSlices c.used.1 c.used.2 = some c := by
  obtain ⟨hs, hp⟩ := h.used_lengths
  have hpad := Bool.and_eq_true_iff.mp h.padded
  have hssid : zeroPadded 32 c.used.1 = c.ssid := buffer_eq hpad.1 h.ssid.2
  have hpass : zeroPadded 63 c.used.2 = c.pass := buffer_eq hpad.2 h.pass
  have hlens : ¬ (c.used.1 = [] ∨ 32 < c.used.1.length ∨ 63 < c.used.2.length) := by
    simp only [not_or, Nat.not_lt]
    exact ⟨List.length_pos_iff.mp (hs ▸ h.ssid.1), hs ▸ h.ssid.2, hp ▸ h.pass⟩
  rw [fromSlices, if_neg hlens, hssid, hpass, hs, hp, UInt8.ofNat_toNat, UInt8.ofNat_toNat]

/-- The slices that are taken are those of the valid credentials. -/
theorem fromSlices_iff {ssid pass : List UInt8} {c : WifiCred} :
    fromSlices ssid pass = some c ↔ c.Valid ∧ c.used = (ssid, pass) := by
  constructor
  · exact fromSlices_eq_some
  · rintro ⟨hv, hu⟩
    have hback := hv.fromSlices_used
    rw [hu] at hback
    exact hback

end WifiCred

/-- The record that commits a credential, or the forgetting of one. -/
def wifiRecord : Option (List UInt8 × List UInt8) → List UInt8
  | some (ssid, pass) =>
    WifiCred.encode
      { ssidLen := .ofNat ssid.length
        passLen := .ofNat pass.length
        ssid := zeroPadded 32 ssid
        pass := zeroPadded 63 pass }
  | none => WifiCred.empty.encode

/-- A credential comes back from its record; the record of none is not accepted. -/
theorem decode_wifiRecord {wifi : Option (List UInt8 × List UInt8)}
    (h : ∀ c, wifi = some c → (WifiCred.fromSlices c.1 c.2).isSome = true) :
    WifiCred.decode (wifiRecord wifi) = wifi.bind fun c => WifiCred.fromSlices c.1 c.2 := by
  cases wifi with
  | none => rfl
  | some c =>
      obtain ⟨cred, hc⟩ := Option.isSome_iff_exists.mp (h c rfl)
      have hrec : wifiRecord (some c) = cred.encode := by
        unfold WifiCred.fromSlices at hc
        split at hc
        · cases hc
        · cases hc
          rfl
      rw [Option.bind_some, hc]
      rw [hrec]
      exact (WifiCred.fromSlices_eq_some hc).1.decode_encode

/-! ### The storage owner -/

def keyNode : UInt8 := 0x01

def keySettings : UInt8 := 0x02

def keyWifi : UInt8 := 0x03

/-- The map over the storage region: what it fetches under a key, and an attempt to store. -/
structure MapStorage (σ : Type) where
  fetchItem : σ → UInt8 → Except Unit (Option (List UInt8))
  storeItem : σ → UInt8 → List UInt8 → Bool × σ

inductive StorageReq where
  | load
  | commit (bytes : List UInt8) (len : ℕ)
  | commitSettings (bytes : List UInt8)
  | commitWifi (bytes : List UInt8)

inductive StorageResp where
  | empty
  | loaded (bytes : List UInt8)
  | settingsLoaded (bytes : List UInt8)
  | wifiLoaded (bytes : List UInt8)
  | committed (ok : Bool)
  | fault

/-- What a load answers of the node record that was fetched. -/
def nodeResp : Except Unit (Option (List UInt8)) → StorageResp
  | .ok (some v) =>
    -- a V1 or V2 record migrates by a canonical re-encoding
    if v.length ≠ persistLen ∧ v.length ≠ persistV2Len then .fault
    else
      match migrateToV3 v with
      | .ok bytes => .loaded bytes
      | .error _ => .fault
  | .ok none => .empty
  | .error _ => .fault

namespace MapStorage

variable {σ : Type} (M : MapStorage σ)

/-- An item stored is fetched until the next; a store that fails leaves what there was. -/
structure Lawful : Prop where
  stored : ∀ s key item, (M.storeItem s key item).1 = true →
    M.fetchItem (M.storeItem s key item).2 key = .ok (some item)
  failed : ∀ s key item, (M.storeItem s key item).1 = false →
    M.fetchItem (M.storeItem s key item).2 key = M.fetchItem s key
  apart : ∀ s key item other, other ≠ key → M.fetchItem (M.storeItem s key item).2 other = M.fetchItem s other

/-- `fetch_item` into a vector of capacity `cap`. -/
def fetchVec (s : σ) (cap : ℕ) (key : UInt8) : Except Unit (Option (List UInt8)) :=
  match M.fetchItem s key with
  | .ok (some v) => if v.length ≤ cap then .ok (some v) else .error ()
  | r => r

/-- A record beside the node's, zeros where there is none. -/
def loadRecord (s : σ) (n : ℕ) (key : UInt8) : Bytes n :=
  match M.fetchVec s n key with
  | .ok (some v) => zeroPadded n v
  | _ => .zero n

/-- One request, and what is answered: a load in three answers. -/
def serve (s : σ) : StorageReq → List StorageResp × σ
  | .load =>
    -- the settings and the credential ride alongside: no item, and an item that cannot be fetched, are zeros
    ([nodeResp (M.fetchVec s persistLen keyNode), .settingsLoaded (M.loadRecord s settingsLen keySettings).1,
      .wifiLoaded (M.loadRecord s wifiLen keyWifi).1], s)
  | .commit bytes len =>
    if len ≠ persistLen then ([.committed false], s)
    else ([.committed (M.storeItem s keyNode bytes).1], (M.storeItem s keyNode bytes).2)
  | .commitSettings bytes =>
    ([.committed (M.storeItem s keySettings bytes).1], (M.storeItem s keySettings bytes).2)
  | .commitWifi bytes => ([.committed (M.storeItem s keyWifi bytes).1], (M.storeItem s keyWifi bytes).2)

end MapStorage

/-! ### The load at boot -/

/-- The loop that awaits the node record: what it takes, and the answers it leaves.  `none`: it waits on. -/
def bootNode (C : Crypto) : List StorageResp → Option ((Engine × StoreHealth) × List StorageResp)
  | [] => none
  | .loaded bytes :: rest =>
    match (Engine.new false).restore C bytes with
    | .ok (e, ()) => some ((e, .ready), rest)
    | .error _ => some ((.new false, .fault), rest)
  | .empty :: rest => some ((.new false, .unprovisioned), rest)
  | .fault :: rest => some ((.new false, .fault), rest)
  -- the other answers of the same request come later
  | _ :: rest => bootNode C rest

def bootSettings : List StorageResp → Option (Settings × List StorageResp)
  | [] => none
  | .settingsLoaded bytes :: rest => some ((Settings.decode bytes).getD .default, rest)
  | .fault :: rest => some (.default, rest)
  | _ :: rest => bootSettings rest

def bootWifi : List StorageResp → Option (Option WifiCred)
  | [] => none
  | .wifiLoaded bytes :: _ => some (WifiCred.decode bytes)
  | .fault :: _ => some none
  | _ :: rest => bootWifi rest

/-- The world as the runtime task starts, and the credential that the WiFi task starts with. -/
def World.bootFrom {σ : Type} (M : MapStorage σ) (s : σ) (C : Crypto) (uid : Bytes 8) (hw : Bool) :
    Option (World × Option WifiCred) := do
  let ((engine, health), resps) ← bootNode C (M.serve s .load).1
  let (settings, resps) ← bootSettings resps
  let wifi ← bootWifi resps
  let w : World :=
    { World.boot C none uid hw with
      engine := (engine.setIdentity uid).setRadioAvailable hw
      health := health
      settings := settings
      wifiConfigured := wifi.isSome
      wifiSsidLen := (wifi.map fun c => c.ssidLen.toNat).getD 0 }
  return (w, wifi)

/-- A record that is accepted is restored, whatever its version. -/
theorem restore_view (C : Crypto) {bytes : List UInt8} {view : PersistView} (h : decodeView bytes = .ok view) :
    (Engine.new false).restore C bytes = .ok ((Engine.new false).restoreView C view, ()) := by
  rw [Engine.restore, h]
  rfl

theorem migrateToV3_eq (bytes : List UInt8) : migrateToV3 bytes = (decodeView bytes).map encodeInto := by
  rw [migrateToV3]
  cases decodeView bytes <;> rfl

/-- A record that is accepted is loaded as that of its view. -/
theorem nodeResp_ok {bytes : List UInt8} {view : PersistView} (h : decodeView bytes = .ok view) :
    nodeResp (.ok (some bytes)) = .loaded (encodeInto view) := by
  have hlen : bytes.length = persistLen ∨ bytes.length = persistV2Len := by
    by_contra hlen
    rw [decodeView, if_neg hlen] at h
    cases h
  simp only [nodeResp, migrateToV3_eq, h, Except.map]
  exact if_neg fun hne => hlen.elim hne.1 hne.2

theorem nodeResp_error {bytes : List UInt8} {err : PersistError} (h : decodeView bytes = .error err) :
    nodeResp (.ok (some bytes)) = .fault := by
  simp only [nodeResp, migrateToV3_eq, h, Except.map, ite_self]

/-- The node record is taken up as it was stored, whatever its version; one that is not accepted is a fault. -/
theorem bootNode_nodeResp (C : Crypto) (stored : Option (List UInt8)) (rest : List StorageResp) :
    ∃ p, bootNode C (nodeResp (.ok stored) :: rest) = some (p, rest) ∧
      ∀ uid hw, bootEngine C stored uid hw = ((p.1.setIdentity uid).setRadioAvailable hw, p.2) := by
  cases stored with
  | none => exact ⟨_, rfl, fun _ _ => rfl⟩
  | some v =>
      cases hv : decodeView v with
      | error err =>
          have hrestore : (Engine.new false).restore C v = .error .storageFault := by
            rw [Engine.restore, hv]
            rfl
          rw [nodeResp_error hv]
          refine ⟨_, rfl, fun uid hw => ?_⟩
          simp only [bootEngine, hrestore]
      | ok view =>
          have hback : decodeView (encodeInto view) = .ok view := decodeView_encodeInto.mpr ⟨decodeView_valid hv, rfl⟩
          rw [nodeResp_ok hv]
          refine ⟨((Engine.new false).restoreView C view, .ready), ?_, fun uid hw => ?_⟩
          · simp only [bootNode, restore_view C hback]
          · simp only [bootEngine, restore_view C hv]

/-! ### What the flash holds -/

section

variable {σ : Type} {M : MapStorage σ}

/-- The flash holds the node record `stored` and the records `st`: what is not accepted counts as absent. -/
structure MapStorage.Holds (M : MapStorage σ) (s : σ) (stored : Option (List UInt8)) (st : Stored) : Prop where
  node : nodeResp (M.fetchVec s persistLen keyNode) = nodeResp (.ok stored)
  settings : (Settings.decode (M.loadRecord s settingsLen keySettings).1).getD .default = st.settings
  wifi : (WifiCred.decode (M.loadRecord s wifiLen keyWifi).1).map WifiCred.used = st.wifi

/-- Every flash holds something. -/
theorem exists_holds (M : MapStorage σ) (s : σ) : ∃ stored st, M.Holds s stored st := by
  have hnode : ∃ stored, nodeResp (M.fetchVec s persistLen keyNode) = nodeResp (.ok stored) := by
    cases M.fetchVec s persistLen keyNode with
    | ok stored => exact ⟨stored, rfl⟩
    | error err => exact ⟨some [], rfl⟩
  obtain ⟨stored, hnode⟩ := hnode
  exact ⟨stored, { settings := _, wifi := _ }, hnode, rfl, rfl⟩

/-- What is held is in range, and a credential is one that could have been set. -/
theorem MapStorage.Holds.fits {s : σ} {stored : Option (List UInt8)} {st : Stored} (h : M.Holds s stored st) :
    st.settings.InRange ∧ ∀ c, st.wifi = some c → (WifiCred.fromSlices c.1 c.2).isSome = true := by
  constructor
  · rw [← h.settings]
    cases hd : Settings.decode (M.loadRecord s settingsLen keySettings).1 with
    | none => exact Settings.default_inRange
    | some settings => exact Settings.decode_inRange hd
  · intro c hc
    rw [← h.wifi] at hc
    obtain ⟨cred, hd, rfl⟩ := Option.map_eq_some_iff.mp hc
    exact Option.isSome_iff_exists.mpr ⟨cred, (WifiCred.decode_eq_some hd).1.fromSlices_used⟩

/-- The credential of the records. -/
def Stored.cred (st : Stored) : Option WifiCred := st.wifi.bind fun c => WifiCred.fromSlices c.1 c.2

theorem MapStorage.Holds.cred_isSome {s : σ} {stored : Option (List UInt8)} {st : Stored} (h : M.Holds s stored st) :
    st.cred.isSome = st.wifi.isSome := by
  unfold Stored.cred
  cases hw : st.wifi with
  | none => rfl
  | some c => exact h.fits.2 c hw

/-- The load takes up what the flash holds. -/
theorem bootFrom_holds {s : σ} {stored : Option (List UInt8)} {st : Stored} (h : M.Holds s stored st) (C : Crypto)
    (uid : Bytes 8) (hw : Bool) :
    World.bootFrom M s C uid hw = some (st.boot C stored uid hw, st.cred) := by
  obtain ⟨p, hboot, hengine⟩ := bootNode_nodeResp C stored
    [.settingsLoaded (M.loadRecord s settingsLen keySettings).1, .wifiLoaded (M.loadRecord s wifiLen keyWifi).1]
  have hwifi := h.wifi
  rw [World.bootFrom, MapStorage.serve, h.node, hboot]
  simp only [Option.bind_eq_bind, Option.bind_some, bootSettings, bootWifi, h.settings]
  cases hd : WifiCred.decode (M.loadRecord s wifiLen keyWifi).1 with
  | none =>
      rw [hd] at hwifi
      simp only [Stored.cred, Stored.boot, Stored.ssidLen, World.boot, hengine uid hw, ← hwifi]
      rfl
  | some cred =>
      rw [hd, Option.map_some] at hwifi
      have hvalid := (WifiCred.decode_eq_some hd).1
      have hback := hvalid.fromSlices_used
      simp only [Stored.cred, Stored.boot, Stored.ssidLen, World.boot, hengine uid hw, ← hwifi, Option.bind_some, hback,
        Option.map_some, Option.getD_some, hvalid.used_lengths.1]
      rfl

/-! ### What is stored -/

/-- A write of the storage owner. -/
def Happening.writes : Happening → Bool
  | .stored _ _ _ => true
  | .keptSettings _ => true
  | .keptWifi _ => true
  | _ => false

/-- Settings are in range, and a credential is one that can be set. -/
def Happening.Fits : Happening → Prop
  | .keptSettings settings => settings.InRange
  | .keptWifi (some c) => (WifiCred.fromSlices c.1 c.2).isSome = true
  | _ => True

/-- The owner's writes are those of the log, each answered as it says; of the records beside the node's those that
failed are not in it. -/
inductive MapStorage.Follows (M : MapStorage σ) (s₀ : σ) : List Happening → σ → Prop where
  | start : Follows M s₀ [] s₀
  | node {log s} (bytes : List UInt8) (pending : Option (List UInt8)) (ok : Bool) : Follows M s₀ log s →
      (M.serve s (.commit bytes bytes.length)).1 = [.committed ok] →
      Follows M s₀ (.stored bytes pending ok :: log) (M.serve s (.commit bytes bytes.length)).2
  | settings {log s} (settings : Settings) : Follows M s₀ log s →
      (M.serve s (.commitSettings settings.encode)).1 = [.committed true] →
      Follows M s₀ (.keptSettings settings :: log) (M.serve s (.commitSettings settings.encode)).2
  | wifi {log s} (wifi : Option (List UInt8 × List UInt8)) : Follows M s₀ log s →
      (M.serve s (.commitWifi (wifiRecord wifi))).1 = [.committed true] →
      Follows M s₀ (.keptWifi wifi :: log) (M.serve s (.commitWifi (wifiRecord wifi))).2
  | failedSettings {log s} (bytes : List UInt8) : Follows M s₀ log s →
      (M.serve s (.commitSettings bytes)).1 = [.committed false] →
      Follows M s₀ log (M.serve s (.commitSettings bytes)).2
  | failedWifi {log s} (bytes : List UInt8) : Follows M s₀ log s →
      (M.serve s (.commitWifi bytes)).1 = [.committed false] →
      Follows M s₀ log (M.serve s (.commitWifi bytes)).2
  | other {log s x} : Follows M s₀ log s → x.writes = false → Follows M s₀ (x :: log) s

section

variable {s s' : σ} {stored : Option (List UInt8)} {st : Stored}

/-- What is held is read off what is fetched. -/
theorem MapStorage.Holds.congr (h : M.Holds s stored st) (hfetch : ∀ key, M.fetchItem s' key = M.fetchItem s key) :
    M.Holds s' stored st := by
  have hvec (cap : ℕ) (key : UInt8) : M.fetchVec s' cap key = M.fetchVec s cap key := by
    rw [fetchVec, fetchVec, hfetch]
  have hload (n : ℕ) (key : UInt8) : M.loadRecord s' n key = M.loadRecord s n key := by
    rw [loadRecord, loadRecord, hvec]
  exact ⟨by rw [hvec, h.node], by rw [hload, h.settings], by rw [hload, h.wifi]⟩

/-- A store that fails leaves what is held. -/
theorem MapStorage.Holds.failed (hM : M.Lawful) (h : M.Holds s stored st) {key : UInt8} {item : List UInt8}
    (hfail : (M.storeItem s key item).1 = false) : M.Holds (M.storeItem s key item).2 stored st := by
  refine h.congr fun other => ?_
  by_cases hkey : other = key
  · rw [hkey, hM.failed s key item hfail]
  · exact hM.apart s key item other hkey

/-- A record that was stored is loaded again. -/
theorem loadRecord_stored (hM : M.Lawful) {key : UInt8} {item : List UInt8} {n : ℕ} (hn : item.length = n)
    (hok : (M.storeItem s key item).1 = true) : (M.loadRecord (M.storeItem s key item).2 n key).1 = item := by
  have hvec : M.fetchVec (M.storeItem s key item).2 n key = .ok (some item) := by
    rw [MapStorage.fetchVec, hM.stored s key item hok]
    exact if_pos hn.le
  rw [MapStorage.loadRecord, hvec]
  exact (zeroPadded_take hn.ge).trans (List.take_of_length_le hn.le)

theorem loadRecord_apart (hM : M.Lawful) {key other : UInt8} {item : List UInt8} {n : ℕ} (hkey : other ≠ key) :
    M.loadRecord (M.storeItem s key item).2 n other = M.loadRecord s n other := by
  rw [MapStorage.loadRecord, MapStorage.loadRecord, MapStorage.fetchVec, MapStorage.fetchVec,
    hM.apart s key item other hkey]

theorem fetchVec_apart (hM : M.Lawful) {key other : UInt8} {item : List UInt8} {n : ℕ} (hkey : other ≠ key) :
    M.fetchVec (M.storeItem s key item).2 n other = M.fetchVec s n other := by
  rw [MapStorage.fetchVec, MapStorage.fetchVec, hM.apart s key item other hkey]

/-- A node record that was stored is held in place of the one before. -/
theorem MapStorage.Holds.node_stored (hM : M.Lawful) (h : M.Holds s stored st) {bytes : List UInt8} {ok : Bool}
    (hok : (M.serve s (.commit bytes bytes.length)).1 = [.committed ok]) :
    M.Holds (M.serve s (.commit bytes bytes.length)).2 (if ok then some bytes else stored) st := by
  simp only [MapStorage.serve] at hok ⊢
  split
  · rename_i hlen
    rw [if_pos hlen] at hok
    cases hok
    exact h
  · rename_i hlen
    rw [if_neg hlen] at hok
    have hok : (M.storeItem s keyNode bytes).1 = ok := StorageResp.committed.inj (List.cons.inj hok).1
    cases ok with
    | false => exact h.failed hM hok
    | true =>
        have hvec : M.fetchVec (M.storeItem s keyNode bytes).2 persistLen keyNode = .ok (some bytes) := by
          rw [MapStorage.fetchVec, hM.stored s keyNode bytes hok]
          exact if_pos (Decidable.not_not.mp hlen).le
        refine ⟨by rw [hvec]; rfl, ?_, ?_⟩
        · rw [loadRecord_apart hM (by decide), h.settings]
        · rw [loadRecord_apart hM (by decide), h.wifi]

theorem MapStorage.Holds.settings_stored (hM : M.Lawful) (h : M.Holds s stored st) {settings : Settings}
    (hs : settings.InRange) (hok : (M.serve s (.commitSettings settings.encode)).1 = [.committed true]) :
    M.Holds (M.serve s (.commitSettings settings.encode)).2 stored { st with settings } := by
  have hok : (M.storeItem s keySettings settings.encode).1 = true := StorageResp.committed.inj (List.cons.inj hok).1
  refine ⟨?_, ?_, ?_⟩
  · exact (congrArg nodeResp (fetchVec_apart hM (by decide))).trans h.node
  · change
      (Settings.decode (M.loadRecord (M.storeItem s keySettings settings.encode).2 settingsLen keySettings).1).getD _ =
        _
    rw [loadRecord_stored hM settings.length_encode hok, Settings.decode_encode hs]
    rfl
  · show (WifiCred.decode (M.loadRecord (M.storeItem s keySettings settings.encode).2 wifiLen keyWifi).1).map _ = _
    rw [loadRecord_apart hM (by decide), h.wifi]

theorem MapStorage.Holds.wifi_stored (hM : M.Lawful) (h : M.Holds s stored st)
    {wifi : Option (List UInt8 × List UInt8)} (hw : ∀ c, wifi = some c → (WifiCred.fromSlices c.1 c.2).isSome = true)
    (hok : (M.serve s (.commitWifi (wifiRecord wifi))).1 = [.committed true]) :
    M.Holds (M.serve s (.commitWifi (wifiRecord wifi))).2 stored { st with wifi } := by
  have hok : (M.storeItem s keyWifi (wifiRecord wifi)).1 = true := StorageResp.committed.inj (List.cons.inj hok).1
  have hlen : (wifiRecord wifi).length = wifiLen := by
    cases wifi with
    | none => exact WifiCred.length_encode _
    | some c => exact WifiCred.length_encode _
  refine ⟨?_, ?_, ?_⟩
  · exact (congrArg nodeResp (fetchVec_apart hM (by decide))).trans h.node
  · change
      (Settings.decode (M.loadRecord (M.storeItem s keyWifi (wifiRecord wifi)).2 settingsLen keySettings).1).getD _ = _
    rw [loadRecord_apart hM (by decide), h.settings]
  · show (WifiCred.decode (M.loadRecord (M.storeItem s keyWifi (wifiRecord wifi)).2 wifiLen keyWifi).1).map _ = wifi
    rw [loadRecord_stored hM hlen hok, decode_wifiRecord hw]
    cases wifi with
    | none => rfl
    | some c =>
        obtain ⟨cred, hc⟩ := Option.isSome_iff_exists.mp (hw c rfl)
        rw [Option.bind_some, hc, Option.map_some, (WifiCred.fromSlices_eq_some hc).2]

/-- The flash holds what the log has stored last. -/
theorem holds_follows (hM : M.Lawful) {s₀ : σ} (h₀ : M.Holds s₀ stored st) {log : List Happening}
    (h : M.Follows s₀ log s) (hfits : ∀ x ∈ log, x.Fits) : M.Holds s (flash stored log) (storedAfter st log) := by
  induction h with
  | start => exact h₀
  | node bytes pending ok h hok ih =>
      -- a commit of the node record is in the log whether it failed or not
      have hnode := (ih fun x hx => hfits x (List.mem_cons_of_mem _ hx)).node_stored hM hok
      cases ok with
      | false => exact hnode
      | true => exact hnode
  | settings settings h hok ih =>
      exact (ih fun x hx => hfits x (List.mem_cons_of_mem _ hx)).settings_stored hM (hfits _ List.mem_cons_self) hok
  | wifi wifi h hok ih =>
      -- what was stored is read back because it fits; a forgotten credential is stored as a blank one
      refine (ih fun x hx => hfits x (List.mem_cons_of_mem _ hx)).wifi_stored hM (fun c hc => ?_) hok
      subst hc
      exact hfits _ List.mem_cons_self
  | failedSettings bytes h hok ih => exact (ih hfits).failed hM (StorageResp.committed.inj (List.cons.inj hok).1)
  | failedWifi bytes h hok ih => exact (ih hfits).failed hM (StorageResp.committed.inj (List.cons.inj hok).1)
  | other h hx ih =>
      have hkept := ih fun x hx => hfits x (List.mem_cons_of_mem _ hx)
      rename_i x
      cases x with
      | stored => cases hx
      | keptSettings => cases hx
      | keptWifi => cases hx
      | _ => exact hkept

end

end

end LoraMesh
