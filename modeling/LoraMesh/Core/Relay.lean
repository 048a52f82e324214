import LoraMesh.Core.Security

/-!
# Core — Relay

The airtime-suppression cache and the rewriting of a frame for forwarding
(`mesh-core/src/relay.rs`).
-/

namespace LoraMesh

abbrev relayCacheSize : ℕ := 64
abbrev relayCacheTtlMs : UInt64 := 8000

/-- `a.saturating_add(b)` at `u64`. -/
def satAdd64 (a b : UInt64) : UInt64 :=
  if a.toNat + b.toNat < 2 ^ 64 then a + b else 0xFFFFFFFFFFFFFFFF

/-- The whole envelope but the hop count. -/
def cacheKey (C : Crypto) (header : Bytes headerLen) (body : List UInt8) : Bytes 32 :=
  C.sha256 (header.1.take 14 ++ header.1.drop 15 ++ body)

def cacheKeyOfFrame (C : Crypto) (frame body : List UInt8) : Option (Bytes 32) :=
  if h : headerLen ≤ frame.length then some (cacheKey C (slice frame 0 headerLen (by omega)) body)
  else none

inductive Observe where
  | new
  | duplicate
  deriving DecidableEq

structure Entry where
  key : Bytes 32
  expiresMs : UInt64
  occupied : Bool

/-- The 64 entries. -/
abbrev RelayCache := Vector Entry relayCacheSize

namespace RelayCache

def new : RelayCache := .replicate relayCacheSize { key := .zero 32, expiresMs := 0, occupied := false }

/-- Reclaim what expired up to a live entry with the key; whether there is one. -/
def scan (key : Bytes 32) (nowMs : UInt64) : List Entry → List Entry × Bool
  | [] => ([], false)
  | e :: es =>
    if e.occupied = false then let r := scan key nowMs es; (e :: r.1, r.2)
    else if e.expiresMs ≤ nowMs then
      let r := scan key nowMs es; ({ e with occupied := false } :: r.1, r.2)
    else if e.key = key then (e :: es, true)
    else let r := scan key nowMs es; (e :: r.1, r.2)

/-- The first free entry, else the first with the oldest expiry: the entries from position `i`
on, and the best so far. -/
def place : List Entry → ℕ → ℕ → UInt64 → ℕ
  | [], _, victim, _ => victim
  | e :: es, i, victim, victimExpires =>
    if e.occupied = false then i
    else if e.expiresMs < victimExpires then place es (i + 1) i e.expiresMs
    else place es (i + 1) victim victimExpires

theorem length_scan (key : Bytes 32) (nowMs : UInt64) :
    ∀ es : List Entry, (scan key nowMs es).1.length = es.length
  | [] => rfl
  | e :: es => by
      have ih := length_scan key nowMs es
      rw [scan]
      split
      · exact congrArg (· + 1) ih
      · split
        · exact congrArg (· + 1) ih
        · split
          · rfl
          · exact congrArg (· + 1) ih

/-- Observe a frame key at a time: a live entry keeps its expiry, else the key takes a place. -/
def observe (c : RelayCache) (key : Bytes 32) (nowMs : UInt64) : Observe × RelayCache :=
  let r := scan key nowMs c.toList
  have hlen : r.1.toArray.size = relayCacheSize := by simp [r, length_scan]
  if r.2 then (.duplicate, ⟨r.1.toArray, hlen⟩)
  else
    let slot := place r.1 0 0 0xFFFFFFFFFFFFFFFF
    (.new, (⟨r.1.toArray, hlen⟩ : RelayCache).setIfInBounds slot
      { key := key, expiresMs := satAdd64 nowMs relayCacheTtlMs, occupied := true })

end RelayCache

/-- Only frames with a hop left are forwarded, never our own or those delivered here. -/
def shouldForward (hops : UInt8) (isLocalOriginEcho isLocallyDelivered : Bool) : Bool :=
  hops == 1 && !isLocalOriginEcho && !isLocallyDelivered

/-- Take the last hop from a valid frame and recompute its CRC, into a buffer of `outLen`
bytes. -/
def prepareForward (frame : List UInt8) (outLen : ℕ) : Except Reject (List UInt8) :=
  match decodeFrame frame with
  | .error r => .error r
  | .ok (header, _) =>
    if header.hops ≠ 1 then .error .badHops
    else if outLen < frame.length then .error .tooLong
    else
      let out := (frame.set 14 0).take (frame.length - 2)
      .ok (out ++ be16 (crc16 out))

end LoraMesh
