import LoraMesh.Core.Security

/-!
# Core — Clock

Epochs, hourly aliases and the alias cache (`mesh-core/src/clock.rs`).
-/

namespace LoraMesh

def addrDomain : List UInt8 := ascii "LMESH-addr-v1"

abbrev secsPerHour : UInt64 := 3600

/-- The UTC hour of a time, when 32 bits hold it. -/
def epochOfUnix (unixSeconds : UInt64) : Option UInt32 :=
  if (unixSeconds / secsPerHour).toNat < 2 ^ 32 then some (unixSeconds / secsPerHour).toUInt32
  else none

/-- `a.checked_add(1) == Some(b)`. -/
def isNext (a b : UInt32) : Bool := a.toNat + 1 < 2 ^ 32 && a + 1 == b

/-- The current hour or an adjacent one. -/
def inAcceptWindow (rxEpoch localEpoch : UInt32) : Bool :=
  rxEpoch == localEpoch || isNext rxEpoch localEpoch || isNext localEpoch rxEpoch

section

variable (C : Crypto)

/-- The hourly alias of an identity. -/
def deriveAddress (secret : Bytes 32) (identity : Bytes 8) (epoch : UInt32) : Bytes 4 :=
  let out := C.hmac secret.1 (addrDomain ++ identity.1 ++ be32 epoch)
  slice out.1 0 4 (by simp)

/-- One contact's cached aliases, for the three hours around `epoch`. -/
structure AliasCache where
  epoch : UInt32
  own : Fin 3 → Bytes 4
  peer : Fin 3 → Bytes 4
  valid : Bool

namespace AliasCache

def new : AliasCache :=
  { epoch := 0, own := fun _ => .zero 4, peer := fun _ => .zero 4, valid := false }

def refresh (secret : Bytes 32) (ownId peerId : Bytes 8) (epoch : UInt32) : AliasCache where
  epoch := epoch
  own := fun i => deriveAddress C secret ownId (slots epoch i)
  peer := fun i => deriveAddress C secret peerId (slots epoch i)
  valid := true

end AliasCache

end

end LoraMesh
