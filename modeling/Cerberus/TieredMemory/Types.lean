import Cerberus.Foundation.Bytes

namespace Cerberus.TieredMemory

open Std Foundation.Bytes

inductive MemoryTier
  | hot
  | warm
  | cool
  | cold
  deriving DecidableEq

def MemoryTier.index : MemoryTier → Nat
  | .hot => 0
  | .warm => 1
  | .cool => 2
  | .cold => 3

def kTiers : List MemoryTier := [.hot, .warm, .cool, .cold]

/-- `static_cast<MemoryTier>(static_cast<int>(tier) - 1)`; never applied to `hot`. -/
def MemoryTier.hotter : MemoryTier → MemoryTier
  | .hot | .warm => .hot
  | .cool => .warm
  | .cold => .cool

/-- `static_cast<MemoryTier>(static_cast<int>(tier) + 1)`; never applied to `cold`. -/
def MemoryTier.colder : MemoryTier → MemoryTier
  | .hot => .warm
  | .warm => .cool
  | .cool | .cold => .cold

inductive TierError
  | outOfMemory
  | invalidHandle
  | migrationFailed
  | tierUnavailable
  | alignmentError
  | invalidSize
  deriving DecidableEq

/-- A call that does not return a value: a `TierError`, or an exception of the
compute hook that leaves the manager. -/
inductive Abort
  | error (e : TierError)
  | hookThrew
  deriving DecidableEq

def kInvalidTierHandle : Nat := 0

/-- Handles and addresses are natural numbers. Addresses are never compared, so a block is
named by the serial number of the request that returned it; a null pointer is `none`. -/
structure TierAllocation where
  handle : Nat := kInvalidTierHandle
  tier : MemoryTier := .cold
  ptr : Option Nat := none
  devicePtr : Option Nat := none
  sizeBytes : UInt64 := 0
  alignment : UInt64 := 0
  deriving DecidableEq

structure TieredMemoryConfig where
  hotCapacityBytes : UInt64 := 0
  warmCapacityBytes : UInt64 := (1 : UInt64) <<< 30
  coolCapacityBytes : UInt64 := (512 : UInt64) <<< 20
  coldCapacityBytes : UInt64 := (4 : UInt64) <<< 40
  hotAlignment : UInt64 := 256
  warmAlignment : UInt64 := 64
  coolAlignment : UInt64 := 64
  coldAlignment : UInt64 := 512
  coldSpillDir : ByteString := lit "/tmp/cerberus_cold"

structure Buffer where
  size : Nat
  byte : Nat → UInt8

def Buffer.blit (dst : Buffer) (n : Nat) (src : Nat → UInt8) : Buffer :=
  { dst with byte := fun i ↦ if i < n then src i else dst.byte i }

/-- What the build and the machine decide. Every request to the system takes the next
serial number, and the answers are arbitrary functions of that number, or of an address
or a path that is used only once. -/
structure Platform where
  /-- `UM790_HAS_HIP` -/
  hasHip : Bool
  /-- `hipGetDeviceCount` succeeds and reports a device. -/
  hasDevice : Bool
  /-- The total memory `hipMemGetInfo` reports, if it succeeds. -/
  totalVram : Option UInt64
  /-- `create_directories(cold_spill_dir)` leaves no error. -/
  spillDirReady : Bool
  alignedAlloc : Nat → Bool
  hipMalloc : Nat → Bool
  /-- The copy into the block at this address succeeds. -/
  hipMemcpy : Nat → Bool
  /-- The contents of a block nobody has written yet. -/
  garbage : Nat → Nat → UInt8
  openSpill : Nat → Bool
  /-- The reserving `seekp`, `put` and `flush` all succeed. -/
  fillSpill : Nat → Bool
  /-- The number of bytes a later rewrite puts into the file, `none` if it cannot be opened. -/
  rewriteSpill : Nat → Option Nat
  /-- The number of bytes a read of the file delivers. -/
  readSpill : Nat → Nat
  /-- `remove` deletes the file at this path. -/
  removeSpill : ByteString → Bool

inductive Backing
  | host (p : Nat)
  | device (p : Nat)
  | spill (path : ByteString)
  deriving DecidableEq

/-- Memory and disk as the system calls of the manager leave them. `released` logs the
blocks given back, in order. -/
structure Os where
  serial : Nat := 0
  host : Nat → Option Buffer := fun _ ↦ none
  device : Nat → Option Buffer := fun _ ↦ none
  disk : ByteString → Option Buffer := fun _ ↦ none
  released : List Backing := []

structure TierAccounting where
  allocated : UInt64 := 0
  peak : UInt64 := 0
  allocCount : Nat := 0
  freeCount : Nat := 0
  migrationIn : Nat := 0
  migrationOut : Nat := 0
  capacity : UInt64 := 0
  available : Bool := false
  deriving DecidableEq

/-- `CoolPmrResource`, and `RamFallbackPmrResource` with `cxl_present` false, which is
what `detect_cxl` always reports. -/
structure PmrResource where
  capacity : UInt64
  defaultAlign : UInt64
  allocated : UInt64 := 0
  deriving DecidableEq

/-- What a compute hook leaves in the destination block, `none` if it throws. -/
abbrev MigrationComputeHook :=
  (Nat → UInt8) → UInt64 → MemoryTier → MemoryTier → Option (Nat → UInt8)

structure Impl where
  cfg : TieredMemoryConfig
  computeHook : Option MigrationComputeHook := none
  coolRes : PmrResource
  warmRes : PmrResource
  coldAvailable : Bool
  registry : ExtTreeMap Nat TierAllocation := ∅
  nextHandle : Nat := 1
  acct : MemoryTier → TierAccounting
  lru : MemoryTier → List Nat := fun _ ↦ []
  coldFiles : ExtTreeMap Nat ByteString := ∅
  /-- The `on_migrate` notifications sent so far, newest first. -/
  migrations : List (Nat × MemoryTier × MemoryTier) := []
  os : Os := {}

end Cerberus.TieredMemory
