import Cerberus.TieredMemory.Types

namespace Cerberus.TieredMemory

open Std Foundation.Bytes

def alignUp (v a : UInt64) : UInt64 := (v + a - 1) &&& ~~~(a - 1)

namespace Os

def tick (os : Os) : Os := { os with serial := os.serial + 1 }

/-- `alloc_aligned_`: a new block of `size` bytes with arbitrary contents. -/
def allocAligned (P : Platform) (os : Os) (size : UInt64) : Option Nat × Os :=
  if P.alignedAlloc os.serial then
    (some os.serial, { os.tick with
      host := Function.update os.host os.serial (some ⟨size.toNat, P.garbage os.serial⟩) })
  else (none, os.tick)

def freeAligned (os : Os) (p : Nat) : Os :=
  { os.tick with
    host := Function.update os.host p none
    released := os.released ++ [.host p] }

def hipMalloc (P : Platform) (os : Os) (size : UInt64) : Option Nat × Os :=
  if P.hipMalloc os.serial then
    (some os.serial, { os.tick with
      device := Function.update os.device os.serial (some ⟨size.toNat, P.garbage os.serial⟩) })
  else (none, os.tick)

def hipFree (os : Os) (p : Nat) : Os :=
  { os.tick with
    device := Function.update os.device p none
    released := os.released ++ [.device p] }

def hostBytes (os : Os) (p : Nat) : Nat → UInt8 :=
  match os.host p with
  | some b => b.byte
  | none => fun _ ↦ 0

def deviceBytes (os : Os) (p : Nat) : Nat → UInt8 :=
  match os.device p with
  | some b => b.byte
  | none => fun _ ↦ 0

def writeHost (os : Os) (p : Nat) (n : Nat) (src : Nat → UInt8) : Os :=
  { os with host := Function.update os.host p ((os.host p).map (·.blit n src)) }

def writeDevice (os : Os) (p : Nat) (n : Nat) (src : Nat → UInt8) : Os :=
  { os with device := Function.update os.device p ((os.device p).map (·.blit n src)) }

/-- The bytes `demote` writes to a spill file: those of the host block, or a zeroed buffer
filled from the device. -/
def stage (P : Platform) (os : Os) (src : TierAllocation) : Option (Nat → UInt8) × Os :=
  match src.ptr, P.hasHip, src.devicePtr with
  | some p, _, _ => (some (os.hostBytes p), os)
  | none, true, some d =>
    (some (if P.hipMemcpy d then os.deviceBytes d else fun _ ↦ 0), os.tick)
  | _, _, _ => (none, os)

/-- Opening with `trunc` creates the file; the reservation then seeks to `size - 1`,
an offset that must fit a signed 64-bit `streamoff`, and writes one zero byte. -/
def createSpill (P : Platform) (os : Os) (path : ByteString) (size : UInt64) : Bool × Os :=
  if P.openSpill os.serial then
    if P.fillSpill os.serial && decide (size.toNat - 1 < 2 ^ 63) then
      (true, { os.tick with disk := Function.update os.disk path (some ⟨size.toNat, fun _ ↦ 0⟩) })
    else (false, { os.tick with disk := Function.update os.disk path (some ⟨0, fun _ ↦ 0⟩) })
  else (false, os.tick)

/-- Rewriting a spill file truncates it; neither the open nor the write is checked. -/
def rewriteSpill (P : Platform) (os : Os) (path : ByteString) (n : Nat) (src : Nat → UInt8) : Os :=
  match P.rewriteSpill os.serial with
  | none => os.tick
  | some k => { os.tick with disk := Function.update os.disk path (some ⟨min k n, src⟩) }

/-- Reading a spill file into a block; the stream state is not checked. -/
def readSpill (P : Platform) (os : Os) (path : ByteString) (p : Nat) (n : Nat) : Os :=
  match os.disk path with
  | none => os.tick
  | some f => (os.writeHost p (min (P.readSpill os.serial) (min n f.size)) f.byte).tick

/-- `std::filesystem::remove` with the error code ignored. -/
def removeSpill (P : Platform) (os : Os) (path : ByteString) : Os :=
  if P.removeSpill path then
    { os.tick with
      disk := Function.update os.disk path none
      released := os.released ++ [.spill path] }
  else { os.tick with released := os.released ++ [.spill path] }

end Os

namespace PmrResource

def actual (r : PmrResource) (bytes alignment : UInt64) : UInt64 :=
  alignUp bytes (max alignment r.defaultAlign)

/-- The capacity test of `do_allocate`. -/
def hasRoom (r : PmrResource) (bytes alignment : UInt64) : Bool :=
  !(r.capacity > 0 && r.allocated + r.actual bytes alignment > r.capacity)

/-- `do_allocate`; a thrown `std::bad_alloc` is `none`. -/
def doAllocate (P : Platform) (r : PmrResource) (os : Os) (bytes alignment : UInt64) :
    Option Nat × PmrResource × Os :=
  if !r.hasRoom bytes alignment then (none, r, os.tick)
  else
    match os.allocAligned P (r.actual bytes alignment) with
    | (none, os') => (none, r, os')
    | (some p, os') =>
      (some p, { r with allocated := r.allocated + r.actual bytes alignment }, os')

def doDeallocate (r : PmrResource) (os : Os) (p : Nat) (bytes alignment : UInt64) :
    PmrResource × Os :=
  let n := r.actual bytes alignment
  ({ r with allocated := if r.allocated ≥ n then r.allocated - n else 0 }, os.freeAligned p)

end PmrResource

/-- `alloc_hot`; without HIP there is no device memory. -/
def allocHot (P : Platform) (os : Os) (bytes : UInt64) : Option Nat × Os :=
  if P.hasHip then os.hipMalloc P bytes else (none, os.tick)

def freeHot (P : Platform) (os : Os) (p : Option Nat) : Os :=
  match p with
  | some p => if P.hasHip then os.hipFree p else os
  | none => os

def hotAvailable (P : Platform) : Bool := P.hasHip && P.hasDevice

def hotCapacity (P : Platform) (cfg : TieredMemoryConfig) : UInt64 :=
  if hotAvailable P then
    match P.totalVram with
    | some total => if cfg.hotCapacityBytes > 0 then min cfg.hotCapacityBytes total else total
    | none => cfg.hotCapacityBytes
  else 0

def construct (P : Platform) (cfg : TieredMemoryConfig)
    (computeHook : Option MigrationComputeHook := none) : Impl where
  cfg := cfg
  computeHook := computeHook
  coolRes := { capacity := cfg.coolCapacityBytes, defaultAlign := cfg.coolAlignment }
  warmRes := { capacity := cfg.warmCapacityBytes, defaultAlign := cfg.warmAlignment }
  coldAvailable := P.spillDirReady
  acct
    | .hot => { capacity := hotCapacity P cfg, available := hotAvailable P }
    | .warm => { capacity := cfg.warmCapacityBytes, available := true }
    | .cool => { capacity := cfg.coolCapacityBytes, available := true }
    | .cold => { capacity := if P.spillDirReady then cfg.coldCapacityBytes else 0,
                 available := P.spillDirReady }

namespace Impl

def tierAvailable (m : Impl) (tier : MemoryTier) : Bool := (m.acct tier).available

def query (m : Impl) (handle : Nat) : Except TierError TierAllocation :=
  match m.registry[handle]? with
  | none => .error .invalidHandle
  | some a => .ok a

/-- The alignment `allocate` records when the caller gives none. -/
def effectiveAlign (m : Impl) (tier : MemoryTier) (alignment : UInt64) : UInt64 :=
  if alignment = 0 then
    match tier with
    | .hot => m.cfg.hotAlignment
    | .warm => m.cfg.warmAlignment
    | .cool => m.cfg.coolAlignment
    | .cold => m.cfg.coldAlignment
  else alignment

/-- The alignment below which no block of the tier is charged. -/
def defaultAlign (m : Impl) : MemoryTier → UInt64
  | .warm => m.warmRes.defaultAlign
  | .cool => m.coolRes.defaultAlign
  | .hot | .cold => 64

def alignedSize (m : Impl) (tier : MemoryTier) (size alignment : UInt64) : UInt64 :=
  alignUp size (max alignment (m.defaultAlign tier))

/-- The tests `allocate` makes on a tier before it asks for memory there. -/
def admits (m : Impl) (tier : MemoryTier) (size alignment : UInt64) : Bool :=
  let acc := m.acct tier
  acc.available &&
    !(acc.capacity > 0 &&
      acc.allocated + m.alignedSize tier size (m.effectiveAlign tier alignment) > acc.capacity)

def spillPath (m : Impl) (h : Nat) : ByteString :=
  m.cfg.coldSpillDir ++ lit "/cerberus_" ++ hexadecimal h ++ lit ".spill"

/-- `next_handle.fetch_add(1)`; the value taken is the old `nextHandle`. -/
def takeHandle (m : Impl) : Impl := { m with nextHandle := m.nextHandle + 1 }

/-- `next_handle.fetch_sub(1)` -/
def giveBackHandle (m : Impl) : Impl := { m with nextHandle := m.nextHandle - 1 }

/-- Creation of the spill file of handle `h`, with its `cold_files` entry on success. -/
def reserveSpill (P : Platform) (m : Impl) (h : Nat) (size : UInt64) : Bool × Impl :=
  match m.os.createSpill P (m.spillPath h) size with
  | (true, os) => (true, { m with coldFiles := m.coldFiles.insert h (m.spillPath h), os := os })
  | (false, os) => (false, { m with os := os })

def acquire (P : Platform) (m : Impl) (tier : MemoryTier) (size alignment : UInt64) :
    Option TierAllocation × Impl :=
  let alloc : TierAllocation := { tier := tier, sizeBytes := size, alignment := alignment }
  match tier with
  | .hot =>
    match allocHot P m.os size with
    | (none, os) => (none, { m with os := os })
    | (some p, os) => (some { alloc with devicePtr := some p }, { m with os := os })
  | .warm =>
    match m.warmRes.doAllocate P m.os size alignment with
    | (none, r, os) => (none, { m with warmRes := r, os := os })
    | (some p, r, os) => (some { alloc with ptr := some p }, { m with warmRes := r, os := os })
  | .cool =>
    match m.coolRes.doAllocate P m.os size alignment with
    | (none, r, os) => (none, { m with coolRes := r, os := os })
    | (some p, r, os) => (some { alloc with ptr := some p }, { m with coolRes := r, os := os })
  | .cold => (none, { m with os := m.os.tick })

/-- The update of a tier's counters after a successful allocation of `n` bytes. -/
def charge (m : Impl) (tier : MemoryTier) (n : UInt64) : Impl :=
  let acc := m.acct tier
  let cur := acc.allocated + n
  let acc' := { acc with allocated := cur, peak := max acc.peak cur, allocCount := acc.allocCount + 1 }
  { m with acct := Function.update m.acct tier acc' }

/-- `registry.emplace`, which keeps an existing entry, and the push to the LRU list. -/
def enroll (m : Impl) (a : TierAllocation) : Impl :=
  { m with
    registry := m.registry.insertIfNew a.handle a
    lru := Function.update m.lru a.tier (a.handle :: m.lru a.tier) }

/-- One iteration of the tier walk of `allocate`. It takes a serial number whether or not
it gets as far as a system call. -/
def tryTier (P : Platform) (m : Impl) (tier : MemoryTier) (size alignment : UInt64) :
    Option TierAllocation × Impl :=
  if !m.admits tier size alignment then (none, { m with os := m.os.tick })
  else
    let align := m.effectiveAlign tier alignment
    let n := m.alignedSize tier size align
    match tier with
    | .cold =>
      if !m.coldAvailable then (none, { m with os := m.os.tick })
      else
        let h := m.nextHandle
        match m.takeHandle.reserveSpill P h size with
        | (true, m') =>
          let a : TierAllocation :=
            { handle := h, tier := .cold, sizeBytes := size, alignment := align }
          (some a, (m'.charge .cold n).enroll a)
        | (false, m') => (none, m'.giveBackHandle)
    | tier =>
      match m.acquire P tier size align with
      | (none, m') => (none, m')
      | (some a, m') =>
        let a := { a with handle := m'.nextHandle }
        (some a, (m'.takeHandle.charge tier n).enroll a)

def allocateFrom (P : Platform) (size alignment : UInt64) :
    List MemoryTier → Impl → Except TierError TierAllocation × Impl
  | [], m => (.error .outOfMemory, m)
  | tier :: rest, m =>
    match m.tryTier P tier size alignment with
    | (some a, m') => (.ok a, m')
    | (none, m') => allocateFrom P size alignment rest m'

def allocate (P : Platform) (m : Impl) (size : UInt64) (preferred : MemoryTier)
    (alignment : UInt64) : Except TierError TierAllocation × Impl :=
  if size = 0 then (.error .invalidSize, m)
  else allocateFrom P size alignment (kTiers.drop preferred.index) m

def eraseSpill (P : Platform) (m : Impl) (handle : Nat) : Impl :=
  match m.coldFiles[handle]? with
  | none => m
  | some path =>
    { m with coldFiles := m.coldFiles.erase handle, os := m.os.removeSpill P path }

def deallocate (P : Platform) (m : Impl) (a : TierAllocation) : Impl :=
  match a.tier, a.ptr with
  | .hot, _ => { m with os := freeHot P m.os a.devicePtr }
  | .warm, some p =>
    let (r, os) := m.warmRes.doDeallocate m.os p a.sizeBytes a.alignment
    { m with warmRes := r, os := os }
  | .cool, some p =>
    let (r, os) := m.coolRes.doDeallocate m.os p a.sizeBytes a.alignment
    { m with coolRes := r, os := os }
  | _, _ => m

/-- The subtraction of a released block from a tier's counters, clamped at zero. -/
def discharge (m : Impl) (tier : MemoryTier) (n : UInt64) : Impl :=
  let acc := m.acct tier
  let cur := if acc.allocated ≥ n then acc.allocated - n else 0
  let acc' := { acc with allocated := cur, freeCount := acc.freeCount + 1 }
  { m with acct := Function.update m.acct tier acc' }

/-- The part of `free` under the lock: the block leaves the LRU list, its backing store
and the registry. -/
def unlink (P : Platform) (m : Impl) (handle : Nat) (a : TierAllocation) : Impl :=
  let m := { m with lru := Function.update m.lru a.tier ((m.lru a.tier).filter (· ≠ handle)) }
  let m := if a.tier = .cold then m.eraseSpill P handle else m.deallocate P a
  { m with registry := m.registry.erase handle }

def free (P : Platform) (m : Impl) (handle : Nat) : Except TierError Unit × Impl :=
  match m.registry[handle]? with
  | none => (.error .invalidHandle, m)
  | some a =>
    let m := m.unlink P handle a
    (.ok (), m.discharge a.tier (m.alignedSize a.tier a.sizeBytes a.alignment))

/-- The copy between two host blocks, by the compute hook if one is registered. -/
def copyHost (m : Impl) (src dst : TierAllocation) (p q : Nat) : Except Abort Impl :=
  let bytes := m.os.hostBytes p
  match m.computeHook with
  | none => .ok { m with os := m.os.writeHost q src.sizeBytes.toNat bytes }
  | some hook =>
    match hook bytes src.sizeBytes src.tier dst.tier with
    | none => .error .hookThrew
    | some out => .ok { m with os := m.os.writeHost q src.sizeBytes.toNat out }

/-- The copy of `promote`: the branch is chosen by the tier the block comes from. -/
def copyUp (P : Platform) (m : Impl) (handle : Nat) (src dst : TierAllocation) :
    Except Abort Impl :=
  match src.tier with
  | .warm | .cool =>
    match src.ptr, dst.ptr, dst.devicePtr with
    | some p, some q, _ => m.copyHost src dst p q
    | some p, none, some d =>
      if P.hasHip then
        if P.hipMemcpy d then
          .ok { m with os := (m.os.writeDevice d src.sizeBytes.toNat (m.os.hostBytes p)).tick }
        else .ok { m with os := m.os.tick }
      else .ok m
    | _, _, _ => .ok m
  | .cold =>
    match m.coldFiles[handle]?, dst.ptr with
    | some path, some q => .ok { m with os := m.os.readSpill P path q src.sizeBytes.toNat }
    | _, _ => .ok m
  | .hot => .ok m

/-- The copy of `demote`: the branch is chosen by the tier that was asked for. -/
def copyDown (P : Platform) (m : Impl) (target : MemoryTier) (src dst : TierAllocation) :
    Except Abort Impl :=
  match target with
  | .warm | .cool =>
    match P.hasHip, src.devicePtr, src.ptr, dst.ptr with
    | true, some d, _, some q =>
      if P.hipMemcpy q then
        .ok { m with os := (m.os.writeHost q src.sizeBytes.toNat (m.os.deviceBytes d)).tick }
      else .ok { m with os := m.os.tick }
    | _, _, some p, some q => m.copyHost src dst p q
    | _, _, _, _ => .ok m
  | .cold =>
    match dst.ptr with
    | some _ => .ok m
    | none =>
      let (data, os) := m.os.stage P src
      match m.coldFiles[dst.handle]?, data with
      | some path, some data =>
        .ok { m with os := os.rewriteSpill P path src.sizeBytes.toNat data }
      | _, _ => .ok { m with os := os }
  | .hot => .ok m

/-- The `on_migrate` notification and the migration counters. -/
def announce (m : Impl) (handle : Nat) (src dst : MemoryTier) : Impl :=
  let out := Function.update m.acct src
    { m.acct src with migrationOut := (m.acct src).migrationOut + 1 }
  { m with
    migrations := (handle, src, dst) :: m.migrations
    acct := Function.update out dst { out dst with migrationIn := (out dst).migrationIn + 1 } }

/-- The registry swap under the unique lock. `registry[handle]` makes a default entry when
the handle is not there any more; the temporary handle of `dst` disappears. -/
def swapEntry (m : Impl) (handle : Nat) (dst : TierAllocation) : TierAllocation × Impl :=
  let old := (m.registry[handle]?).getD {}
  let lru := Function.update m.lru old.tier ((m.lru old.tier).filter (· ≠ handle))
  (old, { m with
    registry := (m.registry.insert handle { dst with handle := handle }).erase dst.handle
    lru := Function.update lru dst.tier ((lru dst.tier).filter (· ≠ dst.handle)) })

/-- The release of the old backing in `promote`: whatever is not a Hot block or an
addressable Warm or Cool block is taken for a spill file. -/
def releaseUp (P : Platform) (m : Impl) (handle : Nat) (old : TierAllocation) : Impl :=
  match old.tier, old.ptr with
  | .hot, _ | .warm, some _ | .cool, some _ => m.deallocate P old
  | _, _ => m.eraseSpill P handle

/-- The accounting that ends a migration: the counters of the tier the block was first
seen in, by the aligned size of the entry that was replaced. -/
def settle (m : Impl) (srcTier : MemoryTier) (old : TierAllocation) : Impl :=
  m.discharge srcTier (m.alignedSize old.tier old.sizeBytes old.alignment)

/-- `query` at the end of a migration. -/
def answer (m : Impl) (handle : Nat) : Except Abort TierAllocation :=
  match m.query handle with
  | .ok a => .ok a
  | .error e => .error (.error e)

def promote (P : Platform) (m : Impl) (handle : Nat) : Except Abort TierAllocation × Impl :=
  match m.registry[handle]? with
  | none => (.error (.error .invalidHandle), m)
  | some src =>
    if src.tier = .hot then (.ok src, m)
    else
      match m.allocate P src.sizeBytes src.tier.hotter src.alignment with
      | (.error _, m) => (.error (.error .migrationFailed), m)
      | (.ok dst, m) =>
        match m.copyUp P handle src dst with
        | .error e => (.error e, m)
        | .ok m =>
          let (old, m) := (m.announce handle src.tier dst.tier).swapEntry handle dst
          let m := (m.releaseUp P handle old).settle src.tier old
          (m.answer handle, m)

def demote (P : Platform) (m : Impl) (handle : Nat) : Except Abort TierAllocation × Impl :=
  match m.registry[handle]? with
  | none => (.error (.error .invalidHandle), m)
  | some src =>
    if src.tier = .cold then (.ok src, m)
    else if !m.tierAvailable src.tier.colder then (.error (.error .tierUnavailable), m)
    else
      match m.allocate P src.sizeBytes src.tier.colder src.alignment with
      | (.error _, m) => (.error (.error .migrationFailed), m)
      | (.ok dst, m) =>
        match m.copyDown P src.tier.colder src dst with
        | .error e => (.error e, m)
        | .ok m =>
          let (old, m) := (m.announce handle src.tier dst.tier).swapEntry handle dst
          let m := (m.deallocate P old).settle src.tier old
          (m.answer handle, m)

/-- The loop of `pressure_evict`, cut off after `fuel` rounds. `within allocated capacity`
is the comparison `fill <= target_pct`; leaving it open covers every rounding of it. -/
def evictLoop (P : Platform) (tier : MemoryTier) (within : UInt64 → UInt64 → Bool) :
    Nat → Impl → Nat → Option (Except Abort Nat × Impl)
  | 0, _, _ => none
  | fuel + 1, m, evicted =>
    if within (m.acct tier).allocated (m.acct tier).capacity then some (.ok evicted, m)
    else
      match (m.lru tier).getLast? with
      | none => some (.ok evicted, m)
      | some victim =>
        if victim = kInvalidTierHandle then some (.ok evicted, m)
        else
          match m.demote P victim with
          | (.ok _, m) => evictLoop P tier within fuel m (evicted + 1)
          | (.error .hookThrew, m) => some (.error .hookThrew, m)
          | (.error (.error _), m) => some (.ok evicted, m)

def pressureEvict (P : Platform) (m : Impl) (tier : MemoryTier)
    (within : UInt64 → UInt64 → Bool) (fuel : Nat) : Option (Except Abort Nat × Impl) :=
  if !m.tierAvailable tier then some (.error (.error .tierUnavailable), m)
  else if (m.acct tier).capacity = 0 then some (.ok 0, m)
  else evictLoop P tier within fuel m 0

def drain (P : Platform) (m : Impl) (e : Nat × TierAllocation) : Impl :=
  match e.2.tier with
  | .cold =>
    match m.coldFiles[e.1]? with
    | none => m
    | some path => { m with os := m.os.removeSpill P path }
  | _ => m.deallocate P e.2

def resetForTesting (P : Platform) (m : Impl) : Impl :=
  let m := m.registry.toList.foldl (drain P) m
  { m with
    registry := ∅
    lru := fun _ ↦ []
    coldFiles := ∅
    acct := fun t ↦ { capacity := (m.acct t).capacity, available := (m.acct t).available } }

/-- The caller stores `data` through the address the handle has now. -/
def write (m : Impl) (handle : Nat) (data : Nat → UInt8) : Impl :=
  match m.registry[handle]? with
  | none => m
  | some a =>
    match a.ptr with
    | none => m
    | some p => { m with os := m.os.writeHost p a.sizeBytes.toNat data }

end Impl

inductive Call
  | allocate (size : UInt64) (preferred : MemoryTier) (alignment : UInt64)
  | free (handle : Nat)
  | promote (handle : Nat)
  | demote (handle : Nat)
  | pressureEvict (tier : MemoryTier) (within : UInt64 → UInt64 → Bool)
  | resetForTesting
  | write (handle : Nat) (data : Nat → UInt8)

/-- A call that returns. `pressure_evict` returns when some number of rounds is enough. -/
def Step (P : Platform) (m : Impl) : Call → Impl → Prop
  | .allocate size preferred alignment, m' => (m.allocate P size preferred alignment).2 = m'
  | .free handle, m' => (m.free P handle).2 = m'
  | .promote handle, m' => (m.promote P handle).2 = m'
  | .demote handle, m' => (m.demote P handle).2 = m'
  | .pressureEvict tier within, m' =>
    ∃ fuel r, m.pressureEvict P tier within fuel = some (r, m')
  | .resetForTesting, m' => m.resetForTesting P = m'
  | .write handle data, m' => m.write handle data = m'

end Cerberus.TieredMemory
