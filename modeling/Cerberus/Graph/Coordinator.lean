import Cerberus.Graph.Runtime
import Cerberus.TieredMemory.Accounting

/-! The execution coordinator over bytes, with the blocks that it takes from the memory manager and
gives back. -/

namespace Cerberus.Graph.Coordinator

open Foundation.Bytes TieredMemory

variable {F : Type}

structure Staged where
  size : UInt64
  ptr : Option Nat
  data : Option (Nat → UInt8)

structure Request where
  manager : Impl
  size : UInt64
  tier : MemoryTier

structure Moment where
  os : Os
  buffers : List Staged

/-- A vector of scoped allocations with the buffers in them. `requests` and `moments` record what
happens on the way. -/
structure Staging where
  manager : Impl
  allocs : List TierAllocation := []
  buffers : List Staged := []
  requests : List Request := []
  moments : List Moment := []

/-- How a backend ends a call, and what it leaves in the blocks of the host memory. -/
abbrev Backend (F : Type) := CompiledKernel F → List (Option Nat) → List (Option Nat) → Os →
  Outcome ByteString Unit × (Nat → Nat → UInt8)

def release (P : Platform) (allocs : List TierAllocation) (m : Impl) : Impl :=
  allocs.foldl (fun m a ↦ if a.handle ≠ kInvalidTierHandle then (m.free P a.handle).2 else m) m

/-- `memcpy` into a block, where the block is large enough. -/
def copyIn (os : Os) (p : Option Nat) (size : UInt64) (data : Nat → UInt8) : Option Os :=
  p.bind (fun p ↦ (os.host p).bind (fun b ↦
    if size.toNat ≤ b.size then some (os.writeHost p size.toNat data) else none))

/-- What is done with a new block; `user` are the bytes to copy there, for an input. -/
def fill (size : UInt64) (user : Option (Nat → UInt8)) (a : TierAllocation) (s : Staging) :
    Outcome CerberusError Unit × Staging :=
  let empty := s.buffers ++ [Staged.mk size a.ptr none]
  match user with
  | none => (.ok (), { s with buffers := empty })
  | some data =>
    let s := { s with moments := s.moments ++ [Moment.mk s.manager.os empty] }
    match copyIn s.manager.os a.ptr size data with
    | none => (.undefined, s)
    | some os =>
      (.ok (), { s with manager := { s.manager with os := os }
                        buffers := s.buffers ++ [Staged.mk size a.ptr (some data)] })

def stageOne (P : Platform) (tier : MemoryTier) (size : UInt64) (user : Option (Nat → UInt8))
    (s : Staging) : Outcome CerberusError Unit × Staging :=
  let s := { s with requests := s.requests ++ [Request.mk s.manager size tier] }
  match s.manager.allocate P size tier 0 with
  | (.error e, m) => (.failed (mapTierError e), { s with manager := m })
  | (.ok a, m) =>
    let s := { s with manager := m, allocs := s.allocs ++ [a] }
    if a.handle = kInvalidTierHandle then (.failed .outOfMemory, s) else fill size user a s

/-- The loop over the tensors; the tier of a tensor depends on its place. -/
def stageAll (P : Platform) (tier : Nat → MemoryTier) :
    Nat → List (UInt64 × Option (Nat → UInt8)) → Staging → Outcome CerberusError Unit × Staging
  | _, [], s => (.ok (), s)
  | i, (size, user) :: rest, s =>
    match stageOne P (tier i) size user s with
    | (.ok (), s) => stageAll P tier (i + 1) rest s
    | r => r

/-- `memcpy` out of a block. -/
def copyOut (os : Os) (b : Staged) (user : Nat → UInt8) : Option (Nat → UInt8) :=
  b.ptr.bind (fun p ↦ (os.host p).bind (fun block ↦
    if b.size.toNat ≤ block.size then
      some (fun i ↦ if i < b.size.toNat then block.byte i else user i)
    else none))

def copyAllOut (os : Os) : List Staged → List (Nat → UInt8) → Option (List (Nat → UInt8))
  | b :: bs, user :: users =>
    (copyOut os b user).bind (fun bytes ↦ (copyAllOut os bs users).map (fun rest ↦ bytes :: rest))
  | _, users => some users

/-- What a call leaves: the manager, the memory at the caller's output pointers, and the record of
the two loops and of the call of the backend. -/
structure Report where
  outcome : Outcome CerberusError Unit
  manager : Impl
  outputs : List (Option (Nat → UInt8))
  inputRequests : List Request := []
  outputRequests : List Request := []
  moments : List Moment := []

def rewrite (os : Os) (bytes : Nat → Nat → UInt8) : Os :=
  { os with host := fun p ↦ (os.host p).map (fun b ↦ { b with byte := bytes p }) }

section

variable (P : Platform) (backend : Backend F) (kernel : CompiledKernel F)

def dispatch (users : List (Nat → UInt8)) (ins outs : Staging) : Report :=
  let os := outs.manager.os
  let called := backend kernel (ins.buffers.map (fun b ↦ b.ptr)) (outs.buffers.map (fun b ↦ b.ptr)) os
  let m := { outs.manager with os := rewrite os called.2 }
  let report : Report :=
    { outcome := .ok ()
      manager := release P ins.allocs (release P outs.allocs m)
      outputs := users.map some
      inputRequests := ins.requests
      outputRequests := outs.requests
      moments := ins.moments ++ [Moment.mk os (ins.buffers ++ outs.buffers)] }
  match called.1 with
  | .failed _ => { report with outcome := .failed .backendExecuteFailed }
  | .undefined => { report with outcome := .undefined }
  | .threw => { report with outcome := .threw }
  | .ok () =>
    match copyAllOut m.os outs.buffers users with
    | some users => { report with outputs := users.map some }
    | none => { report with outcome := .undefined }

/-- `CerberusExecutionCoordinator::run`. A null pointer of the caller is `none`. -/
def run (m : Impl) (userInputs userOutputs : List (Option (Nat → UInt8))) : Report :=
  let refused : Report := ⟨.failed .invalidArgument, m, userOutputs, [], [], []⟩
  if userInputs.length ≠ kernel.inputs.length then refused
  else if userOutputs.length ≠ kernel.outputs.length then refused
  else if userInputs.any Option.isNone then refused
  else if userOutputs.any Option.isNone then refused
  else
    let sizes := kernel.inputs.map TensorDesc.sizeBytes
    match stageAll P kernel.pickInputTier 0 (sizes.zip userInputs) { manager := m } with
    | (.ok (), ins) =>
      let outSizes := kernel.outputs.map (fun d ↦ (d.sizeBytes, none))
      match stageAll P kernel.pickOutputTier 0 outSizes { manager := ins.manager } with
      | (.ok (), outs) => dispatch P backend kernel (userOutputs.filterMap id) ins outs
      | (r, outs) => ⟨r, release P ins.allocs (release P outs.allocs outs.manager), userOutputs,
          ins.requests, outs.requests, ins.moments⟩
    | (r, ins) => ⟨r, release P ins.allocs ins.manager, userOutputs, ins.requests, [], ins.moments⟩

end

end Cerberus.Graph.Coordinator
