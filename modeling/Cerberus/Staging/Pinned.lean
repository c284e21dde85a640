import Mathlib.Data.List.Basic
import Mathlib.Logic.Function.Basic

namespace Cerberus.Staging

structure Slot where
  hostPtr : Nat := 0
  devicePtr : Nat := 0
  inFlight : Bool := false
  ready : Bool := false

structure PinnedStagingPool where
  embeddingBytes : Nat
  numSlots : Int
  slots : List Slot := []
  initialized : Bool := false

/-- The copies given to the stream are done one after the other. An event is complete when as many
of them are done as there were at its record. -/
structure HipStream where
  submitted : Nat := 0
  completed : Nat := 0
  recorded : Nat → Nat := fun _ ↦ 0

inductive HipCall
  | memcpyAsync
  | eventRecord
  | eventQuery
  | eventSynchronize

inductive StagingErrorInfo
  | notInitialized
  | invalidSlot (idx : Nat)
  | noHostBuffer (idx : Nat)
  | noDeviceBuffer (idx : Nat)
  | hipError (failed : HipCall)

inductive HipStatus
  | success
  | notReady
  | error

namespace HipStream

/-- The two calls on events may fail for reasons of their own. -/
def eventQuery (d : HipStream) (idx : Nat) (fault : Bool) : HipStatus :=
  if fault then .error else if d.recorded idx ≤ d.completed then .success else .notReady

def eventSynchronize (d : HipStream) (idx : Nat) (fault : Bool) : HipStatus × HipStream :=
  if fault then (.error, d)
  else (.success, { d with completed := max d.completed (d.recorded idx) })

def memcpyAsync (d : HipStream) : HipStream := { d with submitted := d.submitted + 1 }

def eventRecord (d : HipStream) (idx : Nat) : HipStream :=
  { d with recorded := Function.update d.recorded idx d.submitted }

def elapse (d : HipStream) : HipStream :=
  if d.completed < d.submitted then { d with completed := d.completed + 1 } else d

end HipStream

structure SlotMemory where
  stream : Bool := true
  host : Nat → Nat
  device : Nat → Nat
  event : Nat → Bool := fun _ ↦ true

namespace PinnedStagingPool

def makeSlot (hip : Bool) (memory : SlotMemory) (i : Nat) : Option Slot :=
  if memory.host i = 0 then none
  else if hip then
    if memory.device i = 0 ∨ memory.event i = false then none
    else some { hostPtr := memory.host i, devicePtr := memory.device i }
  else some { hostPtr := memory.host i }

/-- Without all its memory the pool stays uninitialized. -/
def make (hip : Bool) (memory : SlotMemory) (embeddingBytes : Nat) (numSlots : Int) :
    PinnedStagingPool :=
  if embeddingBytes = 0 ∨ numSlots < 1 then { embeddingBytes, numSlots }
  else if hip ∧ memory.stream = false then
    { embeddingBytes, numSlots, slots := List.replicate numSlots.toNat {} }
  else
    match (List.range numSlots.toNat).mapM (makeSlot hip memory) with
    | none => { embeddingBytes, numSlots }
    | some slots => { embeddingBytes, numSlots, slots, initialized := true }

def slotForStep (p : PinnedStagingPool) (step : UInt32) : Nat := step.toNat % p.numSlots.toNat

def slotOf (p : PinnedStagingPool) (step : UInt32) : Except StagingErrorInfo (Nat × Slot) :=
  if p.initialized = false then .error .notInitialized
  else
    match p.slots[p.slotForStep step]? with
    | none => .error (.invalidSlot (p.slotForStep step))
    | some s => .ok (p.slotForStep step, s)

def put (p : PinnedStagingPool) (idx : Nat) (s : Slot) : PinnedStagingPool :=
  { p with slots := p.slots.set idx s }

end PinnedStagingPool

structure Station where
  hip : Bool
  pool : PinnedStagingPool
  device : HipStream := {}

namespace Station

def put (w : Station) (idx : Nat) (s : Slot) : Station := { w with pool := w.pool.put idx s }

/-- Without HIP every transfer is taken to be complete. -/
def poll (w : Station) (idx : Nat) (fault : Bool) : HipStatus :=
  if w.hip then w.device.eventQuery idx fault else .success

def drainSlot (w : Station) (idx : Nat) (s : Slot) (fault : Bool) : Station × Slot :=
  if s.inFlight = false then (w, s)
  else
    ({ w with device := if w.hip then (w.device.eventSynchronize idx fault).2 else w.device },
      { s with inFlight := false, ready := true })

def acquireHostBuffer (w : Station) (step : UInt32) (fault : Bool) :
    Except StagingErrorInfo Nat × Station :=
  match w.pool.slotOf step with
  | .error e => (.error e, w)
  | .ok (idx, s) =>
    let (w, s) := w.drainSlot idx s fault
    (.ok s.hostPtr, w.put idx { s with ready := false })

def stageToGpu (w : Station) (step : UInt32) (memcpyOk recordOk : Bool) :
    Except StagingErrorInfo Unit × Station :=
  match w.pool.slotOf step with
  | .error e => (.error e, w)
  | .ok (idx, s) =>
    if s.hostPtr = 0 then (.error (.noHostBuffer idx), w)
    else if w.hip then
      if s.devicePtr = 0 then (.error (.noDeviceBuffer idx), w)
      else if memcpyOk = false then (.error (.hipError .memcpyAsync), w)
      else if recordOk = false then
        (.error (.hipError .eventRecord), { w with device := w.device.memcpyAsync })
      else
        (.ok (), { w with device := w.device.memcpyAsync.eventRecord idx }.put idx
          { s with inFlight := true, ready := false })
    else (.ok (), w.put idx { s with inFlight := true, ready := false })

/-- The device buffer, by its address; it is null while the transfer is in flight. -/
def getGpuBuffer (w : Station) (step : UInt32) (fault : Bool) :
    Except StagingErrorInfo Nat × Station :=
  match w.pool.slotOf step with
  | .error e => (.error e, w)
  | .ok (idx, s) =>
    if s.inFlight = false then (.ok s.devicePtr, w)
    else
      match w.poll idx fault with
      | .success => (.ok s.devicePtr, w.put idx { s with inFlight := false, ready := true })
      | .notReady => (.ok 0, w)
      | .error => (.error (.hipError .eventQuery), w)

def synchronizeStep (w : Station) (step : UInt32) (fault : Bool) :
    Except StagingErrorInfo Unit × Station :=
  match w.pool.slotOf step with
  | .error e => (.error e, w)
  | .ok (idx, s) =>
    if s.inFlight = false then (.ok (), w)
    else if w.hip then
      match w.device.eventSynchronize idx fault with
      | (.success, device) =>
        (.ok (), { w with device }.put idx { s with inFlight := false, ready := true })
      | (_, device) => (.error (.hipError .eventSynchronize), { w with device })
    else (.ok (), w.put idx { s with inFlight := false, ready := true })

def isReady (w : Station) (step : UInt32) (fault : Bool) : Bool × Station :=
  match w.pool.slotOf step with
  | .error _ => (false, w)
  | .ok (idx, s) =>
    if s.inFlight = false then (s.ready, w)
    else
      match w.poll idx fault with
      | .success => (true, w.put idx { s with inFlight := false, ready := true })
      | _ => (false, w)

end Station

end Cerberus.Staging
