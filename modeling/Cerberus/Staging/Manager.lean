import Cerberus.Foundation.Accumulate
import Mathlib.Data.List.Nodup
import Mathlib.Data.List.Range
import Mathlib.Logic.Function.Basic

namespace Cerberus.Staging

open Foundation.Accumulate

structure StagingConfig where
  bufferCount : Nat := 8
  bufferSizeBytes : Nat := 64 * 1024 * 1024
  pinned : Bool := true

/-- Addresses are numbers; that of no memory is zero. -/
structure HostBuffer where
  vecData : Nat := 0
  vecSize : Nat := 0
  pinnedPtr : Nat := 0
  bufSize : Nat

def HostBuffer.data (b : HostBuffer) : Nat := if b.pinnedPtr = 0 then b.vecData else b.pinnedPtr

def HostBuffer.empty (b : HostBuffer) : Bool := b.pinnedPtr = 0 && b.vecSize = 0

structure StagingBuffer where
  data : Nat
  length : Nat
  capacity : Nat
  used : Nat := 0

def HostBuffer.staging (b : HostBuffer) : StagingBuffer :=
  { data := b.data, length := b.bufSize, capacity := b.bufSize }

def StagingBuffer.Holds (b : StagingBuffer) (a : Nat) : Prop := b.data ≤ a ∧ a < b.data + b.length

def Apart (a b size : Nat) : Prop := a + size ≤ b ∨ b + size ≤ a

/-- Where the buffers come to lie: blocks that do not overlap. No page-locked block is had where
the address is zero, as is every one without bytes, and every one without HIP. -/
structure Allocation (cfg : StagingConfig) where
  pinned : Nat → Nat
  vec : Nat → Nat
  pinned_empty : cfg.bufferSizeBytes = 0 → ∀ i, pinned i = 0
  pinned_apart : ∀ i < cfg.bufferCount, ∀ j < cfg.bufferCount, i ≠ j → pinned i ≠ 0 →
    pinned j ≠ 0 → Apart (pinned i) (pinned j) cfg.bufferSizeBytes
  vec_apart : ∀ i < cfg.bufferCount, ∀ j < cfg.bufferCount, i ≠ j →
    Apart (vec i) (vec j) cfg.bufferSizeBytes

structure EmbeddingStagingManager where
  buffers : List HostBuffer
  freeIndices : List Nat

namespace EmbeddingStagingManager

variable {cfg : StagingConfig}

def pinnedBuffers (a : Allocation cfg) : Option (List HostBuffer) :=
  (List.range cfg.bufferCount).mapM (fun i ↦
    if a.pinned i = 0 then none
    else some { pinnedPtr := a.pinned i, bufSize := cfg.bufferSizeBytes })

def vecBuffers (a : Allocation cfg) : List HostBuffer :=
  (List.range cfg.bufferCount).map (fun i ↦
    { vecData := a.vec i, vecSize := cfg.bufferSizeBytes, bufSize := cfg.bufferSizeBytes })

def make (a : Allocation cfg) : EmbeddingStagingManager :=
  { buffers := ((if cfg.pinned then pinnedBuffers a else none).filter (!·.isEmpty)).getD
      (vecBuffers a)
    freeIndices := List.range cfg.bufferCount }

def acquire (m : EmbeddingStagingManager) : Option StagingBuffer × EmbeddingStagingManager :=
  match m.freeIndices with
  | [] => (none, m)
  | idx :: free => (m.buffers[idx]?.map HostBuffer.staging, { m with freeIndices := free })

def recognized (m : EmbeddingStagingManager) (data : Nat) : Option Nat :=
  m.buffers.findIdx? (fun b ↦ !b.empty && b.data = data)

def release (m : EmbeddingStagingManager) (buf : StagingBuffer) : EmbeddingStagingManager :=
  match m.recognized buf.data with
  | some i => { m with freeIndices := m.freeIndices ++ [i] }
  | none => m

def availableCount (m : EmbeddingStagingManager) : Nat := m.freeIndices.length

structure Laid (cfg : StagingConfig) (buffers : List HostBuffer) : Prop where
  count : buffers.length = cfg.bufferCount
  size : ∀ b ∈ buffers, b.bufSize = cfg.bufferSizeBytes
  empty : ∀ b ∈ buffers, b.empty = true ↔ cfg.bufferSizeBytes = 0
  apart : ∀ (i j : Nat) (b c : HostBuffer), i ≠ j → buffers[i]? = some b → buffers[j]? = some c →
    Apart b.data c.data cfg.bufferSizeBytes

theorem laid_of_range {f : Nat → HostBuffer} (hsize : ∀ i, (f i).bufSize = cfg.bufferSizeBytes)
    (hempty : ∀ i < cfg.bufferCount, (f i).empty = true ↔ cfg.bufferSizeBytes = 0)
    (hapart : ∀ i < cfg.bufferCount, ∀ j < cfg.bufferCount, i ≠ j →
      Apart (f i).data (f j).data cfg.bufferSizeBytes) :
    Laid cfg ((List.range cfg.bufferCount).map f) where
  count := by simp
  size := by
    intro b hb
    obtain ⟨i, -, rfl⟩ := List.mem_map.mp hb
    exact hsize i
  empty := by
    intro b hb
    obtain ⟨i, hi, rfl⟩ := List.mem_map.mp hb
    exact hempty i (List.mem_range.mp hi)
  apart := by
    intro i j b c hij hb hc
    obtain ⟨hi, rfl⟩ := List.getElem?_eq_some_iff.mp hb
    obtain ⟨hj, rfl⟩ := List.getElem?_eq_some_iff.mp hc
    simp only [List.length_map, List.length_range] at hi hj
    simpa using hapart i hi j hj hij

theorem vecBuffers_laid (a : Allocation cfg) : Laid cfg (vecBuffers a) := by
  refine laid_of_range (fun _ ↦ rfl) (fun i _ ↦ ?_) (fun i hi j hj hij ↦ ?_)
  · simp [HostBuffer.empty]
  · exact a.vec_apart i hi j hj hij

theorem pinnedBuffers_laid {a : Allocation cfg} {bs : List HostBuffer}
    (h : pinnedBuffers a = some bs) : Laid cfg bs := by
  have hall : ∀ i < cfg.bufferCount, a.pinned i ≠ 0 := by
    intro i hi hnull
    rw [pinnedBuffers, mapM_range_none hi (if_pos hnull)] at h
    cases h
  rw [pinnedBuffers, mapM_range (fun i hi ↦ if_neg (hall i hi))] at h
  obtain rfl := Option.some.inj h
  refine laid_of_range (fun _ ↦ rfl) (fun i hi ↦ ?_) (fun i hi j hj hij ↦ ?_)
  · have hsize : cfg.bufferSizeBytes ≠ 0 := fun hz ↦ hall i hi (a.pinned_empty hz i)
    simp [HostBuffer.empty, hall i hi, hsize]
  · simpa [HostBuffer.data, hall i hi, hall j hj] using
      a.pinned_apart i hi j hj hij (hall i hi) (hall j hj)

theorem make_laid (a : Allocation cfg) : Laid cfg (make a).buffers := by
  rw [make]
  dsimp only
  cases hbs : (if cfg.pinned then pinnedBuffers a else none).filter (!·.isEmpty) with
  | none => exact vecBuffers_laid a
  | some bs =>
    have hsome := (Option.filter_eq_some_iff.mp hbs).1
    split_ifs at hsome
    exact pinnedBuffers_laid hsome

variable {m : EmbeddingStagingManager} {i n : Nat} {b : HostBuffer} {buf : StagingBuffer}

theorem recognized_buffer (h : Laid cfg m.buffers) (hsize : 0 < cfg.bufferSizeBytes)
    (hb : m.buffers[i]? = some b) : m.recognized b.data = some i := by
  have hmem := List.mem_of_getElem? hb
  have hne : b.empty = false := by
    rw [← Bool.not_eq_true, h.empty b hmem]
    omega
  obtain ⟨hlt, hget⟩ := List.getElem?_eq_some_iff.mp hb
  refine List.findIdx?_eq_some_iff_getElem.mpr ⟨hlt, by simp [hget, hne], ?_⟩
  intro j hj
  have hjlt : j < m.buffers.length := hj.trans hlt
  have hapart := h.apart j i m.buffers[j] b (Nat.ne_of_lt hj) (List.getElem?_eq_getElem hjlt) hb
  have hdata : m.buffers[j].data ≠ b.data := by
    intro he
    rw [Apart, he] at hapart
    omega
  simp [hdata]

theorem recognized_none (h : Laid cfg m.buffers) (hsize : cfg.bufferSizeBytes = 0) (data : Nat) :
    m.recognized data = none := by
  refine List.findIdx?_eq_none_iff.mpr (fun b hb ↦ ?_)
  simp [(h.empty b hb).mpr hsize]

theorem acquire_cons {idx : Nat} {free : List Nat} (hfree : m.freeIndices = idx :: free)
    (hb : m.buffers[idx]? = some b) :
    m.acquire = (some b.staging, { m with freeIndices := free }) := by
  rw [acquire, hfree]
  dsimp only
  rw [hb, Option.map_some]

theorem release_known (h : m.recognized buf.data = some i) :
    m.release buf = { m with freeIndices := m.freeIndices ++ [i] } := by
  rw [release, h]

theorem release_unknown (h : m.recognized buf.data = none) : m.release buf = m := by
  rw [release, h]

@[simp] theorem release_buffers : (m.release buf).buffers = m.buffers := by
  unfold release
  split
  · rfl
  · rfl

end EmbeddingStagingManager

end Cerberus.Staging
