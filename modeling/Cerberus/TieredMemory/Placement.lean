import Cerberus.TieredMemory.Model

namespace Cerberus.TieredMemory

open Std Foundation.Bytes

def TierAllocation.Shaped (a : TierAllocation) : Prop :=
  match a.tier with
  | .hot => a.ptr = none ∧ ∃ p, a.devicePtr = some p
  | .warm | .cool => (∃ p, a.ptr = some p) ∧ a.devicePtr = none
  | .cold => a.ptr = none ∧ a.devicePtr = none

/-- A memory gains one block, at an address given out from serial number `lo` on. -/
def Grows (lo hi : Nat) (mem mem' : Nat → Option Buffer) : Option Nat → Prop
  | none => mem' = mem
  | some p => lo ≤ p ∧ p < hi ∧ ∃ b, mem' = Function.update mem p (some b)

namespace Impl

/-- Whether a tier takes a block, when the request has serial number `n`. -/
def grants (P : Platform) (m : Impl) (t : MemoryTier) (size align : UInt64) (n : Nat) : Bool :=
  m.admits t size align &&
    match t with
    | .hot => P.hasHip && P.hipMalloc n
    | .warm => m.warmRes.hasRoom size (m.effectiveAlign .warm align) && P.alignedAlloc n
    | .cool => m.coolRes.hasRoom size (m.effectiveAlign .cool align) && P.alignedAlloc n
    | .cold => m.coldAvailable && P.openSpill n && P.fillSpill n &&
        decide (size.toNat - 1 < 2 ^ 63)

def landing (P : Platform) (m : Impl) (size align : UInt64) :
    List MemoryTier → Nat → Option MemoryTier
  | [], _ => none
  | t :: rest, n =>
    if m.grants P t size align n then some t else m.landing P size align rest (n + 1)

def litters (P : Platform) (m : Impl) (size align : UInt64) : List MemoryTier → Nat → Bool
  | [], _ => false
  | t :: rest, n =>
    if m.grants P t size align n then false
    else (t == .cold && m.admits t size align && m.coldAvailable && P.openSpill n) ||
      m.litters P size align rest (n + 1)

/-- What an attempt that finds no room leaves behind: at most an empty spill file under the
name of the next handle. -/
structure Passed (m : Impl) (litter : Bool) (m' : Impl) : Prop where
  frame : m' = { m with os := m'.os }
  serial : m.os.serial ≤ m'.os.serial
  host : m'.os.host = m.os.host
  device : m'.os.device = m.os.device
  released : m'.os.released = m.os.released
  disk : m'.os.disk = if litter then
    Function.update m.os.disk (m.spillPath m.nextHandle) (some ⟨0, fun _ ↦ 0⟩) else m.os.disk

def chargeRes (m : Impl) (t : MemoryTier) (a : TierAllocation) (r : PmrResource) : PmrResource :=
  if a.tier = t then { r with allocated := r.allocated + m.alignedSize t a.sizeBytes a.alignment }
  else r

/-- What a successful allocation of `a` does to the manager. -/
structure Placed (P : Platform) (m : Impl) (size align : UInt64) (a : TierAllocation) (m' : Impl) :
    Prop where
  handle : a.handle = m.nextHandle
  room : m.admits a.tier size align = true
  size : a.sizeBytes = size
  align : a.alignment = m.effectiveAlign a.tier align
  frame : m' = { m with
    registry := m.registry.insertIfNew a.handle a
    nextHandle := m.nextHandle + 1
    acct := (m.charge a.tier (m.alignedSize a.tier a.sizeBytes a.alignment)).acct
    lru := Function.update m.lru a.tier (a.handle :: m.lru a.tier)
    coldFiles := if a.tier = .cold then m.coldFiles.insert a.handle (m.spillPath a.handle)
      else m.coldFiles
    warmRes := m.chargeRes .warm a m.warmRes
    coolRes := m.chargeRes .cool a m.coolRes
    os := m'.os }
  serial : m.os.serial ≤ m'.os.serial
  shaped : a.Shaped
  hip : a.tier = .hot → P.hasHip = true
  host : Grows m.os.serial m'.os.serial m.os.host m'.os.host a.ptr
  device : Grows m.os.serial m'.os.serial m.os.device m'.os.device a.devicePtr
  disk : m'.os.disk = if a.tier = .cold then
      Function.update m.os.disk (m.spillPath a.handle) (some ⟨a.sizeBytes.toNat, fun _ ↦ 0⟩)
    else m.os.disk
  released : m'.os.released = m.os.released

end Impl

namespace PmrResource

variable {P : Platform} {r : PmrResource} {os : Os} {bytes align : UInt64}

theorem doAllocate_eq : r.doAllocate P os bytes align =
    if r.hasRoom bytes align && P.alignedAlloc os.serial then
      (some os.serial,
        { r with allocated := r.allocated + r.actual bytes align },
        { os.tick with
          host := Function.update os.host os.serial
            (some ⟨(r.actual bytes align).toNat, P.garbage os.serial⟩) })
    else (none, r, os.tick) := by
  unfold doAllocate Os.allocAligned
  cases r.hasRoom bytes align <;> cases P.alignedAlloc os.serial <;> rfl

end PmrResource

theorem Grows.mono {lo lo' hi : Nat} {mem mem' : Nat → Option Buffer} {p : Option Nat}
    (h : Grows lo hi mem mem' p) (hl : lo' ≤ lo) : Grows lo' hi mem mem' p := by
  cases p with
  | none => exact h
  | some p => exact ⟨hl.trans h.1, h.2⟩

theorem Os.createSpill_serial (P : Platform) (os : Os) (path : ByteString) (size : UInt64) :
    (os.createSpill P path size).2.serial = os.serial + 1 := by
  unfold Os.createSpill
  split
  · split <;> rfl
  · rfl

namespace Impl

variable {P : Platform} {m m' : Impl} {t : MemoryTier} {size align : UInt64}
  {a : TierAllocation} {ts : List MemoryTier}

theorem Passed.tick (m : Impl) : Passed m false { m with os := m.os.tick } :=
  ⟨rfl, Nat.le_succ _, rfl, rfl, rfl, rfl⟩

theorem tryTier_passed (hg : m.grants P t size align m.os.serial = false) :
    (m.tryTier P t size align).1 = none ∧
      Passed m (t == .cold && m.admits t size align && m.coldAvailable && P.openSpill m.os.serial)
        (m.tryTier P t size align).2 := by
  unfold tryTier
  cases ha : m.admits t size align
  · simp only [Bool.not_false, ↓reduceIte, Bool.and_false, Bool.false_and]
    exact ⟨trivial, .tick m⟩
  simp only [grants, ha, Bool.true_and] at hg
  simp only [Bool.not_true, Bool.false_eq_true, ↓reduceIte, Bool.and_true]
  cases t with
  | hot =>
    simp only [acquire, allocHot]
    cases hh : P.hasHip
    · exact ⟨rfl, .tick m⟩
    · simp only [hh, Bool.true_and] at hg
      simp only [↓reduceIte, Os.hipMalloc, hg, Bool.false_eq_true]
      exact ⟨trivial, .tick m⟩
  | warm =>
    simp only [acquire, PmrResource.doAllocate_eq, hg, Bool.false_eq_true, ↓reduceIte]
    exact ⟨trivial, .tick m⟩
  | cool =>
    simp only [acquire, PmrResource.doAllocate_eq, hg, Bool.false_eq_true, ↓reduceIte]
    exact ⟨trivial, .tick m⟩
  | cold =>
    by_cases hc : m.coldAvailable = true
    · have hc' : (!m.coldAvailable) = false := by simp [hc]
      simp only [hc, Bool.true_and] at hg
      simp only [hc', Bool.false_eq_true, ↓reduceIte, reserveSpill, Os.createSpill, takeHandle]
      by_cases ho : P.openSpill m.os.serial = true
      · simp only [ho, Bool.true_and] at hg
        simp only [ho, ↓reduceIte, hg, Bool.false_eq_true]
        refine ⟨trivial, rfl, Nat.le_succ _, rfl, rfl, rfl, ?_⟩
        simp only [hc, BEq.rfl, Bool.and_self, ↓reduceIte]
        rfl
      · simp only [ho, Bool.false_eq_true, ↓reduceIte, Bool.and_false]
        exact ⟨trivial, .tick m⟩
    · have hc' : (!m.coldAvailable) = true := by simp [hc]
      have hl : (MemoryTier.cold == MemoryTier.cold && m.coldAvailable &&
          P.openSpill m.os.serial) = false := by simp [hc]
      rw [if_pos hc', hl]
      exact ⟨rfl, .tick m⟩

theorem tryTier_serial (P : Platform) (m : Impl) (t : MemoryTier) (size align : UInt64) :
    (m.tryTier P t size align).2.os.serial = m.os.serial + 1 := by
  unfold tryTier
  split
  · rfl
  cases t with
  | hot =>
    simp only [acquire, allocHot, Os.hipMalloc]
    cases P.hasHip <;> cases P.hipMalloc m.os.serial <;> rfl
  | warm =>
    simp only [acquire, PmrResource.doAllocate_eq]
    cases m.warmRes.hasRoom size (m.effectiveAlign .warm align) <;>
      cases P.alignedAlloc m.os.serial <;> rfl
  | cool =>
    simp only [acquire, PmrResource.doAllocate_eq]
    cases m.coolRes.hasRoom size (m.effectiveAlign .cool align) <;>
      cases P.alignedAlloc m.os.serial <;> rfl
  | cold =>
    have hs := Os.createSpill_serial P m.os (m.takeHandle.spillPath m.nextHandle) size
    have hos : m.takeHandle.os = m.os := rfl
    simp only [reserveSpill, hos]
    split
    · rfl
    · rcases hc : m.os.createSpill P (m.takeHandle.spillPath m.nextHandle) size with ⟨b, os⟩
      rw [hc] at hs
      cases b <;> exact hs

theorem tryTier_placed (hg : m.grants P t size align m.os.serial = true) :
    ∃ a, (m.tryTier P t size align).1 = some a ∧ a.tier = t ∧
      Placed P m size align a (m.tryTier P t size align).2 := by
  unfold tryTier
  simp only [grants, Bool.and_eq_true] at hg
  obtain ⟨ha, hg⟩ := hg
  simp only [ha, Bool.not_true, Bool.false_eq_true, ↓reduceIte]
  cases t with
  | hot =>
    simp only [Bool.and_eq_true] at hg
    simp only [acquire, allocHot, hg.1, ↓reduceIte, Os.hipMalloc, hg.2]
    refine ⟨_, rfl, rfl, rfl, ha, rfl, rfl, rfl, Nat.le_succ _, ⟨rfl, _, rfl⟩, fun _ ↦ hg.1, rfl, ?_,
      rfl, rfl⟩
    exact ⟨le_rfl, Nat.lt_succ_self _, _, rfl⟩
  | warm =>
    simp only [acquire, PmrResource.doAllocate_eq, hg, ↓reduceIte]
    refine ⟨_, rfl, rfl, rfl, ha, rfl, rfl, rfl, Nat.le_succ _, ⟨⟨_, rfl⟩, rfl⟩, by simp, ?_, rfl,
      rfl, rfl⟩
    exact ⟨le_rfl, Nat.lt_succ_self _, _, rfl⟩
  | cool =>
    simp only [acquire, PmrResource.doAllocate_eq, hg, ↓reduceIte]
    refine ⟨_, rfl, rfl, rfl, ha, rfl, rfl, rfl, Nat.le_succ _, ⟨⟨_, rfl⟩, rfl⟩, by simp, ?_, rfl,
      rfl, rfl⟩
    exact ⟨le_rfl, Nat.lt_succ_self _, _, rfl⟩
  | cold =>
    simp only [Bool.and_eq_true] at hg
    obtain ⟨⟨⟨hc, ho⟩, hf⟩, hs⟩ := hg
    have hc' : (!m.coldAvailable) = false := by simp [hc]
    simp only [hc', Bool.false_eq_true, ↓reduceIte, reserveSpill, Os.createSpill, takeHandle,
      ho, hf, hs, Bool.and_self]
    exact ⟨_, rfl, rfl, rfl, ha, rfl, rfl, rfl, Nat.le_succ _, ⟨rfl, rfl⟩, by simp, rfl, rfl, rfl,
      rfl⟩

theorem Passed.landing_eq {l : Bool} (h : Passed m l m') (n : Nat) :
    m'.landing P size align ts n = m.landing P size align ts n := by
  rw [h.frame]
  induction ts generalizing n with
  | nil => rfl
  | cons t ts ih => simp only [landing, ih]; rfl

theorem Passed.litters_eq {l : Bool} (h : Passed m l m') (n : Nat) :
    m'.litters P size align ts n = m.litters P size align ts n := by
  rw [h.frame]
  induction ts generalizing n with
  | nil => rfl
  | cons t ts ih => simp only [litters, ih]; rfl

theorem Passed.trans {l l' : Bool} {m₁ : Impl} (h : Passed m l m₁) (h' : Passed m₁ l' m') :
    Passed m (l || l') m' := by
  have hp : m₁.spillPath m₁.nextHandle = m.spillPath m.nextHandle := by rw [h.frame]; rfl
  refine ⟨?_, h.serial.trans h'.serial, h'.host.trans h.host, h'.device.trans h.device,
    h'.released.trans h.released, ?_⟩
  · rw [h'.frame, h.frame]
  · rw [h'.disk, h.disk, hp]
    cases l <;> cases l' <;> simp

theorem Passed.placed {m₁ : Impl} (h : Passed m false m₁) (h' : Placed P m₁ size align a m') :
    Placed P m size align a m' where
  handle := by rw [h'.handle, h.frame]
  size := h'.size
  align := by rw [h'.align, h.frame]; rfl
  room := by rw [← h'.room, h.frame]; rfl
  frame := by rw [h'.frame, h.frame]; rfl
  serial := h.serial.trans h'.serial
  shaped := h'.shaped
  hip := h'.hip
  host := (h.host ▸ h'.host).mono h.serial
  device := (h.device ▸ h'.device).mono h.serial
  disk := by
    have hpath : m₁.spillPath a.handle = m.spillPath a.handle := by rw [h.frame]; rfl
    have hdisk : m₁.os.disk = m.os.disk := h.disk
    rw [h'.disk, hpath, hdisk]
  released := h'.released.trans h.released

/-- The Cold tier is the last of a walk, so a file that could not be filled is never
followed by a placement. -/
def ColdLast (ts : List MemoryTier) : Prop := ∀ t ∈ ts.dropLast, t ≠ .cold

theorem walk_coldLast (t : MemoryTier) : ColdLast (kTiers.drop t.index) := by
  cases t <;> simp [ColdLast, kTiers, MemoryTier.index]

theorem allocateFrom_placed (hts : ColdLast ts)
    (hl : m.landing P size align ts m.os.serial = some t) :
    ∃ a, (allocateFrom P size align ts m).1 = .ok a ∧ a.tier = t ∧
      Placed P m size align a (allocateFrom P size align ts m).2 := by
  induction ts generalizing m with
  | nil => simp [landing] at hl
  | cons t' ts ih =>
    simp only [landing] at hl
    simp only [allocateFrom]
    cases hg : m.grants P t' size align m.os.serial with
    | true =>
      obtain ⟨a, ha, ht, hp⟩ := tryTier_placed hg
      simp only [hg, ↓reduceIte, Option.some.injEq] at hl
      rw [← Prod.mk.eta (p := m.tryTier P t' size align), ha]
      exact ⟨a, rfl, ht.trans hl, hp⟩
    | false =>
      obtain ⟨hn, hp⟩ := tryTier_passed hg
      have hs := tryTier_serial P m t' size align
      simp only [hg, Bool.false_eq_true, ↓reduceIte] at hl
      have hne : ts ≠ [] := by rintro rfl; simp [landing] at hl
      have hcold : t' ≠ .cold := hts t' (by simp [List.dropLast_cons_of_ne_nil hne])
      have hts' : ColdLast ts := fun x hx ↦ hts x (by
        simp [List.dropLast_cons_of_ne_nil hne, hx])
      rw [beq_eq_false_iff_ne.mpr hcold] at hp
      rw [← Prod.mk.eta (p := m.tryTier P t' size align), hn]
      rw [← hs, ← hp.landing_eq] at hl
      obtain ⟨a, ha, ht, hq⟩ := ih hts' hl
      exact ⟨a, ha, ht, hp.placed hq⟩

theorem allocateFrom_passed (hl : m.landing P size align ts m.os.serial = none) :
    (allocateFrom P size align ts m).1 = .error .outOfMemory ∧
      Passed m (m.litters P size align ts m.os.serial) (allocateFrom P size align ts m).2 := by
  induction ts generalizing m with
  | nil => exact ⟨rfl, rfl, le_rfl, rfl, rfl, rfl, rfl⟩
  | cons t' ts ih =>
    simp only [landing] at hl
    simp only [allocateFrom, litters]
    cases hg : m.grants P t' size align m.os.serial with
    | true => simp [hg] at hl
    | false =>
      obtain ⟨hn, hp⟩ := tryTier_passed hg
      have hs := tryTier_serial P m t' size align
      simp only [hg, Bool.false_eq_true, ↓reduceIte] at hl ⊢
      rw [← Prod.mk.eta (p := m.tryTier P t' size align), hn]
      rw [← hs, ← hp.landing_eq] at hl
      obtain ⟨he, hq⟩ := ih hl
      rw [hp.litters_eq, hs] at hq
      exact ⟨he, hp.trans hq⟩

/-- The tier a request to `allocate` ends in. -/
def landingTier (P : Platform) (m : Impl) (size : UInt64) (preferred : MemoryTier)
    (align : UInt64) : Option MemoryTier :=
  if size = 0 then none
  else m.landing P size align (kTiers.drop preferred.index) m.os.serial

/-- Whether a request to `allocate` leaves a spill file that it could not fill. -/
def littersSpill (P : Platform) (m : Impl) (size : UInt64) (preferred : MemoryTier)
    (align : UInt64) : Bool :=
  size != 0 && m.litters P size align (kTiers.drop preferred.index) m.os.serial

variable {preferred : MemoryTier}

theorem allocate_placed (hl : m.landingTier P size preferred align = some t) :
    ∃ a, (m.allocate P size preferred align).1 = .ok a ∧ a.tier = t ∧ size ≠ 0 ∧
      Placed P m size align a (m.allocate P size preferred align).2 := by
  unfold landingTier at hl
  unfold allocate
  split at hl
  · simp at hl
  · next h =>
    rw [if_neg h]
    obtain ⟨a, ha, ht, hp⟩ := allocateFrom_placed (walk_coldLast preferred) hl
    exact ⟨a, ha, ht, h, hp⟩

theorem allocate_passed (hl : m.landingTier P size preferred align = none) :
    (∃ e, (m.allocate P size preferred align).1 = .error e) ∧
      Passed m (m.littersSpill P size preferred align) (m.allocate P size preferred align).2 := by
  unfold landingTier at hl
  unfold allocate littersSpill
  by_cases h : size = 0
  · simp only [h, ↓reduceIte, bne_self_eq_false, Bool.false_and]
    exact ⟨⟨_, rfl⟩, rfl, le_rfl, rfl, rfl, rfl, rfl⟩
  · simp only [h, ↓reduceIte] at hl ⊢
    obtain ⟨he, hp⟩ := allocateFrom_passed hl
    have hne : (size != 0) = true := by simp [h]
    rw [hne, Bool.true_and]
    exact ⟨⟨_, he⟩, hp⟩

end Impl

end Cerberus.TieredMemory
