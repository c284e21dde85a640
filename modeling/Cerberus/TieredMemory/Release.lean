import Cerberus.TieredMemory.Coherence

namespace Cerberus.TieredMemory

open Std Function Foundation.FiniteMap Foundation.Ownership

def Shrinks (mem mem' : Nat → Option Buffer) : Option Nat → Prop
  | none => mem' = mem
  | some p => mem' = update mem p none

def TierAllocation.blocks (a : TierAllocation) : List Backing :=
  (a.ptr.map .host).toList ++ (a.devicePtr.map .device).toList

theorem TierAllocation.Shaped.cases {a : TierAllocation} (hs : a.Shaped) :
    (∃ p, a.ptr = some p ∧ a.devicePtr = none ∧ (a.tier = .warm ∨ a.tier = .cool)) ∨
    (∃ p, a.tier = .hot ∧ a.ptr = none ∧ a.devicePtr = some p) ∨
    (a.tier = .cold ∧ a.ptr = none ∧ a.devicePtr = none) := by
  unfold TierAllocation.Shaped at hs
  cases ht : a.tier with
  | hot =>
    simp only [ht] at hs
    exact .inr (.inl ⟨hs.2.choose, rfl, hs.1, hs.2.choose_spec⟩)
  | warm =>
    simp only [ht] at hs
    exact .inl ⟨hs.1.choose, hs.1.choose_spec, hs.2, .inl rfl⟩
  | cool =>
    simp only [ht] at hs
    exact .inl ⟨hs.1.choose, hs.1.choose_spec, hs.2, .inr rfl⟩
  | cold =>
    simp only [ht] at hs
    exact .inr (.inr ⟨rfl, hs⟩)

theorem Owns.shrink {K : Type} [DecidableEq K] {ref : K → Option Nat}
    {mem mem' : Nat → Option Buffer} {k : K} (h : Owns ref mem) (hs : Shrinks mem mem' (ref k)) :
    Owns (update ref k none) mem' := by
  cases hk : ref k with
  | none =>
    rw [hk] at hs
    rw [← hk, update_eq_self]
    exact hs ▸ h
  | some p =>
    rw [hk] at hs
    exact hs ▸ h.drop hk

theorem Shrinks.isSome {mem mem' : Nat → Option Buffer} {p : Option Nat} {q : Nat}
    (hs : Shrinks mem mem' p) (hq : (mem' q).isSome) : (mem q).isSome := by
  cases p with
  | none => exact hs ▸ hq
  | some p =>
    rw [hs, update_apply] at hq
    split at hq
    · simp at hq
    · exact hq

theorem Shrinks.gone {mem mem' : Nat → Option Buffer} {p : Option Nat} {q : Nat}
    (hs : Shrinks mem mem' p) (hq : (mem' q).isSome) : p ≠ some q := by
  rintro rfl
  rw [hs, update_self] at hq
  simp at hq

namespace Impl

variable {P : Platform} {m m' m₁ : Impl} {h : Nat} {a src dst : TierAllocation}
  {size align : UInt64}

def dischargeRes (m : Impl) (t : MemoryTier) (a : TierAllocation) (r : PmrResource) : PmrResource :=
  let n := m.alignedSize t a.sizeBytes a.alignment
  if a.tier = t then { r with allocated := if r.allocated ≥ n then r.allocated - n else 0 } else r

/-- The disk after the spill file of `h`, if there is one, is removed. -/
def diskWithout (P : Platform) (m : Impl) (h : Nat) : List UInt8 → Option Buffer :=
  match m.coldFiles[h]? with
  | none => m.os.disk
  | some path => if P.removeSpill path then update m.os.disk path none else m.os.disk

structure Deallocated (m : Impl) (a : TierAllocation) (m' : Impl) : Prop where
  frame : m' = { m with
    warmRes := m.dischargeRes .warm a m.warmRes
    coolRes := m.dischargeRes .cool a m.coolRes
    os := m'.os }
  serial : m.os.serial ≤ m'.os.serial
  host : Shrinks m.os.host m'.os.host a.ptr
  device : Shrinks m.os.device m'.os.device a.devicePtr
  disk : m'.os.disk = m.os.disk
  released : m'.os.released = m.os.released ++ a.blocks

theorem deallocate_spec (hs : a.Shaped) (hh : a.tier = .hot → P.hasHip = true) :
    Deallocated m a (m.deallocate P a) := by
  unfold TierAllocation.Shaped at hs
  cases ht : a.tier with
  | hot =>
    simp only [ht] at hs
    obtain ⟨hp, p, hd⟩ := hs
    simp only [deallocate, ht, freeHot, hd, hh ht, ↓reduceIte]
    refine ⟨?_, Nat.le_succ _, by simp [Shrinks, hp, Os.hipFree, Os.tick],
      by simp [Shrinks, hd, Os.hipFree], rfl, by simp [TierAllocation.blocks, hp, hd, Os.hipFree]⟩
    simp [dischargeRes, ht]
  | warm =>
    simp only [ht] at hs
    obtain ⟨⟨p, hp⟩, hd⟩ := hs
    simp only [deallocate, ht, hp, PmrResource.doDeallocate]
    refine ⟨?_, Nat.le_succ _, by simp [Shrinks, hp, Os.freeAligned],
      by simp [Shrinks, hd, Os.freeAligned, Os.tick], rfl,
      by simp [TierAllocation.blocks, hp, hd, Os.freeAligned]⟩
    simp [dischargeRes, ht, alignedSize, PmrResource.actual, defaultAlign]
  | cool =>
    simp only [ht] at hs
    obtain ⟨⟨p, hp⟩, hd⟩ := hs
    simp only [deallocate, ht, hp, PmrResource.doDeallocate]
    refine ⟨?_, Nat.le_succ _, by simp [Shrinks, hp, Os.freeAligned],
      by simp [Shrinks, hd, Os.freeAligned, Os.tick], rfl,
      by simp [TierAllocation.blocks, hp, hd, Os.freeAligned]⟩
    simp [dischargeRes, ht, alignedSize, PmrResource.actual, defaultAlign]
  | cold =>
    simp only [ht] at hs
    simp only [deallocate, ht]
    refine ⟨?_, le_rfl, by simp [Shrinks, hs.1], by simp [Shrinks, hs.2], rfl,
      by simp [TierAllocation.blocks, hs]⟩
    simp [dischargeRes, ht]

structure SpillErased (P : Platform) (m : Impl) (h : Nat) (m' : Impl) : Prop where
  frame : m' = { m with coldFiles := m.coldFiles.erase h, os := m'.os }
  serial : m.os.serial ≤ m'.os.serial
  host : m'.os.host = m.os.host
  device : m'.os.device = m.os.device
  disk : m'.os.disk = m.diskWithout P h
  released : m'.os.released = m.os.released ++ ((m.coldFiles[h]?).map .spill).toList

theorem eraseSpill_spec (P : Platform) (m : Impl) (h : Nat) :
    SpillErased P m h (m.eraseSpill P h) := by
  unfold eraseSpill
  cases hf : m.coldFiles[h]? with
  | none =>
    refine ⟨?_, le_rfl, rfl, rfl, by simp [diskWithout, hf], by simp [hf]⟩
    simp only [erase_absent hf]
  | some path =>
    simp only [Os.removeSpill]
    cases hr : P.removeSpill path
    · exact ⟨rfl, Nat.le_succ _, rfl, rfl, by simp [diskWithout, hf, hr, Os.tick], by simp [hf]⟩
    · exact ⟨rfl, Nat.le_succ _, rfl, rfl, by simp [diskWithout, hf, hr], by simp [hf]⟩

/-- What `free` does to a live block. -/
structure Freed (P : Platform) (m : Impl) (h : Nat) (a : TierAllocation) (m' : Impl) : Prop where
  frame : m' = { m with
    registry := m.registry.erase h
    lru := update m.lru a.tier ((m.lru a.tier).filter (· ≠ h))
    coldFiles := m.coldFiles.erase h
    acct := (m.discharge a.tier (m.alignedSize a.tier a.sizeBytes a.alignment)).acct
    warmRes := m.dischargeRes .warm a m.warmRes
    coolRes := m.dischargeRes .cool a m.coolRes
    os := m'.os }
  serial : m.os.serial ≤ m'.os.serial
  host : Shrinks m.os.host m'.os.host a.ptr
  device : Shrinks m.os.device m'.os.device a.devicePtr
  disk : m'.os.disk = m.diskWithout P h
  released : m'.os.released = m.os.released ++ a.blocks ++ ((m.coldFiles[h]?).map .spill).toList

theorem Coherent.not_filed (hc : Coherent P m) (ha : m.registry[h]? = some a)
    (ht : a.tier ≠ .cold) : m.coldFiles[h]? = none := by
  cases hf : m.coldFiles[h]? with
  | none => rfl
  | some path => exact absurd (hc.filedCold hf ha) ht

theorem dischargeRes_other {t : MemoryTier} {r : PmrResource} (ht : a.tier ≠ t) :
    m.dischargeRes t a r = r := by simp [dischargeRes, ht]

@[simp] theorem dischargeRes_defaultAlign {t : MemoryTier} {r : PmrResource} :
    (m.dischargeRes t a r).defaultAlign = r.defaultAlign := by
  unfold dischargeRes
  split <;> rfl

@[simp] theorem chargeRes_defaultAlign {t : MemoryTier} {r : PmrResource} :
    (m.chargeRes t a r).defaultAlign = r.defaultAlign := by
  unfold chargeRes
  split <;> rfl

theorem alignedSize_congr {t : MemoryTier}
    (hw : m'.warmRes.defaultAlign = m.warmRes.defaultAlign)
    (hc : m'.coolRes.defaultAlign = m.coolRes.defaultAlign) :
    m'.alignedSize t size align = m.alignedSize t size align := by
  cases t <;> simp [alignedSize, defaultAlign, hw, hc]

theorem diskWithout_absent (hf : m.coldFiles[h]? = none) : m.diskWithout P h = m.os.disk := by
  simp [diskWithout, hf]

theorem free_spec (hc : Coherent P m) (ha : m.registry[h]? = some a) :
    (m.free P h).1 = .ok () ∧ Freed P m h a (m.free P h).2 := by
  have hs := hc.shaped ha
  unfold free
  rw [ha]
  refine ⟨rfl, ?_⟩
  unfold unlink
  dsimp only
  by_cases ht : a.tier = .cold
  · rw [if_pos ht]
    have he := eraseSpill_spec P { m with lru := update m.lru a.tier ((m.lru a.tier).filter (· ≠ h)) } h
    generalize eraseSpill P _ h = m₁ at he ⊢
    obtain ⟨os, rfl⟩ : ∃ os, m₁ = _ := ⟨m₁.os, he.frame⟩
    have hsh := hs
    simp only [TierAllocation.Shaped, ht] at hsh
    refine ⟨?_, he.serial, ?_, ?_, he.disk, ?_⟩
    · rw [dischargeRes_other (by simp [ht]), dischargeRes_other (by simp [ht])]
      rfl
    · rw [hsh.1]; exact he.host
    · rw [hsh.2]; exact he.device
    · have hb : a.blocks = [] := by simp [TierAllocation.blocks, hsh]
      rw [hb, List.append_nil]
      exact he.released
  · rw [if_neg ht]
    have he := deallocate_spec (P := P) (a := a)
      (m := { m with lru := update m.lru a.tier ((m.lru a.tier).filter (· ≠ h)) }) hs (hc.hip ha)
    generalize deallocate P _ a = m₁ at he ⊢
    obtain ⟨os, rfl⟩ : ∃ os, m₁ = _ := ⟨m₁.os, he.frame⟩
    have hf := hc.not_filed ha ht
    refine ⟨?_, he.serial, he.host, he.device, he.disk.trans (diskWithout_absent hf).symm, ?_⟩
    · rw [erase_absent hf]
      rw [alignedSize_congr (m := m) (by simp) (by simp)]
      rfl
    · rw [hf, Option.map_none, Option.toList_none, List.append_nil]
      exact he.released

theorem Freed.coherent (hf : Freed P m h a m') (ha : m.registry[h]? = some a)
    (hc : Coherent P m) : Coherent P m' := by
  have hfr := hf.frame
  have hr : m'.registry = m.registry.erase h := by rw [hfr]
  have hlook {k : Nat} {c} (hk : m'.registry[k]? = some c) : m.registry[k]? = some c := by
    rw [hr, get_erase] at hk
    split at hk
    · simp at hk
    · exact hk
  have hfile {k : Nat} {c} (hk : m'.coldFiles[k]? = some c) : m.coldFiles[k]? = some c := by
    have : m'.coldFiles = m.coldFiles.erase h := by rw [hfr]
    rw [this, get_erase] at hk
    split at hk
    · simp at hk
    · exact hk
  have hn : m'.nextHandle = m.nextHandle := by rw [hfr]
  have hl : m'.lru = update m.lru a.tier ((m.lru a.tier).filter (· ≠ h)) := by rw [hfr]
  have href (addr : TierAllocation → Option Nat) : m.ref addr h = addr a := by simp [ref, ha]
  constructor
  case next => exact hn ▸ hc.next
  case fresh => exact fun hk ↦ hn ▸ hc.fresh (hlook hk)
  case handle => exact fun hk ↦ hc.handle (hlook hk)
  case shaped => exact fun hk ↦ hc.shaped (hlook hk)
  case hip => exact fun hk ↦ hc.hip (hlook hk)
  case lruLive =>
    intro t k hk
    have hmem : k ∈ m.lru t ∧ k ≠ h := by
      rw [hl, update_apply] at hk
      split at hk
      · next ht => simpa [ht] using hk
      · next ht =>
        refine ⟨hk, ?_⟩
        rintro rfl
        obtain ⟨c, hc', htc⟩ := hc.lruLive hk
        rw [ha, Option.some.injEq] at hc'
        exact ht (hc' ▸ htc).symm
    obtain ⟨c, hc', htc⟩ := hc.lruLive hmem.1
    exact ⟨c, by simp [hr, get_erase, hmem.2.symm, hc'], htc⟩
  case lruNodup =>
    intro t
    rw [hl, update_apply]
    split
    · exact (hc.lruNodup _).filter _
    · exact hc.lruNodup t
  case filed =>
    intro k path hk
    have hpath : m'.spillPath k = m.spillPath k := by rw [hfr]; rfl
    rw [hpath, hn]
    exact hc.filed (hfile hk)
  case filedCold => exact fun hk hkc ↦ hc.filedCold (hfile hk) (hlook hkc)
  case host =>
    rw [ref_erase hr]
    exact Owns.shrink hc.host (href _ ▸ hf.host)
  case device =>
    rw [ref_erase hr]
    exact Owns.shrink hc.device (href _ ▸ hf.device)
  case hostBelow => exact fun hq ↦ (hc.hostBelow (hf.host.isSome hq)).trans_le hf.serial
  case deviceBelow => exact fun hq ↦ (hc.deviceBelow (hf.device.isSome hq)).trans_le hf.serial

end Impl

end Cerberus.TieredMemory
