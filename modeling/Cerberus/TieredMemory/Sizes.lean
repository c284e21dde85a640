import Cerberus.TieredMemory.Accounting

namespace Cerberus.TieredMemory

open Std Function Foundation.Trace

theorem toNat_le_masked (x b : UInt64) : x.toNat ≤ (x &&& ~~~b).toNat + b.toNat := by
  have hz : (x.toBitVec &&& ~~~b.toBitVec) &&& (x.toBitVec &&& b.toBitVec) = 0#64 := by
    ext i hi
    simp only [BitVec.getElem_and, BitVec.getElem_not, BitVec.getElem_zero]
    grind
  have hor : (x.toBitVec &&& ~~~b.toBitVec) ||| (x.toBitVec &&& b.toBitVec) = x.toBitVec := by
    ext i hi
    simp only [BitVec.getElem_or, BitVec.getElem_and, BitVec.getElem_not]
    grind
  have hsum := BitVec.toNat_add_of_and_eq_zero hz
  rw [BitVec.add_eq_or_of_and_eq_zero _ _ hz, hor] at hsum
  have hand : (x.toBitVec &&& b.toBitVec).toNat ≤ b.toBitVec.toNat := by
    rw [BitVec.toNat_and]
    exact Nat.and_le_right
  have hmask : (x &&& ~~~b).toNat = (x.toBitVec &&& ~~~b.toBitVec).toNat := rfl
  rw [hmask, ← UInt64.toNat_toBitVec, ← UInt64.toNat_toBitVec]
  omega

/-- Rounding up to an alignment, a power of two or not, makes a size smaller exactly when the
sum it takes does not fit 64 bits. -/
theorem le_alignUp_iff {v a : UInt64} (ha : a ≠ 0) :
    v ≤ alignUp v a ↔ v.toNat + a.toNat - 1 < 2 ^ 64 := by
  have hpos : 0 < a.toNat := UInt64.pos_iff_ne_zero.mpr ha
  have hone : (1 : UInt64) ≤ a := UInt64.le_iff_toNat_le.mpr hpos
  have hlow : (a - 1).toNat = a.toNat - 1 := UInt64.toNat_sub_of_le _ _ hone
  have hsum : (v + a - 1).toNat = (v.toNat + (a.toNat - 1)) % 2 ^ 64 := by
    have hassoc : v + a - 1 = v + (a - 1) := by
      rw [UInt64.sub_eq_add_neg, UInt64.sub_eq_add_neg, UInt64.add_assoc]
    rw [hassoc, UInt64.toNat_add, hlow]
  have hup := toNat_le_masked (v + a - 1) (a - 1)
  have hdown : (alignUp v a).toNat ≤ (v + a - 1).toNat := by
    rw [alignUp, UInt64.toNat_and]
    exact Nat.and_le_left
  have hv := v.toNat_lt
  have hb := a.toNat_lt
  rw [UInt64.le_iff_toNat_le]
  constructor
  · intro h
    by_contra hge
    rw [hsum, Nat.mod_eq_sub_mod (by omega), Nat.mod_eq_of_lt (by omega)] at hdown
    omega
  · intro h
    rw [hsum, Nat.mod_eq_of_lt (by omega), hlow] at hup
    unfold alignUp
    omega

namespace Impl

variable {P : Platform} {m m' : Impl} {t : MemoryTier} {size align : UInt64}
  {a : TierAllocation} {ts : List MemoryTier}

/-- The host block `a` refers to has `n` bytes. -/
def HostSize (m : Impl) (a : TierAllocation) (n : UInt64) : Prop :=
  ∀ p, a.ptr = some p → ∃ b, m.os.host p = some b ∧ b.size = n.toNat

theorem tryTier_hostSize (hg : m.grants P t size align m.os.serial = true)
    (ha : (m.tryTier P t size align).1 = some a) :
    HostSize (m.tryTier P t size align).2 a
      (m.alignedSize t size (m.effectiveAlign t align)) := by
  intro p hp
  unfold tryTier at ha ⊢
  simp only [grants, Bool.and_eq_true] at hg
  obtain ⟨had, hg⟩ := hg
  simp only [had, Bool.not_true, Bool.false_eq_true, ↓reduceIte] at ha ⊢
  cases t with
  | hot =>
    simp only [Bool.and_eq_true] at hg
    simp only [acquire, allocHot, hg.1, ↓reduceIte, Os.hipMalloc, hg.2, Option.some.injEq] at ha
    simp [← ha] at hp
  | warm =>
    simp only [acquire, PmrResource.doAllocate_eq, hg, ↓reduceIte, Option.some.injEq] at ha ⊢
    obtain rfl : m.os.serial = p := by simpa [← ha] using hp
    exact ⟨_, update_self _ _ _, rfl⟩
  | cool =>
    simp only [acquire, PmrResource.doAllocate_eq, hg, ↓reduceIte, Option.some.injEq] at ha ⊢
    obtain rfl : m.os.serial = p := by simpa [← ha] using hp
    exact ⟨_, update_self _ _ _, rfl⟩
  | cold =>
    simp only [Bool.and_eq_true] at hg
    obtain ⟨⟨⟨hc, ho⟩, hf⟩, hs⟩ := hg
    have hc' : (!m.coldAvailable) = false := by simp [hc]
    simp only [hc', Bool.false_eq_true, ↓reduceIte, reserveSpill, Os.createSpill, takeHandle,
      ho, hf, hs, Bool.and_self, Option.some.injEq] at ha
    simp [← ha] at hp

theorem allocateFrom_hostSize (ha : (allocateFrom P size align ts m).1 = .ok a) :
    HostSize (allocateFrom P size align ts m).2 a
      (m.alignedSize a.tier size (m.effectiveAlign a.tier align)) := by
  induction ts generalizing m with
  | nil => simp [allocateFrom] at ha
  | cons t ts ih =>
    simp only [allocateFrom] at ha ⊢
    cases hg : m.grants P t size align m.os.serial with
    | true =>
      obtain ⟨b, hb, ht, _⟩ := tryTier_placed hg
      have hsize := tryTier_hostSize hg hb
      rw [← Prod.mk.eta (p := m.tryTier P t size align), hb] at ha ⊢
      obtain rfl : b = a := Except.ok.inj ha
      rw [ht]
      exact hsize
    | false =>
      obtain ⟨hn, hp⟩ := tryTier_passed hg
      rw [← Prod.mk.eta (p := m.tryTier P t size align), hn] at ha ⊢
      have hsize := ih ha
      have halign : (m.tryTier P t size align).2.alignedSize a.tier size
          ((m.tryTier P t size align).2.effectiveAlign a.tier align) =
            m.alignedSize a.tier size (m.effectiveAlign a.tier align) := by
        rw [hp.frame]
        rfl
      rwa [halign] at hsize

/-- What a successful request for `size` bytes in the Warm or Cool tier should find: a block
of at least that size, charged with at least that size, and a counter within the capacity. -/
structure Covered (m : Impl) (size : UInt64) (a : TierAllocation) (m' : Impl) : Prop where
  block : ∃ p b, a.ptr = some p ∧ m'.os.host p = some b ∧ size.toNat ≤ b.size
  added : size ≤ (m'.acct a.tier).allocated - (m.acct a.tier).allocated
  within : (m'.acct a.tier).capacity ≠ 0 →
    (m'.acct a.tier).allocated ≤ (m'.acct a.tier).capacity

theorem Placed.added (hp : Placed P m size align a m') :
    (m'.acct a.tier).allocated - (m.acct a.tier).allocated =
      m.alignedSize a.tier size (m.effectiveAlign a.tier align) := by
  rw [hp.frame]
  simp only [charge, update_self, hp.size, hp.align]
  rw [UInt64.add_comm, UInt64.add_sub_cancel]

theorem Placed.within (hp : Placed P m size align a m')
    (hcap : (m'.acct a.tier).capacity ≠ 0) :
    (m'.acct a.tier).allocated ≤ (m'.acct a.tier).capacity := by
  have hm : m'.acct = (m.charge a.tier (m.alignedSize a.tier a.sizeBytes a.alignment)).acct := by
    rw [hp.frame]
  rw [hm] at hcap ⊢
  simp only [charge, update_self, hp.size, hp.align] at hcap ⊢
  exact admits_within hp.room hcap

/-- In whatever state the manager is, a block of the Warm or Cool tier covers the request it
was made for exactly when the size can be rounded up to the alignment within 64 bits. -/
theorem allocation_covered_iff {preferred : MemoryTier} (hal : align ≠ 0)
    (ht : t = .warm ∨ t = .cool) (ha : (m.allocate P size preferred align).1 = .ok a)
    (hat : a.tier = t) :
    Covered m size a (m.allocate P size preferred align).2 ↔
      size.toNat + (max align (m.defaultAlign t)).toNat - 1 < 2 ^ 64 := by
  subst hat
  have hmax : max align (m.defaultAlign a.tier) ≠ 0 := by
    show (if align ≤ m.defaultAlign a.tier then m.defaultAlign a.tier else align) ≠ 0
    split
    · next hle =>
      have hpos : 0 < align := UInt64.pos_iff_ne_zero.mpr hal
      exact UInt64.pos_iff_ne_zero.mp (UInt64.lt_of_lt_of_le hpos hle)
    · exact hal
  have heff : m.alignedSize a.tier size (m.effectiveAlign a.tier align) =
      alignUp size (max align (m.defaultAlign a.tier)) := by
    simp only [alignedSize, effectiveAlign, if_neg hal]
  cases hl : m.landingTier P size preferred align with
  | none =>
    obtain ⟨⟨e, he⟩, _⟩ := allocate_passed hl
    rw [he] at ha
    cases ha
  | some t =>
    obtain ⟨b, hb, _, hs, hp⟩ := allocate_placed hl
    obtain rfl : b = a := Except.ok.inj (hb.symm.trans ha)
    have hsize : HostSize (m.allocate P size preferred align).2 b
        (m.alignedSize b.tier size (m.effectiveAlign b.tier align)) := by
      unfold allocate at ha ⊢
      rw [if_neg hs] at ha ⊢
      exact allocateFrom_hostSize ha
    obtain ⟨p, hptr⟩ : ∃ p, b.ptr = some p := by
      have hsh := hp.shaped
      rcases ht with ht | ht <;> (simp only [TierAllocation.Shaped, ht] at hsh; exact hsh.1)
    obtain ⟨buf, hbuf, hlen⟩ := hsize p hptr
    rw [heff] at hlen
    have hadd := hp.added.trans heff
    rw [← le_alignUp_iff hmax]
    constructor
    · intro hcov
      exact hadd ▸ hcov.added
    · intro hle
      refine ⟨⟨p, buf, hptr, hbuf, ?_⟩, hadd.symm ▸ hle, hp.within⟩
      rw [hlen]
      exact UInt64.le_iff_toNat_le.mp hle

end Impl

open Impl

theorem allocation_covered_iff_page :
    ∃ a, ((construct plainHost {}).allocate plainHost 4000 .warm 4096).1 = .ok a ∧
      a.tier = .warm ∧ Covered (construct plainHost {}) 4000 a
        ((construct plainHost {}).allocate plainHost 4000 .warm 4096).2 :=
  ⟨⟨1, .warm, some 0, none, 4000, 4096⟩, by decide, rfl,
    (allocation_covered_iff (t := .warm) (by decide) (.inl rfl) (by decide) rfl).mpr (by decide)⟩

/-- A request for `2 ^ 64 - 1` bytes gets a block of no bytes, which costs the tier nothing. -/
theorem size_wraps :
    ∃ tr m a, Run (Step plainHost) (construct plainHost {}) tr m ∧ tr = [] ∧
      (m.allocate plainHost 18446744073709551615 .warm 64).1 = .ok a ∧ a.tier = .warm ∧
      ((m.allocate plainHost 18446744073709551615 .warm 64).2.acct .warm).allocated = 0 ∧
      ¬ Covered m 18446744073709551615 a
        (m.allocate plainHost 18446744073709551615 .warm 64).2 := by
  refine ⟨[], _, ⟨1, .warm, some 0, none, 18446744073709551615, 64⟩, .nil _, rfl, by decide, rfl,
    by decide, ?_⟩
  intro hc
  have hadd := hc.added
  revert hadd
  decide

end Cerberus.TieredMemory
