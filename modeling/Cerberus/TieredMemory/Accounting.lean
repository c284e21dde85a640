import Cerberus.TieredMemory.Runs

namespace Cerberus.TieredMemory

open Std Function Foundation.FiniteMap Foundation.Trace

namespace Impl

variable {P : Platform} {m m' : Impl} {h : Nat} {a src dst : TierAllocation}
  {size align : UInt64}

/-- The bytes a block takes of tier `t`. -/
def weight (m : Impl) (t : MemoryTier) (a : TierAllocation) : Nat :=
  if a.tier = t then (m.alignedSize t a.sizeBytes a.alignment).toNat else 0

def liveBytes (m : Impl) (t : MemoryTier) : Nat := weigh (fun _ a ↦ m.weight t a) m.registry

def liveCount (m : Impl) (t : MemoryTier) : Nat :=
  weigh (fun _ a ↦ if a.tier = t then 1 else 0) m.registry

structure Balanced (m : Impl) : Prop where
  allocated : ∀ t, (m.acct t).allocated.toNat = m.liveBytes t
  within : ∀ t, (m.acct t).capacity ≠ 0 → (m.acct t).allocated ≤ (m.acct t).capacity
  warm : m.warmRes.allocated = (m.acct .warm).allocated
  cool : m.coolRes.allocated = (m.acct .cool).allocated
  counted : ∀ t, (m.acct t).allocCount = (m.acct t).freeCount + m.liveCount t

theorem Balanced.settled (hb : Balanced m) (hr : m.registry = ∅) (t : MemoryTier) :
    (m.acct t).allocated = 0 ∧ (m.acct t).allocCount = (m.acct t).freeCount := by
  have hl := hb.allocated t
  have hc := hb.counted t
  simp only [liveBytes, liveCount, hr, weigh_empty] at hl hc
  exact ⟨UInt64.toNat_inj.mp hl, by omega⟩

theorem weight_congr {t : MemoryTier} (hw : m'.warmRes.defaultAlign = m.warmRes.defaultAlign)
    (hc : m'.coolRes.defaultAlign = m.coolRes.defaultAlign) : m'.weight t = m.weight t := by
  funext a
  simp only [weight, alignedSize_congr hw hc]

section Counters

variable {t s : MemoryTier} {n : UInt64}

theorem charge_allocated
    (hn : (m.acct t).allocated.toNat + n.toNat < 2 ^ 64) :
    ((m.charge t n).acct s).allocated.toNat =
      (m.acct s).allocated.toNat + if t = s then n.toNat else 0 := by
  by_cases hs : t = s
  · subst hs
    simp only [charge, update_self, ↓reduceIte]
    rw [UInt64.toNat_add, Nat.mod_eq_of_lt hn]
  · simp [charge, update_of_ne (Ne.symm hs), hs]

theorem charge_counts : ((m.charge t n).acct s).capacity = (m.acct s).capacity ∧
    ((m.charge t n).acct s).allocCount = (m.acct s).allocCount + (if t = s then 1 else 0) ∧
    ((m.charge t n).acct s).freeCount = (m.acct s).freeCount := by
  by_cases hs : t = s
  · subst hs
    simp [charge]
  · simp [charge, update_of_ne (Ne.symm hs), hs]

theorem clamp_toNat {x n : UInt64} (hn : n.toNat ≤ x.toNat) :
    (if x ≥ n then x - n else 0).toNat = x.toNat - n.toNat := by
  have hle : n ≤ x := UInt64.le_iff_toNat_le.mpr hn
  rw [if_pos hle, UInt64.toNat_sub_of_le _ _ hle]

theorem discharge_allocated (hn : n.toNat ≤ (m.acct t).allocated.toNat) :
    ((m.discharge t n).acct s).allocated.toNat =
      (m.acct s).allocated.toNat - if t = s then n.toNat else 0 := by
  by_cases hs : t = s
  · subst hs
    simp only [discharge, update_self, ↓reduceIte]
    exact clamp_toNat hn
  · simp [discharge, update_of_ne (Ne.symm hs), hs]

theorem discharge_counts : ((m.discharge t n).acct s).capacity = (m.acct s).capacity ∧
    ((m.discharge t n).acct s).allocCount = (m.acct s).allocCount ∧
    ((m.discharge t n).acct s).freeCount = (m.acct s).freeCount + (if t = s then 1 else 0) := by
  by_cases hs : t = s
  · subst hs
    simp [discharge]
  · simp [discharge, update_of_ne (Ne.symm hs), hs]

theorem announce_counts {d : MemoryTier} :
    ((m.announce h t d).acct s).allocated = (m.acct s).allocated ∧
    ((m.announce h t d).acct s).capacity = (m.acct s).capacity ∧
    ((m.announce h t d).acct s).allocCount = (m.acct s).allocCount ∧
    ((m.announce h t d).acct s).freeCount = (m.acct s).freeCount := by
  simp only [announce, update_apply]
  split
  · next hd =>
    subst hd
    split
    · next ht => simp [ht]
    · simp
  · split
    · next ht => simp [ht]
    · simp

end Counters

/-- The capacity test of `allocate` bounds the counter after the charge, unless the sum wraps. -/
theorem admits_within {t : MemoryTier} (hroom : m.admits t size align = true)
    (hcap : (m.acct t).capacity ≠ 0) :
    (m.acct t).allocated + m.alignedSize t size (m.effectiveAlign t align) ≤
      (m.acct t).capacity := by
  have hpos : 0 < (m.acct t).capacity := UInt64.pos_iff_ne_zero.mpr hcap
  simp only [admits, Bool.and_eq_true, Bool.not_eq_true', gt_iff_lt, decide_eq_true hpos,
    Bool.true_and, decide_eq_false_iff_not, UInt64.not_lt] at hroom
  exact hroom.2

theorem Balanced.weight_le (hb : Balanced m) (ha : m.registry[h]? = some a) (t : MemoryTier) :
    m.weight t a ≤ (m.acct t).allocated.toNat := by
  have := weigh_erase (fun _ a ↦ m.weight t a) m.registry ha
  rw [hb.allocated t, liveBytes]
  omega

theorem Balanced.congr (hb : Balanced m) (hr : m'.registry = m.registry) (ha : m'.acct = m.acct)
    (hw : m'.warmRes = m.warmRes) (hc : m'.coolRes = m.coolRes) : Balanced m' := by
  have hwt (t : MemoryTier) : m'.weight t = m.weight t := weight_congr (by rw [hw]) (by rw [hc])
  refine ⟨fun t ↦ ?_, by rw [ha]; exact hb.within, by rw [hw, ha]; exact hb.warm,
    by rw [hc, ha]; exact hb.cool, fun t ↦ ?_⟩
  · simp only [liveBytes, hwt, hr, ha]
    exact hb.allocated t
  · simp only [liveCount, hr, ha]
    exact hb.counted t

theorem Passed.balanced {l : Bool} (hp : Passed m l m') (hb : Balanced m) : Balanced m' := by
  have hf := hp.frame
  exact hb.congr (by rw [hf]) (by rw [hf]) (by rw [hf]) (by rw [hf])

/-- The counter of tier `t` has room for one more block of this size. -/
def fitsTier (m : Impl) (t : MemoryTier) (size align : UInt64) : Prop :=
  (m.acct t).allocated.toNat + (m.alignedSize t size (m.effectiveAlign t align)).toNat < 2 ^ 64

theorem Placed.balanced (hp : Placed P m size align a m') (hc : Coherent P m)
    (hfit : m.fitsTier a.tier size align) (hb : Balanced m) : Balanced m' := by
  have hroom := hp.room
  rw [fitsTier, ← hp.align, ← hp.size] at hfit
  have hr : m'.registry = m.registry.insert m.nextHandle a := by
    rw [hp.frame, hp.handle]
    exact insertIfNew_fresh _ _ hc.unused
  have hacct : m'.acct = (m.charge a.tier (m.alignedSize a.tier a.sizeBytes a.alignment)).acct := by
    rw [hp.frame]
  have hwr : m'.warmRes = m.chargeRes .warm a m.warmRes := by rw [hp.frame]
  have hcr : m'.coolRes = m.chargeRes .cool a m.coolRes := by rw [hp.frame]
  have hw (t : MemoryTier) : m'.weight t = m.weight t :=
    weight_congr (by rw [hwr]; simp) (by rw [hcr]; simp)
  have hpool {t : MemoryTier} {r : PmrResource} (he : r.allocated = (m.acct t).allocated) :
      (m.chargeRes t a r).allocated = (m'.acct t).allocated := by
    rw [hacct]
    by_cases ht : a.tier = t
    · subst ht
      simp [chargeRes, charge, he]
    · simp [chargeRes, charge, update_of_ne (Ne.symm ht), ht, he]
  refine ⟨fun t ↦ ?_, fun t hcap ↦ ?_, hwr ▸ hpool hb.warm, hcr ▸ hpool hb.cool, fun t ↦ ?_⟩
  · rw [hacct, charge_allocated hfit, hb.allocated t]
    simp only [liveBytes, hw, hr]
    rw [weigh_insert_fresh _ _ _ hc.unused, Nat.add_comm, weight]
    split
    · next ht => rw [ht]
    · rfl
  · rw [hacct] at hcap ⊢
    rw [charge_counts.1] at hcap ⊢
    by_cases ht : a.tier = t
    · subst ht
      rw [hp.align, hp.size]
      simpa [charge] using admits_within hroom hcap
    · simpa [charge, update_of_ne (Ne.symm ht)] using hb.within t hcap
  · rw [hacct, charge_counts.2.1, charge_counts.2.2, hb.counted t, liveCount, liveCount, hr,
      weigh_insert_fresh _ _ _ hc.unused]
    omega

theorem dischargeRes_allocated {t : MemoryTier} {r : PmrResource}
    (he : r.allocated = (m.acct t).allocated) :
    (m.dischargeRes t a r).allocated =
      ((m.discharge a.tier (m.alignedSize a.tier a.sizeBytes a.alignment)).acct t).allocated := by
  by_cases ht : a.tier = t
  · subst ht
    simp [dischargeRes, discharge, he]
  · simp [dischargeRes, discharge, update_of_ne (Ne.symm ht), ht, he]

theorem weight_self : m.weight a.tier a = (m.alignedSize a.tier a.sizeBytes a.alignment).toNat := by
  simp [weight]

theorem weight_eq (t : MemoryTier) : m.weight t a =
    if a.tier = t then (m.alignedSize a.tier a.sizeBytes a.alignment).toNat else 0 := by
  unfold weight
  split
  · next ht => rw [ht]
  · rfl

theorem Freed.balanced (hf : Freed P m h a m') (ha : m.registry[h]? = some a) (hb : Balanced m) :
    Balanced m' := by
  have hr : m'.registry = m.registry.erase h := by rw [hf.frame]
  have hacct : m'.acct =
      (m.discharge a.tier (m.alignedSize a.tier a.sizeBytes a.alignment)).acct := by rw [hf.frame]
  have hwr : m'.warmRes = m.dischargeRes .warm a m.warmRes := by rw [hf.frame]
  have hcr : m'.coolRes = m.dischargeRes .cool a m.coolRes := by rw [hf.frame]
  have hw (t : MemoryTier) : m'.weight t = m.weight t :=
    weight_congr (by rw [hwr]; simp) (by rw [hcr]; simp)
  have hle := hb.weight_le ha a.tier
  rw [weight_self] at hle
  have hnow (t : MemoryTier) : (m'.acct t).allocated.toNat =
      (m.acct t).allocated.toNat - m.weight t a := by
    rw [hacct, discharge_allocated hle, weight_eq]
  refine ⟨fun t ↦ ?_, fun t hcap ↦ ?_, ?_, ?_, fun t ↦ ?_⟩
  · have := weigh_erase (fun _ a ↦ m.weight t a) m.registry ha
    rw [hnow, hb.allocated t]
    simp only [liveBytes, hw, hr]
    omega
  · have hcap' : (m'.acct t).capacity = (m.acct t).capacity := by rw [hacct, discharge_counts.1]
    rw [hcap'] at hcap ⊢
    have := UInt64.le_iff_toNat_le.mp (hb.within t hcap)
    rw [UInt64.le_iff_toNat_le, hnow]
    omega
  · rw [hwr, hacct]
    exact dischargeRes_allocated hb.warm
  · rw [hcr, hacct]
    exact dischargeRes_allocated hb.cool
  · have := weigh_erase (fun _ a ↦ if a.tier = t then 1 else 0) m.registry ha
    have hcount := hb.counted t
    rw [hacct, discharge_counts.2.1, discharge_counts.2.2]
    simp only [liveCount, hr] at hcount ⊢
    omega

theorem Migrated.balanced (hg : Migrated P m h src dst m') (ha : m.registry[h]? = some src)
    (hfit : m.fitsTier dst.tier src.sizeBytes src.alignment) (hb : Balanced m) : Balanced m' := by
  have hroom := hg.room
  rw [fitsTier, ← hg.align, ← hg.size] at hfit
  have hr : m'.registry = m.registry.insert h { dst with handle := h } := hg.registry
  have hwr : m'.warmRes = m.dischargeRes .warm src (m.chargeRes .warm dst m.warmRes) := by
    rw [hg.frame]
  have hcr : m'.coolRes = m.dischargeRes .cool src (m.chargeRes .cool dst m.coolRes) := by
    rw [hg.frame]
  have hw (t : MemoryTier) : m'.weight t = m.weight t :=
    weight_congr (by rw [hwr]; simp) (by rw [hcr]; simp)
  set m₁ := (m.charge dst.tier (m.alignedSize dst.tier dst.sizeBytes dst.alignment)).announce h
    src.tier dst.tier with hm₁
  have hacct : m'.acct =
      (m₁.discharge src.tier (m.alignedSize src.tier src.sizeBytes src.alignment)).acct := by
    rw [hg.frame]
  have hmid (t : MemoryTier) : (m₁.acct t).allocated.toNat =
      (m.acct t).allocated.toNat + m.weight t dst := by
    rw [hm₁, announce_counts.1, charge_allocated hfit, weight_eq]
  have hcap (t : MemoryTier) : (m₁.acct t).capacity = (m.acct t).capacity := by
    rw [hm₁, announce_counts.2.1, charge_counts.1]
  have hle (t : MemoryTier) := hb.weight_le ha t
  have hnow (t : MemoryTier) : (m'.acct t).allocated.toNat =
      (m.acct t).allocated.toNat + m.weight t dst - m.weight t src := by
    have hself := hle src.tier
    rw [weight_self] at hself
    rw [hacct, discharge_allocated (by rw [hmid]; omega), hmid, weight_eq (a := src)]
  have hpool {t : MemoryTier} {r : PmrResource} (he : r.allocated = (m.acct t).allocated) :
      (m.dischargeRes t src (m.chargeRes t dst r)).allocated = (m'.acct t).allocated := by
    have hmidRes : (m.chargeRes t dst r).allocated = (m₁.acct t).allocated := by
      rw [hm₁, announce_counts.1]
      by_cases ht : dst.tier = t
      · subst ht
        simp [chargeRes, charge, he]
      · simp [chargeRes, charge, update_of_ne (Ne.symm ht), ht, he]
    rw [hacct]
    exact dischargeRes_allocated (m := m₁) hmidRes
  refine ⟨fun t ↦ ?_, fun t hcap' ↦ ?_, hwr ▸ hpool hb.warm, hcr ▸ hpool hb.cool, fun t ↦ ?_⟩
  · have := weigh_insert_over (fun _ a ↦ m.weight t a) m.registry { dst with handle := h } ha
    have hsame : m.weight t { dst with handle := h } = m.weight t dst := rfl
    have hall := hb.allocated t
    rw [hnow]
    simp only [liveBytes, hw, hr] at hall ⊢
    omega
  · have hcapEq : (m'.acct t).capacity = (m.acct t).capacity := by
      rw [hacct, discharge_counts.1, hcap]
    rw [hcapEq] at hcap' ⊢
    have hsum : (m.acct t).allocated.toNat + m.weight t dst ≤ (m.acct t).capacity.toNat := by
      by_cases ht : dst.tier = t
      · subst ht
        have hadm := UInt64.le_iff_toNat_le.mp (admits_within hroom hcap')
        rw [← hg.align, ← hg.size, UInt64.toNat_add, Nat.mod_eq_of_lt hfit] at hadm
        rwa [weight_self]
      · have := UInt64.le_iff_toNat_le.mp (hb.within t hcap')
        simpa [weight, ht] using this
    rw [UInt64.le_iff_toNat_le, hnow]
    omega
  · have := weigh_insert_over (fun _ a ↦ if a.tier = t then 1 else 0) m.registry
      { dst with handle := h } ha
    have hcount := hb.counted t
    dsimp only at this
    rw [hacct, discharge_counts.2.1, discharge_counts.2.2, hm₁, announce_counts.2.2.1,
      announce_counts.2.2.2, charge_counts.2.1, charge_counts.2.2]
    simp only [liveCount, hr] at hcount ⊢
    omega

theorem foldl_dischargeRes {t : MemoryTier} (l : List (Nat × TierAllocation)) {r : PmrResource}
    (hr : r.allocated.toNat = (l.map (fun e ↦ m.weight t e.2)).sum) :
    (l.foldl (fun r e ↦ m.dischargeRes t e.2 r) r).allocated = 0 := by
  induction l generalizing r with
  | nil => exact UInt64.toNat_inj.mp (by simpa using hr)
  | cons e l ih =>
    simp only [List.map_cons, List.sum_cons] at hr
    refine ih ?_
    change (m.dischargeRes t e.2 r).allocated.toNat = _
    by_cases ht : e.2.tier = t
    · have hw : m.weight t e.2 = (m.alignedSize t e.2.sizeBytes e.2.alignment).toNat := if_pos ht
      simp only [dischargeRes, if_pos ht]
      rw [clamp_toNat (by omega), hr]
      omega
    · have hw : m.weight t e.2 = 0 := if_neg ht
      simp only [dischargeRes, if_neg ht]
      omega

theorem resetForTesting_balanced (hc : Coherent P m) (hb : Balanced m) :
    Balanced (m.resetForTesting P) := by
  have hd := hc.drained
  unfold resetForTesting
  generalize m.registry.toList.foldl (drain P) m = m₁ at hd ⊢
  refine ⟨fun t ↦ by simp [liveBytes], fun t _ ↦ by simp, ?_, ?_, fun t ↦ by simp [liveCount]⟩
  · refine hd.warm ▸ foldl_dischargeRes _ ?_
    rw [hb.warm]
    exact hb.allocated .warm
  · refine hd.cool ▸ foldl_dischargeRes _ ?_
    rw [hb.cool]
    exact hb.allocated .cool

def fits (P : Platform) (m : Impl) (size : UInt64) (preferred : MemoryTier) (align : UInt64) :
    Prop :=
  ∀ t ∈ m.landingTier P size preferred align, m.fitsTier t size align

def fitsMove (P : Platform) (m : Impl) : Option (TierAllocation × MemoryTier) → Prop
  | none => True
  | some (src, target) => m.fits P src.sizeBytes target src.alignment

instance (m : Impl) (t : MemoryTier) (size align : UInt64) : Decidable (m.fitsTier t size align) :=
  Nat.decLt _ _

instance (P : Platform) (m : Impl) (size : UInt64) (preferred : MemoryTier) (align : UInt64) :
    Decidable (m.fits P size preferred align) :=
  inferInstanceAs (Decidable (∀ t ∈ m.landingTier P size preferred align, m.fitsTier t size align))

instance (P : Platform) (m : Impl) : (req : Option (TierAllocation × MemoryTier)) →
    Decidable (m.fitsMove P req)
  | none => .isTrue trivial
  | some (src, target) => inferInstanceAs (Decidable (m.fits P src.sizeBytes target src.alignment))

theorem Served.balanced {req : Option (TierAllocation × MemoryTier)} (hs : Served P m h m' req)
    (hc : Coherent P m) (hfit : m.fitsMove P req) (hb : Balanced m) : Balanced m' := by
  rcases req with _ | ⟨src, target⟩
  · obtain rfl : m' = m := hs
    exact hb
  · cases hs.2 with
    | passed _ hp => exact hp.balanced hb
    | aborted dst hl _ hp => exact hp.balanced hc (hfit _ hl) hb
    | migrated dst hl _ hg => exact hg.balanced hs.1 (hfit _ hl) hb

/-- A call under which no byte counter reaches `2 ^ 64`. -/
def fitsCounters (P : Platform) (m : Impl) : Call → Prop
  | .allocate size preferred align => m.fits P size preferred align
  | .promote h => m.fitsMove P (m.promoteRequest h)
  | .demote h => m.fitsMove P (m.demoteRequest h)
  | .pressureEvict tier within =>
    EvictsOnly P (fun m v ↦ m.fitsMove P (m.demoteRequest v)) m tier within
  | _ => True

end Impl

open Impl

variable {P : Platform}

theorem step_keeps_balanced (m : Impl) (call : Call) (m' : Impl)
    (hi : Coherent P m ∧ Balanced m) (hok : m.fitsCounters P call) (hs : Step P m call m') :
    Coherent P m' ∧ Balanced m' := by
  obtain ⟨hc, hb⟩ := hi
  refine ⟨step_coherent m call m' hc hs, ?_⟩
  cases call with
  | allocate size preferred align =>
    obtain rfl := hs
    rcases allocate_cases P m size preferred align with ⟨_, hp⟩ | ⟨a, hl, hp⟩
    · exact hp.balanced hb
    · exact hp.balanced hc (hok _ hl) hb
  | free h =>
    obtain rfl := hs
    rcases free_cases hc h with ⟨he, _⟩ | ⟨a, ha, hf⟩
    · rwa [he]
    · exact hf.balanced ha hb
  | promote h =>
    obtain rfl := hs
    exact (promote_served hc h).balanced hc hok hb
  | demote h =>
    obtain rfl := hs
    exact (demote_served hc h).balanced hc hok hb
  | pressureEvict tier within =>
    obtain ⟨fuel, r, he⟩ := hs
    refine (pressureEvict_preserves (I := fun m ↦ Coherent P m ∧ Balanced m) ?_ ⟨hc, hb⟩ hok he).2
    intro m v hi hv
    exact ⟨demote_coherent hi.1 v, (demote_served hi.1 v).balanced hi.1 hv hi.2⟩
  | resetForTesting =>
    obtain rfl := hs
    exact resetForTesting_balanced hc hb
  | write h data =>
    obtain rfl := hs
    unfold write
    split
    · exact hb
    · split
      · exact hb
      · exact hb.congr rfl rfl rfl rfl

theorem construct_balanced (P : Platform) (cfg : TieredMemoryConfig)
    (hook : Option MigrationComputeHook) : Balanced (construct P cfg hook) := by
  refine ⟨fun t ↦ ?_, fun t _ ↦ ?_, rfl, rfl, fun t ↦ ?_⟩
  · cases t <;> simp [construct, liveBytes]
  · cases t <;> simp [construct]
  · cases t <;> simp [construct, liveCount]

/-- In a run that keeps every counter below `2 ^ 64` the counters agree with the registry
in every state, and are back at zero when no block is left. -/
theorem accounting_balanced {cfg : TieredMemoryConfig} {hook : Option MigrationComputeHook}
    {tr : List (Impl × Call)} {u : Impl} (hr : Run (Step P) (construct P cfg hook) tr u)
    (hok : ∀ e ∈ tr, e.1.fitsCounters P e.2) :
    Throughout Balanced tr u ∧ (u.registry = ∅ → ∀ t, (u.acct t).allocated = 0 ∧
      (u.acct t).allocCount = (u.acct t).freeCount) := by
  obtain ⟨hmid, hend⟩ := hr.guarded step_keeps_balanced
    ⟨construct_coherent P cfg hook, construct_balanced P cfg hook⟩ hok
  exact ⟨⟨fun e he ↦ (hmid e he).2, hend.2⟩, fun hu ↦ hend.2.settled hu⟩

theorem accounting_balanced_migration :
    ∃ tr u, Run (Step plainHost) (construct plainHost {}) tr u ∧
      tr.map (fun e ↦ e.2) = [.allocate 100 .cool 0, .promote 1, .free 1] ∧
      Throughout Balanced tr u := by
  have hr : Run (Step plainHost) (construct plainHost {}) _ _ :=
    .cons (step_allocate 100 .cool 0) (.cons (step_promote 1) (.cons (step_free 1) (.nil _)))
  refine ⟨_, _, hr, rfl, (accounting_balanced hr ?_).1⟩
  simp only [List.forall_mem_cons, fitsCounters]
  exact ⟨by decide, by decide, trivial, by simp⟩

/-- Without a capacity two spill files of `2 ^ 63 - 1` bytes bring the counter of the Cold
tier to `2 ^ 64`, which reads zero. -/
theorem counter_wraps :
    ∃ tr u, Run (Step plainHost) (construct plainHost { coldCapacityBytes := 0 }) tr u ∧
      tr.map (fun e ↦ e.2) = [.allocate 9223372036854775807 .cold 0,
        .allocate 9223372036854775807 .cold 0] ∧
      (u.acct .cold).allocated = 0 ∧ u.liveBytes .cold = 2 ^ 64 ∧ ¬ Balanced u := by
  have hzero : ∀ u : Impl, (u.acct .cold).allocated = 0 → u.liveBytes .cold = 2 ^ 64 →
      ¬ Balanced u := by
    intro u h0 hl hb
    have := hb.allocated .cold
    rw [h0, hl] at this
    exact absurd this (by decide)
  refine ⟨_, _, .cons (step_allocate 9223372036854775807 .cold 0)
    (.cons (step_allocate 9223372036854775807 .cold 0) (.nil _)), rfl, ?_, ?_, hzero _ ?_ ?_⟩
  · decide
  · decide
  · decide
  · decide

end Cerberus.TieredMemory
