import Cerberus.Graph.Staging

namespace Cerberus.Graph.Coordinator

open Std Function Foundation Foundation.Bytes Foundation.FiniteMap Foundation.Trace TieredMemory
  TieredMemory.Impl

variable {F : Type} {P : Platform} {m m' : Impl} {size : UInt64} {a : TierAllocation}
  {s s' : Staging} {tier : MemoryTier} {b : Staged} {e : Request}

/-- Host memory of at least the size of the tensor, which holds the bytes that were copied there. -/
def Staged.Usable (os : Os) (b : Staged) : Prop :=
  ∃ p block, b.ptr = some p ∧ os.host p = some block ∧ b.size.toNat ≤ block.size ∧
    ∀ data ∈ b.data, ∀ i < b.size.toNat, block.byte i = data i

def Moment.Usable (t : Moment) : Prop := ∀ b ∈ t.buffers, b.Usable t.os

/-- If the request is granted, then in a tier that has addresses, and the size of the block does
not wrap. -/
def Request.Addressable (P : Platform) (e : Request) : Prop :=
  ∀ t ∈ e.landing P, (t = .warm ∨ t = .cool) ∧
    e.size ≤ e.manager.alignedSize t e.size (e.manager.effectiveAlign t 0)

theorem tryTier_block {t : MemoryTier} {align : UInt64} {p : Nat}
    (h : m.tryTier P t size align = (some a, m')) (hp : a.ptr = some p) :
    ∃ block, m'.os.host p = some block ∧
      block.size = (m'.alignedSize a.tier a.sizeBytes a.alignment).toNat := by
  unfold tryTier at h
  split at h
  · simp at h
  · cases t with
    | hot =>
      simp only [acquire, allocHot, Os.hipMalloc] at h
      cases hh : P.hasHip <;> cases hm : P.hipMalloc m.os.serial <;>
        simp only [hh, hm, Bool.false_eq_true, ↓reduceIte, Prod.mk.injEq, Option.some.injEq,
          reduceCtorEq, false_and] at h
      obtain ⟨rfl, -⟩ := h
      simp at hp
    | warm =>
      simp only [acquire, PmrResource.doAllocate_eq] at h
      cases hg : m.warmRes.hasRoom size (m.effectiveAlign .warm align) &&
          P.alignedAlloc m.os.serial with
      | false => simp [hg] at h
      | true =>
        simp only [hg, ↓reduceIte, Prod.mk.injEq, Option.some.injEq] at h
        obtain ⟨rfl, rfl⟩ := h
        obtain rfl : m.os.serial = p := Option.some.inj hp
        exact ⟨_, update_self _ _ _, rfl⟩
    | cool =>
      simp only [acquire, PmrResource.doAllocate_eq] at h
      cases hg : m.coolRes.hasRoom size (m.effectiveAlign .cool align) &&
          P.alignedAlloc m.os.serial with
      | false => simp [hg] at h
      | true =>
        simp only [hg, ↓reduceIte, Prod.mk.injEq, Option.some.injEq] at h
        obtain ⟨rfl, rfl⟩ := h
        obtain rfl : m.os.serial = p := Option.some.inj hp
        exact ⟨_, update_self _ _ _, rfl⟩
    | cold =>
      dsimp only at h
      split at h
      · simp at h
      · split at h
        · simp only [Prod.mk.injEq, Option.some.injEq] at h
          obtain ⟨rfl, -⟩ := h
          simp at hp
        · simp at h

theorem allocate_block {align : UInt64} {p : Nat}
    (h : m.allocate P size tier align = (.ok a, m')) (hp : a.ptr = some p) :
    ∃ block, m'.os.host p = some block ∧
      block.size = (m'.alignedSize a.tier a.sizeBytes a.alignment).toNat := by
  have hfrom (ts : List MemoryTier) (m : Impl)
      (h : allocateFrom P size align ts m = (.ok a, m')) :
      ∃ block, m'.os.host p = some block ∧
        block.size = (m'.alignedSize a.tier a.sizeBytes a.alignment).toNat := by
    induction ts generalizing m with
    | nil => simp [allocateFrom] at h
    | cons t ts ih =>
      rw [allocateFrom] at h
      split at h
      · rename_i b m₁ htry
        simp only [Prod.mk.injEq, Except.ok.injEq] at h
        obtain ⟨rfl, rfl⟩ := h
        exact tryTier_block htry hp
      · exact ih _ h
  unfold allocate at h
  split at h
  · simp at h
  · exact hfrom _ m h

theorem placed_usable_iff (hal : m.allocate P size tier 0 = (.ok a, m'))
    (hp : Impl.Placed P m size 0 a m') (hl : m.landingTier P size tier 0 = some a.tier) :
    (Staged.mk size a.ptr none).Usable m'.os ↔ (Request.mk m size tier).Addressable P := by
  have hsize : m'.alignedSize a.tier a.sizeBytes a.alignment =
      m.alignedSize a.tier size (m.effectiveAlign a.tier 0) := by
    have hwr : m'.warmRes = m.chargeRes .warm a m.warmRes := by rw [hp.frame]
    have hcr : m'.coolRes = m.chargeRes .cool a m.coolRes := by rw [hp.frame]
    rw [hp.size, hp.align]
    exact alignedSize_congr (by rw [hwr, chargeRes_defaultAlign])
      (by rw [hcr, chargeRes_defaultAlign])
  have haddr : (Request.mk m size tier).Addressable P ↔ (a.tier = .warm ∨ a.tier = .cool) ∧
      size ≤ m.alignedSize a.tier size (m.effectiveAlign a.tier 0) := by
    simp [Request.Addressable, Request.landing, hl]
  rw [haddr]
  constructor
  · rintro ⟨p, block, hptr, hblock, hle, -⟩
    obtain ⟨block', hblock', hsize'⟩ := allocate_block hal hptr
    obtain rfl : block = block' := Option.some.inj (hblock.symm.trans hblock')
    rw [hsize', hsize] at hle
    refine ⟨?_, UInt64.le_iff_toNat_le.mpr hle⟩
    rcases hp.shaped.cases with ⟨-, -, -, ht⟩ | ⟨-, -, hnone, -⟩ | ⟨-, hnone, -⟩
    · exact ht
    · rw [hnone] at hptr
      simp at hptr
    · rw [hnone] at hptr
      simp at hptr
  · rintro ⟨ht, hle⟩
    rcases hp.shaped.cases with ⟨p, hptr, -, -⟩ | ⟨-, hhot, -⟩ | ⟨hcold, -⟩
    · obtain ⟨block, hblock, hsize'⟩ := allocate_block hal hptr
      refine ⟨p, block, hptr, hblock, ?_, by simp⟩
      rw [hsize', hsize]
      exact UInt64.le_iff_toNat_le.mp hle
    · simp [hhot] at ht
    · simp [hcold] at ht

theorem usable_congr {os os' : Os} (h : ∀ p ∈ b.ptr, os'.host p = os.host p) :
    b.Usable os' ↔ b.Usable os := by
  refine exists_congr (fun p ↦ exists_congr (fun block ↦ and_congr_right (fun hp ↦ ?_)))
  rw [h p hp]

theorem placed_host (hc : Coherent P m) (hp : Impl.Placed P m size 0 a m') {p : Nat}
    (hlive : (m.os.host p).isSome) : m'.os.host p = m.os.host p := by
  have hgrows := hp.host
  cases hptr : a.ptr with
  | none =>
    rw [hptr] at hgrows
    exact congrFun hgrows p
  | some q =>
    rw [hptr] at hgrows
    obtain ⟨hle, -, block, hhost⟩ := hgrows
    have hlt := hc.hostBelow hlive
    rw [hhost, update_of_ne (by omega)]

def AllHeld (os : Os) (buffers : List Staged) : Prop :=
  ∀ b ∈ buffers, ∀ p ∈ b.ptr, (os.host p).isSome

theorem Moment.Usable.held {t : Moment} (h : t.Usable) : AllHeld t.os t.buffers := by
  intro b hb p hp
  obtain ⟨q, block, hq, hblock, -⟩ := h b hb
  obtain rfl : p = q := Option.some.inj (hp.symm.trans hq)
  rw [hblock]
  rfl

theorem usable_iff_of_held {os os' : Os} {buffers : List Staged} (hheld : AllHeld os buffers)
    (h : ∀ p, (os.host p).isSome → os'.host p = os.host p) :
    (∀ b ∈ buffers, b.Usable os') ↔ ∀ b ∈ buffers, b.Usable os :=
  forall₂_congr (fun b hb ↦ usable_congr (fun p hp ↦ h p (hheld b hb p hp)))

theorem AllHeld.mono {os os' : Os} {buffers : List Staged} (hheld : AllHeld os buffers)
    (h : ∀ p, (os.host p).isSome → os'.host p = os.host p) : AllHeld os' buffers := by
  intro b hb p hp
  have hlive := hheld b hb p hp
  rw [h p hlive]
  exact hlive

theorem AllHeld.placed {buffers : List Staged} {data : Option (Nat → UInt8)}
    (hheld : AllHeld m.os buffers) (hc : Coherent P m) (hp : Impl.Placed P m size 0 a m') :
    AllHeld m'.os (buffers ++ [⟨size, a.ptr, data⟩]) := by
  intro b hb p hptr
  rcases List.mem_append.mp hb with hb | hb
  · exact hheld.mono (fun p hlive ↦ placed_host hc hp hlive) b hb p hptr
  · obtain rfl := List.mem_singleton.mp hb
    have hgrows := hp.host
    rw [show a.ptr = some p from hptr] at hgrows
    obtain ⟨-, -, block, hhost⟩ := hgrows
    rw [hhost, update_self]
    rfl

structure Filled (P : Platform) (s : Staging) : Prop where
  coherent : Coherent P s.manager
  usable : ∀ b ∈ s.buffers, b.Usable s.manager.os
  addressable : ∀ e ∈ s.requests, e.Addressable P
  moments : ∀ t ∈ s.moments, t.Usable

theorem Filled.stageOne (h : Filled P s) (tier : MemoryTier) (size : UInt64) (data : Nat → UInt8) :
    ((stageOne P tier size (some data) s).1 = .ok () →
      Filled P (stageOne P tier size (some data) s).2) ∧
    ((stageOne P tier size (some data) s).1 ≠ .ok () →
      ((∀ t ∈ (stageOne P tier size (some data) s).2.moments, t.Usable) ↔
        ∀ e ∈ (stageOne P tier size (some data) s).2.requests, e.Addressable P)) := by
  rcases stageOne_cases h.coherent tier size (some data) with
    ⟨hl, e, l, m', hp, heq⟩ | ⟨a, m', hl, hal, hp, heq⟩
  · rw [heq]
    refine ⟨fun hok ↦ by simp at hok, fun _ ↦ iff_of_true h.moments ?_⟩
    rw [List.forall_mem_append, List.forall_mem_singleton]
    refine ⟨h.addressable, fun t ht ↦ ?_⟩
    rw [Request.landing, hl] at ht
    simp at ht
  · have husable := placed_usable_iff hal hp hl
    have hheld : AllHeld s.manager.os s.buffers := Moment.Usable.held (t := ⟨_, _⟩) h.usable
    have hbefore : ∀ b ∈ s.buffers, b.Usable m'.os :=
      (usable_iff_of_held hheld (fun p hlive ↦ placed_host h.coherent hp hlive)).mpr h.usable
    have hmoment : (Moment.mk m'.os (s.buffers ++ [⟨size, a.ptr, none⟩])).Usable ↔
        (Request.mk s.manager size tier).Addressable P := by
      rw [Moment.Usable, List.forall_mem_append, List.forall_mem_singleton, and_iff_right hbefore,
        husable]
    rw [heq, fill_requests]
    unfold fill
    dsimp only [Staging.taken]
    cases hcopy : copyIn m'.os a.ptr size data with
    | none =>
      refine ⟨fun hok ↦ by simp at hok, fun _ ↦ ?_⟩
      rw [List.forall_mem_append, List.forall_mem_append, List.forall_mem_singleton,
        List.forall_mem_singleton, and_iff_right h.moments, and_iff_right h.addressable, hmoment]
    | some os =>
      refine ⟨fun _ ↦ ?_, fun hne ↦ absurd rfl hne⟩
      obtain ⟨q, block, hq, hblock, hle, rfl⟩ := copyIn_eq_some.mp hcopy
      have haddr : (Request.mk s.manager size tier).Addressable P :=
        husable.mp ⟨q, block, hq, hblock, hle, by simp⟩
      constructor
      case coherent =>
        exact (hp.coherent h.coherent).refill rfl rfl rfl rfl rfl le_rfl
          (writeHost_isSome _ _ _ _) (fun _ ↦ rfl)
      case usable =>
        rw [List.forall_mem_append, List.forall_mem_singleton]
        constructor
        · intro b hb
          refine (usable_congr (fun p hptr ↦ ?_)).mpr (hbefore b hb)
          -- the address of an earlier buffer was in use before the new block was placed
          have hlt := h.coherent.hostBelow (hheld b hb p hptr)
          have hgrows := hp.host
          rw [hq] at hgrows
          have hge := hgrows.1
          simp only [Os.writeHost]
          rw [update_of_ne (by omega)]
        · refine ⟨q, block.blit size.toNat data, hq, ?_, hle, ?_⟩
          · simp [Os.writeHost, hblock]
          · rintro _ ⟨rfl⟩ i hi
            simp [Buffer.blit, hi]
      case addressable =>
        rw [List.forall_mem_append, List.forall_mem_singleton]
        exact ⟨h.addressable, haddr⟩
      case moments =>
        rw [List.forall_mem_append, List.forall_mem_singleton]
        exact ⟨h.moments, hmoment.mpr haddr⟩

theorem Filled.stageAll (tiers : Nat → MemoryTier) (i : Nat)
    (l : List (UInt64 × Option (Nat → UInt8))) (hl : ∀ e ∈ l, e.2 ≠ none) (h : Filled P s) :
    ((stageAll P tiers i l s).1 = .ok () → Filled P (stageAll P tiers i l s).2) ∧
    ((stageAll P tiers i l s).1 ≠ .ok () →
      ((∀ t ∈ (stageAll P tiers i l s).2.moments, t.Usable) ↔
        ∀ e ∈ (stageAll P tiers i l s).2.requests, e.Addressable P)) := by
  induction l generalizing i s with
  | nil => exact ⟨fun _ ↦ h, fun hne ↦ absurd rfl hne⟩
  | cons e rest ih =>
    obtain ⟨size, user⟩ := e
    obtain ⟨data, rfl⟩ := Option.ne_none_iff_exists'.mp (hl (size, user) (by simp))
    rw [stageAll_cons]
    split
    · rename_i hok
      exact ih (i + 1) (fun e he ↦ hl e (by simp [he]))
        ((h.stageOne (tiers i) size data).1 hok)
    · exact h.stageOne (tiers i) size data

/-- The loop over the outputs, after the inputs in `prior`. -/
structure Reserved (P : Platform) (prior : List Staged) (s : Staging) : Prop where
  coherent : Coherent P s.manager
  prior : ∀ b ∈ prior, b.Usable s.manager.os
  held : AllHeld s.manager.os s.buffers
  usable : (∀ b ∈ s.buffers, b.Usable s.manager.os) ↔ ∀ e ∈ s.requests, e.Addressable P
  granted : ∀ e ∈ s.requests, e.landing P ≠ none

theorem Reserved.stageOne {prior : List Staged} (h : Reserved P prior s) (tier : MemoryTier)
    (size : UInt64) :
    ((stageOne P tier size none s).1 = .ok () →
      Reserved P prior (stageOne P tier size none s).2) ∧
    ((stageOne P tier size none s).1 ≠ .ok () →
      ∃ e ∈ (stageOne P tier size none s).2.requests, e.landing P = none) := by
  rcases stageOne_cases h.coherent tier size none with
    ⟨hl, e, l, m', hp, heq⟩ | ⟨a, m', hl, hal, hp, heq⟩
  · rw [heq]
    exact ⟨fun hok ↦ by simp at hok, fun _ ↦ ⟨⟨s.manager, size, tier⟩, by simp, hl⟩⟩
  · rw [heq]
    refine ⟨fun _ ↦ ?_, fun hne ↦ absurd rfl hne⟩
    have hkeep {p : Nat} (hlive : (s.manager.os.host p).isSome) := placed_host h.coherent hp hlive
    have hprior : AllHeld s.manager.os prior := Moment.Usable.held (t := ⟨_, _⟩) h.prior
    constructor
    case coherent => exact hp.coherent h.coherent
    case prior => exact (usable_iff_of_held hprior (fun p ↦ hkeep)).mpr h.prior
    case held => exact h.held.placed h.coherent hp
    case usable =>
      change (∀ b ∈ s.buffers ++ [⟨size, a.ptr, none⟩], b.Usable m'.os) ↔
        ∀ e ∈ s.requests ++ [⟨s.manager, size, tier⟩], e.Addressable P
      rw [List.forall_mem_append, List.forall_mem_append, List.forall_mem_singleton,
        List.forall_mem_singleton, placed_usable_iff hal hp hl,
        usable_iff_of_held h.held (fun p ↦ hkeep), h.usable]
    case granted =>
      change ∀ e ∈ s.requests ++ [⟨s.manager, size, tier⟩], e.landing P ≠ none
      rw [List.forall_mem_append, List.forall_mem_singleton, Request.landing, hl]
      exact ⟨h.granted, by simp⟩

theorem Reserved.stageAll (prior : List Staged) (tiers : Nat → MemoryTier) (i : Nat)
    (l : List (UInt64 × Option (Nat → UInt8))) (hl : ∀ e ∈ l, e.2 = none)
    (h : Reserved P prior s) :
    ((stageAll P tiers i l s).1 = .ok () → Reserved P prior (stageAll P tiers i l s).2) ∧
    ((stageAll P tiers i l s).1 ≠ .ok () →
      ∃ e ∈ (stageAll P tiers i l s).2.requests, e.landing P = none) := by
  induction l generalizing i s with
  | nil => exact ⟨fun _ ↦ h, fun hne ↦ absurd rfl hne⟩
  | cons e rest ih =>
    obtain ⟨size, user⟩ := e
    obtain rfl : user = none := hl (size, user) (by simp)
    rw [stageAll_cons]
    split
    · rename_i hok
      exact ih (i + 1) (fun e he ↦ hl e (by simp [he])) ((h.stageOne (tiers i) size).1 hok)
    · exact h.stageOne (tiers i) size

section

variable {backend : Backend F} {kernel : CompiledKernel F}
  {userInputs userOutputs : List (Option (Nat → UInt8))}

theorem given_ne_none (h : none ∉ userInputs) : ∀ e ∈ given kernel userInputs, e.2 ≠ none := by
  intro e he hnone
  refine h ?_
  rw [← hnone]
  exact (List.of_mem_zip he).2

theorem wanted_eq_none : ∀ e ∈ wanted kernel, e.2 = none := by
  intro e he
  obtain ⟨d, -, rfl⟩ := List.mem_map.mp he
  rfl

/-- All buffers can be used when they are written and when the backend gets them exactly if every
block of an input is addressable and, where all outputs get blocks, those are too. -/
theorem staging_usable_iff {cfg : TieredMemoryConfig} {hook : Option MigrationComputeHook}
    {tr : List (Impl × Call)} (hr : Run (Step P) (construct P cfg hook) tr m) :
    (∀ t ∈ (run P backend kernel m userInputs userOutputs).moments, t.Usable) ↔
      (∀ e ∈ (run P backend kernel m userInputs userOutputs).inputRequests, e.Addressable P) ∧
      ((∀ e ∈ (run P backend kernel m userInputs userOutputs).outputRequests,
          e.landing P ≠ none) →
        ∀ e ∈ (run P backend kernel m userInputs userOutputs).outputRequests,
          e.Addressable P) := by
  have hreaches := run_reaches P backend kernel m userInputs userOutputs
  generalize run P backend kernel m userInputs userOutputs = report at hreaches
  have hstart : Filled P { manager := m } := ⟨(run_coherent hr).2, by simp, by simp, by simp⟩
  have hinputs (hin : none ∉ userInputs) := hstart.stageAll kernel.pickInputTier 0
    (given kernel userInputs) (given_ne_none hin)
  have houtputs {ins : Staging} (hfilled : Filled P ins) :=
    Reserved.stageAll (s := { manager := ins.manager }) ins.buffers kernel.pickOutputTier 0
      (wanted kernel) wanted_eq_none
      ⟨hfilled.coherent, hfilled.usable, by simp [AllHeld], by simp, by simp⟩
  cases hreaches with
  | refused => simp
  | inputs r ins hin hins hne =>
    have hiff := (hinputs hin).2 (by rwa [hins])
    rw [hins] at hiff
    rw [hiff]
    simp
  | outputs r ins outs hin hins houts hne =>
    have hfilled := (hinputs hin).1 (by rw [hins])
    rw [hins] at hfilled
    obtain ⟨e, he, hnone⟩ := (houtputs hfilled).2 (by rwa [houts])
    rw [houts] at he
    exact iff_of_true hfilled.moments
      ⟨hfilled.addressable, fun hall ↦ absurd hnone (hall e he)⟩
  | dispatched users ins outs hin husers hins houts =>
    have hfilled := (hinputs hin).1 (by rw [hins])
    rw [hins] at hfilled
    have hreserved := (houtputs hfilled).1 (by rw [houts])
    rw [houts] at hreserved
    obtain ⟨bytes, -, -, hreqs, hreqs', hmoments⟩ := dispatch_frame P backend kernel users ins outs
    rw [hmoments, hreqs, hreqs', List.forall_mem_append, List.forall_mem_singleton,
      and_iff_right hfilled.moments, and_iff_right hfilled.addressable, Moment.Usable,
      List.forall_mem_append, and_iff_right hreserved.prior, hreserved.usable]
    exact ⟨fun h _ ↦ h, fun h ↦ h hreserved.granted⟩

end

instance (P : Platform) (e : Request) : Decidable (e.Addressable P) :=
  inferInstanceAs (Decidable (∀ t ∈ e.landing P, _))

theorem staging_usable_iff_busy : ∃ tr m, Run (Step plainHost) (construct plainHost {}) tr m ∧
    tr.map (fun e ↦ e.2) = [.allocate 100 .cool 0] ∧ (attempt m 1 8).moments.length = 2 ∧
    ∀ t ∈ (attempt m 1 8).moments, t.Usable := by
  have hr : Run (Step plainHost) (construct plainHost {}) _ _ :=
    .cons (step_allocate 100 .cool 0) (.nil _)
  exact ⟨_, _, hr, rfl, by decide, (staging_usable_iff hr).mpr ⟨by decide, fun _ ↦ by decide⟩⟩

def Moment.room (t : Moment) : List (Nat × Option Nat) :=
  t.buffers.map (fun b ↦ (b.size.toNat, (b.ptr.bind t.os.host).map (fun block ↦ block.size)))

theorem Moment.Usable.room {t : Moment} (h : t.Usable) :
    ∀ e ∈ t.room, ∃ n, e.2 = some n ∧ e.1 ≤ n := by
  intro e he
  obtain ⟨b, hb, rfl⟩ := List.mem_map.mp he
  obtain ⟨p, block, hp, hblock, hle, -⟩ := h b hb
  exact ⟨block.size, by simp [hp, hblock], hle⟩

theorem not_usable_of_room {moments : List Moment} (size : Nat) (block : Option Nat)
    (h : (size, block) ∈ moments.flatMap Moment.room) (hsmall : ∀ n ∈ block, n < size) :
    ¬∀ t ∈ moments, t.Usable := by
  intro hall
  obtain ⟨t, ht, he⟩ := List.mem_flatMap.mp h
  obtain ⟨n, hn, hle⟩ := (hall t ht).room _ he
  have hlt := hsmall n hn
  omega

/-- With a full Cool tier the input is copied to a null pointer; and a dimension of `-1` gets a
block of no bytes. -/
theorem unusable_blocks :
    (∃ tr m, Run (Step plainHost) (construct plainHost { coolCapacityBytes := 64 }) tr m ∧
      tr.map (fun e ↦ e.2) = [.allocate 64 .cool 0] ∧ (attempt m 1 8).outcome = .undefined ∧
      ¬∀ t ∈ (attempt m 1 8).moments, t.Usable) ∧
    (attempt (construct plainHost {}) (-1) 8).outcome = .undefined ∧
    ¬∀ t ∈ (attempt (construct plainHost {}) (-1) 8).moments, t.Usable := by
  refine ⟨⟨_, _, .cons (step_allocate 64 .cool 0) (.nil _), rfl, by decide,
    not_usable_of_room 4 none (by decide) (by simp)⟩, by decide,
    not_usable_of_room (2 ^ 64 - 4) (some 0) (by decide) (by simp)⟩

end Cerberus.Graph.Coordinator
