import Cerberus.Foundation.Trace
import Cerberus.TieredMemory.Migration

namespace Cerberus.TieredMemory

open Std Function Foundation.FiniteMap Foundation.Ownership Foundation.Trace

namespace Impl

variable {P : Platform} {m m' m₁ : Impl} {h : Nat} {a : TierAllocation} {tier : MemoryTier}
  {within : UInt64 → UInt64 → Bool}

/-- The block the next round of `pressure_evict` demotes, if it makes one. -/
def victim (m : Impl) (tier : MemoryTier) (within : UInt64 → UInt64 → Bool) : Option Nat :=
  if within (m.acct tier).allocated (m.acct tier).capacity then none
  else ((m.lru tier).getLast?).filter (· ≠ kInvalidTierHandle)

theorem evictLoop_succ (fuel evicted : Nat) :
    evictLoop P tier within (fuel + 1) m evicted =
      match m.victim tier within with
      | none => some (.ok evicted, m)
      | some v =>
        match m.demote P v with
        | (.ok _, m) => evictLoop P tier within fuel m (evicted + 1)
        | (.error .hookThrew, m) => some (.error .hookThrew, m)
        | (.error (.error _), m) => some (.ok evicted, m) := by
  simp only [evictLoop, victim]
  split
  · rfl
  · cases (m.lru tier).getLast? with
    | none => rfl
    | some v =>
      by_cases hv : v = kInvalidTierHandle
      · simp [hv, Option.filter_some]
      · rcases hd : m.demote P v with ⟨(_ | _) | _, _⟩ <;> simp [hd, hv, Option.filter_some]

/-- A round of `pressure_evict`, started in the first state, demotes a block in the second. -/
inductive Evicts (P : Platform) (tier : MemoryTier) (within : UInt64 → UInt64 → Bool) :
    Impl → Impl → Nat → Prop
  | now {m : Impl} {v : Nat} : m.victim tier within = some v → Evicts P tier within m m v
  | later {m m₁ : Impl} {v w : Nat} {a : TierAllocation} : m.victim tier within = some v →
      (m.demote P v).1 = .ok a → Evicts P tier within (m.demote P v).2 m₁ w →
      Evicts P tier within m m₁ w

/-- Every demotion `pressure_evict` makes is one that `ok` allows. -/
def EvictsOnly (P : Platform) (ok : Impl → Nat → Prop) (m : Impl) (tier : MemoryTier)
    (within : UInt64 → UInt64 → Bool) : Prop :=
  m.tierAvailable tier = true → (m.acct tier).capacity ≠ 0 →
    ∀ m₁ v, Evicts P tier within m m₁ v → ok m₁ v

theorem evictLoop_preserves {I : Impl → Prop} {G : Impl → Nat → Prop}
    (hstep : ∀ m v, I m → G m v → I (m.demote P v).2) {fuel n : Nat} {r : Except Abort Nat}
    (hi : I m) (hok : ∀ m₁ v, Evicts P tier within m m₁ v → G m₁ v)
    (he : evictLoop P tier within fuel m n = some (r, m')) : I m' := by
  induction fuel generalizing m n with
  | zero => simp [evictLoop] at he
  | succ fuel ih =>
    rw [evictLoop_succ] at he
    cases hv : m.victim tier within with
    | none =>
      simp only [hv, Option.some.injEq, Prod.mk.injEq] at he
      exact he.2 ▸ hi
    | some v =>
      have hnext := hstep m v hi (hok m v (.now hv))
      rw [hv] at he
      simp only at he
      rcases hd : m.demote P v with ⟨e, m₁⟩
      rw [hd] at he hnext
      rcases e with (e | _) | b
      · simp only [Option.some.injEq, Prod.mk.injEq] at he
        exact he.2 ▸ hnext
      · simp only [Option.some.injEq, Prod.mk.injEq] at he
        exact he.2 ▸ hnext
      · refine ih hnext ?_ he
        intro m₂ w hw
        exact hok m₂ w (.later hv (by rw [hd]) (by rw [hd]; exact hw))

theorem pressureEvict_preserves {I : Impl → Prop} {G : Impl → Nat → Prop}
    (hstep : ∀ m v, I m → G m v → I (m.demote P v).2) {fuel : Nat} {r : Except Abort Nat}
    (hi : I m) (hok : EvictsOnly P G m tier within)
    (he : m.pressureEvict P tier within fuel = some (r, m')) : I m' := by
  unfold pressureEvict at he
  cases hav : m.tierAvailable tier with
  | false =>
    simp only [hav, Bool.not_false, ↓reduceIte, Option.some.injEq, Prod.mk.injEq] at he
    exact he.2 ▸ hi
  | true =>
    simp only [hav, Bool.not_true, Bool.false_eq_true, ↓reduceIte] at he
    split at he
    · simp only [Option.some.injEq, Prod.mk.injEq] at he
      exact he.2 ▸ hi
    · next hcap => exact evictLoop_preserves hstep hi (hok hav hcap) he

structure Drained (m : Impl) (l : List (Nat × TierAllocation)) (m' : Impl) : Prop where
  frame : m' = { m with warmRes := m'.warmRes, coolRes := m'.coolRes, os := m'.os }
  warm : m'.warmRes = l.foldl (fun r e ↦ m.dischargeRes .warm e.2 r) m.warmRes
  cool : m'.coolRes = l.foldl (fun r e ↦ m.dischargeRes .cool e.2 r) m.coolRes
  serial : m.os.serial ≤ m'.os.serial
  host : ∀ q, (m'.os.host q).isSome → (m.os.host q).isSome ∧ ∀ e ∈ l, e.2.ptr ≠ some q
  device : ∀ q, (m'.os.device q).isSome → (m.os.device q).isSome ∧ ∀ e ∈ l, e.2.devicePtr ≠ some q

theorem drain_spec (e : Nat × TierAllocation) (hs : e.2.Shaped)
    (hh : e.2.tier = .hot → P.hasHip = true) : Drained m [e] (m.drain P e) := by
  unfold drain
  split
  · next ht =>
    obtain ⟨hp, hd⟩ : e.2.ptr = none ∧ e.2.devicePtr = none := by
      simpa only [TierAllocation.Shaped, ht] using hs
    have hw (t : MemoryTier) (hne : t ≠ .cold) (r : PmrResource) :
        [e].foldl (fun r e ↦ m.dischargeRes t e.2 r) r = r := by
      simp [dischargeRes_other (show e.2.tier ≠ t by rw [ht]; exact hne.symm)]
    split
    · exact ⟨rfl, (hw _ (by decide) _).symm, (hw _ (by decide) _).symm, le_rfl,
        fun q hq ↦ ⟨hq, by simp [hp]⟩, fun q hq ↦ ⟨hq, by simp [hd]⟩⟩
    · unfold Os.removeSpill
      split <;> exact ⟨rfl, (hw _ (by decide) _).symm, (hw _ (by decide) _).symm, Nat.le_succ _,
        fun q hq ↦ ⟨hq, by simp [hp]⟩, fun q hq ↦ ⟨hq, by simp [hd]⟩⟩
  · have hd := deallocate_spec (P := P) (m := m) hs hh
    generalize m.deallocate P e.2 = m₁ at hd ⊢
    obtain ⟨os, rfl⟩ : ∃ os, m₁ = _ := ⟨m₁.os, hd.frame⟩
    exact ⟨rfl, rfl, rfl, hd.serial,
      fun q hq ↦ ⟨hd.host.isSome hq, by simpa using hd.host.gone hq⟩,
      fun q hq ↦ ⟨hd.device.isSome hq, by simpa using hd.device.gone hq⟩⟩

theorem Drained.cons {e : Nat × TierAllocation} {l : List (Nat × TierAllocation)}
    (hd : Drained m [e] m₁) (hl : Drained m₁ l m') : Drained m (e :: l) m' := by
  have hres (t : MemoryTier) (b : TierAllocation) (r : PmrResource) :
      m₁.dischargeRes t b r = m.dischargeRes t b r := by
    simp only [dischargeRes]
    rw [alignedSize_congr (m := m) (by simp [hd.warm]) (by simp [hd.cool])]
  refine ⟨?_, ?_, ?_, hd.serial.trans hl.serial, ?_, ?_⟩
  · rw [hl.frame, hd.frame]
  · simp only [hl.warm, hd.warm, hres, List.foldl_cons, List.foldl_nil]
  · simp only [hl.cool, hd.cool, hres, List.foldl_cons, List.foldl_nil]
  · intro q hq
    have h₁ := hl.host q hq
    have h₀ := hd.host q h₁.1
    refine ⟨h₀.1, ?_⟩
    rintro b hb
    rcases List.mem_cons.mp hb with rfl | hb
    · exact h₀.2 b (by simp)
    · exact h₁.2 b hb
  · intro q hq
    have h₁ := hl.device q hq
    have h₀ := hd.device q h₁.1
    refine ⟨h₀.1, ?_⟩
    rintro b hb
    rcases List.mem_cons.mp hb with rfl | hb
    · exact h₀.2 b (by simp)
    · exact h₁.2 b hb

theorem drained (l : List (Nat × TierAllocation))
    (hl : ∀ e ∈ l, e.2.Shaped ∧ (e.2.tier = .hot → P.hasHip = true)) :
    Drained m l (l.foldl (drain P) m) := by
  induction l generalizing m with
  | nil => exact ⟨rfl, rfl, rfl, le_rfl, by simp, by simp⟩
  | cons e l ih =>
    have he := hl e (by simp)
    exact (drain_spec e he.1 he.2).cons (ih (fun b hb ↦ hl b (by simp [hb])))

theorem Coherent.drained (hc : Coherent P m) :
    Drained m m.registry.toList (m.registry.toList.foldl (drain P) m) := by
  refine Impl.drained _ ?_
  rintro ⟨k, b⟩ hb
  rw [ExtTreeMap.mem_toList_iff_getElem?_eq_some] at hb
  exact ⟨hc.shaped hb, hc.hip hb⟩

theorem resetForTesting_coherent (hc : Coherent P m) : Coherent P (m.resetForTesting P) := by
  have hd := hc.drained
  unfold resetForTesting
  generalize m.registry.toList.foldl (drain P) m = m₁ at hd ⊢
  have hnone {addr : TierAllocation → Option Nat} {mem mem' : Nat → Option Buffer}
      (ho : Owns (m.ref addr) mem) (hm : ∀ q, (mem' q).isSome →
        (mem q).isSome ∧ ∀ e ∈ m.registry.toList, addr e.2 ≠ some q) : mem' = fun _ ↦ none := by
    funext q
    cases hq : mem' q with
    | none => rfl
    | some b =>
      obtain ⟨hlive, hno⟩ := hm q (by simp [hq])
      obtain ⟨k, hk⟩ := ho.owned hlive
      obtain ⟨c, hkc, hcq⟩ := Option.bind_eq_some_iff.mp hk
      exact absurd hcq (hno (k, c) (ExtTreeMap.mem_toList_iff_getElem?_eq_some.mpr hkc))
  have hhost := hnone hc.host hd.host
  have hdev := hnone hc.device hd.device
  have hn : m₁.nextHandle = m.nextHandle := by rw [hd.frame]
  constructor
  case next => exact hn ▸ hc.next
  case host => rw [ref_empty rfl, hhost]; exact Owns.empty
  case device => rw [ref_empty rfl, hdev]; exact Owns.empty
  all_goals simp [hhost, hdev]

theorem write_coherent (hc : Coherent P m) (h : Nat) (data : Nat → UInt8) :
    Coherent P (m.write h data) := by
  unfold write
  split
  · exact hc
  · split
    · exact hc
    · next p _ =>
      refine hc.refill rfl rfl rfl rfl rfl le_rfl ?_ (fun _ ↦ rfl)
      intro q
      simp only [Os.writeHost, update_apply]
      split
      · next hq => simp [hq]
      · rfl

theorem allocate_cases (P : Platform) (m : Impl) (size : UInt64) (preferred : MemoryTier)
    (align : UInt64) :
    (m.landingTier P size preferred align = none ∧
      Passed m (m.littersSpill P size preferred align) (m.allocate P size preferred align).2) ∨
    ∃ a, m.landingTier P size preferred align = some a.tier ∧
      Placed P m size align a (m.allocate P size preferred align).2 := by
  cases hl : m.landingTier P size preferred align with
  | none => exact .inl ⟨rfl, (allocate_passed hl).2⟩
  | some t =>
    obtain ⟨a, _, rfl, _, hp⟩ := allocate_placed hl
    exact .inr ⟨a, rfl, hp⟩

theorem free_cases (hc : Coherent P m) (h : Nat) :
    ((m.free P h).2 = m ∧ m.registry[h]? = none) ∨
      ∃ a, m.registry[h]? = some a ∧ Freed P m h a (m.free P h).2 := by
  rcases hr : m.registry[h]? with _ | a
  · exact .inl ⟨by simp [free, hr], rfl⟩
  · exact .inr ⟨a, rfl, (free_spec hc hr).2⟩

end Impl

open Impl

/-- A machine without HIP on which every request to the system succeeds. -/
def plainHost : Platform where
  hasHip := false
  hasDevice := false
  totalVram := none
  spillDirReady := true
  alignedAlloc _ := true
  hipMalloc _ := true
  hipMemcpy _ := true
  garbage _ _ := 0
  openSpill _ := true
  fillSpill _ := true
  rewriteSpill _ := some (2 ^ 64)
  readSpill _ := 2 ^ 64
  removeSpill _ := true

section

variable {P : Platform} {m : Impl}

theorem step_allocate (size : UInt64) (preferred : MemoryTier) (align : UInt64) :
    Step P m (.allocate size preferred align) (m.allocate P size preferred align).2 := rfl

theorem step_free (h : Nat) : Step P m (.free h) (m.free P h).2 := rfl

theorem step_promote (h : Nat) : Step P m (.promote h) (m.promote P h).2 := rfl

theorem step_demote (h : Nat) : Step P m (.demote h) (m.demote P h).2 := rfl

theorem step_write (h : Nat) (data : Nat → UInt8) : Step P m (.write h data) (m.write h data) := rfl

end

theorem step_coherent {P : Platform} (m : Impl) (call : Call) (m' : Impl) (hc : Coherent P m)
    (hs : Step P m call m') : Coherent P m' := by
  cases call with
  | allocate size preferred align =>
    obtain rfl := hs
    rcases allocate_cases P m size preferred align with ⟨_, hp⟩ | ⟨a, _, hp⟩
    · exact hp.coherent hc
    · exact hp.coherent hc
  | free h =>
    obtain rfl := hs
    rcases free_cases hc h with ⟨he, _⟩ | ⟨a, ha, hf⟩
    · rwa [he]
    · exact hf.coherent ha hc
  | promote h => exact hs ▸ promote_coherent hc h
  | demote h => exact hs ▸ demote_coherent hc h
  | pressureEvict tier within =>
    obtain ⟨fuel, r, he⟩ := hs
    exact pressureEvict_preserves (fun m v hc (_ : True) ↦ demote_coherent hc v) hc
      (fun _ _ _ _ _ ↦ trivial) he
  | resetForTesting => exact hs ▸ resetForTesting_coherent hc
  | write h data => exact hs ▸ write_coherent hc h data

theorem run_coherent {P : Platform} {cfg : TieredMemoryConfig}
    {hook : Option MigrationComputeHook} {tr : List (Impl × Call)} {u : Impl}
    (hr : Run (Step P) (construct P cfg hook) tr u) : Throughout (Coherent P) tr u :=
  hr.invariant step_coherent (construct_coherent P cfg hook)

end Cerberus.TieredMemory
