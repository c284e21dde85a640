import Cerberus.TieredMemory.Runs

namespace Cerberus.TieredMemory

open Std Function Foundation.FiniteMap Foundation.Trace

namespace Impl

variable {P : Platform} {m m' : Impl} {h : Nat} {a : TierAllocation} {tier : MemoryTier}
  {within : UInt64 → UInt64 → Bool}

/-- A handle is registered exactly when some LRU list names it, and then the list of the
tier of its entry names it once and no other list does. -/
structure Linked (m : Impl) : Prop where
  registered : ∀ {h : Nat} {t}, h ∈ m.lru t → (m.registry[h]?).isSome
  listed : ∀ {h : Nat} {a}, m.registry[h]? = some a →
    (m.lru a.tier).count h = 1 ∧ ∀ t, t ≠ a.tier → h ∉ m.lru t

def Lost (m : Impl) : Prop := ∃ (h : Nat) (a : TierAllocation), m.registry[h]? = some a ∧ h ∉ m.lru a.tier

theorem Linked.not_lost (hl : Linked m) : ¬ Lost m := by
  rintro ⟨h, a, ha, hn⟩
  have := (hl.listed ha).1
  rw [List.count_eq_zero_of_not_mem hn] at this
  omega

theorem Coherent.linked (hc : Coherent P m) (hn : ¬ Lost m) : Linked m := by
  refine ⟨fun hk ↦ ?_, fun {k a} ha ↦ ⟨?_, fun t ht hk ↦ ?_⟩⟩
  · obtain ⟨a, ha, _⟩ := hc.lruLive hk
    simp [ha]
  · have hmem : k ∈ m.lru a.tier := by
      by_contra hk
      exact hn ⟨k, a, ha, hk⟩
    exact List.count_eq_one_of_mem (hc.lruNodup _) hmem
  · obtain ⟨b, hb, hbt⟩ := hc.lruLive hk
    rw [ha, Option.some.injEq] at hb
    exact ht (hb ▸ hbt.symm)

theorem Passed.lost_iff {l : Bool} (hp : Passed m l m') : Lost m' ↔ Lost m := by
  rw [hp.frame]
  rfl

theorem Placed.lost_iff {size align : UInt64} (hp : Placed P m size align a m')
    (hc : Coherent P m) : Lost m' ↔ Lost m := by
  have hr : m'.registry = m.registry.insert m.nextHandle a := by
    rw [hp.frame, hp.handle]
    exact insertIfNew_fresh _ _ hc.unused
  have hl : m'.lru = update m.lru a.tier (m.nextHandle :: m.lru a.tier) := by
    rw [hp.frame, hp.handle]
  constructor
  · rintro ⟨k, b, hb, hk⟩
    rw [hr, get_insert] at hb
    split at hb
    · next he =>
      obtain rfl := Option.some.inj hb
      simp [hl, he] at hk
    · refine ⟨k, b, hb, fun hm ↦ hk ?_⟩
      rw [hl, update_apply]
      split
      · next ht => exact List.mem_cons_of_mem _ (ht ▸ hm)
      · exact hm
  · rintro ⟨k, b, hb, hk⟩
    have hne := hc.ne_next hb
    refine ⟨k, b, by rw [hr, get_insert, if_neg hne.symm, hb], fun hm ↦ hk ?_⟩
    rw [hl, update_apply] at hm
    split at hm
    · next ht => exact ht ▸ (List.mem_cons.mp hm).resolve_left hne
    · exact hm

theorem Freed.lost (hf : Freed P m h a m') (hl : Lost m') : Lost m := by
  obtain ⟨k, b, hb, hk⟩ := hl
  rw [hf.frame] at hb hk
  simp only [get_erase] at hb
  split at hb
  · simp at hb
  · next hne =>
    refine ⟨k, b, hb, fun hm ↦ hk ?_⟩
    simp only [update_apply]
    split
    · next ht => simpa [Ne.symm hne] using ht ▸ hm
    · exact hm

/-- A migration takes the handle out of its old list and puts it into none. -/
theorem Migrated.lost {src dst : TierAllocation} (hg : Migrated P m h src dst m')
    (ha : m.registry[h]? = some src) (hc : Coherent P m) : Lost m' := by
  refine ⟨h, { dst with handle := h }, by rw [hg.frame]; simp, ?_⟩
  rw [hg.frame]
  simp only [update_apply]
  split
  · simp
  · next ht =>
    intro hm
    obtain ⟨b, hb, hbt⟩ := hc.lruLive hm
    rw [ha, Option.some.injEq] at hb
    exact ht (hb ▸ hbt.symm)

theorem Migrated.lost_of_lost {src dst : TierAllocation} {t : MemoryTier}
    (hg : Migrated P m h src dst m') (hc : Coherent P m) (hh : h ∈ m.lru t) (hl : Lost m) :
    Lost m' := by
  obtain ⟨k, b, hb, hk⟩ := hl
  have hne : h ≠ k := by
    rintro rfl
    obtain ⟨c, hc', hct⟩ := hc.lruLive hh
    rw [hb, Option.some.injEq] at hc'
    exact hk (hc' ▸ hct ▸ hh)
  refine ⟨k, b, by rw [hg.frame]; simp [get_insert, hne, hb], fun hm ↦ hk ?_⟩
  rw [hg.frame] at hm
  simp only [update_apply] at hm
  split at hm
  · next ht => exact ht ▸ List.mem_of_mem_filter hm
  · exact hm

theorem Served.lost_iff {req : Option (TierAllocation × MemoryTier)} (hs : Served P m h m' req)
    (hc : Coherent P m) (ht : m.movesTo P req = none) : Lost m' ↔ Lost m := by
  rcases hs.stays ht with rfl | hp | ⟨_, _, a, hp⟩
  · rfl
  · exact hp.lost_iff
  · exact hp.lost_iff hc

theorem Served.lost {req : Option (TierAllocation × MemoryTier)} (hs : Served P m h m' req)
    (hc : Coherent P m) (ht : m.movesTo P req ≠ none) : Lost m' := by
  obtain ⟨t, ht⟩ := Option.ne_none_iff_exists'.mp ht
  obtain ⟨src, dst, ha, _, hg⟩ := hs.moves ht
  exact hg.lost ha hc

theorem victim_mem {v : Nat} (hv : m.victim tier within = some v) : v ∈ m.lru tier := by
  unfold victim at hv
  split at hv
  · simp at hv
  · exact List.mem_of_getLast? (Option.filter_eq_some_iff.mp hv).1

theorem Evicts.mem {m₁ : Impl} {v : Nat} (he : Evicts P tier within m m₁ v) : v ∈ m₁.lru tier := by
  induction he with
  | now hv => exact victim_mem hv
  | later _ _ _ ih => exact ih

theorem demote_lost_of_lost {v : Nat} (hc : Coherent P m) (hv : v ∈ m.lru tier) (hl : Lost m) :
    Lost (m.demote P v).2 := by
  have hs := demote_served hc v
  cases ht : m.movesTo P (m.demoteRequest v) with
  | none => exact (hs.lost_iff hc ht).mpr hl
  | some t =>
    obtain ⟨src, dst, _, _, hg⟩ := hs.moves ht
    exact hg.lost_of_lost hc hv hl

theorem evictLoop_lost {fuel n : Nat} {r : Except Abort Nat} (hc : Coherent P m) (hl : Lost m)
    (he : evictLoop P tier within fuel m n = some (r, m')) : Lost m' := by
  refine (evictLoop_preserves (I := fun m ↦ Coherent P m ∧ Lost m) (G := fun m v ↦ v ∈ m.lru tier)
    ?_ ⟨hc, hl⟩ (fun m₁ v hv ↦ hv.mem) he).2
  intro m v hi hv
  exact ⟨demote_coherent hi.1 v, demote_lost_of_lost hi.1 hv hi.2⟩

/-- Once `pressure_evict` has moved a block, a block is lost in the state it returns in. -/
theorem Evicts.lost {fuel n v : Nat} {r : Except Abort Nat} {m₁ : Impl}
    (hv : Evicts P tier within m m₁ v) (hc : Coherent P m)
    (hmove : m₁.movesTo P (m₁.demoteRequest v) ≠ none)
    (he : evictLoop P tier within fuel m n = some (r, m')) : Lost m' := by
  induction hv generalizing fuel n with
  | @now m v hv =>
    cases fuel with
    | zero => simp [evictLoop] at he
    | succ fuel =>
      have hlost := (demote_served hc v).lost hc hmove
      have hc' := demote_coherent hc v
      rw [evictLoop_succ, hv] at he
      simp only at he
      rcases hd : m.demote P v with ⟨(e | _) | b, m₂⟩ <;> rw [hd] at he hlost hc'
      · simp only [Option.some.injEq, Prod.mk.injEq] at he
        exact he.2 ▸ hlost
      · simp only [Option.some.injEq, Prod.mk.injEq] at he
        exact he.2 ▸ hlost
      · exact evictLoop_lost hc' hlost he
  | @later m m₂ v w b hv hok _ ih =>
    cases fuel with
    | zero => simp [evictLoop] at he
    | succ fuel =>
      have hc' := demote_coherent hc v
      rw [evictLoop_succ, hv] at he
      simp only at he
      rcases hd : m.demote P v with ⟨(e | _) | b, m₂⟩ <;> rw [hd] at he hok hc' ih
      · simp at hok
      · simp at hok
      · exact ih hc' hmove he

def staysPut (P : Platform) (m : Impl) : Call → Prop
  | .promote h => m.movesTo P (m.promoteRequest h) = none
  | .demote h => m.movesTo P (m.demoteRequest h) = none
  | .pressureEvict tier within =>
    EvictsOnly P (fun m v ↦ m.movesTo P (m.demoteRequest v) = none) m tier within
  | _ => True

end Impl

open Impl

variable {P : Platform}

theorem step_keeps_linked (m : Impl) (call : Call) (m' : Impl) (hc : Coherent P m) (hl : Linked m)
    (hok : m.staysPut P call) (hs : Step P m call m') : Linked m' := by
  refine (step_coherent m call m' hc hs).linked fun hlost ↦ hl.not_lost ?_
  cases call with
  | allocate size preferred align =>
    obtain rfl := hs
    rcases allocate_cases P m size preferred align with ⟨_, hp⟩ | ⟨a, _, hp⟩
    · exact hp.lost_iff.mp hlost
    · exact (hp.lost_iff hc).mp hlost
  | free h =>
    obtain rfl := hs
    rcases free_cases hc h with ⟨he, _⟩ | ⟨a, ha, hf⟩
    · rwa [he] at hlost
    · exact hf.lost hlost
  | promote h =>
    obtain rfl := hs
    exact ((promote_served hc h).lost_iff hc hok).mp hlost
  | demote h =>
    obtain rfl := hs
    exact ((demote_served hc h).lost_iff hc hok).mp hlost
  | pressureEvict tier within =>
    obtain ⟨fuel, r, he⟩ := hs
    have hkeep := pressureEvict_preserves (I := fun m ↦ Coherent P m ∧ ¬ Lost m)
      (fun m v hi hv ↦ ⟨demote_coherent hi.1 v,
        fun hl ↦ hi.2 (((demote_served hi.1 v).lost_iff hi.1 hv).mp hl)⟩) ⟨hc, hl.not_lost⟩ hok he
    exact absurd hlost hkeep.2
  | resetForTesting =>
    obtain rfl := hs
    obtain ⟨k, b, hb, _⟩ := hlost
    simp [resetForTesting] at hb
  | write h data =>
    obtain rfl := hs
    unfold write at hlost
    split at hlost
    · exact hlost
    · split at hlost
      · exact hlost
      · exact hlost

theorem step_breaks_linked (m : Impl) (call : Call) (m' : Impl) (hc : Coherent P m)
    (hok : ¬ m.staysPut P call) (hs : Step P m call m') : ¬ Linked m' := by
  intro hl
  refine hl.not_lost ?_
  cases call with
  | promote h =>
    obtain rfl := hs
    exact (promote_served hc h).lost hc hok
  | demote h =>
    obtain rfl := hs
    exact (demote_served hc h).lost hc hok
  | pressureEvict tier within =>
    obtain ⟨fuel, r, he⟩ := hs
    simp only [staysPut, EvictsOnly, Classical.not_imp, not_forall] at hok
    obtain ⟨hav, hcap, m₁, v, hv, hmove⟩ := hok
    simp only [pressureEvict, hav, Bool.not_true, Bool.false_eq_true, ↓reduceIte, hcap] at he
    exact hv.lost hc hmove he
  | allocate _ _ _ => exact absurd trivial hok
  | free _ => exact absurd trivial hok
  | resetForTesting => exact absurd trivial hok
  | write _ _ => exact absurd trivial hok

theorem construct_linked (P : Platform) (cfg : TieredMemoryConfig)
    (hook : Option MigrationComputeHook) : Linked (construct P cfg hook) :=
  ⟨by simp [construct], by simp [construct]⟩

/-- The registry and the LRU lists agree in every state of a run exactly when no call of
the run moves a block. -/
theorem lru_linked_iff {cfg : TieredMemoryConfig} {hook : Option MigrationComputeHook}
    {tr : List (Impl × Call)} {u : Impl} (hr : Run (Step P) (construct P cfg hook) tr u) :
    Throughout Linked tr u ↔ ∀ e ∈ tr, e.1.staysPut P e.2 :=
  hr.throughout_iff step_coherent step_keeps_linked
    (fun m call m' hc _ hok hs ↦ step_breaks_linked m call m' hc hok hs)
    (construct_coherent P cfg hook) (construct_linked P cfg hook)

theorem lru_linked_iff_allocate_free :
    ∃ tr u, Run (Step plainHost) (construct plainHost {}) tr u ∧
      tr.map (fun e ↦ e.2) = [.allocate 1 .cool 0, .free 1] ∧ Throughout Linked tr u := by
  have hr : Run (Step plainHost) (construct plainHost {}) _ _ :=
    .cons (step_allocate 1 .cool 0) (.cons (step_free 1) (.nil _))
  exact ⟨_, _, hr, rfl, (lru_linked_iff hr).mpr (by simp [staysPut])⟩

/-- A block that is promoted from the Cool to the Warm tier is in no LRU list. -/
theorem promoted_block_unlisted :
    ∃ tr u, Run (Step plainHost) (construct plainHost {}) tr u ∧
      tr.map (fun e ↦ e.2) = [.allocate 1 .cool 0, .promote 1] ∧ ¬ Linked u := by
  refine ⟨_, _, .cons (step_allocate 1 .cool 0) (.cons (step_promote 1) (.nil _)), rfl, ?_⟩
  intro hl
  have h := (hl.listed (h := 1) (a := ⟨1, .warm, some 1, none, 1, 64⟩) (by decide)).1
  revert h
  decide

end Cerberus.TieredMemory
