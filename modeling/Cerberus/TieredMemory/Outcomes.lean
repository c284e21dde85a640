import Cerberus.TieredMemory.Accounting

namespace Cerberus.TieredMemory

open Std Function Foundation.Bytes Foundation.FiniteMap Foundation.Trace

namespace Impl

variable {P : Platform} {m m' : Impl} {h : Nat} {a src dst : TierAllocation}

/-- The walk of `promote` begins with the next hotter tier and the block's own one. -/
theorem hotter_walk {t : MemoryTier} (ht : t ≠ .hot) :
    kTiers.drop t.hotter.index = t.hotter :: t :: kTiers.drop (t.index + 1) := by
  cases t <;> first | contradiction | rfl

theorem hotter_index (t : MemoryTier) : t.hotter.index ≤ t.index := by
  cases t <;> decide

theorem colder_index {t : MemoryTier} (ht : t ≠ .cold) : t.index < t.colder.index := by
  cases t <;> first | contradiction | decide

theorem colder_of_walk {s t : MemoryTier} (hm : t ∈ kTiers.drop (s.index + 1)) :
    s.index < t.index := by
  revert hm
  cases s <;> cases t <;> decide

/-- Neither the next hotter tier nor the block's own tier takes a second copy of it, a colder
tier does, and the compute hook lets the bytes go there. -/
def overshoots (P : Platform) (m : Impl) (src : TierAllocation) : Bool :=
  src.tier != .hot && src.sizeBytes != 0 &&
    !m.grants P src.tier.hotter src.sizeBytes src.alignment m.os.serial &&
    !m.grants P src.tier src.sizeBytes src.alignment (m.os.serial + 1) &&
    (m.landing P src.sizeBytes src.alignment (kTiers.drop (src.tier.index + 1))
      (m.os.serial + 2)).any (!m.hookThrows src ·)

def PromotesUp (P : Platform) (m : Impl) (h : Nat) (src : TierAllocation) : Prop :=
  ∀ a, (m.promote P h).1 = .ok a →
    (m.promote P h).2.registry[h]? = some a ∧ a.tier.index ≤ src.tier.index

def DemotesDown (P : Platform) (m : Impl) (h : Nat) (src : TierAllocation) : Prop :=
  ∀ a, src.tier ≠ .cold → (m.demote P h).1 = .ok a →
    (m.demote P h).2.registry[h]? = some a ∧ src.tier.index < a.tier.index

theorem landingTier_hotter (hne : src.tier ≠ .hot) (hs : src.sizeBytes ≠ 0) :
    m.landingTier P src.sizeBytes src.tier.hotter src.alignment =
      if m.grants P src.tier.hotter src.sizeBytes src.alignment m.os.serial then
        some src.tier.hotter
      else if m.grants P src.tier src.sizeBytes src.alignment (m.os.serial + 1) then some src.tier
      else m.landing P src.sizeBytes src.alignment (kTiers.drop (src.tier.index + 1))
        (m.os.serial + 2) := by
  rw [landingTier, if_neg hs, hotter_walk hne]
  rfl

/-- The tier of a promoted block is colder than it was exactly when the walk overshoots. -/
theorem overshoots_iff (hne : src.tier ≠ .hot) :
    m.overshoots P src = true ↔
      ∃ t, m.landingTier P src.sizeBytes src.tier.hotter src.alignment = some t ∧
        m.hookThrows src t = false ∧ src.tier.index < t.index := by
  by_cases hs : src.sizeBytes = 0
  · simp [overshoots, hs, landingTier]
  rw [landingTier_hotter hne hs]
  have hup := hotter_index src.tier
  cases hg : m.grants P src.tier.hotter src.sizeBytes src.alignment m.os.serial with
  | true =>
    simp only [overshoots, hg, Bool.not_true, Bool.and_false, Bool.false_and, Bool.false_eq_true,
      ↓reduceIte, Option.some.injEq, false_iff]
    rintro ⟨t, rfl, _, hlt⟩
    omega
  | false =>
    cases hg' : m.grants P src.tier src.sizeBytes src.alignment (m.os.serial + 1) with
    | true =>
      simp only [overshoots, hg', Bool.not_true, Bool.and_false, Bool.false_and,
        Bool.false_eq_true, ↓reduceIte, Option.some.injEq, false_iff]
      rintro ⟨t, rfl, _, hlt⟩
      omega
    | false =>
      simp only [overshoots, hg, hg', bne_iff_ne.mpr hne, bne_iff_ne.mpr hs, Bool.not_false,
        Bool.and_self, Bool.true_and, Bool.false_eq_true, ↓reduceIte, Option.any_eq_true,
        Bool.not_eq_true']
      constructor
      · rintro ⟨t, ht, hk⟩
        exact ⟨t, ht, hk, colder_of_walk (landing_mem ht)⟩
      · rintro ⟨t, ht, hk, _⟩
        exact ⟨t, ht, hk⟩

theorem promotesUp_iff (hc : Coherent P m) (ha : m.registry[h]? = some src) :
    PromotesUp P m h src ↔ m.overshoots P src = false := by
  by_cases hne : src.tier = .hot
  · have hp : m.promote P h = (.ok src, m) := by simp [promote, ha, hne]
    have ho : m.overshoots P src = false := by simp [overshoots, hne]
    simp only [PromotesUp, hp, Except.ok.injEq, forall_eq', ho, iff_true]
    exact ⟨ha, le_rfl⟩
  rw [← Bool.not_eq_true, overshoots_iff hne, PromotesUp]
  have hend := promote_ended hc ha hne
  generalize m.promote P h = r at hend ⊢
  cases hend with
  | passed hl _ => simp [hl]
  | aborted dst hl hk _ => simp [hl, hk]
  | migrated dst hl hk hg => simp [hl, hk, hg.registered]

theorem demotesDown (hc : Coherent P m) (ha : m.registry[h]? = some src) :
    DemotesDown P m h src := by
  intro a hne hok
  cases hav : m.tierAvailable src.tier.colder with
  | false => simp [demote, ha, hne, hav] at hok
  | true =>
    have hend := demote_ended hc ha hne hav
    generalize m.demote P h = r at hend hok ⊢
    cases hend with
    | passed => simp at hok
    | aborted => simp at hok
    | migrated dst hl _ hg =>
      obtain rfl : _ = a := Except.ok.inj hok
      exact ⟨hg.registered, (colder_index hne).trans_le (landingTier_index hl)⟩

structure Untouched (m m' : Impl) : Prop where
  registry : m'.registry = m.registry
  lru : m'.lru = m.lru
  coldFiles : m'.coldFiles = m.coldFiles
  acct : m'.acct = m.acct
  liveCount : ∀ t, m'.liveCount t = m.liveCount t
  host : m'.os.host = m.os.host
  device : m'.os.device = m.os.device
  files : ∀ {k : Nat} {path}, m.coldFiles[k]? = some path → m'.os.disk path = m.os.disk path

/-- A call that returns an error, or that the hook ends by an exception, changes nothing. -/
def AbortsClean (m : Impl) (r : Except Abort TierAllocation × Impl) : Prop :=
  ∀ e, r.1 = .error e → Untouched m r.2

/-- Whether the compute hook throws on the bytes of the block a request is about, on their
way to the tier that takes the new block. -/
def throwsOn (P : Platform) (m : Impl) : Option (TierAllocation × MemoryTier) → Bool
  | none => false
  | some (src, target) =>
    (m.landingTier P src.sizeBytes target src.alignment).any (m.hookThrows src ·)

theorem Untouched.refl (m : Impl) : Untouched m m :=
  ⟨rfl, rfl, rfl, rfl, fun _ ↦ rfl, rfl, rfl, fun _ ↦ rfl⟩

/-- The spill file that a failed request may leave is no file of a live block. -/
theorem Passed.untouched {l : Bool} (hp : Passed m l m') (hc : Coherent P m) : Untouched m m' := by
  have hf := hp.frame
  refine ⟨by rw [hf], by rw [hf], by rw [hf], by rw [hf], fun t ↦ ?_, hp.host, hp.device, ?_⟩
  · rw [hf]
    rfl
  · intro k path hk
    obtain ⟨rfl, hlt⟩ := hc.filed hk
    rw [hp.disk]
    split
    · refine update_of_ne (fun he ↦ ?_) _ _
      exact hlt.ne (m.spillPath_injective he)
    · rfl

theorem Placed.not_untouched {size align : UInt64} (hp : Placed P m size align a m')
    (hc : Coherent P m) : ¬ Untouched m m' := by
  intro hu
  have hr : m'.registry[m.nextHandle]? = some a := by
    rw [hp.frame, hp.handle]
    simp only [insertIfNew_fresh _ _ hc.unused, get_insert, ↓reduceIte]
  rw [hu.registry, hc.unused] at hr
  cases hr

theorem Ended.abortsClean_iff {target : MemoryTier} {r : Except Abort TierAllocation × Impl}
    (he : Ended P m h src target r) (hc : Coherent P m) :
    AbortsClean m r ↔ m.throwsOn P (some (src, target)) = false := by
  cases he with
  | passed hl hp =>
    simp only [throwsOn, hl, Option.any_none, iff_true]
    intro e _
    exact hp.untouched hc
  | aborted dst hl hk hp =>
    simp only [throwsOn, hl, Option.any_some, hk, Bool.true_eq_false, iff_false]
    intro hu
    exact hp.not_untouched hc (hu _ rfl)
  | migrated dst hl hk _ => simp [throwsOn, hl, hk, AbortsClean]

theorem promote_abortsClean_iff (hc : Coherent P m) (h : Nat) :
    AbortsClean m (m.promote P h) ↔ m.throwsOn P (m.promoteRequest h) = false := by
  unfold promoteRequest
  rcases hr : m.registry[h]? with _ | src
  · simp [promote, hr, throwsOn, AbortsClean, Untouched.refl]
  · by_cases ht : src.tier = .hot
    · simp [promote, hr, ht, throwsOn, AbortsClean]
    · simp only [if_neg ht]
      exact (promote_ended hc hr ht).abortsClean_iff hc

theorem demote_abortsClean_iff (hc : Coherent P m) (h : Nat) :
    AbortsClean m (m.demote P h) ↔ m.throwsOn P (m.demoteRequest h) = false := by
  unfold demoteRequest
  rcases hr : m.registry[h]? with _ | src
  · simp [demote, hr, throwsOn, AbortsClean, Untouched.refl]
  · by_cases ht : src.tier = .cold
    · simp [demote, hr, ht, throwsOn, AbortsClean]
    · cases hav : m.tierAvailable src.tier.colder with
      | false => simp [demote, hr, ht, hav, throwsOn, AbortsClean, Untouched.refl]
      | true =>
        simp only [ht, hav, decide_false, Bool.not_true, Bool.or_self, Bool.false_eq_true,
          ↓reduceIte]
        exact (demote_ended hc hr ht hav).abortsClean_iff hc

end Impl

open Impl

variable {P : Platform} {cfg : TieredMemoryConfig} {hook : Option MigrationComputeHook}
  {tr : List (Impl × Call)} {m : Impl}

/-- In every state a manager can reach, migrations of a live block go in their direction
exactly when its promotion does not overshoot. -/
theorem migration_direction_iff (hr : Run (Step P) (construct P cfg hook) tr m) {h : Nat}
    {src : TierAllocation} (ha : m.registry[h]? = some src) :
    PromotesUp P m h src ∧ DemotesDown P m h src ↔ m.overshoots P src = false := by
  have hc := (run_coherent hr).2
  rw [and_iff_left (demotesDown hc ha)]
  exact promotesUp_iff hc ha

theorem migration_direction_iff_to_warm :
    ∃ tr m src, Run (Step plainHost) (construct plainHost {}) tr m ∧
      tr.map (fun e ↦ e.2) = [.allocate 64 .cool 0] ∧ m.registry[1]? = some src ∧
      PromotesUp plainHost m 1 src ∧ DemotesDown plainHost m 1 src := by
  have hr : Run (Step plainHost) (construct plainHost {}) _ _ :=
    .cons (step_allocate 64 .cool 0) (.nil _)
  refine ⟨_, _, ⟨1, .cool, some 0, none, 64, 64⟩, hr, rfl, by decide, ?_⟩
  exact (migration_direction_iff hr (by decide)).mpr (by decide)

/-- With the Warm and the Cool tier full, the promotion of a Cool block ends in the Cold tier. -/
theorem promoted_block_gets_colder :
    ∃ cfg tr m src a, Run (Step plainHost) (construct plainHost cfg) tr m ∧
      tr.map (fun e ↦ e.2) = [.allocate 64 .cool 0, .allocate 64 .warm 0] ∧
      m.registry[1]? = some src ∧ src.tier = .cool ∧ (m.promote plainHost 1).1 = .ok a ∧
      a.tier = .cold ∧ ¬ PromotesUp plainHost m 1 src := by
  let cfg : TieredMemoryConfig := { warmCapacityBytes := 64, coolCapacityBytes := 64 }
  have hr : Run (Step plainHost) (construct plainHost cfg) _ _ :=
    .cons (step_allocate 64 .cool 0) (.cons (step_allocate 64 .warm 0) (.nil _))
  refine ⟨cfg, _, _, ⟨1, .cool, some 0, none, 64, 64⟩, ⟨1, .cold, none, none, 64, 64⟩, hr, rfl,
    by decide, rfl, by decide, rfl, ?_⟩
  intro hu
  exact absurd (hu ⟨1, .cold, none, none, 64, 64⟩ (by decide)).2 (by decide)

/-- In every state a manager can reach, a migration that does not succeed leaves everything
as it was exactly when it is not the compute hook that ends it. -/
theorem aborted_migration_untouched_iff (hr : Run (Step P) (construct P cfg hook) tr m) (h : Nat) :
    (AbortsClean m (m.promote P h) ↔ m.throwsOn P (m.promoteRequest h) = false) ∧
      (AbortsClean m (m.demote P h) ↔ m.throwsOn P (m.demoteRequest h) = false) := by
  have hc := (run_coherent hr).2
  exact ⟨promote_abortsClean_iff hc h, demote_abortsClean_iff hc h⟩

theorem aborted_migration_untouched_iff_no_room :
    ∃ cfg tr m, Run (Step plainHost) (construct plainHost cfg) tr m ∧
      tr.map (fun e ↦ e.2) = [.allocate 64 .warm 0] ∧
      (m.demote plainHost 1).1 = .error (.error .migrationFailed) ∧
      AbortsClean m (m.promote plainHost 1) ∧ AbortsClean m (m.demote plainHost 1) := by
  let cfg : TieredMemoryConfig := { coolCapacityBytes := 1, coldCapacityBytes := 1 }
  have hr : Run (Step plainHost) (construct plainHost cfg) _ _ :=
    .cons (step_allocate 64 .warm 0) (.nil _)
  have hw := aborted_migration_untouched_iff hr 1
  exact ⟨cfg, _, _, hr, rfl, by decide, hw.1.mpr (by decide), hw.2.mpr (by decide)⟩

def refusingHook : MigrationComputeHook := fun _ _ _ _ ↦ none

/-- The block that a promotion stopped by its hook has placed stays registered and charged. -/
theorem aborted_migration_keeps_block :
    ∃ tr m, Run (Step plainHost) (construct plainHost {} (some refusingHook)) tr m ∧
      tr.map (fun e ↦ e.2) = [.allocate 64 .cool 0] ∧
      (m.promote plainHost 1).1 = .error .hookThrew ∧
      (m.promote plainHost 1).2.lru .warm = [2] ∧
      ((m.promote plainHost 1).2.acct .warm).allocated = 64 ∧
      ¬ AbortsClean m (m.promote plainHost 1) := by
  have hr : Run (Step plainHost) (construct plainHost {} (some refusingHook)) _ _ :=
    .cons (step_allocate 64 .cool 0) (.nil _)
  refine ⟨_, _, hr, rfl, by decide, by decide, by decide, ?_⟩
  intro hu
  have hl := congrFun (hu .hookThrew (by decide)).lru .warm
  revert hl
  decide

end Cerberus.TieredMemory
