import Cerberus.TieredMemory.Lru
import Cerberus.TieredMemory.Contents
import Cerberus.TieredMemory.Outcomes
import Mathlib.Algebra.Order.Ring.Rat

namespace Cerberus.TieredMemory

open Std Function Foundation.FiniteMap Foundation.Trace

namespace Impl

variable {P : Platform} {m m' m₁ : Impl} {h : Nat} {a : TierAllocation} {tier : MemoryTier}
  {within : UInt64 → UInt64 → Bool}

section Vacancy

variable {t s : MemoryTier} {n : UInt64}

theorem charge_available : ((m.charge t n).acct s).available = (m.acct s).available := by
  by_cases hs : s = t
  · subst hs
    simp [charge]
  · simp [charge, update_of_ne hs]

theorem discharge_available : ((m.discharge t n).acct s).available = (m.acct s).available := by
  by_cases hs : s = t
  · subst hs
    simp [discharge]
  · simp [discharge, update_of_ne hs]

theorem announce_available {d : MemoryTier} :
    ((m.announce h t d).acct s).available = (m.acct s).available := by
  simp only [announce, update_apply]
  split
  · next hd =>
    subst hd
    split
    · next ht => simp [ht]
    · simp
  · split
    · next ht => simp [ht]
    · simp

def Vacant (m : Impl) : Prop := ∀ t, (m.acct t).available = false → m.lru t = []

theorem Passed.vacant {l : Bool} (hp : Passed m l m') (hv : Vacant m) : Vacant m' := by
  rw [hp.frame]
  exact hv

theorem Placed.vacant {size align : UInt64} (hp : Placed P m size align a m') (hv : Vacant m) :
    Vacant m' := by
  have hav : (m.acct a.tier).available = true := by
    have hroom := hp.room
    simp only [admits, Bool.and_eq_true] at hroom
    exact hroom.1
  intro t ht
  rw [hp.frame] at ht ⊢
  rw [charge_available] at ht
  have hne : t ≠ a.tier := by
    rintro rfl
    rw [hav] at ht
    cases ht
  simp only [update_of_ne hne]
  exact hv t ht

theorem vacant_filter {p : Nat → Bool} (hv : Vacant m)
    (ha : ∀ t, (m'.acct t).available = (m.acct t).available)
    (hl : m'.lru = update m.lru s ((m.lru s).filter p)) : Vacant m' := by
  intro t ht
  have hnil := hv t ((ha t).symm.trans ht)
  rw [hl, update_apply]
  split
  · next hs => rw [← hs, hnil, List.filter_nil]
  · exact hnil

theorem Freed.vacant (hf : Freed P m h a m') (hv : Vacant m) : Vacant m' :=
  vacant_filter hv (fun t ↦ by rw [hf.frame]; exact discharge_available) (by rw [hf.frame])

theorem Migrated.vacant {src dst : TierAllocation} (hg : Migrated P m h src dst m')
    (hv : Vacant m) : Vacant m' := by
  refine vacant_filter hv (fun t ↦ ?_) (by rw [hg.frame])
  rw [hg.frame]
  exact discharge_available.trans (announce_available.trans charge_available)

theorem Served.vacant {req : Option (TierAllocation × MemoryTier)} (hs : Served P m h m' req)
    (hv : Vacant m) : Vacant m' := by
  cases ht : m.movesTo P req with
  | none =>
    rcases hs.stays ht with rfl | hp | ⟨_, _, a, hp⟩
    · exact hv
    · exact hp.vacant hv
    · exact hp.vacant hv
  | some t =>
    obtain ⟨src, dst, _, _, hg⟩ := hs.moves ht
    exact hg.vacant hv

end Vacancy

/-- What rounds of eviction do: the blocks `gone` leave the old end of the LRU list for colder
tiers, and the entries of the others stay. -/
structure Evicting (tier : MemoryTier) (m : Impl) (gone : List Nat) (m' : Impl) : Prop where
  lru : m.lru tier = m'.lru tier ++ gone
  entry : ∀ {h : Nat} {a}, m.registry[h]? = some a → ∃ b, m'.registry[h]? = some b ∧
    (h ∈ gone → tier.index < b.tier.index) ∧ (h ∉ gone → b = a)

theorem Evicting.refl (m : Impl) : Evicting tier m [] m :=
  ⟨by simp, fun {h a} ha ↦ ⟨a, ha, by simp, fun _ ↦ rfl⟩⟩

theorem Untouched.evicting (hu : Untouched m m') : Evicting tier m [] m' :=
  ⟨by simp [hu.lru], fun {h a} ha ↦ ⟨a, by rw [hu.registry, ha], by simp, fun _ ↦ rfl⟩⟩

theorem Evicting.trans {g g' : List Nat} (he : Evicting tier m g m₁)
    (he' : Evicting tier m₁ g' m') : Evicting tier m (g' ++ g) m' := by
  refine ⟨by rw [he.lru, he'.lru, List.append_assoc], fun {h a} ha ↦ ?_⟩
  obtain ⟨b, hb, hin, hout⟩ := he.entry ha
  obtain ⟨c, hc, hin', hout'⟩ := he'.entry hb
  refine ⟨c, hc, fun hmem ↦ ?_, fun hn ↦ ?_⟩
  · by_cases hg' : h ∈ g'
    · exact hin' hg'
    · rw [hout' hg']
      exact hin ((List.mem_append.mp hmem).resolve_left hg')
  · rw [List.mem_append, not_or] at hn
    rw [hout' hn.1, hout hn.2]

theorem Migrated.evicting {src dst : TierAllocation} {l : List Nat}
    (hg : Migrated P m h src dst m') (hc : Coherent P m) (hl : m.lru src.tier = l ++ [h])
    (hcold : src.tier.index < dst.tier.index) : Evicting src.tier m [h] m' := by
  have hnd := hc.lruNodup src.tier
  rw [hl, List.nodup_append] at hnd
  have hrest : m'.lru src.tier = l := by
    rw [hg.frame]
    simp only [update_self, hl, List.filter_append]
    rw [List.filter_eq_self.mpr fun x hx ↦ by simpa using hnd.2.2 x hx h (by simp)]
    simp
  refine ⟨by rw [hrest, hl], fun {k a} ha ↦ ?_⟩
  by_cases hk : h = k
  · subst hk
    exact ⟨_, hg.registered, fun _ ↦ hcold, fun hn ↦ absurd (by simp) hn⟩
  · refine ⟨a, ?_, fun hm ↦ absurd (by simpa using hm) (Ne.symm hk), fun _ ↦ rfl⟩
    rw [hg.frame]
    simp [get_insert, hk, ha]

theorem victim_some {v : Nat} (hv : m.victim tier within = some v) :
    within (m.acct tier).allocated (m.acct tier).capacity = false ∧
      ∃ l, m.lru tier = l ++ [v] := by
  unfold victim at hv
  split at hv
  · simp at hv
  · next hw =>
    obtain ⟨l, hl⟩ := List.getLast?_eq_some_iff.mp (Option.filter_eq_some_iff.mp hv).1
    exact ⟨by simpa using hw, l, hl⟩

/-- A coherent manager has no invalid handles in its lists, so eviction stops only where it
should. -/
theorem victim_none (hc : Coherent P m) : m.victim tier within = none ↔
    within (m.acct tier).allocated (m.acct tier).capacity = true ∨ m.lru tier = [] := by
  unfold victim
  split
  · next hw => simp [hw]
  · next hw =>
    simp only [hw, Bool.false_eq_true, false_or]
    cases hl : (m.lru tier).getLast? with
    | none => simpa using hl
    | some v =>
      have hmem := List.mem_of_getLast? hl
      obtain ⟨a, ha, _⟩ := hc.lruLive hmem
      have hv : v ≠ kInvalidTierHandle := (hc.fresh ha).1.ne'
      simp [Option.filter_some, hv, List.ne_nil_of_mem hmem]

theorem demote_threw_iff (hc : Coherent P m) (h : Nat) :
    (m.demote P h).1 = .error .hookThrew ↔ m.throwsOn P (m.demoteRequest h) = true := by
  unfold demoteRequest
  rcases hr : m.registry[h]? with _ | src
  · simp [demote, hr, throwsOn]
  · by_cases ht : src.tier = .cold
    · simp [demote, hr, ht, throwsOn]
    · cases hav : m.tierAvailable src.tier.colder with
      | false => simp [demote, hr, ht, hav, throwsOn]
      | true =>
        simp only [ht, hav, decide_false, Bool.not_true, Bool.or_self, Bool.false_eq_true,
          ↓reduceIte]
        have hend := demote_ended hc hr ht hav
        generalize m.demote P h = r at hend ⊢
        cases hend with
        | passed hl _ => simp [throwsOn, hl]
        | aborted dst hl hk _ => simp [throwsOn, hl, hk]
        | migrated dst hl hk _ => simp [throwsOn, hl, hk]

theorem demote_evicting {v : Nat} (hc : Coherent P m) (hne : tier ≠ .cold)
    (hv : m.victim tier within = some v)
    (hok : m.throwsOn P (m.demoteRequest v) = false) :
    (∃ b m₁, m.demote P v = (.ok b, m₁) ∧ Evicting tier m [v] m₁) ∨
      ∃ e m₁, m.demote P v = (.error (.error e), m₁) ∧ Evicting tier m [] m₁ := by
  obtain ⟨_, l, hl⟩ := victim_some hv
  obtain ⟨src, ha, rfl⟩ := hc.lruLive (t := tier) (h := v) (by simp [hl])
  have hclean := (demote_abortsClean_iff hc v).mpr hok
  have hthrew := (not_congr (demote_threw_iff hc v)).mpr (by simp [hok])
  cases hav : m.tierAvailable src.tier.colder with
  | false =>
    refine .inr ⟨.tierUnavailable, m, ?_, .refl m⟩
    simp [demote, ha, hne, hav]
  | true =>
    have hend := demote_ended hc ha hne hav
    generalize m.demote P v = r at hend hclean hthrew ⊢
    cases hend with
    | passed _ _ => exact .inr ⟨_, _, rfl, (hclean _ rfl).evicting⟩
    | aborted => exact absurd rfl hthrew
    | migrated dst hland _ hg =>
      have hcold := (colder_index hne).trans_le (landingTier_index hland)
      exact .inl ⟨_, _, rfl, hg.evicting hc hl hcold⟩

/-- How the loop of `pressure_evict` ends: the test says so, the list is empty, or the last
demotion returned an error. -/
def Stopped (P : Platform) (tier : MemoryTier) (within : UInt64 → UInt64 → Bool) (m m' : Impl) :
    Prop :=
  within (m'.acct tier).allocated (m'.acct tier).capacity = true ∨ m'.lru tier = [] ∨
    ∃ m₁ v e, Evicts P tier within m m₁ v ∧ m₁.demote P v = (.error (.error e), m')

theorem evictLoop_returns {n k : Nat} (hc : Coherent P m) (hne : tier ≠ .cold)
    (hok : ∀ m₁ v, Evicts P tier within m m₁ v → m₁.throwsOn P (m₁.demoteRequest v) = false)
    (hk : (m.lru tier).length ≤ k) :
    ∃ gone m', evictLoop P tier within (k + 1) m n = some (.ok (n + gone.length), m') ∧
      Evicting tier m gone m' ∧ Stopped P tier within m m' := by
  induction k generalizing m n with
  | zero =>
    have hnil : m.lru tier = [] := List.length_eq_zero_iff.mp (by omega)
    have hv : m.victim tier within = none := (victim_none hc).mpr (.inr hnil)
    exact ⟨[], m, by simp [evictLoop_succ, hv], .refl m, .inr (.inl hnil)⟩
  | succ k ih =>
    rw [evictLoop_succ]
    cases hv : m.victim tier within with
    | none =>
      refine ⟨[], m, rfl, .refl m, ?_⟩
      rcases (victim_none hc).mp hv with hw | hnil
      · exact .inl hw
      · exact .inr (.inl hnil)
    | some v =>
      dsimp only
      have hc' := demote_coherent hc v
      rcases demote_evicting hc hne hv (hok m v (.now hv)) with ⟨b, m₁, hd, he⟩ | ⟨e, m₁, hd, he⟩
      · have hlen : (m₁.lru tier).length ≤ k := by
          have := congrArg List.length he.lru
          simp only [List.length_append, List.length_singleton] at this
          omega
        have hlater {m₂ : Impl} {w : Nat} (hw : Evicts P tier within m₁ m₂ w) :
            Evicts P tier within m m₂ w := .later hv (by rw [hd]) (by rw [hd]; exact hw)
        rw [hd] at hc' ⊢
        obtain ⟨gone, m', hr, he', hst⟩ := ih (n := n + 1) hc' (fun m₂ w hw ↦ hok m₂ w (hlater hw))
          hlen
        refine ⟨gone ++ [v], m', ?_, he.trans he', ?_⟩
        · have hsum : n + 1 + gone.length = n + (gone ++ [v]).length := by
            rw [List.length_append, List.length_singleton]
            omega
          rw [← hsum]
          exact hr
        · rcases hst with hw | hnil | ⟨m₂, w, e, hw, hlast⟩
          · exact .inl hw
          · exact .inr (.inl hnil)
          · exact .inr (.inr ⟨m₂, w, e, hlater hw, hlast⟩)
      · rw [hd]
        exact ⟨[], m₁, rfl, he, .inr (.inr ⟨m, v, e, .now hv, hd⟩)⟩

/-- `fill <= target_pct`, in exact arithmetic. -/
def fillWithin (target : ℚ) (allocated capacity : UInt64) : Bool :=
  decide ((allocated.toNat : ℚ) / capacity.toNat ≤ target)

/-- The fill of the tier is at most the target; a tier of capacity zero is unlimited. -/
def FillAtMost (m : Impl) (tier : MemoryTier) (target : ℚ) : Prop :=
  (m.acct tier).capacity = 0 ∨
    fillWithin target (m.acct tier).allocated (m.acct tier).capacity = true

/-- The block of `h` was in the tier and is not any more. -/
def Left (m m' : Impl) (tier : MemoryTier) (h : Nat) : Prop :=
  (∃ a, m.registry[h]? = some a ∧ a.tier = tier) ∧
    ∀ b, m'.registry[h]? = some b → b.tier ≠ tier

/-- `n` blocks have left the tier, the oldest ones of its LRU list, and no block is in a
hotter tier than before. -/
structure Exact (tier : MemoryTier) (m : Impl) (n : Nat) (m' : Impl) : Prop where
  oldest : ∃ gone, m.lru tier = m'.lru tier ++ gone ∧ gone.Nodup ∧ gone.length = n ∧
    ∀ h, Left m m' tier h ↔ h ∈ gone
  colder : ∀ {h : Nat} {a}, m.registry[h]? = some a →
    ∃ b, m'.registry[h]? = some b ∧ a.tier.index ≤ b.tier.index

theorem Evicting.exact {gone : List Nat} (he : Evicting tier m gone m') (hc : Coherent P m) :
    Exact tier m gone.length m' := by
  have hmem {k : Nat} (hk : k ∈ gone) : ∃ a, m.registry[k]? = some a ∧ a.tier = tier :=
    hc.lruLive (by rw [he.lru]; exact List.mem_append_right _ hk)
  refine ⟨⟨gone, he.lru, ?_, rfl, fun k ↦ ⟨?_, fun hk ↦ ⟨hmem hk, ?_⟩⟩⟩, fun {k a} ha ↦ ?_⟩
  · have hnd := hc.lruNodup tier
    rw [he.lru] at hnd
    exact hnd.of_append_right
  · rintro ⟨⟨a, ha, hat⟩, hleft⟩
    by_contra hk
    obtain ⟨b, hb, _, hout⟩ := he.entry ha
    exact hleft b hb (hout hk ▸ hat)
  · intro b hb
    obtain ⟨a, ha, _⟩ := hmem hk
    obtain ⟨c, hcb, hin, _⟩ := he.entry ha
    obtain rfl : c = b := Option.some.inj (hcb.symm.trans hb)
    rintro rfl
    exact absurd (hin hk) (lt_irrefl _)
  · obtain ⟨b, hb, hin, hout⟩ := he.entry ha
    refine ⟨b, hb, ?_⟩
    by_cases hk : k ∈ gone
    · obtain ⟨c, hcb, rfl⟩ := hmem hk
      obtain rfl : c = a := Option.some.inj (hcb.symm.trans ha)
      exact (hin hk).le
    · rw [hout hk]

/-- `pressure_evict` returns, because the tier is full enough no more, has no block left or
the last demotion failed, and the number it returns is exact. On a tier that is not there
it returns an error. -/
def EvictsExactly (P : Platform) (m : Impl) (tier : MemoryTier) (target : ℚ) : Prop :=
  ∃ fuel r m', m.pressureEvict P tier (fillWithin target) fuel = some (r, m') ∧
    (FillAtMost m' tier target ∨ m'.lru tier = [] ∨
      ∃ m₁ v e, Evicts P tier (fillWithin target) m m₁ v ∧
        m₁.demote P v = (.error (.error e), m')) ∧
    ((∃ n, r = .ok n ∧ Exact tier m n m') ∨ r = .error (.error .tierUnavailable) ∧ m' = m)

def spins (m : Impl) (tier : MemoryTier) (target : ℚ) : Prop :=
  tier = .cold ∧ m.tierAvailable tier = true ∧ ¬ FillAtMost m tier target ∧ m.lru tier ≠ []

/-- A demotion that succeeds without moving anything is made again and again. -/
theorem evictLoop_spins {v fuel n : Nat} {b : TierAllocation} (hv : m.victim tier within = some v)
    (hd : m.demote P v = (.ok b, m)) : evictLoop P tier within fuel m n = none := by
  induction fuel generalizing n with
  | zero => rfl
  | succ fuel ih =>
    rw [evictLoop_succ, hv]
    simp only [hd]
    exact ih

theorem Evicts.coherent {v : Nat} (hv : Evicts P tier within m m₁ v) (hc : Coherent P m) :
    Coherent P m₁ := by
  induction hv with
  | now => exact hc
  | later _ _ _ ih => exact ih (demote_coherent hc _)

theorem throwsOn_hookless (hk : m.computeHook = none)
    (req : Option (TierAllocation × MemoryTier)) : m.throwsOn P req = false := by
  rcases req with _ | ⟨src, target⟩
  · rfl
  · simp [throwsOn, hookThrows, hk]

theorem Evicts.computeHook {v : Nat} (hv : Evicts P tier within m m₁ v) (hc : Coherent P m) :
    m₁.computeHook = m.computeHook := by
  induction hv with
  | now => rfl
  | @later m _ v _ _ _ _ _ ih =>
    exact (ih (demote_coherent hc v)).trans (demote_served hc v).computeHook

theorem Evicts.threw {fuel n v : Nat} {r : Except Abort Nat} (hv : Evicts P tier within m m₁ v)
    (hd : (m₁.demote P v).1 = .error .hookThrew)
    (he : evictLoop P tier within fuel m n = some (r, m')) : r = .error .hookThrew := by
  induction hv generalizing fuel n with
  | @now m v hv =>
    cases fuel with
    | zero => simp [evictLoop] at he
    | succ fuel =>
      rw [evictLoop_succ, hv] at he
      rcases hr : m.demote P v with ⟨_, m₂⟩
      rw [hr] at hd
      obtain rfl := hd
      simp only [hr, Option.some.injEq, Prod.mk.injEq] at he
      exact he.1.symm
  | @later m m₂ v w b hv hok _ ih =>
    cases fuel with
    | zero => simp [evictLoop] at he
    | succ fuel =>
      rw [evictLoop_succ, hv] at he
      rcases hr : m.demote P v with ⟨_, m₂⟩
      rw [hr] at hok ih
      obtain rfl := hok
      simp only [hr] at he
      exact ih hd he

end Impl

open Impl

variable {P : Platform} {cfg : TieredMemoryConfig} {hook : Option MigrationComputeHook}
  {tr : List (Impl × Call)}

theorem step_vacant (m : Impl) (call : Call) (m' : Impl) (hi : Coherent P m ∧ Vacant m)
    (hs : Step P m call m') : Coherent P m' ∧ Vacant m' := by
  obtain ⟨hc, hv⟩ := hi
  refine ⟨step_coherent m call m' hc hs, ?_⟩
  cases call with
  | allocate size preferred align =>
    obtain rfl := hs
    rcases allocate_cases P m size preferred align with ⟨_, hp⟩ | ⟨a, _, hp⟩
    · exact hp.vacant hv
    · exact hp.vacant hv
  | free k =>
    obtain rfl := hs
    rcases free_cases hc k with ⟨he, _⟩ | ⟨a, _, hf⟩
    · rwa [he]
    · exact hf.vacant hv
  | promote k => exact hs ▸ (promote_served hc k).vacant hv
  | demote k => exact hs ▸ (demote_served hc k).vacant hv
  | pressureEvict tier within =>
    obtain ⟨fuel, r, he⟩ := hs
    refine (pressureEvict_preserves (I := fun n ↦ Coherent P n ∧ Vacant n)
      (G := fun _ _ ↦ True) ?_ ⟨hc, hv⟩ (fun _ _ _ _ _ ↦ trivial) he).2
    intro n v hi _
    exact ⟨demote_coherent hi.1 v, (demote_served hi.1 v).vacant hi.2⟩
  | resetForTesting =>
    obtain rfl := hs
    intro t _
    rfl
  | write k other =>
    obtain rfl := hs
    unfold write
    split
    · exact hv
    · split <;> exact hv

theorem run_vacant {m : Impl} (hr : Run (Step P) (construct P cfg hook) tr m) : Vacant m :=
  (hr.invariant step_vacant ⟨construct_coherent P cfg hook, fun _ _ ↦ rfl⟩).2.2

variable {m : Impl} {tier : MemoryTier} {target : ℚ}

theorem demote_cold {v : Nat} (hc : Coherent P m) (hv : v ∈ m.lru .cold) :
    (∃ b, m.demote P v = (.ok b, m)) ∧ m.demoteRequest v = none := by
  obtain ⟨b, hb, ht⟩ := hc.lruLive hv
  exact ⟨⟨b, by simp [demote, hb, ht]⟩, by simp [demoteRequest, hb, ht]⟩

theorem evictsExactly_of_stopped (hc : Coherent P m) (hav : m.tierAvailable tier = true)
    (hcap : (m.acct tier).capacity ≠ 0) {fuel : Nat} {gone : List Nat} {m' : Impl}
    (hr : evictLoop P tier (fillWithin target) fuel m 0 = some (.ok gone.length, m'))
    (he : Evicting tier m gone m') (hst : Stopped P tier (fillWithin target) m m') :
    EvictsExactly P m tier target := by
  refine ⟨fuel, .ok gone.length, m', ?_, ?_, .inl ⟨_, rfl, he.exact hc⟩⟩
  · simp [pressureEvict, hav, hcap, hr]
  · rcases hst with hw | hrest
    · exact .inl (.inr hw)
    · exact .inr hrest

/-- In every state a manager can reach, `pressure_evict` does what it should exactly when it
does not have to evict from the Cold tier and the compute hook throws in none of the
demotions it makes. -/
theorem pressure_evict_exact_iff (hr : Run (Step P) (construct P cfg hook) tr m)
    (tier : MemoryTier) (target : ℚ) :
    EvictsExactly P m tier target ↔ ¬ m.spins tier target ∧
      EvictsOnly P (fun m v ↦ m.throwsOn P (m.demoteRequest v) = false) m tier
        (fillWithin target) := by
  have hc := (run_coherent hr).2
  constructor
  · rintro ⟨fuel, r, m', hev, _, hres⟩
    refine ⟨?_, ?_⟩
    · rintro ⟨rfl, hav, hfill, hne⟩
      simp only [FillAtMost, not_or] at hfill
      have hv : ∃ v, m.victim .cold (fillWithin target) = some v := by
        rw [← Option.ne_none_iff_exists', Ne, victim_none hc, not_or]
        exact ⟨hfill.2, hne⟩
      obtain ⟨v, hv⟩ := hv
      obtain ⟨b, hd⟩ := (demote_cold hc (victim_mem hv)).1
      simp only [pressureEvict, hav, Bool.not_true, Bool.false_eq_true, ↓reduceIte, hfill.1,
        evictLoop_spins hv hd, reduceCtorEq] at hev
    · intro hav hcap m₁ v hv
      rw [← Bool.not_eq_true]
      intro hthrow
      have hc₁ := hv.coherent hc
      simp only [pressureEvict, hav, Bool.not_true, Bool.false_eq_true, ↓reduceIte, hcap] at hev
      obtain rfl := hv.threw ((demote_threw_iff hc₁ v).mpr hthrow) hev
      rcases hres with ⟨n, hn, _⟩ | ⟨hn, _⟩ <;> cases hn
  · rintro ⟨hspin, hok⟩
    cases hav : m.tierAvailable tier with
    | false =>
      refine ⟨0, .error (.error .tierUnavailable), m, by simp [pressureEvict, hav], ?_,
        .inr ⟨rfl, rfl⟩⟩
      exact .inr (.inl (run_vacant hr tier hav))
    | true =>
      by_cases hcap : (m.acct tier).capacity = 0
      · refine ⟨0, .ok 0, m, by simp [pressureEvict, hav, hcap], .inl (.inl hcap), .inl ⟨0, rfl, ?_⟩⟩
        exact (Evicting.refl m).exact hc
      by_cases hcold : tier = .cold
      · subst hcold
        have hstop : fillWithin target (m.acct .cold).allocated (m.acct .cold).capacity = true ∨
            m.lru .cold = [] := by
          by_contra hn
          rw [not_or] at hn
          exact hspin ⟨rfl, hav, by simp [FillAtMost, hcap, hn.1], hn.2⟩
        have hv := (victim_none (P := P) hc).mpr hstop
        have hl : evictLoop P .cold (fillWithin target) 1 m 0 =
            some (.ok ([] : List Nat).length, m) := by
          simp [evictLoop_succ, hv]
        refine evictsExactly_of_stopped hc hav hcap hl (.refl m) ?_
        rcases hstop with hw | hnil
        · exact .inl hw
        · exact .inr (.inl hnil)
      · obtain ⟨gone, m', hl, he, hst⟩ := evictLoop_returns (n := 0) hc hcold (hok hav hcap) le_rfl
        rw [Nat.zero_add] at hl
        exact evictsExactly_of_stopped hc hav hcap hl he hst

theorem pressure_evict_exact_iff_two_blocks :
    ∃ tr m, Run (Step plainHost) (construct plainHost { warmCapacityBytes := 256 }) tr m ∧
      tr.map (fun e ↦ e.2) = [.allocate 64 .warm 0, .allocate 64 .warm 0] ∧
      EvictsExactly plainHost m .warm (1 / 4) := by
  have hr : Run (Step plainHost) (construct plainHost { warmCapacityBytes := 256 }) _ _ :=
    .cons (step_allocate 64 .warm 0) (.cons (step_allocate 64 .warm 0) (.nil _))
  refine ⟨_, _, hr, rfl, (pressure_evict_exact_iff hr .warm (1 / 4)).mpr ⟨by simp [spins], ?_⟩⟩
  intro _ _ m₁ v hv
  exact throwsOn_hookless (hv.computeHook (run_coherent hr).2) _

/-- A Cold tier above the target: the oldest block is demoted for ever. -/
theorem cold_eviction_spins :
    ∃ tr m, Run (Step plainHost) (construct plainHost { coldCapacityBytes := 1024 }) tr m ∧
      tr.map (fun e ↦ e.2) = [.allocate 1024 .cold 0] ∧
      (∀ fuel, m.pressureEvict plainHost .cold (fillWithin (1 / 2)) fuel = none) ∧
      ¬ EvictsExactly plainHost m .cold (1 / 2) := by
  have hr : Run (Step plainHost) (construct plainHost { coldCapacityBytes := 1024 }) _ _ :=
    .cons (step_allocate 1024 .cold 0) (.nil _)
  have hsize : (1024 : UInt64).toNat = 1024 := rfl
  have hfill : fillWithin (1 / 2) 1024 1024 = false := by
    simp only [fillWithin, hsize, decide_eq_false_iff_not]
    norm_num
  have hnone (m : Impl) (hav : m.tierAvailable .cold = true)
      (hcap : (m.acct .cold).capacity = 1024) (hal : (m.acct .cold).allocated = 1024)
      (hlru : m.lru .cold = [1]) (hd : m.demote plainHost 1 = (.ok ⟨1, .cold, none, none, 1024, 512⟩, m))
      (fuel : Nat) : m.pressureEvict plainHost .cold (fillWithin (1 / 2)) fuel = none := by
    generalize fillWithin (1 / 2) = within at hfill ⊢
    have hv : m.victim .cold within = some 1 := by
      simp [victim, hcap, hal, hfill, hlru, kInvalidTierHandle]
    simp [pressureEvict, hav, hcap, evictLoop_spins hv hd]
  refine ⟨_, _, hr, rfl, ?_, ?_⟩
  · exact hnone _ rfl rfl rfl rfl rfl
  · rintro ⟨fuel, r, m', hev, _⟩
    rw [hnone _ rfl rfl rfl rfl rfl] at hev
    cases hev

end Cerberus.TieredMemory
