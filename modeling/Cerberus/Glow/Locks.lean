import Cerberus.Foundation.Mutex

/-! The two mutexes of the engine. -/

namespace Cerberus.Glow

open Function Relation Foundation.Mutex

inductive EngineMutex
  /-- `mutex_` -/
  | bonds
  /-- `stats_mutex_` -/
  | stats
  deriving DecidableEq

inductive Call
  | recordExecution (nodePath : List Int)
  | reinforcePath (path : List Int)
  | decayAll
  | reset
  | queryHotPaths
  | stats

abbrev Steps := List (LockStep EngineMutex)

def nested (outer inner : EngineMutex) : Steps :=
  [.lock outer, .lock inner, .unlock inner, .unlock outer]

namespace Call

def lockSteps : Call → Steps
  | recordExecution nodePath => if nodePath.length < 2 then [] else nested .bonds .stats
  | reinforcePath path => if path.length < 2 then [] else nested .bonds .stats
  | decayAll => nested .bonds .stats
  | reset => nested .bonds .stats
  | queryHotPaths => [.lock .bonds, .unlock .bonds]
  | stats => nested .stats .bonds

/-- The call takes the mutex of the statistics while it holds that of the bonds. -/
def Counts : Call → Prop
  | recordExecution nodePath => 2 ≤ nodePath.length
  | reinforcePath path => 2 ≤ path.length
  | decayAll => True
  | reset => True
  | queryHotPaths => False
  | stats => False

theorem lockSteps_cases (c : Call) : ¬c.Counts ∧ c ≠ stats ∧ c.lockSteps = [] ∨
    c.Counts ∧ c.lockSteps = nested .bonds .stats ∨
    ¬c.Counts ∧ c ≠ stats ∧ c.lockSteps = [.lock .bonds, .unlock .bonds] ∨
    c = stats := by
  cases c with
  | recordExecution nodePath =>
    by_cases hshort : nodePath.length < 2
    · exact .inl ⟨not_le_of_gt hshort, by simp, if_pos hshort⟩
    · exact .inr (.inl ⟨not_lt.mp hshort, if_neg hshort⟩)
  | reinforcePath path =>
    by_cases hshort : path.length < 2
    · exact .inl ⟨not_le_of_gt hshort, by simp, if_pos hshort⟩
    · exact .inr (.inl ⟨not_lt.mp hshort, if_neg hshort⟩)
  | decayAll => exact .inr (.inl ⟨trivial, rfl⟩)
  | reset => exact .inr (.inl ⟨trivial, rfl⟩)
  | queryHotPaths => exact .inr (.inr (.inl ⟨id, by simp, rfl⟩))
  | stats => exact .inr (.inr (.inr rfl))

end Call

def programSteps (calls : List Call) : Steps := calls.flatMap Call.lockSteps

variable {T : Type} [DecidableEq T] {calls : List Call} {l : Steps}
  {held wanted : EngineMutex}

theorem balanced_programSteps (calls : List Call) : Balanced (programSteps calls) := by
  induction calls with
  | nil => exact .nil
  | cons c calls ih =>
    rw [programSteps, List.flatMap_cons]
    rcases c.lockSteps_cases with ⟨-, -, hc⟩ | ⟨-, hc⟩ | ⟨-, -, hc⟩ | rfl
    · rw [hc]
      exact ih
    · rw [hc]
      exact ih.nested (by decide)
    · rw [hc]
      exact ih.single .bonds
    · exact ih.nested (by decide)

theorem nests_programSteps (h : Nests (programSteps calls) held wanted) :
    held = .bonds ∧ wanted = .stats ∧ (∃ c ∈ calls, c.Counts) ∨
    held = .stats ∧ wanted = .bonds ∧ Call.stats ∈ calls := by
  induction calls with
  | nil => exact absurd h not_nests_nil
  | cons c calls ih =>
    have hbalanced := balanced_programSteps calls
    have hlater (h : Nests (programSteps calls) held wanted) :
        held = .bonds ∧ wanted = .stats ∧ (∃ d ∈ c :: calls, d.Counts) ∨
        held = .stats ∧ wanted = .bonds ∧ Call.stats ∈ c :: calls := by
      rcases ih h with ⟨rfl, rfl, d, hd, hcounts⟩ | ⟨rfl, rfl, hstats⟩
      · exact .inl ⟨rfl, rfl, d, List.mem_cons_of_mem c hd, hcounts⟩
      · exact .inr ⟨rfl, rfl, List.mem_cons_of_mem c hstats⟩
    rw [programSteps, List.flatMap_cons] at h
    rcases c.lockSteps_cases with ⟨-, -, hc⟩ | ⟨hcounts, hc⟩ | ⟨-, -, hc⟩ | rfl
    · rw [hc] at h
      exact hlater h
    · rw [hc] at h
      rcases hbalanced.nests_nested (by decide) h with ⟨rfl, rfl⟩ | h
      · exact .inl ⟨rfl, rfl, c, List.mem_cons_self, hcounts⟩
      · exact hlater h
    · rw [hc] at h
      exact hlater (hbalanced.nests_single h)
    · rcases hbalanced.nests_nested (by decide) h with ⟨rfl, rfl⟩ | h
      · exact .inr ⟨rfl, rfl, List.mem_cons_self⟩
      · exact hlater h

def lockPrograms (program : T → List Call) : T → Steps := fun t ↦ programSteps (program t)

variable {program : T → List Call} {s : State EngineMutex T} {t u : T}

/-- In a deadlock one thread is in `stats` and another one in a call that counts. -/
theorem deadlocked_calls (hs : Reachable (lockPrograms program) s)
    (hdead : s.Deadlocked) :
    ∃ t u, t ≠ u ∧ Call.stats ∈ program t ∧ ∃ c ∈ program u, c.Counts := by
  have hc := consistent_reachable (fun t ↦ balanced_programSteps (program t)) hs
  obtain ⟨W, ⟨t, ht⟩, hwaits⟩ := hdead
  obtain ⟨u, hu, m, r, -, hm, -⟩ := hwaits t ht
  obtain ⟨v, hv, k, r', hlu, hk, huv⟩ := hwaits u hu
  obtain ⟨w, hw, n, r'', hlv, hn, hvw⟩ := hwaits v hv
  have hnestu := nests_programSteps (hc.nests hm hlu)
  have hnestv := nests_programSteps (hc.nests hk hlv)
  rcases hnestu with ⟨rfl, rfl, hcounts⟩ | ⟨rfl, rfl, hstats⟩
  · rcases hnestv with ⟨hbonds, -⟩ | ⟨-, -, hstats⟩
    · cases hbonds
    · exact ⟨v, u, huv.symm, hstats, hcounts⟩
  · rcases hnestv with ⟨-, -, hcounts⟩ | ⟨hbonds, -⟩
    · exact ⟨u, v, huv, hstats, hcounts⟩
    · cases hbonds

theorem run_calls (hl : s.left t = programSteps calls ++ l) (hfree : ∀ m, s.owner m = none) :
    ∃ s', ReflTransGen Step s s' ∧ s'.left t = l ∧ (∀ u, u ≠ t → s'.left u = s.left u) ∧
      ∀ m, s'.owner m = none := by
  have hbalanced := balanced_programSteps calls
  have hrun := run_alone hl hbalanced.paired (by
    intro m
    rw [hfree, if_neg (hbalanced.outside m)])
  exact ⟨_, hrun, update_self _ _ _, fun u hu ↦ update_of_ne hu _ _, fun _ ↦ rfl⟩

/-- Each of two threads takes its first mutex and then needs that of the other. -/
theorem reaches_deadlock (hne : t ≠ u) (hstats : Call.stats ∈ program t)
    (hcounts : ∃ c ∈ program u, c.Counts) :
    ∃ s, Reachable (lockPrograms program) s ∧ s.Deadlocked := by
  obtain ⟨before, after, ht⟩ := List.append_of_mem hstats
  obtain ⟨c, hc, hcounts⟩ := hcounts
  obtain ⟨before', after', hu⟩ := List.append_of_mem hc
  have hcsteps : c.lockSteps = nested .bonds .stats := by
    rcases c.lockSteps_cases with ⟨hnot, -⟩ | ⟨-, hsteps⟩ | ⟨hnot, -⟩ | rfl
    · exact absurd hcounts hnot
    · exact hsteps
    · exact absurd hcounts hnot
    · exact hcounts.elim
  have htsteps : lockPrograms program t =
      programSteps before ++ (nested .stats .bonds ++ programSteps after) := by
    rw [lockPrograms, ht, programSteps, List.flatMap_append, List.flatMap_cons]
    rfl
  have husteps : lockPrograms program u =
      programSteps before' ++ (nested .bonds .stats ++ programSteps after') := by
    rw [lockPrograms, hu, programSteps, List.flatMap_append, List.flatMap_cons, hcsteps]
    rfl
  obtain ⟨s₁, hrun₁, hleft₁, hothers₁, hfree₁⟩ :=
    run_calls (s := initial (lockPrograms program)) htsteps (fun _ ↦ rfl)
  have hu₁ : s₁.left u = programSteps before' ++ (nested .bonds .stats ++ programSteps after') := by
    rw [hothers₁ u hne.symm]
    exact husteps
  obtain ⟨s₂, hrun₂, hleft₂, hothers₂, hfree₂⟩ := run_calls hu₁ hfree₁
  have ht₂ : s₂.left t = nested .stats .bonds ++ programSteps after := by
    rw [hothers₂ t hne, hleft₁]
  obtain ⟨s₃, hrun₃, hleft₃, howner₃⟩ : ∃ s₃, Step s₂ s₃ ∧
      s₃.left = update s₂.left t (.lock .bonds :: .unlock .bonds :: .unlock .stats ::
        programSteps after) ∧ s₃.owner = update s₂.owner .stats (some t) :=
    ⟨_, .lock ht₂ (hfree₂ .stats), rfl, rfl⟩
  have hu₃ : s₃.left u = nested .bonds .stats ++ programSteps after' := by
    rw [hleft₃, update_of_ne hne.symm, hleft₂]
  have hbonds₃ : s₃.owner .bonds = none := by
    rw [howner₃, update_of_ne (by decide), hfree₂]
  obtain ⟨s₄, hrun₄, hleft₄, howner₄⟩ : ∃ s₄, Step s₃ s₄ ∧
      s₄.left = update s₃.left u (.lock .stats :: .unlock .stats :: .unlock .bonds ::
        programSteps after') ∧ s₄.owner = update s₃.owner .bonds (some u) :=
    ⟨_, .lock hu₃ hbonds₃, rfl, rfl⟩
  refine ⟨s₄, ((hrun₁.trans hrun₂).tail hrun₃).tail hrun₄, {t, u}, ⟨t, by simp⟩, ?_⟩
  have htwaits : s₄.WaitsFor t u := by
    refine ⟨.bonds, .unlock .bonds :: .unlock .stats :: programSteps after, ?_, ?_, hne⟩
    · rw [hleft₄, update_of_ne hne, hleft₃, update_self]
    · rw [howner₄, update_self]
  have huwaits : s₄.WaitsFor u t := by
    refine ⟨.stats, .unlock .stats :: .unlock .bonds :: programSteps after', ?_, ?_, hne.symm⟩
    · rw [hleft₄, update_self]
    · rw [howner₄, update_of_ne (by decide), howner₃, update_self]
  intro v hv
  rcases hv with rfl | rfl
  · exact ⟨u, by simp, htwaits⟩
  · exact ⟨t, by simp, huwaits⟩

/-- The engine cannot deadlock exactly when no thread takes a snapshot of the statistics while
another one makes a call that counts. -/
theorem deadlock_free_iff (program : T → List Call) :
    (∀ s, Reachable (lockPrograms program) s → ¬s.Deadlocked) ↔
      ¬∃ t u, t ≠ u ∧ Call.stats ∈ program t ∧ ∃ c ∈ program u, c.Counts := by
  constructor
  · rintro hfree ⟨t, u, hne, hstats, hcounts⟩
    obtain ⟨s, hs, hdead⟩ := reaches_deadlock hne hstats hcounts
    exact hfree s hs hdead
  · intro hnone s hs hdead
    exact hnone (deadlocked_calls hs hdead)

def snapshotAndDecay : Bool → List Call
  | true => [.stats]
  | false => [.decayAll]

theorem snapshot_deadlocks : ∃ s, Reachable (lockPrograms snapshotAndDecay) s ∧ s.Deadlocked :=
  reaches_deadlock (t := true) (u := false) (by decide) List.mem_cons_self
    ⟨.decayAll, List.mem_cons_self, trivial⟩

end Cerberus.Glow
