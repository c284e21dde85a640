import Cerberus.Scheduler.Deis

namespace Cerberus.Scheduler

open Foundation.Bytes

noncomputable def drift (level : ℕ → ℝ) (m : ℕ) : ℝ :=
  ∑ i ∈ Finset.range m, (√(level (i + 1)) * √(1 - level i) - √(level i) * √(1 - level (i + 1)))

noncomputable def denoised (level : ℕ → ℝ) (m : ℕ) (x eps : ℝ) : ℝ :=
  (√(level 0) * x + drift level m * eps) / √(level m)

theorem denoised_zero {level : ℕ → ℝ} (h : 0 < level 0) (x eps : ℝ) :
    denoised level 0 x eps = x := by
  have hroot : √(level 0) ≠ 0 := (Real.sqrt_pos.mpr h).ne'
  rw [denoised, drift, Finset.sum_range_zero]
  field_simp
  ring

theorem denoised_succ {level : ℕ → ℝ} {m : ℕ} (h : 0 < level m) (h' : 0 < level (m + 1))
    (x eps : ℝ) : √(level m) / √(level (m + 1)) * denoised level m x eps +
      (√(1 - level m) - √(level m) / √(level (m + 1)) * √(1 - level (m + 1))) * eps =
      denoised level (m + 1) x eps := by
  have hroot : √(level m) ≠ 0 := (Real.sqrt_pos.mpr h).ne'
  have hroot' : √(level (m + 1)) ≠ 0 := (Real.sqrt_pos.mpr h').ne'
  rw [denoised, denoised, drift, drift, Finset.sum_range_succ]
  field_simp
  ring

theorem denoised_first {level : ℕ → ℝ} (h : 0 < level 0) (x eps : ℝ) :
    √1 / √(level 0) * (√(level 0) * x + √(1 - level 0) * eps) +
      (√(1 - 1) - √1 / √(level 0) * √(1 - level 0)) * eps = denoised level 0 x eps := by
  have hroot : √(level 0) ≠ 0 := (Real.sqrt_pos.mpr h).ne'
  rw [denoised_zero h, Real.sqrt_one, sub_self, Real.sqrt_zero]
  field_simp
  ring

/-- The sample comes back when what is missing of it is what was added of the noise. -/
theorem denoised_eq_iff {level : ℕ → ℝ} {m : ℕ} (h : 0 < level m) (x eps : ℝ) :
    denoised level m x eps = x ↔ (√(level m) - √(level 0)) * x = drift level m * eps := by
  rw [denoised, div_eq_iff (Real.sqrt_pos.mpr h).ne']
  constructor
  · intro h
    linarith
  · intro h
    linarith

namespace DEISScheduler

section

variable {coeffX0 coeffEps : ℝ}

theorem applyStepBlocks_eq (blocks : ℕ) (latents modelOutput : List ℝ)
    (h : 16 * blocks ≤ latents.length) (h' : 16 * blocks ≤ modelOutput.length) :
    applyStepBlocks coeffX0 coeffEps blocks latents modelOutput =
      applyStepScalar coeffX0 coeffEps latents modelOutput := by
  induction blocks generalizing latents modelOutput with
  | zero => rfl
  | succ blocks ih =>
    have hlength : (latents.take 16).length = (modelOutput.take 16).length := by
      rw [List.length_take_of_le (by omega), List.length_take_of_le (by omega)]
    have hlane : List.zipWith (fun eps result ↦ coeffEps * eps + result) (modelOutput.take 16)
        ((latents.take 16).map (coeffX0 * ·)) =
        List.zipWith (fun x eps ↦ coeffX0 * x + coeffEps * eps) (latents.take 16)
          (modelOutput.take 16) := by
      rw [List.zipWith_map_right, List.zipWith_comm]
      simp only [add_comm]
    rw [applyStepBlocks, ih _ _ (by rw [List.length_drop]; omega) (by rw [List.length_drop]; omega),
      hlane, applyStepScalar, applyStepScalar, ← List.append_assoc, ← List.zipWith_append hlength,
      List.take_append_drop, List.take_append_drop, List.drop_drop, List.length_drop]
    congr 2
    omega

theorem applyStepAvx512_eq (latents modelOutput : List ℝ) :
    applyStepAvx512 coeffX0 coeffEps latents modelOutput =
      applyStepScalar coeffX0 coeffEps latents modelOutput :=
  applyStepBlocks_eq _ _ _ (by omega) (by omega)

theorem applyStepScalar_zipWith {f : ℝ → ℝ → ℝ} {x eps : List ℝ} (h : x.length = eps.length) :
    applyStepScalar coeffX0 coeffEps (List.zipWith f x eps) eps =
      List.zipWith (fun x eps ↦ coeffX0 * f x eps + coeffEps * eps) x eps := by
  rw [applyStepScalar, List.drop_eq_nil_of_le (by simp [h]), List.append_nil]
  induction x generalizing eps with
  | nil => simp
  | cons x xs ih =>
    cases eps with
    | nil => simp at h
    | cons e es =>
      rw [List.zipWith_cons_cons, List.zipWith_cons_cons, List.zipWith_cons_cons,
        ih (Nat.succ.inj h)]

end

end DEISScheduler

namespace SchedulerConfig

variable {cfg : SchedulerConfig}

noncomputable def cumprod (cfg : SchedulerConfig) (i : ℕ) : ℝ :=
  ((List.range (i + 1)).map cfg.alpha).prod

/-- The values of the schedule are between 0 and 0.999, and no product of the alphas is so small
that it is clamped. -/
structure Admissible (cfg : SchedulerConfig) : Prop where
  roots : cfg.betaSchedule = lit "scaled_linear" → 0 ≤ cfg.betaStart ∧ 0 ≤ cfg.betaEnd
  beta : ∀ i < cfg.nTrain, 0 < cfg.beta i ∧ cfg.beta i ≤ 999 / 1000
  alphas : ∀ i < cfg.nTrain, 1 / 1000000 ≤ cfg.cumprod i

theorem Admissible.alpha (h : cfg.Admissible) {i : ℕ} (hi : i < cfg.nTrain) :
    0 < cfg.alpha i ∧ cfg.alpha i < 1 := by
  obtain ⟨hpos, hle⟩ := h.beta i hi
  rw [SchedulerConfig.alpha, Nat.cast_ofNat, Nat.cast_ofNat, clamp, if_neg hpos.not_gt,
    if_neg hle.not_gt]
  exact ⟨by linarith, by linarith⟩

theorem Admissible.cumprod_pos (h : cfg.Admissible) {i : ℕ} (hi : i < cfg.nTrain) :
    0 < cfg.cumprod i :=
  lt_of_lt_of_le (by norm_num) (h.alphas i hi)

theorem Admissible.cumprod_lt (h : cfg.Admissible) {i j : ℕ} (hij : i < j) (hj : j < cfg.nTrain) :
    cfg.cumprod j < cfg.cumprod i := by
  induction j with
  | zero => omega
  | succ j ih =>
    have hpos := h.cumprod_pos (i := j) (by omega)
    have hlt : cfg.cumprod (j + 1) < cfg.cumprod j := by
      rw [cumprod, List.prod_range_succ]
      exact mul_lt_of_lt_one_right hpos (h.alpha hj).2
    rcases Nat.lt_succ_iff_lt_or_eq.mp hij with hlt' | rfl
    · exact hlt.trans (ih hlt' (by omega))
    · exact hlt

theorem getD_scanl_alpha (cfg : SchedulerConfig) {i : ℕ} (hi : i < cfg.nTrain) :
    (((List.range cfg.nTrain).map cfg.alpha).scanl (fun product alpha ↦ product * alpha) 1).tail.getD
      i 0 = cfg.cumprod i := by
  rw [List.getD_eq_getElem?_getD, List.getElem?_tail, List.getElem?_scanl, if_pos (by simpa using hi),
    Option.getD_some, ← List.map_take, List.take_range, min_eq_left (by omega), ← List.prod_eq_foldl]
  rfl

end SchedulerConfig

namespace DEISScheduler

open SchedulerConfig

variable {cfg : SchedulerConfig} {n : UInt32} {i : ℕ}

noncomputable def trainIndex (cfg : SchedulerConfig) (n : UInt32) (i : ℕ) : ℕ :=
  DEISScheduler.timestepIndex { cfg, numInferenceSteps := n } i

theorem trainIndex_lt (h : 0 < cfg.nTrain) (n : UInt32) (i : ℕ) :
    trainIndex cfg n i < cfg.nTrain := by
  unfold trainIndex timestepIndex
  dsimp only
  omega

theorem trainIndex_zero (cfg : SchedulerConfig) (n : UInt32) :
    trainIndex cfg n 0 = cfg.nTrain - 1 := by
  simp [trainIndex, timestepIndex]

theorem trainIndex_lt_zero (hn : n.toNat ≤ cfg.nTrain) (hi : 0 < i) (hi' : i < n.toNat) :
    trainIndex cfg n i < cfg.nTrain - 1 := by
  have hsize : (1 : ℝ) ≤ cfg.nTrain / n.toNat := by
    rw [one_le_div (by exact_mod_cast hi.trans hi')]
    exact_mod_cast hn
  have hone : (1 : ℝ) ≤ i := by exact_mod_cast hi
  have hraw : ⌊((cfg.nTrain - 1 : ℕ) : ℝ) - cfg.nTrain / n.toNat * i⌋ < ((cfg.nTrain - 1 : ℕ) : ℤ) := by
    rw [Int.floor_lt]
    have hstep : (1 : ℝ) ≤ cfg.nTrain / n.toNat * i := one_le_mul_of_one_le_of_one_le hsize hone
    push_cast
    linarith
  unfold trainIndex timestepIndex
  dsimp only
  omega

theorem construct_timesteps (hi : i < n.toNat) :
    (construct cfg n).timesteps.getD i 0 = trainIndex cfg n i := by
  have hlist : (construct cfg n).timesteps = (List.range n.toNat).map (trainIndex cfg n) := rfl
  rw [hlist, List.getD_eq_getElem?_getD]
  simp [hi]

theorem construct_alphaAt (hi : i < cfg.nTrain) : (construct cfg n).alphaAt i = cfg.cumprod i :=
  getD_scanl_alpha cfg hi

theorem construct_coeffX0 (hi : i < n.toNat) :
    (construct cfg n).stepCoeffX0.getD i 0 = (construct cfg n).coeffX0 i := by
  have hlist : (construct cfg n).stepCoeffX0 =
    (List.range n.toNat).map (construct cfg n).coeffX0 := rfl
  rw [hlist, List.getD_eq_getElem?_getD]
  simp [hi]

theorem construct_coeffEps (hi : i < n.toNat) :
    (construct cfg n).stepCoeffEps.getD i 0 = (construct cfg n).coeffEps i := by
  have hlist : (construct cfg n).stepCoeffEps =
    (List.range n.toNat).map (construct cfg n).coeffEps := rfl
  rw [hlist, List.getD_eq_getElem?_getD]
  simp [hi]

noncomputable def level (cfg : SchedulerConfig) (n : UInt32) (i : ℕ) : ℝ :=
  cfg.cumprod (trainIndex cfg n i)

theorem alphaT_eq (h : cfg.Admissible) (hn : 0 < cfg.nTrain) (hi : i < n.toNat) :
    (construct cfg n).alphaT i = level cfg n i := by
  have hlt := trainIndex_lt hn n i
  have hmin : min (trainIndex cfg n i) ((construct cfg n).cfg.nTrain - 1) = trainIndex cfg n i :=
    min_eq_left (Nat.le_sub_one_of_lt hlt)
  rw [alphaT, construct_timesteps hi, hmin, construct_alphaAt hlt, clampAlpha,
    if_neg (h.alphas _ hlt).not_gt]
  rfl

/-- The step before is at the noisier level, where the code takes the one to go to. -/
theorem alphaPrev_succ (h : cfg.Admissible) (hn : 0 < cfg.nTrain) (hi : i + 1 < n.toNat) :
    (construct cfg n).alphaPrev (i + 1) = level cfg n i := by
  have hlt := trainIndex_lt hn n i
  rw [alphaPrev, if_pos (Nat.succ_pos i), Nat.add_sub_cancel, construct_timesteps (by omega),
    construct_alphaAt hlt, clampAlpha, if_neg (h.alphas _ hlt).not_gt]
  rfl

theorem alphaPrev_zero (s : DEISScheduler) : s.alphaPrev 0 = 1 := by
  rw [alphaPrev, if_neg (lt_irrefl 0), clampAlpha, if_neg (by norm_num)]

theorem step_zipWith (hasAvx512f : Bool) (hi : i < n.toNat) {f : ℝ → ℝ → ℝ} {x eps : List ℝ}
    (hlength : x.length = eps.length) :
    (construct cfg n).step hasAvx512f (List.zipWith f x eps) eps i =
      .ok (List.zipWith (fun x eps ↦ (construct cfg n).coeffX0 i * f x eps +
        (construct cfg n).coeffEps i * eps) x eps) := by
  have hready : (construct cfg n).precomputed = true := rfl
  have hcount : (construct cfg n).numInferenceSteps = n := rfl
  unfold DEISScheduler.step
  rw [hready, hcount, construct_coeffX0 hi, construct_coeffEps hi]
  simp only [Bool.not_true, Bool.false_eq_true, ↓reduceIte, not_le.mpr hi, applyStepAvx512_eq,
    applyStepScalar_zipWith hlength, ite_self]

noncomputable def noised (s : DEISScheduler) (x eps : List ℝ) : List ℝ :=
  let a := s.alphaAt ((s.timestep 0).getD 0)
  List.zipWith (fun x eps ↦ √a * x + √(1 - a) * eps) x eps

def denoise (s : DEISScheduler) (hasAvx512f : Bool) (eps latents : List ℝ) :
    Except SchedulerError (List ℝ) :=
  (List.range s.numInferenceSteps.toNat).foldlM (fun latents i ↦ s.step hasAvx512f latents eps i) latents

theorem noised_eq (hn : 0 < n.toNat) (h : n.toNat ≤ cfg.nTrain) (x eps : List ℝ) :
    (construct cfg n).noised x eps = List.zipWith (fun x eps ↦ √(level cfg n 0) * x +
      √(1 - level cfg n 0) * eps) x eps := by
  have hready : (construct cfg n).precomputed = true := rfl
  have hcount : (construct cfg n).numInferenceSteps = n := rfl
  have hlist : (construct cfg n).timesteps = (List.range n.toNat).map (trainIndex cfg n) := rfl
  have hstep : (construct cfg n).timestep 0 = some (trainIndex cfg n 0) := by
    simp [timestep, hready, hcount, hlist, hn, hn.ne']
  rw [noised, hstep, Option.getD_some, construct_alphaAt (trainIndex_lt (by omega) n 0)]
  rfl

theorem steps_denoised (h : cfg.Admissible) (hn : n.toNat ≤ cfg.nTrain) (hasAvx512f : Bool)
    {x eps : List ℝ} (hlength : x.length = eps.length) {m : ℕ} (hm : m < n.toNat) :
    (List.range (m + 1)).foldlM
        (fun latents i ↦ (construct cfg n).step hasAvx512f latents eps i)
        ((construct cfg n).noised x eps) =
      .ok (List.zipWith (denoised (level cfg n) m) x eps) := by
  have htrain : 0 < cfg.nTrain := by omega
  have hpos (i : ℕ) : 0 < level cfg n i := h.cumprod_pos (trainIndex_lt htrain n i)
  induction m with
  | zero =>
    have hfirst : (fun x eps ↦ (construct cfg n).coeffX0 0 *
        (√(level cfg n 0) * x + √(1 - level cfg n 0) * eps) +
        (construct cfg n).coeffEps 0 * eps) = denoised (level cfg n) 0 := by
      funext x eps
      rw [coeffEps, coeffX0, alphaPrev_zero, alphaT_eq h htrain hm]
      exact denoised_first (hpos 0) x eps
    rw [noised_eq hm hn, ← hfirst, ← step_zipWith hasAvx512f hm hlength]
    simp
  | succ m ih =>
    have hstep : (fun x eps ↦ (construct cfg n).coeffX0 (m + 1) *
        denoised (level cfg n) m x eps + (construct cfg n).coeffEps (m + 1) * eps) =
        denoised (level cfg n) (m + 1) := by
      funext x eps
      rw [coeffEps, coeffX0, alphaPrev_succ h htrain hm, alphaT_eq h htrain hm]
      exact denoised_succ (hpos m) (hpos (m + 1)) x eps
    rw [List.range_succ, List.foldlM_append, ih (by omega)]
    simp only [bind, Except.bind, List.foldlM_cons, List.foldlM_nil,
      step_zipWith hasAvx512f hm hlength, hstep]
    rfl

end DEISScheduler

open DEISScheduler

theorem zipWith_eq_left_iff {f : ℝ → ℝ → ℝ} {x eps : List ℝ} (h : x.length = eps.length) :
    List.zipWith f x eps = x ↔ ∀ p ∈ x.zip eps, f p.1 p.2 = p.1 := by
  induction x generalizing eps with
  | nil => simp
  | cons x xs ih =>
    cases eps with
    | nil => simp at h
    | cons e es =>
      rw [List.zipWith_cons_cons, List.cons.injEq, ih (Nat.succ.inj h)]
      simp

/-- The steps give a sample back exactly when what they lose of it is what they add of the noise,
and every sample only if there is one step. -/
theorem denoising_inverts_iff {cfg : SchedulerConfig} (h : cfg.Admissible) {n : UInt32}
    (hn : 1 ≤ n.toNat) (hn' : n.toNat ≤ cfg.nTrain) (hasAvx512f : Bool) :
    (∀ x eps : List ℝ, x.length = eps.length →
      ((construct cfg n).denoise hasAvx512f eps ((construct cfg n).noised x eps) = .ok x ↔
        ∀ p ∈ x.zip eps, (√(level cfg n (n.toNat - 1)) - √(level cfg n 0)) * p.1 =
          drift (level cfg n) (n.toNat - 1) * p.2)) ∧
    ((∀ x eps : List ℝ, x.length = eps.length →
      (construct cfg n).denoise hasAvx512f eps ((construct cfg n).noised x eps) = .ok x) ↔
      n = 1) := by
  have htrain : 0 < cfg.nTrain := by omega
  have hpos (i : ℕ) : 0 < level cfg n i := h.cumprod_pos (trainIndex_lt htrain n i)
  have hinput (x eps : List ℝ) (hlength : x.length = eps.length) :
      (construct cfg n).denoise hasAvx512f eps ((construct cfg n).noised x eps) = .ok x ↔
        ∀ p ∈ x.zip eps, (√(level cfg n (n.toNat - 1)) - √(level cfg n 0)) * p.1 =
          drift (level cfg n) (n.toNat - 1) * p.2 := by
    have hsteps := steps_denoised h hn' hasAvx512f hlength (m := n.toNat - 1) (by omega)
    rw [Nat.sub_add_cancel hn] at hsteps
    have hcount : (construct cfg n).numInferenceSteps = n := rfl
    rw [denoise, hcount, hsteps, Except.ok.injEq, zipWith_eq_left_iff hlength]
    simp only [denoised_eq_iff (hpos _)]
  refine ⟨hinput, ?_⟩
  constructor
  · intro hall
    by_contra hne
    have hmore : 0 < n.toNat - 1 := by
      have hone : n.toNat ≠ 1 := fun hone ↦ hne (UInt32.toNat_inj.mp hone)
      omega
    have hroots := (hinput [1] [0] rfl).mp (hall [1] [0] rfl) (1, 0) (by simp)
    rw [mul_one, mul_zero, sub_eq_zero, Real.sqrt_inj (hpos _).le (hpos _).le] at hroots
    have hlast := trainIndex_lt_zero hn' hmore (by omega)
    rw [← trainIndex_zero cfg n] at hlast
    exact absurd hroots (h.cumprod_lt hlast (trainIndex_lt htrain n 0)).ne'
  · rintro rfl x eps hlength
    rw [hinput x eps hlength]
    simp [drift]

section

noncomputable def halves : SchedulerConfig :=
  { numTrainTimesteps := 2, betaStart := 1 / (2 : ℕ), betaEnd := 1 / (2 : ℕ) }

theorem halves_admissible : halves.Admissible := by
  have hlinear : ¬ lit "linear" = lit "scaled_linear" := fun h ↦ absurd (lit_injective h) (by decide)
  have hbeta (i : ℕ) : halves.beta i = 1 / 2 := by
    simp [SchedulerConfig.beta, halves, hlinear]
  have halpha (i : ℕ) : halves.alpha i = 1 / 2 := by
    rw [SchedulerConfig.alpha, hbeta, clamp, if_neg (by norm_num), if_neg (by norm_num)]
    norm_num
  refine ⟨fun h ↦ absurd h hlinear, fun i _ ↦ ?_, fun i hi ↦ ?_⟩
  · rw [hbeta]
    norm_num
  · have hi : i < 2 := hi
    interval_cases i <;> norm_num [SchedulerConfig.cumprod, List.range_succ, halpha]

theorem denoising_inverts_iff_single :
    (construct halves 1).denoise false [3, 4] ((construct halves 1).noised [1, 2] [3, 4]) =
      .ok [1, 2] :=
  (denoising_inverts_iff halves_admissible (n := 1) (by decide) (by decide) false).2.mpr rfl
    [1, 2] [3, 4] rfl

/-- Two steps do not give the sample 1 back, even without noise. -/
theorem two_steps_lose_sample : halves.Admissible ∧ (2 : UInt32).toNat ≤ halves.nTrain ∧
    (construct halves 2).denoise false [0] ((construct halves 2).noised [1] [0]) ≠ .ok [1] := by
  refine ⟨halves_admissible, by decide, fun h ↦ ?_⟩
  have htrain : halves.nTrain = 2 := rfl
  have hpos (i : ℕ) : 0 < level halves 2 i :=
    halves_admissible.cumprod_pos (trainIndex_lt (by decide) 2 i)
  have hlt : level halves 2 0 < level halves 2 1 := by
    have hindex : trainIndex halves 2 1 < trainIndex halves 2 0 := by
      rw [trainIndex_zero]
      exact trainIndex_lt_zero (by decide) (by decide) (by decide)
    exact halves_admissible.cumprod_lt hindex (trainIndex_lt (by decide) 2 0)
  have hsteps : (construct halves 2).denoise false [0] ((construct halves 2).noised [1] [0]) =
      .ok (List.zipWith (denoised (level halves 2) 1) [1] [0]) :=
    @steps_denoised halves 2 halves_admissible (by decide) false [1] [0] rfl 1 (by decide)
  have hlast : denoised (level halves 2) 1 1 0 = 1 := by
    simpa using Except.ok.inj (hsteps.symm.trans h)
  rw [denoised_eq_iff (hpos 1), mul_one, mul_zero, sub_eq_zero,
    Real.sqrt_inj (hpos 1).le (hpos 0).le] at hlast
  exact hlt.ne' hlast

end

end Cerberus.Scheduler
