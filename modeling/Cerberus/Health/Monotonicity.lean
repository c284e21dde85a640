import Cerberus.Health.Score

namespace Cerberus.Health

variable {K : Type} [Field K] [LinearOrder K]

inductive Metric
  | gpuTemperature
  | hailoTemperature
  | stepLatency
  | memoryBandwidth
  | latencyDrift
  | gpuUtilization
  | hailoUtilization
  | npuUtilization

def Metric.harmful : Metric → Bool
  | .gpuTemperature | .hailoTemperature | .stepLatency | .memoryBandwidth | .latencyDrift => true
  | .gpuUtilization | .hailoUtilization | .npuUtilization => false

structure HealthWeights.NonNeg (w : HealthWeights K) : Prop where
  gpuUtilization : 0 ≤ w.gpuUtilization
  hailoUtilization : 0 ≤ w.hailoUtilization
  npuUtilization : 0 ≤ w.npuUtilization
  latency : 0 ≤ w.latency
  memory : 0 ≤ w.memory
  recovery : 0 ≤ w.recovery
  thermal : 0 ≤ w.thermal
  stability : 0 ≤ w.stability

structure SubScores.Le (sub sub' : SubScores K) : Prop where
  gpuUtilization : sub.gpuUtilization ≤ sub'.gpuUtilization
  hailoUtilization : sub.hailoUtilization ≤ sub'.hailoUtilization
  npuUtilization : sub.npuUtilization ≤ sub'.npuUtilization
  latency : sub.latency ≤ sub'.latency
  memory : sub.memory ≤ sub'.memory
  recovery : sub.recovery ≤ sub'.recovery
  thermal : sub.thermal ≤ sub'.thermal
  stability : sub.stability ≤ sub'.stability

omit [LinearOrder K] in
def SubScores.all (x : K) : SubScores K := ⟨x, x, x, x, x, x, x, x⟩

namespace PipelineHealthScore

variable (s : PipelineHealthScore K)

def get : Metric → K
  | .gpuTemperature => s.gpuTemp
  | .hailoTemperature => s.hailoTemp
  | .stepLatency => s.tbtMs
  | .memoryBandwidth => s.memoryBw
  | .latencyDrift => s.latencyDrift
  | .gpuUtilization => s.gpuUtil
  | .hailoUtilization => s.hailoUtil
  | .npuUtilization => s.npuUtil

def set (v : K) : Metric → PipelineHealthScore K
  | .gpuTemperature => s.updateGpu s.gpuUtil v
  | .hailoTemperature => s.updateHailo s.hailoUtil v
  | .stepLatency => s.updateLatency v
  | .memoryBandwidth => s.updateMemory v
  | .latencyDrift => s.updateStability v
  | .gpuUtilization => s.updateGpu v s.gpuTemp
  | .hailoUtilization => s.updateHailo v s.hailoTemp
  | .npuUtilization => s.updateNpuUtilization v

/-- Raising a metric moves the score the right way, and no weight is negative before or after. -/
structure Respects (f : Formats K) (now now' : Nat) (m : Metric) (v : K) : Prop where
  weights : s.effectiveWeights.NonNeg
  weights' : (s.set v m).effectiveWeights.NonNeg
  falls : m.harmful = true →
    ((s.set v m).compute f now').overallScore ≤ (s.compute f now).overallScore
  rises : m.harmful = false →
    (s.compute f now).overallScore ≤ ((s.set v m).compute f now').overallScore

def thermalScore : K := normalizeInverse (max s.gpuTemp s.hailoTemp) targetJunctionTempC

def stabilityScore : K := normalizeInverse s.latencyDrift maxLatencyDriftPct

/-- The boost of the thermal weight is covered by that of the stability, and its coming or going
does not outweigh the change of the temperature. -/
structure Steady (s s' : PipelineHealthScore K) : Prop where
  covered : s.hailoIsHotter = true ∨ s'.hailoIsHotter = true →
    s.weights.thermal ≤ 2 * s.weights.stability
  relieved : s.hailoIsHotter = true → s'.hailoIsHotter = false → s.weights.thermal = 0 ∨
    2 * s'.thermalScore + s.stabilityScore ≤ 3 * s.thermalScore
  boosted : s.hailoIsHotter = false → s'.hailoIsHotter = true → s.weights.thermal = 0 ∨
    3 * s'.thermalScore ≤ 2 * s.thermalScore + s.stabilityScore

end PipelineHealthScore

section

variable [IsStrictOrderedRing K]

theorem clamp_eq (x : K) : clamp x 0 100 = max 0 (min x 100) := by
  unfold clamp
  split
  · next h => rw [min_eq_left (h.le.trans (by norm_num)), max_eq_left h.le]
  · next h =>
    rw [not_lt] at h
    split
    · next h' => rw [min_eq_right h'.le, max_eq_right (by norm_num)]
    · next h' => rw [min_eq_left (not_lt.mp h'), max_eq_right h]

theorem clamp_mono {x y : K} (h : x ≤ y) : clamp x 0 100 ≤ clamp y 0 100 := by
  rw [clamp_eq, clamp_eq]
  exact max_le_max_left 0 (min_le_min_right 100 h)

theorem clamp_nonneg (x : K) : 0 ≤ clamp x 0 100 := by
  rw [clamp_eq]
  exact le_max_left _ _

theorem clamp_le (x : K) : clamp x 0 100 ≤ 100 := by
  rw [clamp_eq]
  exact max_le (by norm_num) (min_le_right _ _)

theorem clamp_of_mem {x : K} (h : 0 ≤ x) (h' : x ≤ 100) : clamp x 0 100 = x := by
  rw [clamp_eq, min_eq_left h', max_eq_right h]

theorem normalizeLinear_mono {target x y : K} (h : x ≤ y) :
    normalizeLinear x target ≤ normalizeLinear y target := by
  unfold normalizeLinear
  split
  · exact le_rfl
  · next htarget =>
    rw [not_le] at htarget
    apply clamp_mono
    gcongr

theorem normalizeInverse_anti {most x y : K} (h : x ≤ y) :
    normalizeInverse y most ≤ normalizeInverse x most := by
  unfold normalizeInverse
  split
  · split
    · next hy => rw [if_pos (h.trans hy)]
    · split <;> norm_num
  · next hmost =>
    rw [not_le] at hmost
    apply clamp_mono
    gcongr

theorem normalizeLinear_mem (x target : K) :
    0 ≤ normalizeLinear x target ∧ normalizeLinear x target ≤ 100 := by
  unfold normalizeLinear
  split
  · norm_num
  · exact ⟨clamp_nonneg _, clamp_le _⟩

theorem normalizeInverse_mem (x most : K) :
    0 ≤ normalizeInverse x most ∧ normalizeInverse x most ≤ 100 := by
  unfold normalizeInverse
  split
  · split <;> norm_num
  · exact ⟨clamp_nonneg _, clamp_le _⟩

theorem mul_nonpos_iff_of_nonneg {x y : K} (h : 0 ≤ x) : x * y ≤ 0 ↔ x = 0 ∨ y ≤ 0 := by
  constructor
  · intro hxy
    rcases h.eq_or_lt with hzero | hpos
    · exact .inl hzero.symm
    · exact .inr (nonpos_of_mul_nonpos_right hxy hpos)
  · rintro (rfl | hy)
    · rw [zero_mul]
    · exact mul_nonpos_of_nonneg_of_nonpos h hy

theorem composite_mono {w : HealthWeights K} (hw : w.NonNeg) {sub sub' : SubScores K}
    (h : sub.Le sub') : w.composite sub ≤ w.composite sub' := by
  unfold HealthWeights.composite
  gcongr
  exacts [hw.gpuUtilization, h.gpuUtilization, hw.hailoUtilization, h.hailoUtilization,
    hw.npuUtilization, h.npuUtilization, hw.latency, h.latency, hw.memory, h.memory, hw.recovery,
    h.recovery, hw.thermal, h.thermal, hw.stability, h.stability]

omit [LinearOrder K] [IsStrictOrderedRing K] in
theorem composite_all (w : HealthWeights K) (x : K) : w.composite (.all x) = w.sum * x := by
  simp only [HealthWeights.composite, HealthWeights.sum, SubScores.all]
  ring

namespace PipelineHealthScore

variable {s s' : PipelineHealthScore K} {f : Formats K} {now now' : Nat} {m : Metric} {v : K}

omit [IsStrictOrderedRing K] in
theorem effectiveWeights_sum (s : PipelineHealthScore K) :
    s.effectiveWeights.sum = s.weights.sum := by
  simp only [effectiveWeights, HealthWeights.sum]
  ring

theorem subScores_nonneg (s : PipelineHealthScore K) : (SubScores.all 0).Le s.subScores :=
  ⟨(normalizeLinear_mem _ _).1, (normalizeLinear_mem _ _).1, (normalizeLinear_mem _ _).1,
    (normalizeInverse_mem _ _).1, (normalizeInverse_mem _ _).1, (normalizeLinear_mem _ _).1,
    (normalizeInverse_mem _ _).1, (normalizeInverse_mem _ _).1⟩

theorem subScores_le (s : PipelineHealthScore K) : s.subScores.Le (.all 100) :=
  ⟨(normalizeLinear_mem _ _).2, (normalizeLinear_mem _ _).2, (normalizeLinear_mem _ _).2,
    (normalizeInverse_mem _ _).2, (normalizeInverse_mem _ _).2, (normalizeLinear_mem _ _).2,
    (normalizeInverse_mem _ _).2, (normalizeInverse_mem _ _).2⟩

theorem compute_overallScore (hw : s.effectiveWeights.NonNeg) (hsum : s.weights.sum = 1)
    (f : Formats K) (now : Nat) : (s.compute f now).overallScore = s.overall := by
  have hlow := composite_mono hw s.subScores_nonneg
  have hhigh := composite_mono hw s.subScores_le
  rw [composite_all, effectiveWeights_sum, hsum, one_mul] at hlow hhigh
  exact clamp_of_mem hlow hhigh

theorem effectiveWeights_nonneg_iff (hw : s.weights.NonNeg) : s.effectiveWeights.NonNeg ↔
    (s.hailoIsHotter = true → s.weights.thermal ≤ 2 * s.weights.stability) := by
  have hthermal := hw.thermal
  constructor
  · intro h hhot
    have hstability := h.stability
    simp only [effectiveWeights, thermalBoost, hhot, ↓reduceIte] at hstability
    linarith
  · intro h
    have hboost : 0 ≤ s.thermalBoost ∧ s.thermalBoost ≤ s.weights.stability := by
      unfold thermalBoost
      split
      · next hhot =>
        have hcovered := h hhot
        exact ⟨by linarith, by linarith⟩
      · exact ⟨le_rfl, hw.stability⟩
    exact ⟨hw.gpuUtilization, hw.hailoUtilization, hw.npuUtilization, hw.latency, hw.memory,
      hw.recovery, add_nonneg hthermal hboost.1, sub_nonneg.mpr hboost.2⟩

omit [LinearOrder K] [IsStrictOrderedRing K] in
theorem weights_set (s : PipelineHealthScore K) (v : K) (m : Metric) :
    (s.set v m).weights = s.weights := by
  cases m <;> rfl

theorem subScores_set_harmful (hm : m.harmful = true) (hv : s.get m ≤ v) :
    (s.set v m).subScores.Le s.subScores := by
  have hthermal : s.gpuTemp ≤ (s.set v m).gpuTemp ∧ s.hailoTemp ≤ (s.set v m).hailoTemp := by
    cases m <;> first | exact ⟨hv, le_rfl⟩ | exact ⟨le_rfl, hv⟩ | exact ⟨le_rfl, le_rfl⟩
  have hlatency : s.tbtMs ≤ (s.set v m).tbtMs := by cases m <;> first | exact hv | exact le_rfl
  have hmemory : s.memoryBw ≤ (s.set v m).memoryBw := by
    cases m <;> first | exact hv | exact le_rfl
  have hdrift : s.latencyDrift ≤ (s.set v m).latencyDrift := by
    cases m <;> first | exact hv | exact le_rfl
  refine ⟨?_, ?_, ?_, normalizeInverse_anti hlatency, normalizeInverse_anti hmemory, ?_,
    normalizeInverse_anti (max_le_max hthermal.1 hthermal.2), normalizeInverse_anti hdrift⟩
  all_goals cases m <;> first | exact le_rfl | cases hm

theorem subScores_set_useful (hm : m.harmful = false) (hv : s.get m ≤ v) :
    s.subScores.Le (s.set v m).subScores := by
  have hgpu : s.gpuUtil ≤ (s.set v m).gpuUtil := by cases m <;> first | exact hv | exact le_rfl
  have hhailo : s.hailoUtil ≤ (s.set v m).hailoUtil := by
    cases m <;> first | exact hv | exact le_rfl
  have hnpu : s.npuUtil ≤ (s.set v m).npuUtil := by cases m <;> first | exact hv | exact le_rfl
  refine ⟨normalizeLinear_mono hgpu, normalizeLinear_mono hhailo, normalizeLinear_mono hnpu,
    ?_, ?_, ?_, ?_, ?_⟩
  all_goals cases m <;> first | exact le_rfl | cases hm

omit [IsStrictOrderedRing K] in
theorem metric_of_flip (h : s.hailoIsHotter ≠ (s.set v m).hailoIsHotter) :
    m = .gpuTemperature ∨ m = .hailoTemperature := by
  cases m <;> first | exact .inl rfl | exact .inr rfl | exact absurd rfl h

omit [IsStrictOrderedRing K] in
theorem effectiveWeights_set (h : s.hailoIsHotter = (s.set v m).hailoIsHotter) :
    (s.set v m).effectiveWeights = s.effectiveWeights := by
  unfold effectiveWeights thermalBoost
  rw [← h, weights_set]

omit [IsStrictOrderedRing K] in
theorem overall_set_temperature (hm : m = .gpuTemperature ∨ m = .hailoTemperature) :
    (s.set v m).overall - s.overall =
      (s.weights.thermal + (s.set v m).thermalBoost) * (s.set v m).thermalScore -
        (s.weights.thermal + s.thermalBoost) * s.thermalScore +
        (s.thermalBoost - (s.set v m).thermalBoost) * s.stabilityScore := by
  have hsub : (s.set v m).subScores =
      { s.subScores with thermal := (s.set v m).thermalScore } := by
    rcases hm with rfl | rfl
    · rfl
    · rfl
  have hthermal : s.subScores.thermal = s.thermalScore := rfl
  have hstability : s.subScores.stability = s.stabilityScore := rfl
  simp only [overall, hsub, effectiveWeights, weights_set, HealthWeights.composite, hthermal,
    hstability]
  ring

theorem overall_relieved (hw : 0 ≤ s.weights.thermal) (h : s.hailoIsHotter = true)
    (h' : (s.set v m).hailoIsHotter = false) : (s.set v m).overall ≤ s.overall ↔
      s.weights.thermal = 0 ∨
        2 * (s.set v m).thermalScore + s.stabilityScore ≤ 3 * s.thermalScore := by
  have hne : s.hailoIsHotter ≠ (s.set v m).hailoIsHotter := by
    rw [h, h']
    decide
  have hchange : (s.set v m).overall - s.overall = s.weights.thermal *
      ((2 * (s.set v m).thermalScore + s.stabilityScore - 3 * s.thermalScore) / 2) := by
    rw [overall_set_temperature (metric_of_flip hne)]
    simp only [thermalBoost, h, h', Bool.false_eq_true, ↓reduceIte]
    ring
  rw [← sub_nonpos, hchange, mul_nonpos_iff_of_nonneg hw]
  constructor
  · rintro (hzero | hle)
    · exact .inl hzero
    · exact .inr (by linarith)
  · rintro (hzero | hle)
    · exact .inl hzero
    · exact .inr (by linarith)

theorem overall_boosted (hw : 0 ≤ s.weights.thermal) (h : s.hailoIsHotter = false)
    (h' : (s.set v m).hailoIsHotter = true) : (s.set v m).overall ≤ s.overall ↔
      s.weights.thermal = 0 ∨
        3 * (s.set v m).thermalScore ≤ 2 * s.thermalScore + s.stabilityScore := by
  have hne : s.hailoIsHotter ≠ (s.set v m).hailoIsHotter := by
    rw [h, h']
    decide
  have hchange : (s.set v m).overall - s.overall = s.weights.thermal *
      ((3 * (s.set v m).thermalScore - 2 * s.thermalScore - s.stabilityScore) / 2) := by
    rw [overall_set_temperature (metric_of_flip hne)]
    simp only [thermalBoost, h, h', weights_set, Bool.false_eq_true, ↓reduceIte]
    ring
  rw [← sub_nonpos, hchange, mul_nonpos_iff_of_nonneg hw]
  constructor
  · rintro (hzero | hle)
    · exact .inl hzero
    · exact .inr (by linarith)
  · rintro (hzero | hle)
    · exact .inl hzero
    · exact .inr (by linarith)

theorem Steady.nonneg (h : Steady s (s.set v m)) (hw : s.weights.NonNeg) :
    s.effectiveWeights.NonNeg ∧ (s.set v m).effectiveWeights.NonNeg := by
  refine ⟨(effectiveWeights_nonneg_iff hw).mpr fun hhot ↦ h.covered (.inl hhot), ?_⟩
  have hw' : (s.set v m).weights.NonNeg := (weights_set s v m).symm ▸ hw
  rw [effectiveWeights_nonneg_iff hw', weights_set]
  exact fun hhot ↦ h.covered (.inr hhot)

theorem overall_of_unmoved (hw : s.effectiveWeights.NonNeg) (hv : s.get m ≤ v)
    (h : s.hailoIsHotter = (s.set v m).hailoIsHotter) :
    (m.harmful = true → (s.set v m).overall ≤ s.overall) ∧
      (m.harmful = false → s.overall ≤ (s.set v m).overall) := by
  unfold overall
  rw [effectiveWeights_set h]
  exact ⟨fun hm ↦ composite_mono hw (subScores_set_harmful hm hv),
    fun hm ↦ composite_mono hw (subScores_set_useful hm hv)⟩

theorem Steady.respects (h : Steady s (s.set v m)) (hw : s.weights.NonNeg)
    (hsum : s.weights.sum = 1) (hv : s.get m ≤ v) (f : Formats K) (now now' : Nat) :
    s.Respects f now now' m v := by
  obtain ⟨hweights, hweights'⟩ := h.nonneg hw
  have hscore := compute_overallScore hweights hsum f now
  have hscore' := compute_overallScore hweights' ((weights_set s v m).symm ▸ hsum) f now'
  have hboth : (m.harmful = true → (s.set v m).overall ≤ s.overall) ∧
      (m.harmful = false → s.overall ≤ (s.set v m).overall) := by
    by_cases hsame : s.hailoIsHotter = (s.set v m).hailoIsHotter
    · exact overall_of_unmoved hweights hv hsame
    · have hle : (s.set v m).overall ≤ s.overall := by
        cases hhot : s.hailoIsHotter with
        | true =>
          have hhot' : (s.set v m).hailoIsHotter = false := by simpa [hhot] using hsame
          exact (overall_relieved hw.thermal hhot hhot').mpr (h.relieved hhot hhot')
        | false =>
          have hhot' : (s.set v m).hailoIsHotter = true := by simpa [hhot] using hsame
          exact (overall_boosted hw.thermal hhot hhot').mpr (h.boosted hhot hhot')
      refine ⟨fun _ ↦ hle, fun hm ↦ ?_⟩
      rcases metric_of_flip hsame with rfl | rfl
      · cases hm
      · cases hm
  refine ⟨hweights, hweights', ?_, ?_⟩
  · rw [hscore, hscore']
    exact hboth.1
  · rw [hscore, hscore']
    exact hboth.2

theorem Respects.steady (h : s.Respects f now now' m v) (hw : s.weights.NonNeg)
    (hsum : s.weights.sum = 1) : Steady s (s.set v m) := by
  have hw' : (s.set v m).weights.NonNeg := (weights_set s v m).symm ▸ hw
  have hfalls := h.falls
  rw [compute_overallScore h.weights hsum f now, compute_overallScore h.weights'
    ((weights_set s v m).symm ▸ hsum) f now'] at hfalls
  have hle (hne : s.hailoIsHotter ≠ (s.set v m).hailoIsHotter) :
      (s.set v m).overall ≤ s.overall := by
    apply hfalls
    rcases metric_of_flip hne with rfl | rfl
    · rfl
    · rfl
  refine ⟨?_, fun hhot hhot' ↦ ?_, fun hhot hhot' ↦ ?_⟩
  · rintro (hhot | hhot)
    · exact (effectiveWeights_nonneg_iff hw).mp h.weights hhot
    · have hcovered := (effectiveWeights_nonneg_iff hw').mp h.weights' hhot
      rwa [weights_set] at hcovered
  · exact (overall_relieved hw.thermal hhot hhot').mp (hle (by rw [hhot, hhot']; decide))
  · exact (overall_boosted hw.thermal hhot hhot').mp (hle (by rw [hhot, hhot']; decide))

theorem construct_weights {w : HealthWeights K} (hsum : w.sum = 1) :
    (construct w).weights = w := by
  have hnear : ¬ (1 / 1000 : K) < |w.sum - 1| := by
    rw [hsum, sub_self, abs_zero]
    norm_num
  exact if_neg hnear

end PipelineHealthScore

end

open PipelineHealthScore

variable [IsStrictOrderedRing K]

/-- Raising a metric moves the overall score the right way, with weights that are not negative,
exactly when the boost of the thermal weight is covered and does not outweigh what raised it. -/
theorem health_monotone_iff {w : HealthWeights K} (hw : w.NonNeg) (hsum : w.sum = 1)
    {s : PipelineHealthScore K} (hs : s.weights = (construct w).weights) (f : Formats K)
    (now now' : Nat) {m : Metric} {v : K} (hv : s.get m ≤ v) :
    s.Respects f now now' m v ↔ Steady s (s.set v m) := by
  rw [construct_weights hsum] at hs
  subst hs
  exact ⟨fun h ↦ h.steady hw hsum, fun h ↦ h.respects hw hsum hv f now now'⟩

theorem always_monotone_iff {w : HealthWeights K} (hw : w.NonNeg) (hsum : w.sum = 1) (f : Formats K) :
    (∀ s : PipelineHealthScore K, s.weights = w → ∀ m v, s.get m ≤ v → s.Respects f 0 0 m v) ↔
      w.thermal = 0 := by
  constructor
  · intro h
    -- the Hailo warms up by one degree while the latency has drifted
    let s : PipelineHealthScore K := { weights := w, latencyDrift := 10 }
    have hsteady := (h s rfl .hailoTemperature 1 zero_le_one).steady hw hsum
    have hcool : s.hailoIsHotter = false := by simp [s, hailoIsHotter]
    have hhot : (s.set 1 .hailoTemperature).hailoIsHotter = true := by
      simp [s, hailoIsHotter, PipelineHealthScore.set, updateHailo]
    refine (hsteady.boosted hcool hhot).resolve_right ?_
    have hthermal : s.thermalScore = 100 := by
      simp [s, thermalScore, normalizeInverse, targetJunctionTempC, clamp]
    have hthermal' : (s.set 1 .hailoTemperature).thermalScore = (1 - 1 / 85) * 100 := by
      have hmax : max (0 : K) 1 = 1 := max_eq_right zero_le_one
      simp only [s, thermalScore, normalizeInverse, targetJunctionTempC, PipelineHealthScore.set,
        updateHailo, hmax]
      rw [if_neg (by norm_num)]
      exact clamp_of_mem (by norm_num) (by norm_num)
    have hstability : s.stabilityScore = 0 := by
      simp only [s, stabilityScore, normalizeInverse, maxLatencyDriftPct, Nat.cast_ofNat]
      rw [if_neg (by norm_num), div_self (by norm_num)]
      simpa using clamp_of_mem le_rfl (by norm_num : (0 : K) ≤ 100)
    rw [hthermal, hthermal', hstability]
    norm_num
  · rintro hzero s rfl m v hv
    refine Steady.respects ⟨fun _ ↦ ?_, fun _ _ ↦ .inl hzero, fun _ _ ↦ .inl hzero⟩ hw hsum hv f 0 0
    rw [hzero]
    exact mul_nonneg zero_le_two hw.stability

section

def unwritten : Formats ℚ := ⟨fun _ ↦ [], fun _ ↦ []⟩

theorem defaultWeights_nonneg : ({} : HealthWeights ℚ).NonNeg := by
  constructor <;> norm_num

theorem defaultWeights_sum : ({} : HealthWeights ℚ).sum = 1 := by
  simp only [HealthWeights.sum]
  norm_num

def hotHailo : PipelineHealthScore ℚ := { weights := {}, gpuTemp := 70, hailoTemp := 80 }

theorem health_monotone_iff_cooler : hotHailo.Respects unwritten 0 0 .gpuTemperature 75 := by
  refine (health_monotone_iff defaultWeights_nonneg defaultWeights_sum
    (construct_weights defaultWeights_sum).symm unwritten 0 0 ?_).mpr ⟨fun _ ↦ ?_, ?_, ?_⟩
  · decide +kernel
  · decide +kernel
  · intro _ h
    exact absurd h (by decide +kernel)
  · intro h
    exact absurd h (by decide +kernel)

/-- When the GPU becomes as hot as the Hailo, the score rises. -/
theorem warmer_gpu_scores_higher :
    hotHailo.weights.NonNeg ∧ hotHailo.weights.sum = 1 ∧
    hotHailo.get .gpuTemperature ≤ 80 ∧
    (hotHailo.compute unwritten 0).overallScore <
      ((hotHailo.set 80 .gpuTemperature).compute unwritten 0).overallScore ∧
    ¬ hotHailo.Respects unwritten 0 0 .gpuTemperature 80 := by
  have hscore : (hotHailo.compute unwritten 0).overallScore <
      ((hotHailo.set 80 .gpuTemperature).compute unwritten 0).overallScore := by
    decide +kernel
  refine ⟨defaultWeights_nonneg, defaultWeights_sum, by decide +kernel, hscore, fun h ↦ ?_⟩
  exact absurd (h.falls rfl) (not_le.mpr hscore)

end

end Cerberus.Health
