import Cerberus.Foundation.Bytes

namespace Cerberus.Scheduler

open Foundation.Bytes

inductive SchedulerError
  | notPrecomputed
  | stepOutOfRange
  deriving DecidableEq

structure SchedulerConfig where
  numTrainTimesteps : UInt32 := 1000
  betaStart : ℝ := 1 / 10000
  betaEnd : ℝ := 2 / 100
  betaSchedule : ByteString := lit "linear"

structure DEISScheduler where
  cfg : SchedulerConfig
  numInferenceSteps : UInt32
  alphasCumprod : List ℝ := []
  sigmas : List ℝ := []
  timesteps : List ℕ := []
  stepCoeffX0 : List ℝ := []
  stepCoeffEps : List ℝ := []
  precomputed : Bool := false

noncomputable def clamp (x lo hi : ℝ) : ℝ := if x < lo then lo else if hi < x then hi else x

noncomputable def clampAlpha (a : ℝ) : ℝ := if a < 1 / 1000000 then 1 / 1000000 else a

namespace SchedulerConfig

variable (cfg : SchedulerConfig)

def nTrain : ℕ := cfg.numTrainTimesteps.toNat

noncomputable def beta (i : ℕ) : ℝ :=
  let t : ℝ := i * if 1 < cfg.nTrain then 1 / ((cfg.nTrain - 1 : ℕ) : ℝ) else 0
  if cfg.betaSchedule = lit "scaled_linear" then
    (√cfg.betaStart + (√cfg.betaEnd - √cfg.betaStart) * t) ^ 2
  else cfg.betaStart + (cfg.betaEnd - cfg.betaStart) * t

noncomputable def alpha (i : ℕ) : ℝ := 1 - clamp (cfg.beta i) 0 ((999 : ℕ) / (1000 : ℕ))

end SchedulerConfig

namespace DEISScheduler

variable (s : DEISScheduler)

noncomputable def computeBetaSchedule : DEISScheduler :=
  let alphasCumprod :=
    (((List.range s.cfg.nTrain).map s.cfg.alpha).scanl (fun product alpha ↦ product * alpha) 1).tail
  { s with alphasCumprod, sigmas := alphasCumprod.map fun a ↦ √(1 - a) }

noncomputable def timestepIndex (i : ℕ) : ℕ :=
  let stepSize : ℝ := s.cfg.nTrain / s.numInferenceSteps.toNat
  let raw : ℝ := ((s.cfg.nTrain - 1 : ℕ) : ℝ) - stepSize * i
  (max 0 (min ⌊raw⌋ ((s.cfg.nTrain - 1 : ℕ) : ℤ))).toNat

noncomputable def alphaAt (i : ℕ) : ℝ := s.alphasCumprod.getD i 0

/-- The two noise levels that a step is between; the first step goes to the clean image. -/
noncomputable def alphaT (i : ℕ) : ℝ :=
  clampAlpha (s.alphaAt (min (s.timesteps.getD i 0) (s.cfg.nTrain - 1)))

noncomputable def alphaPrev (i : ℕ) : ℝ :=
  clampAlpha (if 0 < i then s.alphaAt (s.timesteps.getD (i - 1) 0) else 1)

noncomputable def coeffX0 (i : ℕ) : ℝ := √(s.alphaPrev i) / √(s.alphaT i)

noncomputable def coeffEps (i : ℕ) : ℝ := √(1 - s.alphaPrev i) - s.coeffX0 i * √(1 - s.alphaT i)

noncomputable def computeStepCoefficients : DEISScheduler :=
  { s with
    stepCoeffX0 := (List.range s.numInferenceSteps.toNat).map s.coeffX0
    stepCoeffEps := (List.range s.numInferenceSteps.toNat).map s.coeffEps }

noncomputable def precompute : DEISScheduler :=
  let s := s.computeBetaSchedule
  let s := { s with timesteps := (List.range s.numInferenceSteps.toNat).map s.timestepIndex }
  { s.computeStepCoefficients with precomputed := true }

noncomputable def construct (cfg : SchedulerConfig) (numInferenceSteps : UInt32) : DEISScheduler :=
  DEISScheduler.precompute { cfg, numInferenceSteps }

noncomputable def setInferenceSteps (steps : UInt32) : DEISScheduler :=
  { s with numInferenceSteps := steps, precomputed := false }.precompute

/-- `timestep`; there is none for a step out of range. -/
def timestep (step : ℕ) : Option ℕ :=
  if !s.precomputed then none
  else if s.numInferenceSteps.toNat ≤ step then none
  else s.timesteps[step]?

def applyStepScalar (coeffX0 coeffEps : ℝ) (latents modelOutput : List ℝ) : List ℝ :=
  List.zipWith (fun x eps ↦ coeffX0 * x + coeffEps * eps) latents modelOutput ++
    latents.drop modelOutput.length

/-- The same loop in blocks of sixteen elements, each a product and a fused one. -/
def applyStepBlocks (coeffX0 coeffEps : ℝ) : ℕ → List ℝ → List ℝ → List ℝ
  | 0, latents, modelOutput => applyStepScalar coeffX0 coeffEps latents modelOutput
  | blocks + 1, latents, modelOutput =>
    List.zipWith (fun eps result ↦ coeffEps * eps + result) (modelOutput.take 16)
        ((latents.take 16).map (coeffX0 * ·)) ++
      applyStepBlocks coeffX0 coeffEps blocks (latents.drop 16) (modelOutput.drop 16)

def applyStepAvx512 (coeffX0 coeffEps : ℝ) (latents modelOutput : List ℝ) : List ℝ :=
  applyStepBlocks coeffX0 coeffEps (min latents.length modelOutput.length / 16) latents modelOutput

def step (hasAvx512f : Bool) (latents modelOutput : List ℝ) (step : ℕ) :
    Except SchedulerError (List ℝ) :=
  if !s.precomputed then .error .notPrecomputed
  else if s.numInferenceSteps.toNat ≤ step then .error .stepOutOfRange
  else
    let coeffX0 := s.stepCoeffX0.getD step 0
    let coeffEps := s.stepCoeffEps.getD step 0
    if hasAvx512f && 16 ≤ min latents.length modelOutput.length then
      .ok (applyStepAvx512 coeffX0 coeffEps latents modelOutput)
    else .ok (applyStepScalar coeffX0 coeffEps latents modelOutput)

end DEISScheduler

end Cerberus.Scheduler
