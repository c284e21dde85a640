import Cerberus.Foundation.Bytes

namespace Cerberus.Health

open Foundation.Bytes

inductive HealthGrade
  | a
  | b
  | c
  | d
  | f
  deriving DecidableEq

def gradeName : HealthGrade → ByteString
  | .a => lit "A"
  | .b => lit "B"
  | .c => lit "C"
  | .d => lit "D"
  | .f => lit "F"

structure Formats (K : Type) where
  number : K → ByteString
  whole : K → ByteString

section

variable (K : Type) [Field K]

structure HealthWeights where
  gpuUtilization : K := (15 : ℕ) / (100 : ℕ)
  hailoUtilization : K := (15 : ℕ) / (100 : ℕ)
  npuUtilization : K := (5 : ℕ) / (100 : ℕ)
  latency : K := (20 : ℕ) / (100 : ℕ)
  memory : K := (10 : ℕ) / (100 : ℕ)
  recovery : K := (15 : ℕ) / (100 : ℕ)
  thermal : K := (10 : ℕ) / (100 : ℕ)
  stability : K := (10 : ℕ) / (100 : ℕ)

structure SubScores where
  gpuUtilization : K := 0
  hailoUtilization : K := 0
  npuUtilization : K := 0
  latency : K := 0
  memory : K := 0
  recovery : K := 0
  thermal : K := 0
  stability : K := 0

structure RawHealthMetrics where
  gpuUtilizationPercent : K := 0
  gpuTemperatureC : K := 0
  hailoUtilizationPercent : K := 0
  hailoTemperatureC : K := 0
  npuUtilizationPercent : K := 0
  timeBetweenStepsMs : K := 0
  memoryBandwidthPercent : K := 0
  recoverySuccessRatePercent : K := 100
  latencyDriftPercent : K := 0

structure HealthReport where
  overallScore : K := 0
  grade : HealthGrade := .f
  subScores : SubScores K
  rawMetrics : RawHealthMetrics K
  summary : ByteString
  timestampMs : Nat := 0

structure PipelineHealthScore where
  weights : HealthWeights K
  gpuUtil : K := 0
  gpuTemp : K := 0
  hailoUtil : K := 0
  hailoTemp : K := 0
  npuUtil : K := 0
  tbtMs : K := 0
  memoryBw : K := 0
  recoveryAttempts : UInt32 := 0
  recoverySuccesses : UInt32 := 0
  latencyDrift : K := 0

end

variable {K : Type} [Field K]

def HealthWeights.sum (w : HealthWeights K) : K :=
  w.gpuUtilization + w.hailoUtilization + w.npuUtilization + w.latency + w.memory + w.recovery +
    w.thermal + w.stability

def HealthWeights.scale (w : HealthWeights K) (sum : K) : HealthWeights K where
  gpuUtilization := w.gpuUtilization / sum
  hailoUtilization := w.hailoUtilization / sum
  npuUtilization := w.npuUtilization / sum
  latency := w.latency / sum
  memory := w.memory / sum
  recovery := w.recovery / sum
  thermal := w.thermal / sum
  stability := w.stability / sum

def HealthWeights.composite (w : HealthWeights K) (sub : SubScores K) : K :=
  w.gpuUtilization * sub.gpuUtilization + w.hailoUtilization * sub.hailoUtilization +
    w.npuUtilization * sub.npuUtilization + w.latency * sub.latency + w.memory * sub.memory +
    w.recovery * sub.recovery + w.thermal * sub.thermal + w.stability * sub.stability

def targetGpuUtil : K := (725 : ℕ) / (10 : ℕ)
def targetHailoUtil : K := 84
def targetTbtMs : K := 45
def targetMemoryBwPct : K := 70
def targetRecoveryRate : K := 98
def targetJunctionTempC : K := 85
def maxLatencyDriftPct : K := (10 : ℕ)

section

variable [LinearOrder K]

/-- `std::clamp` -/
def clamp (x lo hi : K) : K := if x < lo then lo else if hi < x then hi else x

def normalizeLinear (value target : K) : K :=
  if target ≤ 0 then 0 else clamp (value / target * 100) 0 100

def normalizeInverse (value maxAcceptable : K) : K :=
  if maxAcceptable ≤ 0 then if value ≤ 0 then 100 else 0
  else clamp ((1 - value / maxAcceptable) * 100) 0 100

def scoreToGrade (score : K) : HealthGrade :=
  if 90 ≤ score then .a
  else if 75 ≤ score then .b
  else if 60 ≤ score then .c
  else if 40 ≤ score then .d
  else .f

namespace PipelineHealthScore

/-- The constructor. Weights whose sum is not near 1 are scaled. -/
def construct (w : HealthWeights K) : PipelineHealthScore K where
  weights :=
    if 1 / 1000 < |w.sum - 1| then if 0 < w.sum then w.scale w.sum else w
    else w

variable (s : PipelineHealthScore K)

def updateGpu (utilizationPercent temperatureC : K) : PipelineHealthScore K :=
  { s with gpuUtil := utilizationPercent, gpuTemp := temperatureC }

def updateHailo (utilizationPercent temperatureC : K) : PipelineHealthScore K :=
  { s with hailoUtil := utilizationPercent, hailoTemp := temperatureC }

def updateLatency (timeBetweenStepsMs : K) : PipelineHealthScore K :=
  { s with tbtMs := timeBetweenStepsMs }

def updateMemory (bandwidthUtilizationPercent : K) : PipelineHealthScore K :=
  { s with memoryBw := bandwidthUtilizationPercent }

def updateRecovery (recoverySucceeded : Bool) : PipelineHealthScore K :=
  { s with
    recoveryAttempts := s.recoveryAttempts + 1
    recoverySuccesses := if recoverySucceeded then s.recoverySuccesses + 1 else s.recoverySuccesses }

def updateStability (latencyDriftPercent : K) : PipelineHealthScore K :=
  { s with latencyDrift := latencyDriftPercent }

def updateNpuUtilization (utilPct : K) : PipelineHealthScore K := { s with npuUtil := utilPct }

/-- The temperature is the GPU's, also when the Hailo is hotter. -/
def buildSummary (f : Formats K) (sub : SubScores K) (raw : RawHealthMetrics K) (overall : K) :
    ByteString :=
  let worstTemp := max raw.gpuTemperatureC raw.gpuTemperatureC
  let grade (score : K) := lit "(" ++ gradeName (scoreToGrade score) ++ lit ")"
  lit "GPU " ++ f.whole raw.gpuUtilizationPercent ++ lit "%" ++ grade sub.gpuUtilization ++
    lit ", Hailo " ++ f.whole raw.hailoUtilizationPercent ++ lit "%" ++
    grade sub.hailoUtilization ++
    lit ", NPU " ++ f.whole raw.npuUtilizationPercent ++ lit "%" ++ grade sub.npuUtilization ++
    lit ", TBT " ++ f.number raw.timeBetweenStepsMs ++ lit "ms" ++ grade sub.latency ++
    lit ", Mem " ++ f.whole raw.memoryBandwidthPercent ++ lit "%" ++ grade sub.memory ++
    lit ", Rec " ++ f.whole raw.recoverySuccessRatePercent ++ lit "%" ++ grade sub.recovery ++
    lit ", Therm " ++ f.number worstTemp ++ lit "C" ++
    (if raw.gpuTemperatureC < raw.hailoTemperatureC then lit "/H" else lit "/G") ++
    grade sub.thermal ++
    lit ", Drift " ++ f.number raw.latencyDriftPercent ++ lit "%" ++ grade sub.stability ++
    lit ", Overall " ++ f.number overall ++ grade overall

def rawMetrics : RawHealthMetrics K where
  gpuUtilizationPercent := s.gpuUtil
  gpuTemperatureC := s.gpuTemp
  hailoUtilizationPercent := s.hailoUtil
  hailoTemperatureC := s.hailoTemp
  npuUtilizationPercent := s.npuUtil
  timeBetweenStepsMs := s.tbtMs
  memoryBandwidthPercent := s.memoryBw
  recoverySuccessRatePercent :=
    if s.recoveryAttempts > 0 then 100 * s.recoverySuccesses.toNat / s.recoveryAttempts.toNat
    else 100
  latencyDriftPercent := s.latencyDrift

def subScores : SubScores K where
  gpuUtilization := normalizeLinear s.rawMetrics.gpuUtilizationPercent targetGpuUtil
  hailoUtilization := normalizeLinear s.rawMetrics.hailoUtilizationPercent targetHailoUtil
  npuUtilization := normalizeLinear s.rawMetrics.npuUtilizationPercent targetHailoUtil
  latency := normalizeInverse s.rawMetrics.timeBetweenStepsMs targetTbtMs
  memory := normalizeInverse s.rawMetrics.memoryBandwidthPercent targetMemoryBwPct
  recovery := normalizeLinear s.rawMetrics.recoverySuccessRatePercent targetRecoveryRate
  thermal := normalizeInverse (max s.rawMetrics.gpuTemperatureC s.rawMetrics.hailoTemperatureC)
    targetJunctionTempC
  stability := normalizeInverse s.rawMetrics.latencyDriftPercent maxLatencyDriftPct

def hailoIsHotter : Bool := s.gpuTemp < s.hailoTemp

def thermalBoost : K := if s.hailoIsHotter then s.weights.thermal * (1 / (2 : ℕ)) else 0

/-- The weights of the composite; weight is moved from stability to thermal when the Hailo is
hotter. -/
def effectiveWeights : HealthWeights K :=
  { s.weights with
    thermal := s.weights.thermal + s.thermalBoost
    stability := s.weights.stability - s.thermalBoost }

def overall : K := s.effectiveWeights.composite s.subScores

def compute (f : Formats K) (now : Nat) : HealthReport K :=
  let overallClamped := clamp s.overall 0 100
  { overallScore := overallClamped
    grade := scoreToGrade overallClamped
    subScores := s.subScores
    rawMetrics := s.rawMetrics
    summary := buildSummary f s.subScores s.rawMetrics overallClamped
    timestampMs := now }

def reset : PipelineHealthScore K := { weights := s.weights }

end PipelineHealthScore

end

end Cerberus.Health
