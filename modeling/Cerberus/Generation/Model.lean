import Cerberus.MaintenanceDb.Durability

namespace Cerberus.Generation

open Std Foundation Foundation.Bytes MaintenanceDb

inductive PipelineError
  | ok
  | invalidRequest
  | watchdogRecoveryFailed
  | hailoNotAvailable
  | hailoTimeout
  | hailoThermal
  | gpuOutOfMemory
  | onnxSessionLoadFailed
  | onnxRunFailed
  | stagingPoolExhausted
  | latencyBudgetExceeded
  | recoveryTooManyAttempts
  | invalidModelPath
  | shutdownInProgress
  | schedulerNotInitialized
  | unknown
  deriving DecidableEq

inductive RecoveryResult
  | success
  | partialSuccess
  | fatal
  deriving DecidableEq

/-- The guidance scale is given by its text. -/
structure GenerationRequest where
  prompt : ByteString
  width : Nat := 512
  height : Nat := 512
  numSteps : Nat := 20
  guidanceScale : ByteString := lit "7.500000"

def GenerationRequest.valid (req : GenerationRequest) : Bool :=
  !(req.width = 0 || req.height = 0 || req.width > 2048 || req.height > 2048) &&
    !(req.width % 8 ≠ 0 || req.height % 8 ≠ 0) && !(req.numSteps = 0 || req.numSteps > 150)

structure GeneratedImage where
  width : Nat
  height : Nat
  deriving DecidableEq

structure ClusterConfig where
  thisNodeId : Nat := 0
  isCoordinator : Bool := true

structure PipelineConfig where
  enableWatchdog : Bool := true
  enableHipGraph : Bool := false
  maxRecoveryAttempts : Nat := 3
  clusterConfig : Option ClusterConfig := none
  lcmdDbPath : ByteString := []
  lcmdDbKey : ByteString := []
  enableInferenceHistory : Bool := true

structure PipelineStats where
  generationsCompleted : Nat := 0
  generationsFailed : Nat := 0
  watchdogRecoveries : Nat := 0
  totalStepsExecuted : Nat := 0

structure HardwareAccelerationReport where
  textEncodeUsedNpu : Bool := false
  denoiseUsedGpu : Bool := false
  vaeDecodeUsedGpu : Bool := false
  postProcessUsedNpu : Bool := false
  unetDenoiseUsedNpu : Bool := false
  npuCheapOpsPercent : Nat := 0
  encoderName : ByteString := []
  postProcessorName : ByteString := []
  gpuBackendName : ByteString := []

structure Pipeline where
  cfg : PipelineConfig
  watchdog : Bool
  transport : Bool
  stats : PipelineStats := {}
  acceleration : HardwareAccelerationReport := {}
  lcmdDb : Option LocalMaintenanceDB := none
  inferenceCounter : Nat := 0
  shutdown : Bool := false
  recoveryAttempts : Nat := 0

/-- What the outside does in one denoising step. The watchdog can try a recovery of each
device through its own callback before it reports an action. -/
structure StepOutcome where
  denoise : Except PipelineError Unit := .ok ()
  gpuRecovery : Bool := false
  hailoRecovery : Bool := false
  action : Option RecoveryResult := none
  recovery : Except PipelineError RecoveryResult := .ok .success

structure NpuUnit where
  name : ByteString
  isAvailable : Bool
  syntheticMode : Bool

structure Hardware where
  encoder : Option NpuUnit := none
  postProcessor : Option NpuUnit := none
  gpuInitialized : Bool := false
  intelNpuUsed : Bool := false

/-- What the outside does in one call of `generate`. -/
structure Stages where
  now : Int := 0
  transportRunning : Bool := false
  workerSelected : Bool := false
  clusterResult : Except PipelineError GeneratedImage := .error .unknown
  encodePrompt : Except PipelineError Unit := .ok ()
  latentsAllocated : Bool := true
  hipGraphUsed : Bool := false
  step : Nat → StepOutcome := fun _ ↦ {}
  decodeLatents : Except PipelineError GeneratedImage
  hardware : Hardware := {}
  totalMs : ByteString := lit "1.000000"

def NpuUnit.accelerates (u : NpuUnit) : Bool := u.isAvailable && !u.syntheticMode

def nameOf (u : Option NpuUnit) : ByteString := (u.map NpuUnit.name).getD (lit "none")

/-- The report that a completed call leaves. The name of the GPU backend is not touched. -/
def Hardware.report (h : Hardware) (last : HardwareAccelerationReport) :
    HardwareAccelerationReport :=
  let textEncodeUsedNpu := h.encoder.any NpuUnit.accelerates
  let postProcessUsedNpu := h.postProcessor.any NpuUnit.accelerates
  let cfgBlendUsedNpu := h.postProcessor.any (fun u ↦ !u.syntheticMode)
  let safetyFilterUsedNpu := h.postProcessor.any NpuUnit.accelerates
  let used := [textEncodeUsedNpu, postProcessUsedNpu, cfgBlendUsedNpu, safetyFilterUsedNpu].count true
  { last with
    textEncodeUsedNpu, postProcessUsedNpu
    denoiseUsedGpu := h.gpuInitialized
    vaeDecodeUsedGpu := h.gpuInitialized
    unetDenoiseUsedNpu := h.intelNpuUsed
    npuCheapOpsPercent := used * 100 / 4
    encoderName := nameOf h.encoder
    postProcessorName := nameOf h.postProcessor }

def trueOrFalse (b : Bool) : ByteString := if b then lit "true" else lit "false"

namespace Pipeline

variable (p : Pipeline) (req : GenerationRequest) (s : Stages)

def nodeId : ByteString :=
  match p.cfg.clusterConfig with
  | some c => if c.thisNodeId ≠ 0 then decimal c.thisNodeId else lit "local"
  | none => lit "local"

/-- The record that `store_inference_record_` builds, after the counter was incremented. -/
def inferenceRecord (now : Int) (status : ByteString) (width height : Nat)
    (generationTimeMs : ByteString) : InferenceRecord where
  inferenceId := decimal p.inferenceCounter
  sessionId := lit "local"
  prompt := req.prompt
  resultSummary :=
    if status = lit "success" then lit "ok " ++ decimal width ++ lit "x" ++ decimal height
    else lit "failed"
  status := status
  timestamp := epochSeconds now
  generationTimeMs := generationTimeMs
  width := decimal (if width ≠ 0 then width else req.width)
  height := decimal (if height ≠ 0 then height else req.height)
  numSteps := decimal req.numSteps
  guidanceScale := req.guidanceScale
  encoderName := p.acceleration.encoderName
  postProcessorName := p.acceleration.postProcessorName
  gpuBackendName := p.acceleration.gpuBackendName
  textEncodeUsedNpu := trueOrFalse p.acceleration.textEncodeUsedNpu
  denoiseUsedGpu := trueOrFalse p.acceleration.denoiseUsedGpu
  vaeDecodeUsedGpu := trueOrFalse p.acceleration.vaeDecodeUsedGpu
  postProcessUsedNpu := trueOrFalse p.acceleration.postProcessUsedNpu
  unetDenoiseUsedNpu := trueOrFalse p.acceleration.unetDenoiseUsedNpu
  npuCheapOpsPercent := decimal p.acceleration.npuCheapOpsPercent
  recoveryAttempts := decimal p.recoveryAttempts
  nodeId := p.nodeId

def storeInferenceRecord (now : Int) (status : ByteString) (width height : Nat)
    (generationTimeMs : ByteString) : Pipeline :=
  match p.lcmdDb with
  | none => p
  | some db =>
    if !p.cfg.enableInferenceHistory then p
    else
      let p := { p with inferenceCounter := (p.inferenceCounter + 1) % 2 ^ 64 }
      let rec_ := p.inferenceRecord req now status width height generationTimeMs
      { p with lcmdDb := some (db.storeInferenceRecord now rec_).1 }

def countFailure : Pipeline :=
  { p with stats.generationsFailed := p.stats.generationsFailed + 1 }

def countCompletion : Pipeline :=
  { p with stats.generationsCompleted := p.stats.generationsCompleted + 1 }

def countRecovery : Pipeline :=
  { p with stats.watchdogRecoveries := p.stats.watchdogRecoveries + 1 }

def countStep : Pipeline :=
  { p with stats.totalStepsExecuted := p.stats.totalStepsExecuted + 1 }

/-- The watchdog's own recoveries count as attempts. -/
def watchdogStep (o : StepOutcome) : Pipeline :=
  { p with recoveryAttempts := p.recoveryAttempts + o.gpuRecovery.toNat + o.hailoRecovery.toNat }

/-- `recovery_attempts_++` at the start of `on_watchdog_recovery_`. -/
def attemptRecovery : Pipeline := { p with recoveryAttempts := p.recoveryAttempts + 1 }

def failWith {α : Type} (e : PipelineError) (width height : Nat) :
    Pipeline × Except PipelineError α :=
  (p.countFailure.storeInferenceRecord req s.now (lit "failed") width height (lit "0.000000"),
    .error e)

/-- The body of the denoising loop. After an error the call has ended. -/
def denoiseStep (step : Nat) : Pipeline × Except PipelineError Unit :=
  let o := s.step step
  match o.denoise with
  | .error e => p.failWith req s e 0 0
  | .ok () =>
    if p.watchdog && p.cfg.enableWatchdog then
      let p := p.watchdogStep o
      match o.action with
      | none => (p.countStep, .ok ())
      | some result =>
        let p := p.countRecovery
        if p.recoveryAttempts ≥ p.cfg.maxRecoveryAttempts then
          p.failWith req s .recoveryTooManyAttempts 0 0
        else if result = .fatal then
          p.failWith req s .watchdogRecoveryFailed req.width req.height
        else
          let p := p.attemptRecovery
          match o.recovery with
          | .error e => (p.countFailure, .error e)
          | .ok _ => (p.countStep, .ok ())
    else (p.countStep, .ok ())

def denoiseLoop : Nat → Nat → Pipeline → Pipeline × Except PipelineError Unit
  | 0, _, p => (p, .ok ())
  | n + 1, step, p =>
    match p.denoiseStep req s step with
    | (p, .error e) => (p, .error e)
    | (p, .ok ()) => denoiseLoop n (step + 1) p

def denoise : Pipeline × Except PipelineError Unit :=
  if p.cfg.enableHipGraph && s.hipGraphUsed then
    ({ p with stats.totalStepsExecuted := p.stats.totalStepsExecuted + req.numSteps }, .ok ())
  else denoiseLoop req s req.numSteps 0 p

/-- The part of `generate` that follows the cluster dispatch. -/
def generateLocally : Pipeline × Except PipelineError GeneratedImage :=
  match s.encodePrompt with
  | .error e => (p.countFailure, .error e)
  | .ok () =>
    if !s.latentsAllocated then p.failWith req s .gpuOutOfMemory req.width req.height
    else
      match { p with recoveryAttempts := 0 }.denoise req s with
      | (p, .error e) => (p, .error e)
      | (p, .ok ()) =>
        match s.decodeLatents with
        | .error e => p.failWith req s e req.width req.height
        | .ok image =>
          let p := { p with acceleration := s.hardware.report p.acceleration }.countCompletion
          (p.storeInferenceRecord req s.now (lit "success") image.width image.height s.totalMs,
            .ok image)

def dispatch : Option GeneratedImage :=
  if p.transport && s.transportRunning && p.cfg.clusterConfig.any ClusterConfig.isCoordinator &&
      s.workerSelected then s.clusterResult.toOption
  else none

def generate : Pipeline × Except PipelineError GeneratedImage :=
  if p.shutdown then p.failWith req s .shutdownInProgress req.width req.height
  else if !req.valid then p.failWith req s .invalidRequest req.width req.height
  else
    match p.dispatch s with
    | some image => (p.countCompletion, .ok image)
    | none => p.generateLocally req s

/-- The constructor. The database is dropped when it cannot be opened. -/
def construct (L : Lfssl) (mo : Moment) (disk : Disk) (cfg : PipelineConfig)
    (transportStarts : Bool) : Pipeline where
  cfg := cfg
  watchdog := cfg.enableWatchdog
  transport := cfg.clusterConfig.isSome && transportStarts
  lcmdDb :=
    if cfg.enableInferenceHistory && !cfg.lcmdDbPath.isEmpty && cfg.lcmdDbKey.length = 32 then
      match ({} : LocalMaintenanceDB).initializeDb L mo disk cfg.lcmdDbPath cfg.lcmdDbKey with
      | (db, true) => some db
      | (_, false) => none
    else none

/-- `shutdown` keeps the database. -/
def shutDown : Pipeline := { p with shutdown := true, transport := false, watchdog := false }

def destroy (L : Lfssl) (mo : Moment) (disk : Disk) : Disk :=
  match p.lcmdDb with
  | none => disk
  | some db => (World.shutdown L mo { db, disk }).disk

end Pipeline

end Cerberus.Generation
