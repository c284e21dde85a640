import Cerberus.Foundation.Reading
import Cerberus.Generation.Model

namespace Cerberus.Watchdog

open Foundation Foundation.Bytes Generation

variable {K : Type}

inductive ComputeUnit
  | gpu780M
  | hailo8L
  deriving DecidableEq

inductive WatchdogState
  | normal
  | warning
  | critical
  deriving DecidableEq

def deviceName : ComputeUnit → ByteString
  | .gpu780M => lit "GPU_780M"
  | .hailo8L => lit "HAILO_8L"

def stateName : WatchdogState → ByteString
  | .normal => lit "NORMAL"
  | .warning => lit "WARNING"
  | .critical => lit "CRITICAL"

structure UtilizationSnapshot (K : Type) where
  utilization : Reading K
  temperature : Reading K

structure RecoveryAction (K : Type) where
  result : RecoveryResult
  device : ComputeUnit
  step : UInt32
  utilAtFault : Reading K
  reason : ByteString

structure WatchdogConfig (K : Type) [NatCast K] where
  gpuLowThreshold : Reading K := some (60 : ℕ)
  gpuCriticalThreshold : Reading K := some (40 : ℕ)
  hailoLowThreshold : Reading K := some (60 : ℕ)
  hailoCriticalThreshold : Reading K := some (40 : ℕ)
  consecutiveThreshold : UInt32 := 8
  maxRecoveries : UInt32 := 10
  thermalThrottleThresholdC : Reading K := some (85 : ℕ)

structure Device where
  consecutive : UInt32 := 0
  inRecovery : Bool := false
  recoveryCount : UInt32 := 0
  state : WatchdogState := .normal
  deriving DecidableEq

structure Alert (K : Type) where
  unit : ComputeUnit
  step : UInt32
  util : Reading K
  message : ByteString

/-- `percent` is the format `{:.1f}`. -/
structure UtilizationWatchdog (K : Type) [NatCast K] where
  cfg : WatchdogConfig K
  onRecovery : Bool
  percent : Reading K → ByteString
  gpu : Device := {}
  hailo : Device := {}

structure Evaluation (K : Type) where
  device : Device
  called : Bool := false
  alerts : List (Alert K) := []
  action : Option (RecoveryAction K) := none

abbrev Reply := Except ByteString RecoveryResult

namespace UtilizationWatchdog

section

variable [NatCast K]

def construct [LinearOrder K] (cfg : WatchdogConfig K) (onRecovery : Bool)
    (percent : Reading K → ByteString) : UtilizationWatchdog K where
  cfg := { cfg with
    thermalThrottleThresholdC := cfg.thermalThrottleThresholdC.clamp (0 : ℕ) (125 : ℕ) }
  onRecovery := onRecovery
  percent := percent

variable (w : UtilizationWatchdog K) (unit : ComputeUnit) (util : Reading K) (step : UInt32)

/-- `[GPU_780M] step=4 util=12.5%`, with which every message begins. -/
def heading : ByteString :=
  lit "[" ++ deviceName unit ++ lit "] step=" ++ decimal step.toNat ++ lit " util=" ++
    w.percent util ++ lit "%"

def logStateChange (oldState newState : WatchdogState) : List (Alert K) :=
  if oldState = newState then []
  else
    [{ unit, step, util
       message := lit "[" ++ deviceName unit ++ lit "] step=" ++ decimal step.toNat ++
         lit " state_change: " ++ stateName oldState ++ lit " -> " ++ stateName newState ++
         lit " util=" ++ w.percent util ++ lit "%" }]

def thermalMessage (temperature : Reading K) (isCritical : Bool) : ByteString :=
  w.heading unit util step ++ lit " — " ++ (if isCritical then lit "CRITICAL but" else []) ++
    lit " THERMAL THROTTLING (temp=" ++ w.percent temperature ++ lit "C > threshold=" ++
    w.percent w.cfg.thermalThrottleThresholdC ++ lit "C), skipping recovery"

def exhaustedMessage (zone : ByteString) : ByteString :=
  w.heading unit util step ++ lit " — " ++ zone ++ lit "max_recoveries (" ++
    decimal w.cfg.maxRecoveries.toNat ++ lit ") exhausted, treating as FATAL"

def replyName : Reply → ByteString
  | .ok .success => lit "SUCCESS"
  | .ok .partialSuccess => lit "PARTIAL"
  | .ok .fatal => lit "FATAL"
  | .error _ => lit "FAILED_TO_INVOKE"

def warningMessage (cons : UInt32) (reply : Reply) : ByteString :=
  w.heading unit util step ++ lit " — WARNING consecutive=" ++ decimal cons.toNat ++ lit "/" ++
    decimal w.cfg.consecutiveThreshold.toNat ++ lit " → recovery " ++ replyName reply

def criticalMessage (reply : Reply) : ByteString :=
  w.heading unit util step ++ lit " — CRITICAL immediate recovery " ++ replyName reply

/-- `value_or(RecoveryResult::FATAL)` -/
def resultOf : Reply → RecoveryResult
  | .ok result => result
  | .error _ => .fatal

/-- The attempt is counted whether or not there is a callback. -/
def triggerRecovery (d : Device) (reply : Reply) : Device × Reply :=
  ({ d with recoveryCount := d.recoveryCount + 1 },
    if w.onRecovery then reply else .error (lit "No recovery callback registered"))

variable [LinearOrder K]

def thermalSkipRecovery (temperature : Reading K) : Bool :=
  temperature.above w.cfg.thermalThrottleThresholdC

/-- `evaluate_device`, where `reply` is what the recovery callback would return. -/
def evaluateDevice (snap : UtilizationSnapshot K) (threshold criticalThreshold : Reading K)
    (d : Device) (reply : Reply) : Evaluation K :=
  let util := snap.utilization
  if util.atLeast threshold then
    { device := { d with consecutive := 0, inRecovery := false, state := .normal }
      alerts := (if d.consecutive ≠ 0 then w.logStateChange unit util step d.state .normal
        else []) ++ w.logStateChange unit util step d.state .normal }
  else
    let cons := d.consecutive + 1
    if util.atLeast criticalThreshold then
      let alerts := w.logStateChange unit util step d.state .warning
      let d := { d with consecutive := cons, state := .warning }
      if w.thermalSkipRecovery snap.temperature then
        { device := d
          alerts := alerts ++
            [⟨unit, step, util, w.thermalMessage unit util step snap.temperature false⟩] }
      else if cons ≥ w.cfg.consecutiveThreshold ∧ d.inRecovery = false then
        if d.recoveryCount ≥ w.cfg.maxRecoveries then
          let reason := w.exhaustedMessage unit util step []
          { device := { d with inRecovery := true, consecutive := 0 }
            alerts := alerts ++ [⟨unit, step, util, reason⟩]
            action := some ⟨.fatal, unit, step, util, reason⟩ }
        else
          let (d, action) := w.triggerRecovery d reply
          { device := { d with inRecovery := false }, called := w.onRecovery, alerts
            action := some ⟨resultOf action, unit, step, util,
              w.warningMessage unit util step cons action⟩ }
      else { device := d, alerts }
    else
      let alerts := w.logStateChange unit util step d.state .critical
      let d := { d with consecutive := cons, state := .critical }
      if w.thermalSkipRecovery snap.temperature then
        { device := d
          alerts := alerts ++
            [⟨unit, step, util, w.thermalMessage unit util step snap.temperature true⟩] }
      else if d.inRecovery = false then
        if d.recoveryCount ≥ w.cfg.maxRecoveries then
          let reason := w.exhaustedMessage unit util step (lit "CRITICAL zone, ")
          { device := { d with inRecovery := true }
            alerts := alerts ++ [⟨unit, step, util, reason⟩]
            action := some ⟨.fatal, unit, step, util, reason⟩ }
        else
          let (d, action) := w.triggerRecovery d reply
          { device := { d with inRecovery := false }, called := w.onRecovery, alerts
            action := some ⟨resultOf action, unit, step, util,
              w.criticalMessage unit util step action⟩ }
      else { device := d, alerts }

end

/-- The arguments of one call of `step`, and what the recovery callback returns for each device
if it is called. -/
structure Input (K : Type) where
  stepNum : UInt32
  gpuSnap : UtilizationSnapshot K
  hailoSnap : UtilizationSnapshot K
  gpuReply : Reply := .ok .success
  hailoReply : Reply := .ok .success

variable [NatCast K] [LinearOrder K] (w : UtilizationWatchdog K) (i : Input K)

def evaluateGpu : Evaluation K :=
  w.evaluateDevice .gpu780M i.stepNum i.gpuSnap w.cfg.gpuLowThreshold w.cfg.gpuCriticalThreshold
    w.gpu i.gpuReply

def evaluateHailo : Evaluation K :=
  w.evaluateDevice .hailo8L i.stepNum i.hailoSnap w.cfg.hailoLowThreshold
    w.cfg.hailoCriticalThreshold w.hailo i.hailoReply

def step : UtilizationWatchdog K × Option (RecoveryAction K) :=
  let gpu := w.evaluateGpu i
  let hailo := w.evaluateHailo i
  ({ w with gpu := gpu.device, hailo := hailo.device },
    match gpu.action, hailo.action with
    | some action, _ => some action
    | none, some action => some action
    | none, none => none)

def resetAll : UtilizationWatchdog K := { w with gpu := {}, hailo := {} }

end UtilizationWatchdog

end Cerberus.Watchdog
