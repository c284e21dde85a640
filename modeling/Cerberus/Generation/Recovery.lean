import Cerberus.Generation.Audit
import Cerberus.Watchdog.Verdicts

namespace Cerberus.Generation

open Foundation Foundation.Bytes Watchdog

variable {K L : Type}

def PipelineError.toString : PipelineError → ByteString
  | .ok => lit "Ok"
  | .invalidRequest => lit "InvalidRequest"
  | .watchdogRecoveryFailed => lit "WatchdogRecoveryFailed"
  | .hailoNotAvailable => lit "HailoNotAvailable"
  | .hailoTimeout => lit "HailoTimeout"
  | .hailoThermal => lit "HailoThermal"
  | .gpuOutOfMemory => lit "GPUOutOfMemory"
  | .onnxSessionLoadFailed => lit "ONNXSessionLoadFailed"
  | .onnxRunFailed => lit "ONNXRunFailed"
  | .stagingPoolExhausted => lit "StagingPoolExhausted"
  | .latencyBudgetExceeded => lit "LatencyBudgetExceeded"
  | .recoveryTooManyAttempts => lit "RecoveryTooManyAttempts"
  | .invalidModelPath => lit "InvalidModelPath"
  | .shutdownInProgress => lit "ShutdownInProgress"
  | .schedulerNotInitialized => lit "SchedulerNotInitialized"
  | .unknown => lit "Unknown"

/-- A pipeline with what its recoveries touch; `L` is the contents of a latent tensor. -/
structure WatchedPipeline (K L : Type) [NatCast K] where
  pipeline : Pipeline
  watchdog : UtilizationWatchdog K
  gpuSession : Bool := true
  latentCheckpoint : Option L := none
  numInferenceSteps : Nat := 20

/-- What the outside does in one call of `generate`. `gpuRebuild` and `hailoRebuild` are for
the recoveries in the watchdog's callback, `rebuild` for those of `generate` itself. The UNet
is given the scheduler's number of steps, the step and the latents, and the scheduler's update
is part of it. -/
structure Surroundings (K L : Type) where
  now : Int := 0
  encodePrompt : Except PipelineError Unit := .ok ()
  latentsAllocated : Bool := true
  noise : L
  runUnet : Nat → Nat → L → Except PipelineError L
  gpuSnap : Nat → UtilizationSnapshot K
  hailoSnap : Nat → UtilizationSnapshot K
  checkpointAllocated : Nat → Bool := fun _ ↦ true
  gpuRebuild : Nat → Except PipelineError Unit := fun _ ↦ .ok ()
  hailoRebuild : Nat → Except PipelineError Unit := fun _ ↦ .ok ()
  rebuild : Nat → Except PipelineError Unit := fun _ ↦ .ok ()
  decodeLatents : L → Except PipelineError GeneratedImage
  hardware : Hardware := {}
  totalMs : ByteString := lit "1.000000"

namespace WatchedPipeline

section

variable [NatCast K] (s : WatchedPipeline K L) (req : GenerationRequest) (c : Surroundings K L)
  (unit : ComputeUnit) (rebuilt : Except PipelineError Unit) (step : Nat) (latents : L)

def construct [LinearOrder K] (p : Pipeline) (cfg : WatchdogConfig K)
    (percent : Reading K → ByteString) (gpuSession : Bool) : WatchedPipeline K L where
  pipeline := p
  watchdog := .construct cfg true percent
  gpuSession := gpuSession

def onPipeline (f : Pipeline → Pipeline) : WatchedPipeline K L := { s with pipeline := f s.pipeline }

def failWith {α : Type} (e : PipelineError) (width height : Nat) :
    WatchedPipeline K L × Except PipelineError α :=
  (s.onPipeline fun p ↦ p.countFailure.storeInferenceRecord req c.now (lit "failed") width height
    (lit "0.000000"), .error e)

/-- The latents are those that the checkpoint restores. -/
def onWatchdogRecovery : WatchedPipeline K L × Except PipelineError L :=
  let s := s.onPipeline Pipeline.attemptRecovery
  match s.latentCheckpoint with
  | none => (s, .error .watchdogRecoveryFailed)
  | some saved =>
    let s := { s with gpuSession := if unit = .gpu780M then rebuilt.toBool else s.gpuSession }
    match rebuilt with
    | .error e => (s, .error e)
    | .ok () => (s, .ok saved)

def callback : WatchedPipeline K L × L × Reply :=
  if s.latentCheckpoint.isNone then
    (s, latents, .error (lit "Recovery failed: no latent checkpoint available"))
  else
    match s.onWatchdogRecovery unit rebuilt with
    | (s, .error e) => (s, latents, .error (lit "Recovery failed: " ++ e.toString))
    | (s, .ok latents) => (s, latents, .ok .success)

def input : UtilizationWatchdog.Input K where
  stepNum := UInt32.ofNat step
  gpuSnap := c.gpuSnap step
  hailoSnap := c.hailoSnap step
  gpuReply := (s.callback .gpu780M (c.gpuRebuild step) latents).2.2
  hailoReply := (s.callback .hailo8L (c.hailoRebuild step) latents).2.2

/-- Step 4c: the tensor is allocated once in a call. -/
def saveCheckpoint (allocated : Bool) : WatchedPipeline K L :=
  { s with latentCheckpoint :=
      if s.latentCheckpoint.isSome || allocated then some latents else none }

/-- The check for a session in `denoise_step_`, and the rest of it. -/
def runStep : Except PipelineError L :=
  if s.gpuSession then c.runUnet s.numInferenceSteps step latents
  else .error .onnxSessionLoadFailed

variable [LinearOrder K]

/-- `watchdog_->step`, with what the recovery callback does. -/
def watchdogStep : WatchedPipeline K L × L × Option (RecoveryAction K) :=
  let i := s.input c step latents
  let (t, latents) :=
    if (s.watchdog.evaluateGpu i).called then
      ((s.callback .gpu780M (c.gpuRebuild step) latents).1,
        (s.callback .gpu780M (c.gpuRebuild step) latents).2.1)
    else (s, latents)
  let (t, latents) :=
    if (s.watchdog.evaluateHailo i).called then
      ((t.callback .hailo8L (c.hailoRebuild step) latents).1,
        (t.callback .hailo8L (c.hailoRebuild step) latents).2.1)
    else (t, latents)
  ({ t with watchdog := (s.watchdog.step i).1 }, latents, (s.watchdog.step i).2)

def react : Option (RecoveryAction K) → WatchedPipeline K L × Except PipelineError L
  | none => (s.onPipeline Pipeline.countStep, .ok latents)
  | some action =>
    let s := s.onPipeline Pipeline.countRecovery
    if s.pipeline.recoveryAttempts ≥ s.pipeline.cfg.maxRecoveryAttempts then
      s.failWith req c .recoveryTooManyAttempts 0 0
    else if action.result = .fatal then
      s.failWith req c .watchdogRecoveryFailed req.width req.height
    else
      match s.onWatchdogRecovery action.device (c.rebuild step) with
      | (s, .error e) => (s.onPipeline Pipeline.countFailure, .error e)
      | (s, .ok latents) => (s.onPipeline Pipeline.countStep, .ok latents)

def denoiseStep : WatchedPipeline K L × Except PipelineError L :=
  match s.runStep c step latents with
  | .error e => s.failWith req c e 0 0
  | .ok latents =>
    let s := s.saveCheckpoint latents (c.checkpointAllocated step)
    if s.pipeline.watchdog && s.pipeline.cfg.enableWatchdog then
      let (s, latents, action) := s.watchdogStep c step latents
      s.react req c step latents action
    else (s.onPipeline Pipeline.countStep, .ok latents)

def denoiseLoop : Nat → Nat → L → WatchedPipeline K L → WatchedPipeline K L × Except PipelineError L
  | 0, _, latents, s => (s, .ok latents)
  | n + 1, step, latents, s =>
    match s.denoiseStep req c step latents with
    | (s, .error e) => (s, .error e)
    | (s, .ok latents) => denoiseLoop n (step + 1) latents s

/-- The state of recoveries is per call, but for the watchdog. -/
def begin : WatchedPipeline K L :=
  { s with
    pipeline.recoveryAttempts := 0
    latentCheckpoint := none
    numInferenceSteps := req.numSteps }

/-- `generate`, without a cluster and without the HIP graph. -/
def generate : WatchedPipeline K L × Except PipelineError GeneratedImage :=
  if s.pipeline.shutdown then s.failWith req c .shutdownInProgress req.width req.height
  else if !req.valid then s.failWith req c .invalidRequest req.width req.height
  else
    match c.encodePrompt with
    | .error e => (s.onPipeline Pipeline.countFailure, .error e)
    | .ok () =>
      if !c.latentsAllocated then s.failWith req c .gpuOutOfMemory req.width req.height
      else
        match denoiseLoop req c req.numSteps 0 c.noise (s.begin req) with
        | (s, .error e) => (s, .error e)
        | (s, .ok latents) =>
          match c.decodeLatents latents with
          | .error e => s.failWith req c e req.width req.height
          | .ok image =>
            (s.onPipeline fun p ↦
              { p with acceleration := c.hardware.report p.acceleration }.countCompletion
                |>.storeInferenceRecord req c.now (lit "success") image.width image.height c.totalMs,
              .ok image)

def after (calls : List (GenerationRequest × Surroundings K L)) : WatchedPipeline K L :=
  calls.foldl (fun s x ↦ (s.generate x.1 x.2).1) s

end

section

variable [NatCast K] {s : WatchedPipeline K L} {c : Surroundings K L} {unit : ComputeUnit}
  {rebuilt : Except PipelineError Unit} {step : Nat} {latents : L}

def Saved (s : WatchedPipeline K L) (latents : L) : Prop :=
  ∀ saved, s.latentCheckpoint = some saved → saved = latents

theorem saveCheckpoint_saved (allocated : Bool) : (s.saveCheckpoint latents allocated).Saved latents := by
  intro saved h
  unfold saveCheckpoint at h
  split at h
  · exact (Option.some.inj h).symm
  · cases h

theorem callback_eq (h : s.Saved latents) : s.callback unit rebuilt latents =
    ({ s with
        pipeline.recoveryAttempts :=
          s.pipeline.recoveryAttempts + s.latentCheckpoint.isSome.toNat
        gpuSession := if s.latentCheckpoint.isSome && decide (unit = .gpu780M) then rebuilt.toBool
          else s.gpuSession },
      latents,
      if s.latentCheckpoint.isNone then
        .error (lit "Recovery failed: no latent checkpoint available")
      else match rebuilt with
        | .error e => .error (lit "Recovery failed: " ++ e.toString)
        | .ok () => .ok .success) := by
  obtain ⟨p, w, session, checkpoint, n⟩ := s
  cases checkpoint with
  | none => rfl
  | some saved =>
    obtain rfl := h saved rfl
    cases rebuilt with
    | error e => cases unit <;> rfl
    | ok u => cases unit <;> rfl

theorem onWatchdogRecovery_eq (h : s.Saved latents) : s.onWatchdogRecovery unit rebuilt =
    ({ s with
        pipeline := s.pipeline.attemptRecovery
        gpuSession := if s.latentCheckpoint.isSome && decide (unit = .gpu780M) then rebuilt.toBool
          else s.gpuSession },
      if s.latentCheckpoint.isSome then rebuilt.map fun _ ↦ latents
      else .error .watchdogRecoveryFailed) := by
  obtain ⟨p, w, session, checkpoint, n⟩ := s
  cases checkpoint with
  | none => rfl
  | some saved =>
    obtain rfl := h saved rfl
    cases rebuilt with
    | error e => cases unit <;> rfl
    | ok u => cases unit <;> rfl

theorem runStep_ok {l : L} (h : s.runStep c step latents = .ok l) : s.gpuSession = true := by
  unfold runStep at h
  split at h
  · next hsession => exact hsession
  · cases h

structure Reacted (s : WatchedPipeline K L) (latents : L) (action : Option (RecoveryAction K))
    (rebuilt : Except PipelineError Unit) (r : WatchedPipeline K L × Except PipelineError L) :
    Prop where
  watchdog : r.1.watchdog = s.watchdog
  numInferenceSteps : r.1.numInferenceSteps = s.numInferenceSteps
  latentCheckpoint : r.1.latentCheckpoint = s.latentCheckpoint
  result : ∀ l, r.2 = .ok l → l = latents
  gpuSession : (rebuilt = .ok () ∨ ∃ l, r.2 = .ok l) → r.1.gpuSession = s.gpuSession ∨
    r.1.gpuSession = true
  loaded : ∀ l, r.2 = .ok l → ∀ a, action = some a → a.device = .gpu780M → r.1.gpuSession = true

theorem react_reacted (req : GenerationRequest) (h : s.Saved latents)
    (action : Option (RecoveryAction K)) :
    Reacted s latents action (c.rebuild step) (s.react req c step latents action) := by
  cases action with
  | none =>
    exact ⟨rfl, rfl, rfl, fun _ h ↦ (Except.ok.inj h).symm, fun _ ↦ .inl rfl,
      fun _ _ _ h ↦ (by cases h)⟩
  | some action =>
    unfold react
    dsimp only
    split
    · exact ⟨rfl, rfl, rfl, fun _ h ↦ (by cases h), fun _ ↦ .inl rfl, fun _ h ↦ (by cases h)⟩
    · split
      · exact ⟨rfl, rfl, rfl, fun _ h ↦ (by cases h), fun _ ↦ .inl rfl, fun _ h ↦ (by cases h)⟩
      · generalize c.rebuild step = rebuilt
        obtain ⟨p, w, session, checkpoint, n⟩ := s
        cases checkpoint with
        | none =>
          exact ⟨rfl, rfl, rfl, fun _ h ↦ (by cases h), fun _ ↦ .inl rfl, fun _ h ↦ (by cases h)⟩
        | some saved =>
          obtain rfl := h saved rfl
          cases rebuilt with
          | error e =>
            refine ⟨rfl, rfl, rfl, fun _ h ↦ (by cases h), fun h ↦ ?_, fun _ h ↦ (by cases h)⟩
            rcases h with h | ⟨l, h⟩
            · cases h
            · cases h
          | ok u =>
            refine ⟨rfl, rfl, rfl, fun _ h ↦ (Except.ok.inj h).symm, fun _ ↦ ?_, fun _ _ a ha hunit ↦ ?_⟩
            · by_cases hunit : action.device = .gpu780M
              · exact .inr (if_pos hunit)
              · exact .inl (if_neg hunit)
            · obtain rfl := Option.some.inj ha
              exact if_pos hunit

variable [LinearOrder K]

def answer (s : WatchedPipeline K L) (c : Surroundings K L) (step : Nat) (latents : L) :
    StepOutcome where
  gpuRecovery := (s.watchdog.evaluateGpu (s.input c step latents)).called && s.latentCheckpoint.isSome
  hailoRecovery :=
    (s.watchdog.evaluateHailo (s.input c step latents)).called && s.latentCheckpoint.isSome
  action := (s.watchdog.step (s.input c step latents)).2.map fun a ↦ a.result
  recovery :=
    if s.latentCheckpoint.isSome then (c.rebuild step).map fun _ ↦ .success
    else .error .watchdogRecoveryFailed

def outcome (s : WatchedPipeline K L) (c : Surroundings K L) (step : Nat) (latents : L) :
    StepOutcome :=
  match s.runStep c step latents with
  | .error e => { denoise := .error e }
  | .ok latents =>
    (s.saveCheckpoint latents (c.checkpointAllocated step)).answer c step latents

def answered (s : WatchedPipeline K L) (c : Surroundings K L) (step : Nat)
    (i : UtilizationWatchdog.Input K) : WatchedPipeline K L :=
  { s with
    pipeline.recoveryAttempts := s.pipeline.recoveryAttempts +
      ((s.watchdog.evaluateGpu i).called && s.latentCheckpoint.isSome).toNat +
      ((s.watchdog.evaluateHailo i).called && s.latentCheckpoint.isSome).toNat
    watchdog := (s.watchdog.step i).1
    gpuSession :=
      if (s.watchdog.evaluateGpu i).called && s.latentCheckpoint.isSome
      then (c.gpuRebuild step).toBool else s.gpuSession }

theorem watchdogStep_eq (h : s.Saved latents) : s.watchdogStep c step latents =
    (s.answered c step (s.input c step latents), latents,
      (s.watchdog.step (s.input c step latents)).2) := by
  unfold watchdogStep answered
  dsimp only
  cases (s.watchdog.evaluateGpu (s.input c step latents)).called with
  | false =>
    cases (s.watchdog.evaluateHailo (s.input c step latents)).called with
    | false => rfl
    | true => simp [callback_eq h]
  | true =>
    have hsaved : ({ s with
        pipeline.recoveryAttempts :=
          s.pipeline.recoveryAttempts + s.latentCheckpoint.isSome.toNat
        gpuSession := if s.latentCheckpoint.isSome then (c.gpuRebuild step).toBool
          else s.gpuSession } : WatchedPipeline K L).Saved latents := h
    cases (s.watchdog.evaluateHailo (s.input c step latents)).called with
    | false => simp [callback_eq h]
    | true => simp [callback_eq h, callback_eq hsaved]

/-- A step does what it does in `Pipeline`, for its own outcome. -/
theorem denoiseStep_refines (req : GenerationRequest) {st : Stages} (hnow : st.now = c.now)
    (hstep : st.step step = s.outcome c step latents) :
    ((s.denoiseStep req c step latents).1.pipeline,
      (s.denoiseStep req c step latents).2.map fun _ ↦ ()) = s.pipeline.denoiseStep req st step := by
  unfold denoiseStep Pipeline.denoiseStep
  rw [hstep, outcome]
  cases hrun : s.runStep c step latents with
  | error e => simp [failWith, onPipeline, Pipeline.failWith, hnow]; rfl
  | ok l =>
    dsimp only [answer]
    have hsaved : (s.saveCheckpoint l (c.checkpointAllocated step)).Saved l :=
      saveCheckpoint_saved _
    have hp : s.pipeline = (s.saveCheckpoint l (c.checkpointAllocated step)).pipeline := rfl
    rw [hp]
    generalize s.saveCheckpoint l (c.checkpointAllocated step) = t at *
    cases t.pipeline.watchdog && t.pipeline.cfg.enableWatchdog with
    | false => rfl
    | true =>
      rw [watchdogStep_eq hsaved, answered]
      generalize hgpu : ((t.watchdog.evaluateGpu (t.input c step l)).called &&
        t.latentCheckpoint.isSome) = gpu
      generalize hhailo : ((t.watchdog.evaluateHailo (t.input c step l)).called &&
        t.latentCheckpoint.isSome) = hailo
      cases (t.watchdog.step (t.input c step l)).2 with
      | none => rfl
      | some action =>
        by_cases hmax : t.pipeline.recoveryAttempts + gpu.toNat + hailo.toNat ≥
            t.pipeline.cfg.maxRecoveryAttempts
        · simp [react, onPipeline, Pipeline.countRecovery, Pipeline.watchdogStep, hmax, failWith,
            Pipeline.failWith, hnow, Except.map]
        · by_cases hfatal : action.result = .fatal
          · simp [react, onPipeline, Pipeline.countRecovery, Pipeline.watchdogStep, hmax, hfatal, failWith,
              Pipeline.failWith, hnow, Except.map]
          · simp only [react, onPipeline, Pipeline.countRecovery, Pipeline.watchdogStep, hmax, hfatal,
              ↓reduceIte, Option.map_some]
            rw [@onWatchdogRecovery_eq _ _ _ _ _ _ l]
            · dsimp only
              cases t.latentCheckpoint.isSome with
              | false => rfl
              | true => cases c.rebuild step <;> rfl
            · exact hsaved

def consulted (s : WatchedPipeline K L) (c : Surroundings K L) (step : Nat) (latents : L) :
    UtilizationWatchdog K :=
  match s.runStep c step latents with
  | .error _ => s.watchdog
  | .ok latents =>
    let s := s.saveCheckpoint latents (c.checkpointAllocated step)
    if s.pipeline.watching then (s.watchdog.step (s.input c step latents)).1 else s.watchdog

structure Effect (s : WatchedPipeline K L) (c : Surroundings K L) (step : Nat) (latents : L)
    (r : WatchedPipeline K L × Except PipelineError L) : Prop where
  watchdog : r.1.watchdog = s.consulted c step latents
  numInferenceSteps : r.1.numInferenceSteps = s.numInferenceSteps
  result : ∀ l, r.2 = .ok l → s.runStep c step latents = .ok l ∧ r.1.latentCheckpoint =
    (s.saveCheckpoint l (c.checkpointAllocated step)).latentCheckpoint
  loaded : ∀ l, r.2 = .ok l → r.1.gpuSession = true
  gpuSession : s.gpuSession = true → c.gpuRebuild step = .ok () → c.rebuild step = .ok () →
    r.1.gpuSession = true

theorem consulted_ok {l : L} (hrun : s.runStep c step latents = .ok l) :
    s.consulted c step latents =
      if s.pipeline.watching then
        (s.watchdog.step
          ((s.saveCheckpoint l (c.checkpointAllocated step)).input c step l)).1
      else s.watchdog := by
  simp only [consulted, hrun]
  rfl

theorem denoiseStep_effect (s : WatchedPipeline K L) (req : GenerationRequest)
    (c : Surroundings K L) (step : Nat) (latents : L) :
    Effect s c step latents (s.denoiseStep req c step latents) := by
  unfold denoiseStep
  cases hrun : s.runStep c step latents with
  | error e =>
    exact ⟨by simp [consulted, hrun, failWith, onPipeline], rfl, fun _ h ↦ (by cases h),
      fun _ h ↦ (by cases h), fun h _ _ ↦ h⟩
  | ok l =>
    have hsession := runStep_ok hrun
    have hsaved : (s.saveCheckpoint l (c.checkpointAllocated step)).Saved l :=
      saveCheckpoint_saved _
    have hconsulted := consulted_ok hrun
    dsimp only
    cases hw : s.pipeline.watching with
    | false =>
      have hoff : ((s.saveCheckpoint l (c.checkpointAllocated step)).pipeline.watchdog &&
        (s.saveCheckpoint l (c.checkpointAllocated step)).pipeline.cfg.enableWatchdog) = false := hw
      rw [hoff]
      rw [hw] at hconsulted
      refine ⟨hconsulted.symm, rfl, fun l' h ↦ ?_, fun _ _ ↦ hsession, fun _ _ _ ↦ hsession⟩
      obtain rfl := Except.ok.inj h
      exact ⟨hrun, rfl⟩
    | true =>
      have hon : ((s.saveCheckpoint l (c.checkpointAllocated step)).pipeline.watchdog &&
        (s.saveCheckpoint l (c.checkpointAllocated step)).pipeline.cfg.enableWatchdog) = true := hw
      rw [hon, watchdogStep_eq hsaved]
      rw [hw, if_pos rfl] at hconsulted
      generalize hcheckpoint : s.saveCheckpoint l (c.checkpointAllocated step) = t at *
      have hwatchdog : t.watchdog = s.watchdog := hcheckpoint ▸ rfl
      have hloaded : t.gpuSession = true := hcheckpoint ▸ hsession
      generalize t.input c step l = i at *
      dsimp only
      rw [if_pos rfl]
      have hr := @react_reacted K L _ (t.answered c step i) c step l req hsaved (t.watchdog.step i).2
      have hanswered : c.gpuRebuild step = .ok () ∨ (t.watchdog.evaluateGpu i).called = false →
          (t.answered c step i).gpuSession = true := by
        unfold answered
        rintro (h | h)
        · simp [h, hloaded, Except.toBool]
        · simp [h, hloaded]
      have hstep : (t.answered c step i).watchdog = s.consulted c step latents := by
        rw [hconsulted, ← hwatchdog]
        rfl
      refine ⟨hr.watchdog.trans hstep, hr.numInferenceSteps.trans (hcheckpoint ▸ rfl),
        fun l' h ↦ ?_, fun l' h ↦ ?_, fun _ hgpu hrebuild ↦ ?_⟩
      · obtain rfl := hr.result l' h
        exact ⟨hrun, hr.latentCheckpoint.trans (hcheckpoint ▸ rfl)⟩
      · cases hcalled : (t.watchdog.evaluateGpu i).called with
        | true =>
          have hasks : t.watchdog.asks .gpu780M i = true :=
            UtilizationWatchdog.evaluate_called hcalled
          obtain ⟨a, ha, hunit⟩ := UtilizationWatchdog.step_action_gpu hasks
          exact hr.loaded l' h a ha hunit
        | false =>
          rcases hr.gpuSession (.inr ⟨l', h⟩) with hkept | hset
          · exact hkept.trans (hanswered (.inr hcalled))
          · exact hset
      · rcases hr.gpuSession (.inl hrebuild) with hkept | hset
        · exact hkept.trans (hanswered (.inl hgpu))
        · exact hset

theorem Effect.watchdog_fixed {r : WatchedPipeline K L × Except PipelineError L}
    (h : Effect s c step latents r) :
    r.1.watchdog.cfg = s.watchdog.cfg ∧ r.1.watchdog.onRecovery = s.watchdog.onRecovery := by
  rw [h.watchdog, consulted]
  split
  · exact ⟨rfl, rfl⟩
  · dsimp only
    split
    · exact ⟨rfl, rfl⟩
    · exact ⟨rfl, rfl⟩

/-- A loop does what it does in `Pipeline`, for the outcomes of its steps. -/
theorem denoiseLoop_refines (req : GenerationRequest) (c : Surroundings K L) (n step : Nat)
    (latents : L) (s : WatchedPipeline K L) : ∃ f : Nat → StepOutcome, ∀ st : Stages,
      st.now = c.now → (∀ k, step ≤ k → st.step k = f k) →
      ((denoiseLoop req c n step latents s).1.pipeline,
        (denoiseLoop req c n step latents s).2.map fun _ ↦ ()) =
        Pipeline.denoiseLoop req st n step s.pipeline := by
  induction n generalizing step latents s with
  | zero => exact ⟨fun _ ↦ {}, fun _ _ _ ↦ rfl⟩
  | succ n ih =>
    cases hs : s.denoiseStep req c step latents with
    | mk t r =>
      cases r with
      | error e =>
        refine ⟨fun _ ↦ s.outcome c step latents, fun st hnow hst ↦ ?_⟩
        have href := denoiseStep_refines req hnow (hst step le_rfl)
        rw [hs] at href
        rw [denoiseLoop, Pipeline.denoiseLoop, hs, ← href]
        rfl
      | ok l =>
        obtain ⟨f, hf⟩ := ih (step + 1) l t
        refine ⟨Function.update f step (s.outcome c step latents), fun st hnow hst ↦ ?_⟩
        have href := denoiseStep_refines req hnow ((hst step le_rfl).trans (Function.update_self ..))
        rw [hs] at href
        rw [denoiseLoop, Pipeline.denoiseLoop, hs, ← href]
        refine hf st hnow fun k hk ↦ ?_
        have hne : k ≠ step := by omega
        rw [hst k (by omega), Function.update_of_ne hne]

/-- What `Pipeline` leaves to the outside is what the watchdog and the recoveries come to. -/
theorem generate_refines (s : WatchedPipeline K L) (req : GenerationRequest)
    (c : Surroundings K L) (hlocal : s.pipeline.transport = false)
    (hhip : s.pipeline.cfg.enableHipGraph = false) :
    ∃ st : Stages, ((s.generate req c).1.pipeline, (s.generate req c).2) =
      s.pipeline.generate req st := by
  obtain ⟨f, hf⟩ := denoiseLoop_refines req c req.numSteps 0 c.noise (s.begin req)
  cases hl : denoiseLoop req c req.numSteps 0 c.noise (s.begin req) with
  | mk t r =>
    let st : Stages :=
      { now := c.now
        encodePrompt := c.encodePrompt
        latentsAllocated := c.latentsAllocated
        step := f
        decodeLatents := r.bind c.decodeLatents
        hardware := c.hardware
        totalMs := c.totalMs }
    have hloop := hf st rfl fun _ _ ↦ rfl
    rw [hl] at hloop
    have hdispatch : s.pipeline.dispatch st = none := by simp [Pipeline.dispatch, hlocal]
    have hdenoise : ({ s.pipeline with recoveryAttempts := 0 } : Pipeline).denoise req st =
        (t.pipeline, r.map fun _ ↦ ()) := by
      rw [hloop]
      simp [Pipeline.denoise, hhip, begin]
    refine ⟨st, ?_⟩
    unfold generate Pipeline.generate
    cases s.pipeline.shutdown with
    | true => rfl
    | false =>
      cases req.valid with
      | false => rfl
      | true =>
        rw [hdispatch, Pipeline.generateLocally, hdenoise, hl]
        cases he : c.encodePrompt with
        | error e => simp [st, he]; rfl
        | ok u =>
          cases ha : c.latentsAllocated with
          | false => simp [st, he, ha]; rfl
          | true =>
            cases r with
            | error e => simp [st, he, ha, Except.map]
            | ok l =>
              cases hd : c.decodeLatents l with
              | error e => simp [st, he, ha, hd, Except.map, Except.bind]; rfl
              | ok image => simp [st, he, ha, hd, Except.map, Except.bind]; rfl

end

end WatchedPipeline

end Cerberus.Generation
