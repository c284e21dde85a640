import Cerberus.Generation.Independence

namespace Cerberus.Generation

open Foundation Foundation.Bytes Watchdog

variable {K L : Type} [NatCast K] [LinearOrder K]

namespace WatchedPipeline

variable {s s' s'' : WatchedPipeline K L} {c : Surroundings K L} {step : Nat} {latents : L}

omit [LinearOrder K] in
theorem Peers.refl (s : WatchedPipeline K L) : Peers s s := ⟨⟨rfl, rfl, rfl, rfl⟩, rfl, rfl, rfl⟩

omit [LinearOrder K] in
theorem peers_begin (s : WatchedPipeline K L) (req : GenerationRequest) : Peers s (s.begin req) :=
  ⟨⟨rfl, rfl, rfl, rfl⟩, rfl, rfl, rfl⟩

omit [LinearOrder K] in
theorem Peers.trans (h : Peers s s') (h' : Peers s' s'') : Peers s s'' :=
  ⟨h.fixed.trans h'.fixed, h'.gpuSession.trans h.gpuSession, h'.watchdogCfg.trans h.watchdogCfg,
    h'.onRecovery.trans h.onRecovery⟩

omit [LinearOrder K] in
theorem Peers.watching (h : Peers s s') : s'.pipeline.watching = s.pipeline.watching := by
  rw [Pipeline.watching, h.fixed.watchdog, h.fixed.cfg, Pipeline.watching]

theorem called_eq_false {w : UtilizationWatchdog K} {unit : ComputeUnit}
    {i : UtilizationWatchdog.Input K} (h : w.asks unit i = false) :
    (w.evaluate unit i).called = false := by
  rw [UtilizationWatchdog.evaluate_called_eq, h]
  rfl

theorem answer_alone (hsaved : s.latentCheckpoint.isSome = true) {unit : ComputeUnit}
    (hother : ∀ unit', unit' ≠ unit → s.watchdog.asks unit' (s.input c step latents) = false)
    (maxAttempts attempts : Nat) :
    (s.answer c step latents).verdict true maxAttempts attempts =
      if s.watchdog.asks unit (s.input c step latents) then
        if attempts + (s.watchdog.evaluate unit (s.input c step latents)).called.toNat ≥ maxAttempts
        then .error .recoveryTooManyAttempts
        else if s.watchdog.fails (s.watchdog.deviceOf unit) ((s.input c step latents).reply unit)
        then .error .watchdogRecoveryFailed
        else (c.rebuild step).map fun _ ↦
          attempts + (s.watchdog.evaluate unit (s.input c step latents)).called.toNat + 1
      else .ok attempts := by
  have hsome : (s.answer c step latents).action.isSome =
      s.watchdog.asks unit (s.input c step latents) := by
    rw [answer_action_isSome]
    cases unit with
    | gpu780M => rw [hother .hailo8L (by decide), Bool.or_false]
    | hailo8L => rw [hother .gpu780M (by decide), Bool.false_or]
  have hfatal : (s.answer c step latents).action = some .fatal ↔
      (s.watchdog.asks unit (s.input c step latents) &&
        s.watchdog.fails (s.watchdog.deviceOf unit) ((s.input c step latents).reply unit)) = true := by
    refine UtilizationWatchdog.step_action_fatal.trans ?_
    cases unit with
    | gpu780M =>
      rw [hother .hailo8L (by decide), Bool.false_and]
      cases s.watchdog.asks .gpu780M (s.input c step latents) <;> rfl
    | hailo8L =>
      rw [hother .gpu780M (by decide), if_neg Bool.false_ne_true]
      rfl
  have hcalled : attempts + (s.answer c step latents).gpuRecovery.toNat +
      (s.answer c step latents).hailoRecovery.toNat =
        attempts + (s.watchdog.evaluate unit (s.input c step latents)).called.toNat := by
    simp only [answer, hsaved, Bool.and_true]
    cases unit with
    | gpu780M =>
      have hquiet : (s.watchdog.evaluateHailo (s.input c step latents)).called = false :=
        called_eq_false (hother .hailo8L (by decide))
      rw [hquiet]
      rfl
    | hailo8L =>
      have hquiet : (s.watchdog.evaluateGpu (s.input c step latents)).called = false :=
        called_eq_false (hother .gpu780M (by decide))
      rw [hquiet]
      rfl
  have hrecovery : (s.answer c step latents).recovery = (c.rebuild step).map fun _ ↦ .success := by
    simp only [answer, hsaved, ↓reduceIte]
  have hdenoise : (s.answer c step latents).denoise = .ok () := rfl
  unfold StepOutcome.verdict
  rw [hdenoise, hrecovery, hcalled]
  cases hasks : s.watchdog.asks unit (s.input c step latents) with
  | false =>
    have hnone : (s.answer c step latents).action = none := by
      rw [← Option.not_isSome_iff_eq_none, hsome, hasks]
      exact Bool.false_ne_true
    rw [hnone, called_eq_false hasks]
    rfl
  | true =>
    obtain ⟨result, ha⟩ := Option.isSome_iff_exists.mp (hsome.trans hasks)
    rw [ha, hasks, Option.some.injEq, Bool.true_and] at hfatal
    simp only [ha, hfatal, Bool.not_true, Bool.false_eq_true, ↓reduceIte]
    cases c.rebuild step <;> rfl

end WatchedPipeline

def replyOf : Except PipelineError Unit → Reply
  | .error e => .error (lit "Recovery failed: " ++ e.toString)
  | .ok () => .ok .success

variable (samples : ComputeUnit → Nat → UtilizationSnapshot K) (rebuilt : Except PipelineError Unit)

/-- A call for the given samples in which nothing fails, except perhaps to rebuild a session. -/
def probe [Inhabited L] : Surroundings K L where
  noise := default
  runUnet := fun _ _ l ↦ .ok l
  gpuSnap := samples .gpu780M
  hailoSnap := samples .hailo8L
  gpuRebuild := fun _ ↦ rebuilt
  hailoRebuild := fun _ ↦ rebuilt
  rebuild := fun _ ↦ rebuilt
  decodeLatents := fun _ ↦ .ok ⟨8, 8⟩

def probeInput (step : Nat) : UtilizationWatchdog.Input K where
  stepNum := UInt32.ofNat step
  gpuSnap := samples .gpu780M step
  hailoSnap := samples .hailo8L step
  gpuReply := replyOf rebuilt
  hailoReply := replyOf rebuilt

def probeRequest (n : Nat) : GenerationRequest := { prompt := [], width := 8, height := 8, numSteps := n }

def OnlyLow (w : UtilizationWatchdog K) (unit : ComputeUnit) : Prop :=
  ∀ unit', unit' ≠ unit → ∀ step,
    (samples unit' step).utilization.atLeast (w.lowThreshold unit') = true

def probeVerdict (w : UtilizationWatchdog K) (unit : ComputeUnit) (maxAttempts attempts step : Nat) :
    Except PipelineError Nat :=
  let i := probeInput samples rebuilt step
  if w.asks unit i then
    if attempts + (w.evaluate unit i).called.toNat ≥ maxAttempts then
      .error .recoveryTooManyAttempts
    else if w.fails (w.deviceOf unit) (replyOf rebuilt) then .error .watchdogRecoveryFailed
    else rebuilt.map fun _ ↦ attempts + (w.evaluate unit i).called.toNat + 1
  else .ok attempts

variable {samples rebuilt}

omit [NatCast K] [LinearOrder K] in
theorem probeInput_snap (step : Nat) (unit : ComputeUnit) :
    (probeInput samples rebuilt step).snap unit = samples unit step := by
  cases unit <;> rfl

omit [NatCast K] [LinearOrder K] in
theorem probeInput_reply (step : Nat) (unit : ComputeUnit) :
    (probeInput samples rebuilt step).reply unit = replyOf rebuilt := by
  cases unit <;> rfl

theorem OnlyLow.asks {w : UtilizationWatchdog K} {unit : ComputeUnit} (h : OnlyLow samples w unit)
    {unit' : ComputeUnit} (hne : unit' ≠ unit) (step : Nat) :
    w.asks unit' (probeInput samples rebuilt step) = false := by
  rw [← Bool.not_eq_true]
  intro hasks
  have hlow := UtilizationWatchdog.asks_low hasks
  rw [probeInput_snap] at hlow
  cases hlow.symm.trans (h unit' hne step)

namespace WatchedPipeline

variable [Inhabited L] {s : WatchedPipeline K L} {unit : ComputeUnit}

omit [LinearOrder K] in
theorem probe_input (step : Nat) (l : L) :
    (s.saveCheckpoint l true).input (probe samples rebuilt) step l =
      probeInput samples rebuilt step := by
  rw [input, callback_eq (saveCheckpoint_saved _), callback_eq (saveCheckpoint_saved _)]
  cases rebuilt <;> simp [saveCheckpoint, probe, probeInput, replyOf]

theorem probe_verdict (hloaded : s.gpuSession = true) (hlow : OnlyLow samples s.watchdog unit)
    (step : Nat) (l : L) (maxAttempts attempts : Nat) :
    (s.outcome (probe samples rebuilt) step l).verdict true maxAttempts attempts =
      probeVerdict samples rebuilt s.watchdog unit maxAttempts attempts step := by
  have hrun : s.runStep (probe samples rebuilt) step l = .ok l := by
    simp [runStep, hloaded, probe]
  rw [outcome_eq hrun]
  have hinput : (s.saveCheckpoint l ((probe samples rebuilt : Surroundings K L).checkpointAllocated
      step)).input (probe samples rebuilt) step l = probeInput samples rebuilt step :=
    probe_input step l
  have hsaved : (s.saveCheckpoint l ((probe samples rebuilt : Surroundings K L).checkpointAllocated
      step)).latentCheckpoint.isSome = true := by
    simp [saveCheckpoint, probe]
  rw [answer_alone hsaved (fun unit' hne ↦ ?_), hinput, probeInput_reply]
  · rfl
  · rw [hinput]
    exact hlow.asks hne step

omit [LinearOrder K] [Inhabited L] in
theorem Peers.lowThreshold {s' : WatchedPipeline K L} (hp : Peers s s') (unit : ComputeUnit) :
    s'.watchdog.lowThreshold unit = s.watchdog.lowThreshold unit := by
  simp only [UtilizationWatchdog.lowThreshold, hp.watchdogCfg]

omit [LinearOrder K] [Inhabited L] in
theorem Peers.criticalThreshold {s' : WatchedPipeline K L} (hp : Peers s s') (unit : ComputeUnit) :
    s'.watchdog.criticalThreshold unit = s.watchdog.criticalThreshold unit := by
  simp only [UtilizationWatchdog.criticalThreshold, hp.watchdogCfg]

omit [Inhabited L] in
theorem Peers.onlyLow {s' : WatchedPipeline K L} (hp : Peers s s')
    (h : OnlyLow samples s.watchdog unit) : OnlyLow samples s'.watchdog unit := by
  intro unit' hne step
  rw [hp.lowThreshold]
  exact h unit' hne step

structure Monitored (s : WatchedPipeline K L) : Prop where
  loaded : s.gpuSession = true
  watching : s.pipeline.watching = true

omit [LinearOrder K] [Inhabited L] in
theorem Monitored.peers (h : Monitored s) {s' : WatchedPipeline K L} (hp : Peers s s') : Monitored s' :=
  ⟨hp.gpuSession.trans h.loaded, hp.watching.trans h.watching⟩

theorem probe_result (h : Monitored s) (hlow : OnlyLow samples s.watchdog unit)
    (rebuilt : Except PipelineError Unit) (req : GenerationRequest) (step : Nat) (l : L) :
    ((s.denoiseStep req (probe samples rebuilt) step l).2.map fun _ ↦
      (s.denoiseStep req (probe samples rebuilt) step l).1.pipeline.recoveryAttempts) =
      probeVerdict samples rebuilt s.watchdog unit s.pipeline.cfg.maxRecoveryAttempts
        s.pipeline.recoveryAttempts step := by
  rw [(denoiseStep_result req s _ step l).2, h.watching, probe_verdict h.loaded hlow]

theorem probe_fails (h : Monitored s) (hlow : OnlyLow samples s.watchdog unit)
    (req : GenerationRequest) {step : Nat} {e : PipelineError}
    (hverdict : probeVerdict samples rebuilt s.watchdog unit s.pipeline.cfg.maxRecoveryAttempts
      s.pipeline.recoveryAttempts step = .error e) (l : L) :
    (s.denoiseStep req (probe samples rebuilt) step l).2 = .error e := by
  have hresult := probe_result h hlow rebuilt req step l
  rw [hverdict] at hresult
  cases hs : (s.denoiseStep req (probe samples rebuilt) step l).2 with
  | error e' =>
    rw [hs] at hresult
    exact congrArg Except.error (Except.error.inj hresult)
  | ok l' =>
    rw [hs] at hresult
    cases hresult

theorem probe_passes (h : Monitored s) (hlow : OnlyLow samples s.watchdog unit)
    (req : GenerationRequest) {step made : Nat}
    (hverdict : probeVerdict samples rebuilt s.watchdog unit s.pipeline.cfg.maxRecoveryAttempts
      s.pipeline.recoveryAttempts step = .ok made) (l : L) :
    ∃ s', s.denoiseStep req (probe samples rebuilt) step l = (s', .ok l) ∧ Peers s s' ∧
      s'.pipeline.recoveryAttempts = made ∧
      s'.watchdog = (s.watchdog.step (probeInput samples rebuilt step)).1 := by
  have hresult := probe_result h hlow rebuilt req step l
  have heffect := denoiseStep_effect s req (probe samples rebuilt) step l
  have hfixed := (denoiseStep_result req s (probe samples rebuilt) step l).1
  have hrun : s.runStep (probe samples rebuilt) step l = .ok l := by
    simp [runStep, h.loaded, probe]
  have hwatchdog := heffect.watchdog.trans (consulted_ok hrun)
  rw [h.watching, if_pos rfl] at hwatchdog
  have hinput : (s.saveCheckpoint l ((probe samples rebuilt : Surroundings K L).checkpointAllocated
      step)).input (probe samples rebuilt) step l = probeInput samples rebuilt step :=
    probe_input step l
  rw [hinput] at hwatchdog
  rw [hverdict] at hresult
  generalize s.denoiseStep req (probe samples rebuilt) step l = x at *
  obtain ⟨s', r⟩ := x
  cases r with
  | error e => cases hresult
  | ok l' =>
    obtain ⟨hrun', -⟩ := heffect.result l' rfl
    obtain rfl : l = l' := Except.ok.inj (hrun.symm.trans hrun')
    obtain ⟨hcfg, hcallback⟩ := heffect.watchdog_fixed
    exact ⟨s', rfl, ⟨hfixed, (heffect.loaded l rfl).trans h.loaded.symm, hcfg, hcallback⟩,
      Except.ok.inj hresult, hwatchdog⟩

/-- So many steps of the loop do nothing to the latents and lead to `s'`. -/
def Follows (req : GenerationRequest) (c : Surroundings K L) (k step : Nat) (l : L)
    (s s' : WatchedPipeline K L) : Prop :=
  ∀ m, denoiseLoop req c (k + m) step l s = denoiseLoop req c m (step + k) l s'

variable {req : GenerationRequest} {c : Surroundings K L} {l : L} {s' s'' : WatchedPipeline K L}

omit [Inhabited L] in
theorem Follows.refl (req : GenerationRequest) (c : Surroundings K L) (step : Nat) (l : L)
    (s : WatchedPipeline K L) : Follows req c 0 step l s s := by
  intro m
  rw [Nat.zero_add, Nat.add_zero]

omit [Inhabited L] in
theorem Follows.cons {k step : Nat} (hs : s.denoiseStep req c step l = (s', .ok l))
    (h : Follows req c k (step + 1) l s' s'') : Follows req c (k + 1) step l s s'' := by
  intro m
  rw [Nat.add_right_comm, denoiseLoop, hs]
  dsimp only
  rw [h m, Nat.add_assoc step 1 k, Nat.add_comm 1 k]

omit [Inhabited L] in
theorem Follows.trans {k k' step : Nat} (h : Follows req c k step l s s')
    (h' : Follows req c k' (step + k) l s' s'') : Follows req c (k + k') step l s s'' := by
  intro m
  rw [Nat.add_assoc, h, h', Nat.add_assoc]

/-- Steps whose samples are low but too hot only prolong the streak. -/
theorem hot_run (req : GenerationRequest) (rebuilt : Except PipelineError Unit) (h : Monitored s)
    (hlow : OnlyLow samples s.watchdog unit) {k step : Nat}
    (hhot : ∀ j < k,
      (samples unit (step + j)).utilization.atLeast (s.watchdog.lowThreshold unit) = false ∧
      s.watchdog.thermalSkipRecovery (samples unit (step + j)).temperature = true) (l : L) :
    ∃ s', Follows req (probe samples rebuilt) k step l s s' ∧ Peers s s' ∧
      (s'.watchdog.deviceOf unit).consecutive =
        (s.watchdog.deviceOf unit).consecutive + UInt32.ofNat k ∧
      (s'.watchdog.deviceOf unit).inRecovery = (s.watchdog.deviceOf unit).inRecovery := by
  induction k generalizing s step with
  | zero => exact ⟨s, Follows.refl _ _ _ _ _, .refl s, (UInt32.add_zero _).symm, rfl⟩
  | succ k ih =>
    obtain ⟨hsample, htherm⟩ := hhot 0 (Nat.succ_pos k)
    have hquiet : s.watchdog.asks unit (probeInput samples rebuilt step) = false := by
      simp only [UtilizationWatchdog.asks, UtilizationWatchdog.triggers, probeInput_snap]
      rw [Nat.add_zero] at htherm
      simp [htherm]
    have hverdict : probeVerdict samples rebuilt s.watchdog unit s.pipeline.cfg.maxRecoveryAttempts
        s.pipeline.recoveryAttempts step = .ok s.pipeline.recoveryAttempts := by
      simp [probeVerdict, hquiet]
    obtain ⟨s₁, hs₁, hpeers, -, hwatchdog⟩ := probe_passes h hlow req hverdict l
    have hmoves := UtilizationWatchdog.step_moves s.watchdog unit (probeInput samples rebuilt step)
    rw [← hwatchdog] at hmoves
    have hsample : ((probeInput samples rebuilt step).snap unit).utilization.atLeast
        (s.watchdog.lowThreshold unit) = false := by
      rw [probeInput_snap]
      exact hsample
    obtain ⟨hcons, hrec, -⟩ := hmoves.falls hsample hquiet
    have hnext : ∀ j < k,
        (samples unit (step + 1 + j)).utilization.atLeast (s₁.watchdog.lowThreshold unit) = false ∧
        s₁.watchdog.thermalSkipRecovery (samples unit (step + 1 + j)).temperature = true := by
      intro j hj
      have hj' := hhot (j + 1) (by omega)
      rw [Nat.add_right_comm, Nat.add_assoc, hpeers.lowThreshold,
        UtilizationWatchdog.thermalSkipRecovery, hpeers.watchdogCfg]
      exact hj'
    obtain ⟨s₂, hfollows, hpeers₂, hcons₂, hrec₂⟩ := ih (h.peers hpeers) (hpeers.onlyLow hlow) hnext
    refine ⟨s₂, Follows.cons hs₁ hfollows, hpeers.trans hpeers₂, ?_, hrec₂.trans hrec⟩
    rw [hcons₂, hcons, UInt32.add_assoc, UInt32.ofNat_add, UInt32.add_comm (UInt32.ofNat k)]
    rfl

omit [Inhabited L] in
theorem asks_critical {w : UtilizationWatchdog K} {step : Nat}
    (hx : samples unit step = ⟨none, none⟩) :
    w.asks unit (probeInput samples rebuilt step) = !(w.deviceOf unit).inRecovery := by
  unfold UtilizationWatchdog.asks UtilizationWatchdog.triggers UtilizationWatchdog.thermalSkipRecovery
  rw [probeInput_snap, hx]
  simp [Reading.atLeast, Reading.above]

theorem recovering_run (req : GenerationRequest) (h : Monitored s)
    (hlow : OnlyLow samples s.watchdog unit) {k step : Nat}
    (hcritical : ∀ j < k, samples unit (step + j) = ⟨none, none⟩)
    (hcallback : s.watchdog.onRecovery = true)
    (hrec : (s.watchdog.deviceOf unit).inRecovery = false)
    (hcount : (s.watchdog.deviceOf unit).recoveryCount.toNat + k ≤
      s.watchdog.cfg.maxRecoveries.toNat)
    (hattempts : s.pipeline.recoveryAttempts + 2 * k ≤ s.pipeline.cfg.maxRecoveryAttempts) (l : L) :
    ∃ s', Follows req (probe samples (.ok ())) k step l s s' ∧ Peers s s' ∧
      s'.pipeline.recoveryAttempts = s.pipeline.recoveryAttempts + 2 * k ∧
      (s'.watchdog.deviceOf unit).recoveryCount.toNat =
        (s.watchdog.deviceOf unit).recoveryCount.toNat + k ∧
      (s'.watchdog.deviceOf unit).inRecovery = false := by
  induction k generalizing s step with
  | zero => exact ⟨s, Follows.refl _ _ _ _ _, .refl s, rfl, rfl, hrec⟩
  | succ k ih =>
    have hlt : (s.watchdog.deviceOf unit).recoveryCount < s.watchdog.cfg.maxRecoveries := by
      rw [UInt32.lt_iff_toNat_lt]
      omega
    have hasks : s.watchdog.asks unit (probeInput samples (.ok ()) step) = true := by
      have hfirst : samples unit step = ⟨none, none⟩ := hcritical 0 (Nat.succ_pos k)
      rw [asks_critical hfirst, hrec]
      rfl
    have hcalled : (s.watchdog.evaluate unit (probeInput samples (.ok ()) step)).called = true := by
      rw [UtilizationWatchdog.evaluate_called_eq, hasks, hcallback, decide_eq_true hlt]
      rfl
    have hsucceeds : s.watchdog.fails (s.watchdog.deviceOf unit) (replyOf (.ok ())) = false := by
      simp [UtilizationWatchdog.fails, hcallback, hlt, replyOf, UtilizationWatchdog.resultOf]
    have hverdict : probeVerdict samples (.ok ()) s.watchdog unit s.pipeline.cfg.maxRecoveryAttempts
        s.pipeline.recoveryAttempts step = .ok (s.pipeline.recoveryAttempts + 1 + 1) := by
      have hless : ¬ s.pipeline.recoveryAttempts + 1 ≥ s.pipeline.cfg.maxRecoveryAttempts := by omega
      simp [probeVerdict, hasks, hcalled, hsucceeds, hless, Except.map]
    obtain ⟨s₁, hs₁, hpeers, hmade, hwatchdog⟩ := probe_passes h hlow req hverdict l
    have hmoves := UtilizationWatchdog.step_moves s.watchdog unit (probeInput samples (.ok ()) step)
    rw [← hwatchdog] at hmoves
    obtain ⟨-, hrec₁, hcount₁⟩ := hmoves.tries hasks hlt
    have hsucc := UtilizationWatchdog.toNat_succ_of_lt hlt
    rw [← hcount₁] at hsucc
    have hnext : ∀ j < k, samples unit (step + 1 + j) = ⟨none, none⟩ := by
      intro j hj
      rw [Nat.add_right_comm, Nat.add_assoc]
      exact hcritical (j + 1) (by omega)
    obtain ⟨s₂, hfollows, hpeers₂, hmade₂, hcount₂, hrec₂⟩ := ih (h.peers hpeers)
      (hpeers.onlyLow hlow) hnext (hpeers.onRecovery.trans hcallback) hrec₁
      (by rw [hpeers.watchdogCfg]; omega) (by rw [hpeers.fixed.cfg]; omega)
    exact ⟨s₂, Follows.cons hs₁ hfollows, hpeers.trans hpeers₂, by omega, by omega, hrec₂⟩

omit [LinearOrder K] [Inhabited L] in
theorem Monitored.begin (h : Monitored s) (req : GenerationRequest) : Monitored (s.begin req) :=
  ⟨h.loaded, h.watching⟩

theorem probe_generate (hshutdown : s.pipeline.shutdown = false) {n : Nat} (hn : 1 ≤ n)
    (hn' : n ≤ 150) : (s.generate (probeRequest n) (probe samples rebuilt)).2 =
      (denoiseLoop (probeRequest n) (probe samples rebuilt) n 0 default
        (s.begin (probeRequest n))).2.map fun _ ↦ ⟨8, 8⟩ := by
  have hvalid : (probeRequest n).valid = true := by
    have hpos : ¬ n = 0 := by omega
    have hmax : ¬ n > 150 := by omega
    simp [GenerationRequest.valid, probeRequest, hpos, hmax]
  have hencode : (probe samples rebuilt : Surroundings K L).encodePrompt = .ok () := rfl
  have hlatents : (probe samples rebuilt : Surroundings K L).latentsAllocated = true := rfl
  have hloop : denoiseLoop (probeRequest n) (probe samples rebuilt) (probeRequest n).numSteps 0
      (probe samples rebuilt : Surroundings K L).noise (s.begin (probeRequest n)) =
    denoiseLoop (probeRequest n) (probe samples rebuilt) n 0 default (s.begin (probeRequest n)) := rfl
  unfold generate
  rw [hshutdown, hvalid, hencode, hlatents, hloop]
  simp only [Bool.false_eq_true, ↓reduceIte, Bool.not_true]
  cases denoiseLoop (probeRequest n) (probe samples rebuilt) n 0 default
      (s.begin (probeRequest n)) with
  | mk s' r => cases r <;> rfl

theorem probe_last (h : Monitored s) (hlow : OnlyLow samples s.watchdog unit) (step : Nat) :
    (denoiseLoop req (probe samples rebuilt) 1 step l s).2 =
      (probeVerdict samples rebuilt s.watchdog unit s.pipeline.cfg.maxRecoveryAttempts
        s.pipeline.recoveryAttempts step).map fun _ ↦ l := by
  cases hverdict : probeVerdict samples rebuilt s.watchdog unit s.pipeline.cfg.maxRecoveryAttempts
      s.pipeline.recoveryAttempts step with
  | error e =>
    have hfails := probe_fails h hlow req hverdict l
    rw [denoiseLoop]
    cases hs : s.denoiseStep req (probe samples rebuilt) step l with
    | mk s' r =>
      rw [hs] at hfails
      obtain rfl : r = .error e := hfails
      rfl
  | ok made =>
    obtain ⟨s', hs', -⟩ := probe_passes h hlow req hverdict l
    rw [denoiseLoop, hs']
    rfl

theorem probe_run (h : Monitored s') (hlow : OnlyLow samples s'.watchdog unit)
    (hshutdown : s.pipeline.shutdown = false) {k : Nat} (hk : k < 150)
    (hfollows : Follows (probeRequest (k + 1)) (probe samples rebuilt) k 0 default
      (s.begin (probeRequest (k + 1))) s') :
    (s.generate (probeRequest (k + 1)) (probe samples rebuilt)).2 =
      (probeVerdict samples rebuilt s'.watchdog unit s'.pipeline.cfg.maxRecoveryAttempts
        s'.pipeline.recoveryAttempts k).map fun _ ↦ ⟨8, 8⟩ := by
  rw [probe_generate hshutdown (by omega) (by omega), hfollows 1, probe_last h hlow, Nat.zero_add]
  cases probeVerdict samples rebuilt s'.watchdog unit s'.pipeline.cfg.maxRecoveryAttempts
    s'.pipeline.recoveryAttempts k <;> rfl

end WatchedPipeline

def probeSamples (busy : ComputeUnit → Reading K) (unit : ComputeUnit)
    (x : Nat → UtilizationSnapshot K) : ComputeUnit → Nat → UtilizationSnapshot K :=
  fun unit' k ↦ if unit' = unit then x k else ⟨busy unit', none⟩

def hotSamples (util temperature : Reading K) (n : Nat) : Nat → UtilizationSnapshot K :=
  fun k ↦ ⟨util, if k < n then temperature else none⟩

def criticalSamples (high : Reading K) (n : Nat) : Nat → UtilizationSnapshot K :=
  fun k ↦ ⟨if k < n then high else none, none⟩

structure Discerns (w : UtilizationWatchdog K) : Prop where
  normal : ∀ unit, ∃ util : Reading K, util.atLeast (w.lowThreshold unit) = true
  warning : ∀ unit, ∃ util : Reading K, util.atLeast (w.lowThreshold unit) = false ∧
    util.atLeast (w.criticalThreshold unit) = true
  hot : ∃ temperature, w.thermalSkipRecovery temperature = true

theorem Discerns.of_lt {w : UtilizationWatchdog K}
    (hzones : ∀ unit, ∃ low critical : K, w.lowThreshold unit = some low ∧
      w.criticalThreshold unit = some critical ∧ critical < low)
    {throttle temperature : K} (hthrottle : w.cfg.thermalThrottleThresholdC = some throttle)
    (hhot : throttle < temperature) : Discerns w := by
  refine ⟨fun unit ↦ ?_, fun unit ↦ ?_, some temperature, ?_⟩
  · obtain ⟨low, -, hlow, -, -⟩ := hzones unit
    exact ⟨some low, by simp [hlow, Reading.atLeast]⟩
  · obtain ⟨low, critical, hlow, hcritical, hlt⟩ := hzones unit
    exact ⟨some critical, by simp [hlow, Reading.atLeast, hlt], by simp [hcritical, Reading.atLeast]⟩
  · simp [UtilizationWatchdog.thermalSkipRecovery, hthrottle, Reading.above, hhot]

variable {busy : ComputeUnit → Reading K} {unit : ComputeUnit} {x : Nat → UtilizationSnapshot K}

omit [NatCast K] [LinearOrder K] in
theorem probeSamples_self (k : Nat) : probeSamples busy unit x unit k = x k := if_pos rfl

theorem probeSamples_onlyLow {w : UtilizationWatchdog K}
    (hbusy : ∀ unit, (busy unit).atLeast (w.lowThreshold unit) = true) :
    OnlyLow (probeSamples busy unit x) w unit := by
  intro unit' hne step
  rw [probeSamples, if_neg hne]
  exact hbusy unit'

theorem probeVerdict_failing {w : UtilizationWatchdog K} {e : PipelineError} {step : Nat}
    (hasks : w.asks unit (probeInput samples (.error e) step) = true) (maxAttempts attempts : Nat) :
    ∃ e', probeVerdict samples (.error e) w unit maxAttempts attempts step = .error e' := by
  have hfails : w.fails (w.deviceOf unit) (replyOf (.error e)) = true := by
    simp [UtilizationWatchdog.fails, replyOf, UtilizationWatchdog.resultOf]
  unfold probeVerdict
  simp only [hasks, hfails, ↓reduceIte]
  split
  · exact ⟨_, rfl⟩
  · exact ⟨_, rfl⟩

theorem probeVerdict_quiet {w : UtilizationWatchdog K} {step : Nat}
    (hasks : w.asks unit (probeInput samples rebuilt step) = false) (maxAttempts attempts : Nat) :
    probeVerdict samples rebuilt w unit maxAttempts attempts step = .ok attempts := by
  simp [probeVerdict, hasks]

namespace WatchedPipeline

variable [Inhabited L] {s t : WatchedPipeline K L}

/-- A request for recovery that only one of two pipelines sees tells them apart. -/
theorem apart_of_asks {s' t' : WatchedPipeline K L} {e : PipelineError} (hshutdown : s.pipeline.shutdown = false)
    (hp : Peers s t) (hs : Monitored s') (ht : Monitored t')
    (hlow : OnlyLow samples s'.watchdog unit) (hlow' : OnlyLow samples t'.watchdog unit)
    {k : Nat} (hk : k < 150)
    (hfollows : Follows (probeRequest (k + 1)) (probe samples (.error e)) k 0 default
      (s.begin (probeRequest (k + 1))) s')
    (hfollows' : Follows (probeRequest (k + 1)) (probe samples (.error e)) k 0 default
      (t.begin (probeRequest (k + 1))) t')
    (hasks : s'.watchdog.asks unit (probeInput samples (.error e) k) = true)
    (hquiet : t'.watchdog.asks unit (probeInput samples (.error e) k) = false) :
    ∃ req c, (s.generate req c).2 ≠ (t.generate req c).2 := by
  refine ⟨probeRequest (k + 1), probe samples (.error e), ?_⟩
  have hshutdown' : t.pipeline.shutdown = false := hp.fixed.shutdown.trans hshutdown
  rw [probe_run hs hlow hshutdown hk hfollows, probe_run ht hlow' hshutdown' hk hfollows',
    probeVerdict_quiet hquiet]
  obtain ⟨e', he'⟩ := probeVerdict_failing hasks s'.pipeline.cfg.maxRecoveryAttempts
    s'.pipeline.recoveryAttempts
  rw [he']
  intro h
  cases h

theorem apart_of_flag (hp : Peers s t) (h : Monitored s) (hshutdown : s.pipeline.shutdown = false)
    (hd : Discerns s.watchdog) (hs : (s.watchdog.deviceOf unit).inRecovery = false)
    (ht : (t.watchdog.deviceOf unit).inRecovery = true) :
    ∃ (req : GenerationRequest) (c : Surroundings K L), (s.generate req c).2 ≠ (t.generate req c).2 := by
  choose busy hbusy using hd.normal
  have hlow : OnlyLow (probeSamples busy unit fun _ ↦ ⟨none, none⟩) s.watchdog unit :=
    probeSamples_onlyLow hbusy
  refine apart_of_asks (e := .onnxRunFailed) hshutdown hp (h.begin _) ((h.peers hp).begin _) hlow
    (hp.onlyLow hlow) (Nat.zero_lt_succ 149) (Follows.refl _ _ _ _ _) (Follows.refl _ _ _ _ _) ?_ ?_
  · rw [asks_critical (probeSamples_self 0)]
    exact congrArg (! ·) hs
  · rw [asks_critical (probeSamples_self 0)]
    exact congrArg (! ·) ht

omit [Inhabited L] in
theorem asks_warning {w : UtilizationWatchdog K} {step : Nat} {util : Reading K}
    (hlow : util.atLeast (w.lowThreshold unit) = false)
    (hcritical : util.atLeast (w.criticalThreshold unit) = true)
    (hx : samples unit step = ⟨util, none⟩) :
    w.asks unit (probeInput samples rebuilt step) = (!(w.deviceOf unit).inRecovery &&
      decide (w.cfg.consecutiveThreshold ≤ (w.deviceOf unit).consecutive + 1)) := by
  unfold UtilizationWatchdog.asks UtilizationWatchdog.triggers UtilizationWatchdog.thermalSkipRecovery
  rw [probeInput_snap, hx]
  simp [Reading.above, hlow, hcritical]

theorem streak_call (h : Monitored s) {util temperature : Reading K} {j : Nat}
    (hlow : OnlyLow (probeSamples busy unit (hotSamples util temperature j)) s.watchdog unit)
    (hwarning : util.atLeast (s.watchdog.lowThreshold unit) = false)
    (hcritical : util.atLeast (s.watchdog.criticalThreshold unit) = true)
    (hhot : s.watchdog.thermalSkipRecovery temperature = true) (req : GenerationRequest)
    (rebuilt : Except PipelineError Unit) (l : L) :
    ∃ s', Follows req (probe (probeSamples busy unit (hotSamples util temperature j)) rebuilt) j 0 l
        (s.begin req) s' ∧ Peers s s' ∧
      s'.watchdog.asks unit
          (probeInput (probeSamples busy unit (hotSamples util temperature j)) rebuilt j) =
        (!(s.watchdog.deviceOf unit).inRecovery &&
          decide (s.watchdog.cfg.consecutiveThreshold ≤
            (s.watchdog.deviceOf unit).consecutive + 1 + UInt32.ofNat j)) := by
  have hheat : ∀ i < j,
      (probeSamples busy unit (hotSamples util temperature j) unit (0 + i)).utilization.atLeast
          ((s.begin req).watchdog.lowThreshold unit) = false ∧
      (s.begin req).watchdog.thermalSkipRecovery
        (probeSamples busy unit (hotSamples util temperature j) unit (0 + i)).temperature = true := by
    intro i hi
    rw [Nat.zero_add, probeSamples_self]
    refine ⟨hwarning, ?_⟩
    simp only [hotSamples, hi, ↓reduceIte]
    exact hhot
  have hlast : probeSamples busy unit (hotSamples util temperature j) unit j = ⟨util, none⟩ := by
    rw [probeSamples_self]
    simp only [hotSamples, lt_irrefl, ↓reduceIte]
  obtain ⟨s', hfollows, hpeers, hcons, hrec⟩ := hot_run req rebuilt (h.begin req) hlow hheat l
  have hpeers := (peers_begin s req).trans hpeers
  have hcons : (s'.watchdog.deviceOf unit).consecutive =
    (s.watchdog.deviceOf unit).consecutive + UInt32.ofNat j := hcons
  have hrec : (s'.watchdog.deviceOf unit).inRecovery = (s.watchdog.deviceOf unit).inRecovery := hrec
  refine ⟨s', hfollows, hpeers, ?_⟩
  rw [← hpeers.lowThreshold] at hwarning
  rw [← hpeers.criticalThreshold] at hcritical
  rw [asks_warning hwarning hcritical hlast, hrec, hcons, hpeers.watchdogCfg, UInt32.add_assoc,
    UInt32.add_comm (UInt32.ofNat j), ← UInt32.add_assoc]

theorem apart_of_streak (hp : Peers s t) (h : Monitored s)
    (hshutdown : s.pipeline.shutdown = false) (hd : Discerns s.watchdog)
    (hs : (s.watchdog.deviceOf unit).inRecovery = false) {j : Nat} (hj : j < 150)
    (hreached : s.watchdog.cfg.consecutiveThreshold ≤
      (s.watchdog.deviceOf unit).consecutive + 1 + UInt32.ofNat j)
    (hnot : ¬ s.watchdog.cfg.consecutiveThreshold ≤
      (t.watchdog.deviceOf unit).consecutive + 1 + UInt32.ofNat j) :
    ∃ (req : GenerationRequest) (c : Surroundings K L), (s.generate req c).2 ≠ (t.generate req c).2 := by
  choose busy hbusy using hd.normal
  obtain ⟨util, hwarning, hcritical⟩ := hd.warning unit
  obtain ⟨temperature, hhot⟩ := hd.hot
  have hlow : OnlyLow (probeSamples busy unit (hotSamples util temperature j)) s.watchdog unit :=
    probeSamples_onlyLow hbusy
  obtain ⟨s', hfollows, hs', hasks⟩ := streak_call h hlow hwarning hcritical hhot
    (probeRequest (j + 1)) (.error .onnxRunFailed) default
  rw [← hp.lowThreshold] at hwarning
  rw [← hp.criticalThreshold] at hcritical
  rw [UtilizationWatchdog.thermalSkipRecovery, ← hp.watchdogCfg] at hhot
  obtain ⟨t', hfollows', ht', hasks'⟩ := streak_call (h.peers hp) (hp.onlyLow hlow) hwarning
    hcritical hhot (probeRequest (j + 1)) (.error .onnxRunFailed) default
  rw [hs, decide_eq_true hreached] at hasks
  rw [hp.watchdogCfg, decide_eq_false hnot, Bool.and_false] at hasks'
  have ht' := hp.trans ht'
  exact apart_of_asks hshutdown hp (h.peers hs') (h.peers ht') (hs'.onlyLow hlow)
    (ht'.onlyLow hlow) hj hfollows hfollows' hasks hasks'

theorem settling_run (req : GenerationRequest) (rebuilt : Except PipelineError Unit)
    (h : Monitored s) (hlow : OnlyLow samples s.watchdog unit)
    (hhigh : (s.watchdog.deviceOf unit).inRecovery = true →
      (samples unit 0).utilization.atLeast (s.watchdog.lowThreshold unit) = true) (l : L) :
    ∃ s', Follows req (probe samples rebuilt) (s.watchdog.deviceOf unit).inRecovery.toNat 0 l s s' ∧
      Peers s s' ∧ s'.pipeline.recoveryAttempts = s.pipeline.recoveryAttempts ∧
      (s'.watchdog.deviceOf unit).inRecovery = false ∧
      (s'.watchdog.deviceOf unit).recoveryCount = (s.watchdog.deviceOf unit).recoveryCount := by
  cases hrec : (s.watchdog.deviceOf unit).inRecovery with
  | false => exact ⟨s, Follows.refl _ _ _ _ _, .refl s, rfl, hrec, rfl⟩
  | true =>
    have hquiet : s.watchdog.asks unit (probeInput samples rebuilt 0) = false :=
      UtilizationWatchdog.asks_of_inRecovery hrec
    obtain ⟨s', hs', hpeers, hmade, hwatchdog⟩ :=
      probe_passes h hlow req (probeVerdict_quiet hquiet _ _) l
    have hmoves := UtilizationWatchdog.step_moves s.watchdog unit (probeInput samples rebuilt 0)
    rw [← hwatchdog] at hmoves
    have hsample : ((probeInput samples rebuilt 0).snap unit).utilization.atLeast
        (s.watchdog.lowThreshold unit) = true := by
      rw [probeInput_snap]
      exact hhigh hrec
    obtain ⟨-, hsettled, hcount⟩ := hmoves.rests hsample
    exact ⟨s', Follows.cons hs' (Follows.refl _ _ _ _ _), hpeers, hmade, hsettled, hcount⟩

theorem probeVerdict_critical {w : UtilizationWatchdog K} {step : Nat}
    (hx : samples unit step = ⟨none, none⟩) (hrec : (w.deviceOf unit).inRecovery = false)
    (hcallback : w.onRecovery = true) {maxAttempts attempts : Nat} (hleft : attempts < maxAttempts) :
    probeVerdict samples (.ok ()) w unit maxAttempts attempts step = .error .watchdogRecoveryFailed ↔
      w.cfg.maxRecoveries ≤ (w.deviceOf unit).recoveryCount := by
  have hasks : w.asks unit (probeInput samples (.ok ()) step) = true := by
    rw [asks_critical hx, hrec]
    rfl
  unfold probeVerdict
  dsimp only
  rw [UtilizationWatchdog.evaluate_called_eq, if_pos hasks]
  by_cases hmax : w.cfg.maxRecoveries ≤ (w.deviceOf unit).recoveryCount
  · have hfails : w.fails (w.deviceOf unit) (replyOf (.ok ())) = true :=
      UtilizationWatchdog.fails_exhausted hmax
    simp [hmax, hfails, UInt32.not_lt.mpr hmax, hleft]
  · have hfails : w.fails (w.deviceOf unit) (replyOf (.ok ())) = false := by
      simp [UtilizationWatchdog.fails, hcallback, hmax, replyOf, UtilizationWatchdog.resultOf]
    rw [hfails, if_neg Bool.false_ne_true, iff_false_right hmax]
    split
    · exact fun h ↦ (by cases h)
    · exact fun h ↦ (by cases h)

theorem exhausting_call (h : Monitored s) {ρ r : Nat}
    (hlow : OnlyLow (probeSamples busy unit (criticalSamples (busy unit) ρ)) s.watchdog unit)
    (hbusy : (busy unit).atLeast (s.watchdog.lowThreshold unit) = true)
    (hcallback : s.watchdog.onRecovery = true)
    (hρ : (s.watchdog.deviceOf unit).inRecovery.toNat = ρ)
    (hcount : (s.watchdog.deviceOf unit).recoveryCount.toNat + r ≤
      s.watchdog.cfg.maxRecoveries.toNat)
    (hattempts : 2 * r ≤ s.pipeline.cfg.maxRecoveryAttempts) (req : GenerationRequest) (l : L) :
    ∃ s', Follows req (probe (probeSamples busy unit (criticalSamples (busy unit) ρ)) (.ok ()))
        (ρ + r) 0 l (s.begin req) s' ∧ Peers s s' ∧
      s'.pipeline.recoveryAttempts = 2 * r ∧
      (s'.watchdog.deviceOf unit).recoveryCount.toNat =
        (s.watchdog.deviceOf unit).recoveryCount.toNat + r ∧
      (s'.watchdog.deviceOf unit).inRecovery = false := by
  have hfirst (hrec : ((s.begin req).watchdog.deviceOf unit).inRecovery = true) :
      (probeSamples busy unit (criticalSamples (busy unit) ρ) unit 0).utilization.atLeast
        ((s.begin req).watchdog.lowThreshold unit) = true := by
    have hone : ρ = 1 := hρ.symm.trans (congrArg Bool.toNat hrec)
    rw [probeSamples_self]
    simp only [criticalSamples, hone, Nat.zero_lt_one, ↓reduceIte]
    exact hbusy
  have hcritical : ∀ k < r, probeSamples busy unit (criticalSamples (busy unit) ρ) unit (0 + ρ + k) =
      ⟨none, none⟩ := by
    intro k _
    rw [probeSamples_self]
    simp [criticalSamples]
  obtain ⟨s₁, hfollows₁, hpeers₁, hmade₁, hrec₁, hcount₁⟩ :=
    settling_run req (.ok ()) (h.begin req) hlow hfirst l
  have hs₁ := (peers_begin s req).trans hpeers₁
  have hcount₁ : (s₁.watchdog.deviceOf unit).recoveryCount.toNat =
    (s.watchdog.deviceOf unit).recoveryCount.toNat := congrArg UInt32.toNat hcount₁
  have hmade₁ : s₁.pipeline.recoveryAttempts = 0 := hmade₁
  have hflag : ((s.begin req).watchdog.deviceOf unit).inRecovery.toNat = ρ := hρ
  rw [hflag] at hfollows₁
  obtain ⟨s', hfollows, hpeers, hmade, hcount', hrec⟩ := recovering_run req (h.peers hs₁)
    (hs₁.onlyLow hlow) hcritical (hs₁.onRecovery.trans hcallback) hrec₁
    (by rw [hs₁.watchdogCfg, hcount₁]; exact hcount) (by rw [hs₁.fixed.cfg, hmade₁]; omega) l
  exact ⟨s', hfollows₁.trans hfollows, hs₁.trans hpeers, by omega, by omega, hrec⟩

theorem apart_of_count (hp : Peers s t) (h : Monitored s) (hshutdown : s.pipeline.shutdown = false)
    (hcallback : s.watchdog.onRecovery = true) (hd : Discerns s.watchdog)
    (hflag : (s.watchdog.deviceOf unit).inRecovery = (t.watchdog.deviceOf unit).inRecovery)
    (hlt : (s.watchdog.deviceOf unit).recoveryCount < (t.watchdog.deviceOf unit).recoveryCount)
    (hle : (t.watchdog.deviceOf unit).recoveryCount ≤ s.watchdog.cfg.maxRecoveries)
    (hattempts : 2 * left s.watchdog.cfg.maxRecoveries (s.watchdog.deviceOf unit)
      (t.watchdog.deviceOf unit) < s.pipeline.cfg.maxRecoveryAttempts)
    (hsteps : left s.watchdog.cfg.maxRecoveries (s.watchdog.deviceOf unit)
      (t.watchdog.deviceOf unit) + (s.watchdog.deviceOf unit).inRecovery.toNat < 150) :
    ∃ (req : GenerationRequest) (c : Surroundings K L), (s.generate req c).2 ≠ (t.generate req c).2 := by
  choose busy hbusy using hd.normal
  generalize hr : left s.watchdog.cfg.maxRecoveries (s.watchdog.deviceOf unit)
    (t.watchdog.deviceOf unit) = r at *
  generalize hρ : (s.watchdog.deviceOf unit).inRecovery.toNat = ρ at *
  have hlow : OnlyLow (probeSamples busy unit (criticalSamples (busy unit) ρ)) s.watchdog unit :=
    probeSamples_onlyLow hbusy
  have hcritical : probeSamples busy unit (criticalSamples (busy unit) ρ) unit (ρ + r) =
      ⟨none, none⟩ := by
    rw [probeSamples_self]
    simp [criticalSamples]
  have hexhausted : (t.watchdog.deviceOf unit).recoveryCount.toNat + r =
      s.watchdog.cfg.maxRecoveries.toNat := by
    rw [UInt32.le_iff_toNat_le] at hle
    rw [UInt32.lt_iff_toNat_lt] at hlt
    rw [← hr]
    unfold left
    omega
  rw [UInt32.lt_iff_toNat_lt] at hlt
  obtain ⟨s', hfollows, hs', hmade, hcount, hrec⟩ := @exhausting_call K L _ _ busy unit _ s h ρ r
    hlow (hbusy unit) hcallback hρ (by omega) hattempts.le (probeRequest (ρ + r + 1)) default
  obtain ⟨t', hfollows', ht', hmade', hcount', hrec'⟩ := @exhausting_call K L _ _ busy unit _ t
    (h.peers hp) ρ r (hp.onlyLow hlow) (by rw [hp.lowThreshold]; exact hbusy unit)
    (hp.onRecovery.trans hcallback) (hflag ▸ hρ) (by rw [hp.watchdogCfg]; omega)
    (by rw [hp.fixed.cfg]; exact hattempts.le) (probeRequest (ρ + r + 1)) default
  have ht' := hp.trans ht'
  refine ⟨probeRequest (ρ + r + 1),
    probe (probeSamples busy unit (criticalSamples (busy unit) ρ)) (.ok ()), fun heq ↦ ?_⟩
  rw [probe_run (h.peers hs') (hs'.onlyLow hlow) hshutdown (by omega) hfollows,
    probe_run (h.peers ht') (ht'.onlyLow hlow) (hp.fixed.shutdown.trans hshutdown) (by omega)
      hfollows', hs'.fixed.cfg, ht'.fixed.cfg, hmade, hmade'] at heq
  have hfails := (probeVerdict_critical hcritical hrec' (ht'.onRecovery.trans hcallback)
    hattempts).mpr (by rw [ht'.watchdogCfg, UInt32.le_iff_toNat_le]; omega)
  have hpasses := mt (probeVerdict_critical hcritical hrec (hs'.onRecovery.trans hcallback)
    hattempts).mp (by rw [hs'.watchdogCfg, UInt32.le_iff_toNat_le]; omega)
  rw [hfails] at heq
  generalize probeVerdict (probeSamples busy unit (criticalSamples (busy unit) ρ)) (.ok ())
    s'.watchdog unit s.pipeline.cfg.maxRecoveryAttempts (2 * r) (ρ + r) = v at *
  cases v with
  | ok made => cases heq
  | error e => exact hpasses (congrArg Except.error (Except.error.inj heq))

end WatchedPipeline

end Cerberus.Generation
