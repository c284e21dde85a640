import Cerberus.Generation.Recovery

namespace Cerberus.Generation

open Foundation Foundation.Bytes Watchdog

variable {K L : Type}

/-- What a step comes to for the recovery attempts: their number after it, or the error. -/
def StepOutcome.verdict (o : StepOutcome) (watching : Bool) (maxAttempts attempts : Nat) :
    Except PipelineError Nat :=
  match o.denoise with
  | .error e => .error e
  | .ok () =>
    if !watching then .ok attempts
    else
      match o.action with
      | none => .ok (attempts + o.gpuRecovery.toNat + o.hailoRecovery.toNat)
      | some result =>
        if attempts + o.gpuRecovery.toNat + o.hailoRecovery.toNat ≥ maxAttempts then
          .error .recoveryTooManyAttempts
        else if result = .fatal then .error .watchdogRecoveryFailed
        else o.recovery.map fun _ ↦ attempts + o.gpuRecovery.toNat + o.hailoRecovery.toNat + 1

theorem storeInferenceRecord_fixed (p : Pipeline) (req : GenerationRequest) (now : Int)
    (status : ByteString) (width height : Nat) (ms : ByteString) :
    Fixed p (p.storeInferenceRecord req now status width height ms) := by
  unfold Pipeline.storeInferenceRecord
  split
  · exact ⟨rfl, rfl, rfl, rfl⟩
  · split
    · exact ⟨rfl, rfl, rfl, rfl⟩
    · exact ⟨rfl, rfl, rfl, rfl⟩

theorem failWith_fixed {α : Type} (p : Pipeline) (req : GenerationRequest) (st : Stages)
    (e : PipelineError) (width height : Nat) :
    Fixed p (@Pipeline.failWith p req st α e width height).1 := by
  have hcount : Fixed p p.countFailure := ⟨rfl, rfl, rfl, rfl⟩
  exact hcount.trans (storeInferenceRecord_fixed p.countFailure ..)

theorem denoiseStep_verdict (p : Pipeline) (req : GenerationRequest) (st : Stages) (k : Nat) :
    Fixed p (p.denoiseStep req st k).1 ∧
      ((p.denoiseStep req st k).2.map fun _ ↦ (p.denoiseStep req st k).1.recoveryAttempts) =
        (st.step k).verdict p.watching p.cfg.maxRecoveryAttempts p.recoveryAttempts := by
  unfold Pipeline.denoiseStep StepOutcome.verdict Pipeline.watching
  dsimp only
  cases (st.step k).denoise with
  | error e => exact ⟨failWith_fixed .., rfl⟩
  | ok u =>
    cases p.watchdog && p.cfg.enableWatchdog with
    | false => exact ⟨⟨rfl, rfl, rfl, rfl⟩, rfl⟩
    | true =>
      cases (st.step k).action with
      | none => exact ⟨⟨rfl, rfl, rfl, rfl⟩, rfl⟩
      | some result =>
        have hcount : Fixed p (p.watchdogStep (st.step k)).countRecovery := ⟨rfl, rfl, rfl, rfl⟩
        have hattempts : (p.watchdogStep (st.step k)).countRecovery.recoveryAttempts =
          p.recoveryAttempts + (st.step k).gpuRecovery.toNat + (st.step k).hailoRecovery.toNat := rfl
        simp only [hattempts, hcount.cfg, ↓reduceIte, Bool.not_true, Bool.false_eq_true]
        split
        · exact ⟨hcount.trans (failWith_fixed ..), rfl⟩
        · split
          · exact ⟨hcount.trans (failWith_fixed ..), rfl⟩
          · cases (st.step k).recovery with
            | error e => exact ⟨⟨rfl, rfl, rfl, rfl⟩, rfl⟩
            | ok r => exact ⟨⟨rfl, rfl, rfl, rfl⟩, rfl⟩

theorem verdict_congr {o o' : StepOutcome} {watching : Bool} {maxAttempts attempts : Nat}
    (hdenoise : o.denoise = o'.denoise) (hsome : o.action.isSome = o'.action.isSome)
    (hcalled : o.action = none ∨ attempts < maxAttempts →
      o.gpuRecovery = o'.gpuRecovery ∧ o.hailoRecovery = o'.hailoRecovery)
    (hfatal : attempts < maxAttempts → (o.action = some .fatal ↔ o'.action = some .fatal))
    (hrecovery : o.recovery = o'.recovery) :
    o.verdict watching maxAttempts attempts = o'.verdict watching maxAttempts attempts := by
  unfold StepOutcome.verdict
  rw [← hdenoise, ← hrecovery]
  cases o.denoise with
  | error e => rfl
  | ok u =>
    cases watching with
    | false => rfl
    | true =>
      cases ha : o.action with
      | none =>
        have ha' : o'.action = none := by simpa [ha] using hsome.symm
        obtain ⟨hgpu, hhailo⟩ := hcalled (.inl ha)
        rw [ha', hgpu, hhailo]
      | some result =>
        obtain ⟨result', ha'⟩ : ∃ result', o'.action = some result' := by
          rw [← Option.isSome_iff_exists, ← hsome, ha]
          rfl
        rw [ha']
        by_cases hmade : attempts < maxAttempts
        · obtain ⟨hgpu, hhailo⟩ := hcalled (.inr hmade)
          have hiff := hfatal hmade
          rw [ha, ha', Option.some.injEq, Option.some.injEq] at hiff
          simp only [hgpu, hhailo, hiff]
        · have hover : attempts + o.gpuRecovery.toNat + o.hailoRecovery.toNat ≥ maxAttempts := by
            omega
          have hover' : attempts + o'.gpuRecovery.toNat + o'.hailoRecovery.toNat ≥ maxAttempts := by
            omega
          simp only [hover, hover', ↓reduceIte]

def left (maxRecoveries : UInt32) (d e : Device) : Nat :=
  maxRecoveries.toNat - max d.recoveryCount.toNat e.recoveryCount.toNat

/-- Devices that a call of at most `n` further steps, which has made so many attempts, cannot
tell apart. Their streaks reach the threshold at the same step, and either both have had as
many recoveries or the attempts, or the steps, are used up before the recoveries are. -/
structure Alike [NatCast K] (cfg : WatchdogConfig K) (maxAttempts made n : Nat) (d e : Device) : Prop where
  inRecovery : d.inRecovery = e.inRecovery
  streak : d.inRecovery = false → ∀ j < n,
    (cfg.consecutiveThreshold ≤ d.consecutive + 1 + UInt32.ofNat j ↔
      cfg.consecutiveThreshold ≤ e.consecutive + 1 + UInt32.ofNat j)
  recoveries : d.recoveryCount = e.recoveryCount ∨
    maxAttempts ≤ made + 2 * left cfg.maxRecoveries d e ∨
    n ≤ left cfg.maxRecoveries d e + d.inRecovery.toNat

namespace Alike

variable [NatCast K] {cfg : WatchdogConfig K} {maxAttempts made made' n m : Nat} {d e d' e' : Device}

theorem refl (d : Device) : Alike cfg maxAttempts made n d d := ⟨rfl, fun _ _ _ ↦ Iff.rfl, .inl rfl⟩

theorem mono (h : Alike cfg maxAttempts made n d e) (hm : m ≤ n) : Alike cfg maxAttempts made m d e := by
  refine ⟨h.inRecovery, fun hrec j hj ↦ h.streak hrec j (by omega), ?_⟩
  rcases h.recoveries with heq | hmax | hn
  · exact .inl heq
  · exact .inr (.inl hmax)
  · exact .inr (.inr (by omega))

/-- When an attempt and a step are left, the recoveries of both devices are exhausted, or of
neither. -/
theorem exhausted_iff (h : Alike cfg maxAttempts made (n + 1) d e) (hrec : d.inRecovery = false)
    (hmade : made < maxAttempts) : d.recoveryCount < cfg.maxRecoveries ↔
      e.recoveryCount < cfg.maxRecoveries := by
  rcases h.recoveries with heq | hmax | hn
  · rw [heq]
  · rw [UInt32.lt_iff_toNat_lt, UInt32.lt_iff_toNat_lt]
    unfold left at hmax
    omega
  · rw [UInt32.lt_iff_toNat_lt, UInt32.lt_iff_toNat_lt]
    rw [hrec, Bool.toNat_false] at hn
    unfold left at hn
    omega

variable [LinearOrder K] {w v : UtilizationWatchdog K} {unit : ComputeUnit}
  {i : UtilizationWatchdog.Input K}

theorem asks_eq (hcfg : v.cfg = w.cfg)
    (h : Alike w.cfg maxAttempts made (n + 1) (w.deviceOf unit) (v.deviceOf unit)) :
    v.asks unit i = w.asks unit i := by
  have hlow : v.lowThreshold unit = w.lowThreshold unit := by
    simp only [UtilizationWatchdog.lowThreshold, hcfg]
  have hcrit : v.criticalThreshold unit = w.criticalThreshold unit := by
    simp only [UtilizationWatchdog.criticalThreshold, hcfg]
  unfold UtilizationWatchdog.asks UtilizationWatchdog.triggers UtilizationWatchdog.thermalSkipRecovery
  rw [hlow, hcrit, hcfg, ← h.inRecovery]
  cases hrec : (w.deviceOf unit).inRecovery with
  | true => simp
  | false =>
    have hstreak : w.cfg.consecutiveThreshold ≤ (w.deviceOf unit).consecutive + 1 ↔
        w.cfg.consecutiveThreshold ≤ (v.deviceOf unit).consecutive + 1 := by
      simpa using h.streak hrec 0 (Nat.succ_pos n)
    simp [hstreak]

theorem streak_succ (a : UInt32) (j : Nat) :
    a + 1 + 1 + UInt32.ofNat j = a + 1 + UInt32.ofNat (j + 1) := by
  rw [UInt32.ofNat_add, UInt32.add_comm (UInt32.ofNat j), ← UInt32.add_assoc]
  rfl

theorem next_quiet (hcfg : v.cfg = w.cfg)
    (h : Alike w.cfg maxAttempts made (n + 1) (w.deviceOf unit) (v.deviceOf unit))
    (hquiet : w.asks unit i = false) (hle : made ≤ made')
    (hd : UtilizationWatchdog.Moves w unit i (w.deviceOf unit) d')
    (he : UtilizationWatchdog.Moves v unit i (v.deviceOf unit) e') :
    Alike w.cfg maxAttempts made' n d' e' := by
  have hquiet' : v.asks unit i = false := (asks_eq hcfg h).trans hquiet
  have hlow : v.lowThreshold unit = w.lowThreshold unit := by
    simp only [UtilizationWatchdog.lowThreshold, hcfg]
  have hkept {ρ : Nat} (hρ : (w.deviceOf unit).inRecovery.toNat ≤ ρ + 1)
      (hd' : d'.recoveryCount = (w.deviceOf unit).recoveryCount)
      (he' : e'.recoveryCount = (v.deviceOf unit).recoveryCount) :
      d'.recoveryCount = e'.recoveryCount ∨
        maxAttempts ≤ made' + 2 * left w.cfg.maxRecoveries d' e' ∨
        n ≤ left w.cfg.maxRecoveries d' e' + ρ := by
    rw [left, hd', he']
    rcases h.recoveries with heq | hmax | hn
    · exact .inl heq
    · rw [left] at hmax
      exact .inr (.inl (by omega))
    · rw [left] at hn
      exact .inr (.inr (by omega))
  cases hsample : (i.snap unit).utilization.atLeast (w.lowThreshold unit) with
  | true =>
    obtain ⟨hdcons, hdrec, hdcount⟩ := hd.rests hsample
    obtain ⟨hecons, herec, hecount⟩ := he.rests (hlow ▸ hsample)
    refine ⟨hdrec.trans herec.symm, fun _ j _ ↦ by rw [hdcons, hecons], ?_⟩
    exact hkept (by have := Bool.toNat_le (w.deviceOf unit).inRecovery; omega) hdcount hecount
  | false =>
    obtain ⟨hdcons, hdrec, hdcount⟩ := hd.falls hsample hquiet
    obtain ⟨hecons, herec, hecount⟩ := he.falls (hlow ▸ hsample) hquiet'
    refine ⟨hdrec.trans (h.inRecovery.trans herec.symm), fun hrec j hj ↦ ?_, ?_⟩
    · have hstreak := h.streak (hdrec.symm.trans hrec) (j + 1) (by omega)
      rw [hdcons, hecons, streak_succ, streak_succ]
      exact hstreak
    · exact hkept (by rw [hdrec]; omega) hdcount hecount

theorem next_asked (hcfg : v.cfg = w.cfg)
    (h : Alike w.cfg maxAttempts made (n + 1) (w.deviceOf unit) (v.deviceOf unit))
    (hasks : w.asks unit i = true) (hmade : made < maxAttempts)
    (htried : (w.deviceOf unit).recoveryCount < w.cfg.maxRecoveries → made + 2 ≤ made')
    (hd : UtilizationWatchdog.Moves w unit i (w.deviceOf unit) d')
    (he : UtilizationWatchdog.Moves v unit i (v.deviceOf unit) e') :
    Alike w.cfg maxAttempts made' n d' e' := by
  have hasks' : v.asks unit i = true := (asks_eq hcfg h).trans hasks
  have hrec := UtilizationWatchdog.asks_inRecovery hasks
  have hiff := h.exhausted_iff hrec hmade
  have hrecoveries := h.recoveries
  rw [hrec, Bool.toNat_false] at hrecoveries
  by_cases hlt : (w.deviceOf unit).recoveryCount < w.cfg.maxRecoveries
  · obtain ⟨hdcons, hdrec, hdcount⟩ := hd.tries hasks hlt
    obtain ⟨hecons, herec, hecount⟩ := he.tries hasks' (hcfg ▸ hiff.mp hlt)
    refine ⟨hdrec.trans herec.symm, fun _ j hj ↦ ?_, ?_⟩
    · have hstreak := h.streak hrec (j + 1) (by omega)
      rw [hdcons, hecons, streak_succ, streak_succ]
      exact hstreak
    · have hdlt := UInt32.lt_iff_toNat_lt.mp hlt
      have helt := UInt32.lt_iff_toNat_lt.mp (hiff.mp hlt)
      have hdsucc := UtilizationWatchdog.toNat_succ_of_lt hlt
      have hesucc := UtilizationWatchdog.toNat_succ_of_lt (hiff.mp hlt)
      have hmade' := htried hlt
      rw [hdrec, Bool.toNat_false]
      unfold left at hrecoveries ⊢
      rw [hdcount, hecount, hdsucc, hesucc, UInt32.add_left_inj]
      refine hrecoveries.imp_right fun h ↦ ?_
      omega
  · obtain ⟨hdrec, hdcount⟩ := hd.givesUp hasks (UInt32.not_lt.mp hlt)
    obtain ⟨herec, hecount⟩ := he.givesUp hasks' (UInt32.not_lt.mp (hcfg ▸ mt hiff.mpr hlt))
    refine ⟨hdrec.trans herec.symm, fun hnot ↦ (by cases hdrec.symm.trans hnot), .inl ?_⟩
    rw [hdcount, hecount]
    refine hrecoveries.resolve_right ?_
    rw [UInt32.lt_iff_toNat_lt] at hlt
    unfold left
    omega

theorem next (hcfg : v.cfg = w.cfg)
    (h : Alike w.cfg maxAttempts made (n + 1) (w.deviceOf unit) (v.deviceOf unit))
    (hmade : w.asks unit i = true → made < maxAttempts) (hle : made ≤ made')
    (htried : w.asks unit i = true → (w.deviceOf unit).recoveryCount < w.cfg.maxRecoveries →
      made + 2 ≤ made') :
    Alike w.cfg maxAttempts made' n ((w.step i).1.deviceOf unit) ((v.step i).1.deviceOf unit) := by
  have hd := UtilizationWatchdog.step_moves w unit i
  have he := UtilizationWatchdog.step_moves v unit i
  cases hasks : w.asks unit i with
  | false => exact next_quiet hcfg h hasks hle hd he
  | true => exact next_asked hcfg h hasks (hmade hasks) (htried hasks) hd he

theorem called_eq (hcfg : v.cfg = w.cfg) (hcallback : v.onRecovery = w.onRecovery)
    (h : Alike w.cfg maxAttempts made (n + 1) (w.deviceOf unit) (v.deviceOf unit))
    (hmade : w.asks unit i = true → made < maxAttempts) :
    (v.evaluate unit i).called = (w.evaluate unit i).called := by
  rw [UtilizationWatchdog.evaluate_called_eq, UtilizationWatchdog.evaluate_called_eq,
    asks_eq hcfg h, hcfg, hcallback]
  cases hasks : w.asks unit i with
  | false => rfl
  | true =>
    have hiff := h.exhausted_iff (UtilizationWatchdog.asks_inRecovery hasks) (hmade hasks)
    simp only [hiff]

theorem fails_eq (hcfg : v.cfg = w.cfg) (hcallback : v.onRecovery = w.onRecovery)
    (h : Alike w.cfg maxAttempts made (n + 1) (w.deviceOf unit) (v.deviceOf unit))
    (hasks : w.asks unit i = true) (hmade : made < maxAttempts) (reply : Reply) :
    v.fails (v.deviceOf unit) reply = w.fails (w.deviceOf unit) reply := by
  have hiff := h.exhausted_iff (UtilizationWatchdog.asks_inRecovery hasks) hmade
  unfold UtilizationWatchdog.fails
  rw [hcfg, hcallback]
  simp only [ge_iff_le, ← UInt32.not_lt, hiff]

end Alike

namespace WatchedPipeline

variable [NatCast K]

/-- Pipelines in the middle of a call, with at most `n` steps left, that cannot be told apart. -/
structure Agree (n : Nat) (s t : WatchedPipeline K L) : Prop where
  cfg : t.pipeline.cfg = s.pipeline.cfg
  flag : t.pipeline.watchdog = s.pipeline.watchdog
  attempts : t.pipeline.recoveryAttempts = s.pipeline.recoveryAttempts
  gpuSession : t.gpuSession = s.gpuSession
  latentCheckpoint : t.latentCheckpoint = s.latentCheckpoint
  numInferenceSteps : t.numInferenceSteps = s.numInferenceSteps
  watchdogCfg : t.watchdog.cfg = s.watchdog.cfg
  onRecovery : t.watchdog.onRecovery = s.watchdog.onRecovery
  alike : s.pipeline.watching = true → ∀ unit,
    Alike s.watchdog.cfg s.pipeline.cfg.maxRecoveryAttempts s.pipeline.recoveryAttempts n
      (s.watchdog.deviceOf unit) (t.watchdog.deviceOf unit)

variable {s t : WatchedPipeline K L} {c : Surroundings K L} {n step : Nat} {latents l : L}

theorem Agree.watching (h : Agree n s t) : t.pipeline.watching = s.pipeline.watching := by
  rw [Pipeline.watching, h.flag, h.cfg, Pipeline.watching]

theorem Agree.runStep (h : Agree n s t) : t.runStep c step latents = s.runStep c step latents := by
  unfold WatchedPipeline.runStep
  rw [h.gpuSession, h.numInferenceSteps]

theorem Agree.saveCheckpoint (h : Agree n s t) (latents : L) (allocated : Bool) :
    Agree n (s.saveCheckpoint latents allocated) (t.saveCheckpoint latents allocated) := by
  refine ⟨h.cfg, h.flag, h.attempts, h.gpuSession, ?_, h.numInferenceSteps, h.watchdogCfg,
    h.onRecovery, h.alike⟩
  simp only [WatchedPipeline.saveCheckpoint, h.latentCheckpoint]

theorem Agree.input (h : Agree n s t) (c : Surroundings K L) (step : Nat) (hs : s.Saved latents) :
    t.input c step latents = s.input c step latents := by
  have ht : t.Saved latents := fun saved hsaved ↦ hs saved (h.latentCheckpoint ▸ hsaved)
  simp only [WatchedPipeline.input, callback_eq hs, callback_eq ht, h.latentCheckpoint]

theorem input_reply (hs : s.Saved latents) (unit : ComputeUnit)
    (h : UtilizationWatchdog.resultOf ((s.input c step latents).reply unit) ≠ .fatal) :
    s.latentCheckpoint.isSome = true := by
  rw [← Option.not_isNone, Bool.not_eq_true', ← Bool.not_eq_true]
  intro hnone
  refine h ?_
  cases unit <;> simp [WatchedPipeline.input, UtilizationWatchdog.Input.reply, callback_eq hs, hnone,
    UtilizationWatchdog.resultOf]

variable [LinearOrder K]

theorem outcome_eq (h : s.runStep c step latents = .ok l) :
    s.outcome c step latents =
      (s.saveCheckpoint l (c.checkpointAllocated step)).answer c step l := by
  rw [outcome, h]

theorem answer_action_isSome (s : WatchedPipeline K L) (c : Surroundings K L) (step : Nat)
    (latents : L) : (s.answer c step latents).action.isSome =
    (s.watchdog.asks .gpu780M (s.input c step latents) ||
      s.watchdog.asks .hailo8L (s.input c step latents)) := by
  rw [answer, Option.isSome_map, UtilizationWatchdog.step_action_isSome]

theorem answer_quiet (h : (s.answer c step latents).action = none) :
    (s.answer c step latents).gpuRecovery = false ∧
      (s.answer c step latents).hailoRecovery = false := by
  have hsome := answer_action_isSome s c step latents
  rw [h, Option.isSome_none, eq_comm, Bool.or_eq_false_iff] at hsome
  obtain ⟨hgpu, hhailo⟩ := hsome
  have hgpu : (s.watchdog.evaluateGpu (s.input c step latents)).called = false := by
    rw [← Bool.not_eq_true]
    intro hcalled
    have hasks : s.watchdog.asks .gpu780M _ = true := UtilizationWatchdog.evaluate_called hcalled
    cases hgpu.symm.trans hasks
  have hhailo : (s.watchdog.evaluateHailo (s.input c step latents)).called = false := by
    rw [← Bool.not_eq_true]
    intro hcalled
    have hasks : s.watchdog.asks .hailo8L _ = true := UtilizationWatchdog.evaluate_called hcalled
    cases hhailo.symm.trans hasks
  exact ⟨by simp [answer, hgpu], by simp [answer, hhailo]⟩

theorem Agree.verdict_answer (h : Agree (n + 1) s t) (hs : s.Saved latents)
    (hwatching : s.pipeline.watching = true) :
    (t.answer c step latents).verdict true s.pipeline.cfg.maxRecoveryAttempts
        s.pipeline.recoveryAttempts =
      (s.answer c step latents).verdict true s.pipeline.cfg.maxRecoveryAttempts
        s.pipeline.recoveryAttempts := by
  have halike := h.alike hwatching
  have hinput : t.input c step latents = s.input c step latents := h.input c step hs
  have hasks (unit) : t.watchdog.asks unit (s.input c step latents) =
      s.watchdog.asks unit (s.input c step latents) := (halike unit).asks_eq h.watchdogCfg
  have hsome : (t.answer c step latents).action.isSome = (s.answer c step latents).action.isSome := by
    rw [answer_action_isSome, answer_action_isSome, hinput, hasks, hasks]
  refine verdict_congr rfl hsome ?_ ?_ ?_
  · rintro (hnone | hmade)
    · have hnone' : (s.answer c step latents).action = none := by simpa [hnone] using hsome.symm
      obtain ⟨hg, hh⟩ := answer_quiet hnone
      obtain ⟨hg', hh'⟩ := answer_quiet hnone'
      exact ⟨hg.trans hg'.symm, hh.trans hh'.symm⟩
    · have hgpu := (halike .gpu780M).called_eq (i := s.input c step latents) h.watchdogCfg
        h.onRecovery fun _ ↦ hmade
      have hhailo := (halike .hailo8L).called_eq (i := s.input c step latents) h.watchdogCfg
        h.onRecovery fun _ ↦ hmade
      have hgpu : (t.watchdog.evaluateGpu (s.input c step latents)).called =
        (s.watchdog.evaluateGpu (s.input c step latents)).called := hgpu
      have hhailo : (t.watchdog.evaluateHailo (s.input c step latents)).called =
        (s.watchdog.evaluateHailo (s.input c step latents)).called := hhailo
      simp only [answer, hinput, hgpu, hhailo, h.latentCheckpoint, and_self]
  · intro hmade
    simp only [answer]
    rw [hinput, UtilizationWatchdog.step_action_fatal, UtilizationWatchdog.step_action_fatal,
      hasks, hasks]
    generalize s.input c step latents = i at *
    cases hgpu : s.watchdog.asks .gpu780M i with
    | true =>
      have heq := (halike .gpu780M).fails_eq h.watchdogCfg h.onRecovery hgpu hmade i.gpuReply
      have heq : t.watchdog.fails t.watchdog.gpu i.gpuReply =
        s.watchdog.fails s.watchdog.gpu i.gpuReply := heq
      rw [if_pos rfl, if_pos rfl, heq]
    | false =>
      cases hhailo : s.watchdog.asks .hailo8L i with
      | true =>
        have heq := (halike .hailo8L).fails_eq h.watchdogCfg h.onRecovery hhailo hmade i.hailoReply
        have heq : t.watchdog.fails t.watchdog.hailo i.hailoReply =
          s.watchdog.fails s.watchdog.hailo i.hailoReply := heq
        rw [if_neg Bool.false_ne_true, if_neg Bool.false_ne_true, heq]
      | false => rfl
  · simp only [answer, h.latentCheckpoint]

theorem Agree.verdict (h : Agree (n + 1) s t) :
    (t.outcome c step latents).verdict s.pipeline.watching s.pipeline.cfg.maxRecoveryAttempts
        s.pipeline.recoveryAttempts =
      (s.outcome c step latents).verdict s.pipeline.watching s.pipeline.cfg.maxRecoveryAttempts
        s.pipeline.recoveryAttempts := by
  cases hrun : s.runStep c step latents with
  | error e => rw [outcome, outcome, h.runStep, hrun]
  | ok l =>
    rw [outcome_eq hrun, outcome_eq (h.runStep.trans hrun)]
    cases hwatching : s.pipeline.watching with
    | false => rfl
    | true =>
      exact (h.saveCheckpoint l _).verdict_answer (saveCheckpoint_saved _) hwatching

theorem verdict_ok {o : StepOutcome} {maxAttempts attempts made : Nat}
    (h : o.verdict true maxAttempts attempts = .ok made) (hsome : o.action.isSome = true) :
    attempts < maxAttempts ∧ o.action ≠ some .fatal ∧
      made = attempts + o.gpuRecovery.toNat + o.hailoRecovery.toNat + 1 := by
  unfold StepOutcome.verdict at h
  obtain ⟨result, ha⟩ := Option.isSome_iff_exists.mp hsome
  rw [ha] at h ⊢
  cases hd : o.denoise with
  | error e =>
    rw [hd] at h
    cases h
  | ok u =>
    rw [hd] at h
    simp only [Bool.not_true, Bool.false_eq_true, ↓reduceIte] at h
    split at h
    · cases h
    · next hmade =>
      split at h
      · cases h
      · next hfatal =>
        cases hr : o.recovery with
        | error e =>
          rw [hr] at h
          cases h
        | ok r =>
          rw [hr] at h
          exact ⟨by omega, fun heq ↦ hfatal (Option.some.inj heq), (Except.ok.inj h).symm⟩

theorem verdict_le {o : StepOutcome} {maxAttempts attempts made : Nat}
    (h : o.verdict true maxAttempts attempts = .ok made) : attempts ≤ made := by
  cases hsome : o.action.isSome with
  | true =>
    obtain ⟨-, -, hmade⟩ := verdict_ok h hsome
    omega
  | false =>
    unfold StepOutcome.verdict at h
    rw [Option.isSome_eq_false_iff, Option.isNone_iff_eq_none] at hsome
    rw [hsome] at h
    cases hd : o.denoise with
    | error e =>
      rw [hd] at h
      cases h
    | ok u =>
      rw [hd] at h
      have hmade := Except.ok.inj h
      omega

theorem answer_attempts (hs : s.Saved latents)
    (hsome : (s.answer c step latents).action.isSome = true)
    (hfatal : (s.answer c step latents).action ≠ some .fatal) :
    (s.answer c step latents).gpuRecovery = true ∨ (s.answer c step latents).hailoRecovery = true := by
  have hnot := mt UtilizationWatchdog.step_action_fatal.mpr hfatal
  rw [answer_action_isSome] at hsome
  have hcalled (unit) (hasks : s.watchdog.asks unit (s.input c step latents) = true)
      (hfails : s.watchdog.fails (s.watchdog.deviceOf unit)
        ((s.input c step latents).reply unit) = false) :
      ((s.watchdog.evaluate unit (s.input c step latents)).called && s.latentCheckpoint.isSome) =
        true := by
    obtain ⟨hcalled, hresult⟩ := UtilizationWatchdog.called_of_not_fails hasks hfails
    rw [hcalled, input_reply hs unit hresult]
    rfl
  cases hgpu : s.watchdog.asks .gpu780M (s.input c step latents) with
  | true =>
    rw [hgpu, if_pos rfl, Bool.not_eq_true] at hnot
    exact .inl (hcalled .gpu780M hgpu hnot)
  | false =>
    rw [hgpu, Bool.false_or] at hsome
    rw [hgpu, if_neg Bool.false_ne_true, hsome, Bool.true_and, Bool.not_eq_true] at hnot
    exact .inr (hcalled .hailo8L hsome hnot)

theorem denoiseStep_result (req : GenerationRequest) (s : WatchedPipeline K L)
    (c : Surroundings K L) (step : Nat) (latents : L) :
    Fixed s.pipeline (s.denoiseStep req c step latents).1.pipeline ∧
      ((s.denoiseStep req c step latents).2.map fun _ ↦
          (s.denoiseStep req c step latents).1.pipeline.recoveryAttempts) =
        (s.outcome c step latents).verdict s.pipeline.watching s.pipeline.cfg.maxRecoveryAttempts
          s.pipeline.recoveryAttempts := by
  let st : Stages :=
    { now := c.now, step := fun _ ↦ s.outcome c step latents, decodeLatents := .error .unknown }
  have href := denoiseStep_refines req (show st.now = c.now from rfl)
    (show st.step step = s.outcome c step latents from rfl)
  have hverdict := denoiseStep_verdict s.pipeline req st step
  rw [← href] at hverdict
  refine ⟨hverdict.1, Eq.trans ?_ hverdict.2⟩
  cases (s.denoiseStep req c step latents).2 <;> rfl

theorem Agree.next_alike (h : Agree (n + 1) s t) (hs : s.Saved latents)
    (hwatching : s.pipeline.watching = true) {made : Nat}
    (hverdict : (s.answer c step latents).verdict true s.pipeline.cfg.maxRecoveryAttempts
      s.pipeline.recoveryAttempts = .ok made) (unit : ComputeUnit) :
    Alike s.watchdog.cfg s.pipeline.cfg.maxRecoveryAttempts made n
      ((s.watchdog.step (s.input c step latents)).1.deviceOf unit)
      ((t.watchdog.step (s.input c step latents)).1.deviceOf unit) := by
  have hsome (hasks : s.watchdog.asks unit (s.input c step latents) = true) :
      (s.answer c step latents).action.isSome = true := by
    rw [answer_action_isSome]
    cases unit with
    | gpu780M => rw [hasks, Bool.true_or]
    | hailo8L => rw [hasks, Bool.or_true]
  refine (h.alike hwatching unit).next h.watchdogCfg
    (fun hasks ↦ (verdict_ok hverdict (hsome hasks)).1) (verdict_le hverdict) fun hasks _ ↦ ?_
  obtain ⟨-, hfatal, hmade⟩ := verdict_ok hverdict (hsome hasks)
  rcases answer_attempts hs (hsome hasks) hfatal with hg | hh
  · rw [hmade, hg, Bool.toNat_true]
    omega
  · rw [hmade, hh, Bool.toNat_true]
    omega

theorem Agree.denoiseStep (h : Agree (n + 1) s t) (req : GenerationRequest)
    (c : Surroundings K L) (step : Nat) (latents : L) :
    (t.denoiseStep req c step latents).2 = (s.denoiseStep req c step latents).2 ∧
      ∀ l, (s.denoiseStep req c step latents).2 = .ok l →
        Agree n (s.denoiseStep req c step latents).1 (t.denoiseStep req c step latents).1 := by
  have hs := denoiseStep_result req s c step latents
  have ht := denoiseStep_result req t c step latents
  rw [h.watching, h.cfg, h.attempts, h.verdict, ← hs.2] at ht
  have hes := denoiseStep_effect s req c step latents
  have het := denoiseStep_effect t req c step latents
  generalize s.denoiseStep req c step latents = x at *
  generalize t.denoiseStep req c step latents = y at *
  obtain ⟨s', r⟩ := x
  obtain ⟨t', r'⟩ := y
  cases r with
  | error e =>
    refine ⟨?_, fun l hl ↦ (by cases hl)⟩
    cases r' with
    | error e' => exact congrArg Except.error (Except.error.inj ht.2)
    | ok l' => cases ht.2
  | ok l =>
    cases r' with
    | error e' => cases ht.2
    | ok l' =>
      obtain ⟨hrun, hcheckpoint⟩ := hes.result l rfl
      obtain ⟨hrun', hcheckpoint'⟩ := het.result l' rfl
      obtain rfl : l = l' := Except.ok.inj ((h.runStep.trans hrun).symm.trans hrun')
      have hattempts := Except.ok.inj ht.2
      have hwatchdog := hes.watchdog.trans (consulted_ok hrun)
      have hwatchdog' := het.watchdog.trans (consulted_ok hrun')
      have hinput := (h.saveCheckpoint l (c.checkpointAllocated step)).input c step
        (saveCheckpoint_saved _)
      rw [h.watching, hinput] at hwatchdog'
      obtain ⟨hcfg, hcallback⟩ := hes.watchdog_fixed
      obtain ⟨hcfg', hcallback'⟩ := het.watchdog_fixed
      have hfixed : Fixed s.pipeline s'.pipeline := hs.1
      have hfixed' : Fixed t.pipeline t'.pipeline := ht.1
      refine ⟨rfl, fun l hl ↦ ?_⟩
      obtain rfl := Except.ok.inj hl
      refine ⟨hfixed'.cfg.trans (h.cfg.trans hfixed.cfg.symm),
        hfixed'.watchdog.trans (h.flag.trans hfixed.watchdog.symm), hattempts,
        (het.loaded _ rfl).trans (hes.loaded _ rfl).symm,
        hcheckpoint'.trans ((h.saveCheckpoint _ _).latentCheckpoint.trans hcheckpoint.symm),
        het.numInferenceSteps.trans (h.numInferenceSteps.trans hes.numInferenceSteps.symm),
        hcfg'.trans (h.watchdogCfg.trans hcfg.symm),
        hcallback'.trans (h.onRecovery.trans hcallback.symm), fun hon unit ↦ ?_⟩
      have hon : s.pipeline.watching = true := by
        rw [Pipeline.watching, ← hfixed.watchdog, ← hfixed.cfg]
        exact hon
      have hverdict : (s.outcome c step latents).verdict s.pipeline.watching
          s.pipeline.cfg.maxRecoveryAttempts s.pipeline.recoveryAttempts =
        .ok s'.pipeline.recoveryAttempts := hs.2.symm
      rw [outcome_eq hrun, hon] at hverdict
      rw [hon, if_pos rfl] at hwatchdog hwatchdog'
      rw [hcfg, hfixed.cfg, hwatchdog, hwatchdog']
      exact (h.saveCheckpoint l _).next_alike (saveCheckpoint_saved _) hon hverdict unit

theorem Agree.denoiseLoop (h : Agree n s t) (req : GenerationRequest) (c : Surroundings K L)
    (step : Nat) (latents : L) :
    (denoiseLoop req c n step latents t).2 = (denoiseLoop req c n step latents s).2 := by
  induction n generalizing step latents s t with
  | zero => rfl
  | succ n ih =>
    obtain ⟨hresult, hnext⟩ := h.denoiseStep req c step latents
    rw [WatchedPipeline.denoiseLoop, WatchedPipeline.denoiseLoop]
    cases hs : s.denoiseStep req c step latents with
    | mk s' r =>
      cases ht : t.denoiseStep req c step latents with
      | mk t' r' =>
        rw [hs, ht] at hresult
        obtain rfl : r' = r := hresult
        rw [hs, ht] at hnext
        cases r' with
        | error e => rfl
        | ok l => exact ih (hnext l rfl) (step + 1) l

structure Peers (s t : WatchedPipeline K L) : Prop where
  fixed : Fixed s.pipeline t.pipeline
  gpuSession : t.gpuSession = s.gpuSession
  watchdogCfg : t.watchdog.cfg = s.watchdog.cfg
  onRecovery : t.watchdog.onRecovery = s.watchdog.onRecovery

omit [LinearOrder K] in
theorem Peers.agree (h : Peers s t) (req : GenerationRequest)
    (halike : s.pipeline.watching = true → ∀ unit,
      Alike s.watchdog.cfg s.pipeline.cfg.maxRecoveryAttempts 0 n (s.watchdog.deviceOf unit)
        (t.watchdog.deviceOf unit)) : Agree n (s.begin req) (t.begin req) :=
  ⟨h.fixed.cfg, h.fixed.watchdog, rfl, h.gpuSession, rfl, rfl, h.watchdogCfg, h.onRecovery, halike⟩

/-- Pipelines that the next call cannot tell apart; it has at most 150 steps. -/
def Interchangeable (s t : WatchedPipeline K L) : Prop :=
  s.pipeline.watching = true → ∀ unit,
    Alike s.watchdog.cfg s.pipeline.cfg.maxRecoveryAttempts 0 150 (s.watchdog.deviceOf unit)
      (t.watchdog.deviceOf unit)

theorem Peers.generate (h : Peers s t) (halike : Interchangeable s t) (req : GenerationRequest)
    (c : Surroundings K L) : (t.generate req c).2 = (s.generate req c).2 := by
  unfold WatchedPipeline.generate
  rw [h.fixed.shutdown]
  cases s.pipeline.shutdown with
  | true => rfl
  | false =>
    cases hvalid : req.valid with
    | false => rfl
    | true =>
      have hsteps : req.numSteps ≤ 150 := by
        by_contra hmore
        simp [GenerationRequest.valid, Nat.not_le.mp hmore] at hvalid
      have hloop := (h.agree req fun hwatching unit ↦
        (halike hwatching unit).mono hsteps).denoiseLoop req c 0 c.noise
      cases c.encodePrompt with
      | error e => rfl
      | ok u =>
        cases c.latentsAllocated with
        | false => rfl
        | true =>
          dsimp only
          cases hs : WatchedPipeline.denoiseLoop req c req.numSteps 0 c.noise (s.begin req) with
          | mk s' r =>
            cases ht : WatchedPipeline.denoiseLoop req c req.numSteps 0 c.noise (t.begin req) with
            | mk t' r' =>
              rw [hs, ht] at hloop
              obtain rfl : r' = r := hloop
              cases r' with
              | error e => rfl
              | ok l =>
                simp only [Bool.false_eq_true, ↓reduceIte, Bool.not_true]
                cases c.decodeLatents l <;> rfl

end WatchedPipeline

end Cerberus.Generation
