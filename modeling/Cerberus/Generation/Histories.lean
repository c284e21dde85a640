import Cerberus.Generation.Probes

namespace Cerberus.Generation

open Foundation Foundation.Bytes Watchdog

variable {K L : Type} [NatCast K]

structure Surroundings.Succeeds (c : Surroundings K L) : Prop where
  latentsAllocated : c.latentsAllocated = true
  checkpointAllocated : ∀ step, c.checkpointAllocated step = true
  gpuRebuild : ∀ step, c.gpuRebuild step = .ok ()
  hailoRebuild : ∀ step, c.hailoRebuild step = .ok ()
  rebuild : ∀ step, c.rebuild step = .ok ()

namespace WatchedPipeline

variable [LinearOrder K] {s s' s'' t : WatchedPipeline K L} {c : Surroundings K L}

structure Kept (s s' : WatchedPipeline K L) : Prop extends Peers s s' where
  recoveries : ∀ unit, (s.watchdog.deviceOf unit).recoveryCount ≤ s.watchdog.cfg.maxRecoveries →
    (s'.watchdog.deviceOf unit).recoveryCount ≤ s.watchdog.cfg.maxRecoveries
  idle : ¬ Monitored s → s'.watchdog = s.watchdog

omit [LinearOrder K] in
theorem Kept.trans (h : Kept s s') (h' : Kept s' s'') : Kept s s'' := by
  refine ⟨h.toPeers.trans h'.toPeers, fun unit hle ↦ ?_, fun hidle ↦ ?_⟩
  · have hkept := h'.recoveries unit
    rw [h.watchdogCfg] at hkept
    exact hkept (h.recoveries unit hle)
  · have hidle' : ¬ Monitored s' := fun hs' ↦
      hidle ⟨h.gpuSession.symm.trans hs'.loaded, h.watching.symm.trans hs'.watching⟩
    exact (h'.idle hidle').trans (h.idle hidle)

omit [LinearOrder K] in
theorem Kept.of_watchdog (hp : Peers s s') (hw : s'.watchdog = s.watchdog) : Kept s s' :=
  ⟨hp, fun _ hle ↦ hw ▸ hle, fun _ ↦ hw⟩

omit [LinearOrder K] in
theorem Kept.of_fixed {p : Pipeline} (h : Fixed s.pipeline p) : Kept s { s with pipeline := p } :=
  .of_watchdog ⟨h, rfl, rfl, rfl⟩ rfl

omit [LinearOrder K] in
theorem Kept.failWith {α : Type} (req : GenerationRequest) (c : Surroundings K L) (e : PipelineError)
    (width height : Nat) : Kept s (@failWith K L _ s req c α e width height).1 := by
  refine .of_fixed ?_
  have hcount : Fixed s.pipeline s.pipeline.countFailure := ⟨rfl, rfl, rfl, rfl⟩
  exact hcount.trans (storeInferenceRecord_fixed s.pipeline.countFailure ..)

theorem step_recoveryCount_le {w : UtilizationWatchdog K} {unit : ComputeUnit}
    {i : UtilizationWatchdog.Input K}
    (hle : (w.deviceOf unit).recoveryCount ≤ w.cfg.maxRecoveries) :
    ((w.step i).1.deviceOf unit).recoveryCount ≤ w.cfg.maxRecoveries := by
  have hmoves := UtilizationWatchdog.step_moves w unit i
  cases hasks : w.asks unit i with
  | true =>
    by_cases hlt : (w.deviceOf unit).recoveryCount < w.cfg.maxRecoveries
    · have hsucc := UtilizationWatchdog.toNat_succ_of_lt hlt
      rw [UInt32.lt_iff_toNat_lt] at hlt
      rw [(hmoves.tries hasks hlt).2.2, UInt32.le_iff_toNat_le]
      omega
    · rw [(hmoves.givesUp hasks (UInt32.not_lt.mp hlt)).2]
      exact hle
  | false =>
    cases hsample : (i.snap unit).utilization.atLeast (w.lowThreshold unit) with
    | true => rwa [(hmoves.rests hsample).2.2]
    | false => rwa [(hmoves.falls hsample hasks).2.2]

theorem denoiseStep_kept (hc : c.Succeeds) (req : GenerationRequest) (step : Nat) (latents : L) :
    Kept s (s.denoiseStep req c step latents).1 := by
  have hfixed := (denoiseStep_result req s c step latents).1
  have heffect := denoiseStep_effect s req c step latents
  cases hrun : s.runStep c step latents with
  | error e =>
    unfold denoiseStep
    rw [hrun]
    exact .failWith ..
  | ok l =>
    have hloaded := runStep_ok hrun
    have hwatchdog := heffect.watchdog.trans (consulted_ok hrun)
    have hsession := (heffect.gpuSession hloaded (hc.gpuRebuild step) (hc.rebuild step)).trans
      hloaded.symm
    obtain ⟨hcfg, hcallback⟩ := heffect.watchdog_fixed
    have hpeers : Peers s (s.denoiseStep req c step latents).1 := ⟨hfixed, hsession, hcfg, hcallback⟩
    cases hwatching : s.pipeline.watching with
    | false =>
      rw [hwatching, if_neg Bool.false_ne_true] at hwatchdog
      exact .of_watchdog hpeers hwatchdog
    | true =>
      rw [hwatching, if_pos rfl] at hwatchdog
      refine ⟨hpeers, fun unit hle ↦ ?_, fun hidle ↦ absurd ⟨hloaded, hwatching⟩ hidle⟩
      rw [hwatchdog]
      exact step_recoveryCount_le hle

theorem denoiseLoop_kept (hc : c.Succeeds) (req : GenerationRequest) (n step : Nat) (latents : L)
    (s : WatchedPipeline K L) : Kept s (denoiseLoop req c n step latents s).1 := by
  induction n generalizing step latents s with
  | zero => exact .of_watchdog (.refl s) rfl
  | succ n ih =>
    have hstep : Kept s (s.denoiseStep req c step latents).1 := denoiseStep_kept hc ..
    rw [denoiseLoop]
    cases hs : s.denoiseStep req c step latents with
    | mk s' r =>
      rw [hs] at hstep
      cases r with
      | error e => exact hstep
      | ok l => exact hstep.trans (ih ..)

theorem generate_kept (hc : c.Succeeds) (req : GenerationRequest) : Kept s (s.generate req c).1 := by
  have hbegin : Kept s (s.begin req) := .of_watchdog (peers_begin s req) rfl
  have hloop := hbegin.trans (denoiseLoop_kept hc req req.numSteps 0 c.noise (s.begin req))
  unfold generate
  split
  · exact .failWith ..
  · split
    · exact .failWith ..
    · cases c.encodePrompt with
      | error e => exact .of_fixed ⟨rfl, rfl, rfl, rfl⟩
      | ok u =>
        dsimp only
        split
        · exact .failWith ..
        · generalize denoiseLoop req c req.numSteps 0 c.noise (s.begin req) = x at *
          obtain ⟨s', r⟩ := x
          cases r with
          | error e => exact hloop
          | ok l =>
            dsimp only
            cases c.decodeLatents l with
            | error e => exact hloop.trans (.failWith ..)
            | ok image =>
              refine hloop.trans (.of_fixed ?_)
              have hreport : Fixed s'.pipeline
                  { s'.pipeline with
                    acceleration := c.hardware.report s'.pipeline.acceleration }.countCompletion :=
                ⟨rfl, rfl, rfl, rfl⟩
              exact hreport.trans (storeInferenceRecord_fixed ..)

theorem generate_shutdown (h : s.pipeline.shutdown = true) (req : GenerationRequest) :
    (s.generate req c).1.watchdog = s.watchdog := by
  unfold generate
  rw [h]
  rfl

variable {calls : List (GenerationRequest × Surroundings K L)}

theorem after_kept (hc : ∀ x ∈ calls, x.2.Succeeds) : Kept s (s.after calls) := by
  induction calls generalizing s with
  | nil => exact .of_watchdog (.refl s) rfl
  | cons x calls ih =>
    have hx : Kept s (s.generate x.1 x.2).1 := generate_kept (hc x List.mem_cons_self) x.1
    exact hx.trans (ih fun y hy ↦ hc y (List.mem_cons_of_mem x hy))

theorem after_shutdown (hc : ∀ x ∈ calls, x.2.Succeeds) (h : s.pipeline.shutdown = true) :
    (s.after calls).watchdog = s.watchdog := by
  induction calls generalizing s with
  | nil => rfl
  | cons x calls ih =>
    have hx : Kept s (s.generate x.1 x.2).1 := generate_kept (hc x List.mem_cons_self) x.1
    have hlater := ih (fun y hy ↦ hc y (List.mem_cons_of_mem x hy)) (hx.fixed.shutdown.trans h)
    exact hlater.trans (generate_shutdown h x.1)

omit [LinearOrder K] in
theorem Peers.symm (h : Peers s t) : Peers t s :=
  ⟨⟨h.fixed.cfg.symm, h.fixed.watchdog.symm, h.fixed.transport.symm, h.fixed.shutdown.symm⟩,
    h.gpuSession.symm, h.watchdogCfg.symm, h.onRecovery.symm⟩

theorem Peers.discerns (h : Peers s t) (hd : Discerns s.watchdog) : Discerns t.watchdog := by
  refine ⟨fun unit ↦ ?_, fun unit ↦ ?_, ?_⟩
  · rw [h.lowThreshold]
    exact hd.normal unit
  · rw [h.lowThreshold, h.criticalThreshold]
    exact hd.warning unit
  · simp only [UtilizationWatchdog.thermalSkipRecovery, h.watchdogCfg]
    exact hd.hot

/-- Every next call, with the same surroundings, ends with the same image or the same error. -/
def SameResults (s t : WatchedPipeline K L) : Prop :=
  ∀ (req : GenerationRequest) (c : Surroundings K L), (t.generate req c).2 = (s.generate req c).2

theorem SameResults.symm (h : SameResults s t) : SameResults t s := fun req c ↦ (h req c).symm

theorem SameResults.not_apart (h : SameResults s t) :
    ¬ ∃ (req : GenerationRequest) (c : Surroundings K L), (s.generate req c).2 ≠ (t.generate req c).2 := by
  rintro ⟨req, c, hne⟩
  exact hne (h req c).symm

variable [Inhabited L] {unit : ComputeUnit}

theorem SameResults.inRecovery (hsame : SameResults s t) (hp : Peers s t) (h : Monitored s)
    (hshutdown : s.pipeline.shutdown = false) (hd : Discerns s.watchdog) :
    (s.watchdog.deviceOf unit).inRecovery = (t.watchdog.deviceOf unit).inRecovery := by
  cases hs : (s.watchdog.deviceOf unit).inRecovery with
  | false =>
    rw [eq_comm, ← Bool.not_eq_true]
    intro ht
    exact hsame.not_apart (apart_of_flag hp h hshutdown hd hs ht)
  | true =>
    by_contra ht
    have ht : (t.watchdog.deviceOf unit).inRecovery = false := by
      rw [← Bool.not_eq_true]
      exact fun ht' ↦ ht ht'.symm
    exact hsame.symm.not_apart (apart_of_flag hp.symm (h.peers hp)
      (hp.fixed.shutdown.trans hshutdown) (hp.discerns hd) ht hs)

theorem SameResults.streak (hsame : SameResults s t) (hp : Peers s t) (h : Monitored s)
    (hshutdown : s.pipeline.shutdown = false) (hd : Discerns s.watchdog)
    (hrec : (s.watchdog.deviceOf unit).inRecovery = false) {j : Nat} (hj : j < 150)
    (hreached : s.watchdog.cfg.consecutiveThreshold ≤
      (s.watchdog.deviceOf unit).consecutive + 1 + UInt32.ofNat j) :
    s.watchdog.cfg.consecutiveThreshold ≤
      (t.watchdog.deviceOf unit).consecutive + 1 + UInt32.ofNat j := by
  by_contra hnot
  exact hsame.not_apart (apart_of_streak hp h hshutdown hd hrec hj hreached hnot)

omit [NatCast K] [LinearOrder K] [Inhabited L] in
theorem left_comm (maxRecoveries : UInt32) (d e : Device) :
    left maxRecoveries d e = left maxRecoveries e d := by
  rw [left, max_comm, left]

theorem SameResults.interchangeable (hsame : SameResults s t) (hp : Peers s t) (h : Monitored s)
    (hshutdown : s.pipeline.shutdown = false) (hcallback : s.watchdog.onRecovery = true)
    (hd : Discerns s.watchdog)
    (hs : ∀ unit, (s.watchdog.deviceOf unit).recoveryCount ≤ s.watchdog.cfg.maxRecoveries)
    (ht : ∀ unit, (t.watchdog.deviceOf unit).recoveryCount ≤ s.watchdog.cfg.maxRecoveries) :
    Interchangeable s t := by
  intro _ unit
  have hshutdown' := hp.fixed.shutdown.trans hshutdown
  have hflag : (s.watchdog.deviceOf unit).inRecovery = (t.watchdog.deviceOf unit).inRecovery :=
    hsame.inRecovery hp h hshutdown hd
  refine ⟨hflag, fun hrec j hj ↦ ⟨hsame.streak hp h hshutdown hd hrec hj, fun hreached ↦ ?_⟩, ?_⟩
  · have hreached' := @SameResults.streak K L _ _ t s _ unit hsame.symm hp.symm (h.peers hp)
      hshutdown' (hp.discerns hd) (hflag.symm.trans hrec) j hj
    rw [hp.watchdogCfg] at hreached'
    exact hreached' hreached
  · by_contra hnot
    obtain ⟨hne, hnot⟩ := not_or.mp hnot
    obtain ⟨hattempts, hsteps⟩ := not_or.mp hnot
    rw [Nat.zero_add, Nat.not_le] at hattempts
    rw [Nat.not_le] at hsteps
    rcases UInt32.lt_or_lt_of_ne hne with hlt | hgt
    · exact hsame.not_apart (apart_of_count hp h hshutdown hcallback hd hflag hlt (ht unit)
        hattempts hsteps)
    · refine hsame.symm.not_apart (apart_of_count hp.symm (h.peers hp) hshutdown'
        (hp.onRecovery.trans hcallback) (hp.discerns hd) hflag.symm hgt ?_ ?_ ?_)
      · rw [hp.watchdogCfg]
        exact hs unit
      · rw [hp.watchdogCfg, hp.fixed.cfg, left_comm]
        exact hattempts
      · rw [hp.watchdogCfg, left_comm, ← hflag]
        exact hsteps

end WatchedPipeline

open WatchedPipeline

variable [LinearOrder K]

section

def guarded : WatchedPipeline Int Unit :=
  .construct { cfg := {}, watchdog := true, transport := false } {} (fun _ ↦ []) true

def gpuFalls : Surroundings Int Unit where
  noise := ()
  runUnet := fun _ _ latents ↦ .ok latents
  gpuSnap := fun step ↦ ⟨some (if step = 0 then 10 else 90), some 50⟩
  hailoSnap := fun _ ↦ ⟨some 90, some 50⟩
  decodeLatents := fun _ ↦ .ok ⟨8, 8⟩

def recovered (n : Nat) : List (GenerationRequest × Surroundings Int Unit) :=
  List.replicate n (probeRequest 2, gpuFalls)

theorem gpuFalls_succeeds (n : Nat) : ∀ x ∈ recovered n, x.2.Succeeds := by
  intro x hx
  obtain rfl := List.eq_of_mem_replicate hx
  exact ⟨rfl, fun _ ↦ rfl, fun _ ↦ rfl, fun _ ↦ rfl, fun _ ↦ rfl⟩

theorem guarded_discerns : Discerns guarded.watchdog := by
  refine .of_lt (fun unit ↦ ⟨60, 40, ?_, ?_, by decide⟩) (show _ = some (85 : Int) from rfl)
    (show (85 : Int) < 86 by decide)
  · cases unit <;> rfl
  · cases unit <;> rfl

end

end Cerberus.Generation
