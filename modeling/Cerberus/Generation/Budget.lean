import Cerberus.Generation.Histories

namespace Cerberus.Generation

open Foundation Foundation.Bytes Watchdog UtilizationWatchdog

variable {K L : Type} [NatCast K]

/-- A step of a call that comes to its watchdog check: the pipeline with the checkpoint of the
latents, and what becomes of them. -/
structure Check (K L : Type) [NatCast K] where
  step : Nat
  pipeline : WatchedPipeline K L
  latents : L
  result : Except PipelineError L

/-- The stages besides the recovery do not return the error of the recovery budget, which has
only one place in the program. -/
structure Surroundings.Plain (c : Surroundings K L) : Prop where
  encodePrompt : c.encodePrompt ≠ .error .recoveryTooManyAttempts
  runUnet : ∀ n k l, c.runUnet n k l ≠ .error .recoveryTooManyAttempts
  decodeLatents : ∀ l, c.decodeLatents l ≠ .error .recoveryTooManyAttempts

namespace Check

variable [LinearOrder K] (c : Surroundings K L) (v : Check K L)

def input : UtilizationWatchdog.Input K := v.pipeline.input c v.step v.latents

def action : Option (RecoveryAction K) :=
  if v.pipeline.pipeline.watching then (v.pipeline.watchdog.step (v.input c)).2 else none

def acts : Bool := (v.action c).isSome

def recovers (unit : ComputeUnit) : Bool :=
  v.pipeline.watchdog.asks unit (v.input c) &&
    decide ((v.pipeline.watchdog.deviceOf unit).recoveryCount <
      v.pipeline.watchdog.cfg.maxRecoveries)

def requests : Nat := (v.recovers c .gpu780M).toNat + (v.recovers c .hailo8L).toNat

end Check

def spent [LinearOrder K] (c : Surroundings K L) (checks : List (Check K L)) : Nat :=
  (checks.map fun v ↦ if v.acts c then v.requests c + 1 else 0).sum

namespace WatchedPipeline

variable [LinearOrder K] (req : GenerationRequest) (c : Surroundings K L)

def checks : Nat → Nat → L → WatchedPipeline K L → List (Check K L)
  | 0, _, _, _ => []
  | n + 1, step, latents, s =>
    match s.runStep c step latents with
    | .error _ => []
    | .ok l =>
      ⟨step, s.saveCheckpoint l (c.checkpointAllocated step), l,
          (s.denoiseStep req c step latents).2⟩ ::
        match s.denoiseStep req c step latents with
        | (_, .error _) => []
        | (s, .ok l) => checks n (step + 1) l s

variable (s : WatchedPipeline K L)

def checked : List (Check K L) :=
  if s.pipeline.shutdown || !req.valid || !c.encodePrompt.toBool || !c.latentsAllocated then []
  else checks req c req.numSteps 0 c.noise (s.begin req)

/-- The recovery budget is kept: of the checks that ask for recovery, as many as there are
attempts give the saved latents back, and the next one ends the call. -/
structure Budgeted : Prop where
  check : ∀ pre v post, s.checked req c = pre ++ v :: post → v.acts c = true →
    v.result = if pre.countP (Check.acts c) < s.pipeline.cfg.maxRecoveryAttempts then .ok v.latents
      else .error .recoveryTooManyAttempts
  ended : (s.generate req c).2 = .error .recoveryTooManyAttempts ↔
    s.pipeline.cfg.maxRecoveryAttempts < (s.checked req c).countP (Check.acts c)

/-- There are no attempts at all, or at every check that asks for recovery the devices that do
and what was spent before stay below their number. -/
def Affordable : Prop :=
  s.pipeline.cfg.maxRecoveryAttempts = 0 ∨
    ∀ pre v post, s.checked req c = pre ++ v :: post → v.acts c = true →
      spent c pre + v.requests c < s.pipeline.cfg.maxRecoveryAttempts

variable {req c s}

theorem callback_called {v : Check K L} (hacts : v.acts c = true)
    (hfatal : ∀ a, v.action c = some a → a.result ≠ .fatal) :
    v.pipeline.pipeline.watching = true ∧ v.pipeline.latentCheckpoint.isSome = true ∧
      v.pipeline.watchdog.onRecovery = true ∧ 0 < v.requests c := by
  have hw : v.pipeline.pipeline.watching = true := by
    by_contra hw
    simp [Check.acts, Check.action, hw] at hacts
  have haction : v.action c = (v.pipeline.watchdog.step (v.input c)).2 := if_pos hw
  have hasks : v.pipeline.watchdog.asks .gpu780M (v.input c) = true ∨
      v.pipeline.watchdog.asks .hailo8L (v.input c) = true := by
    rw [Check.acts, haction, step_action_isSome, Bool.or_eq_true] at hacts
    exact hacts
  have hgood : ¬ (if v.pipeline.watchdog.asks .gpu780M (v.input c) then
      v.pipeline.watchdog.fails v.pipeline.watchdog.gpu (v.input c).gpuReply
      else v.pipeline.watchdog.asks .hailo8L (v.input c) &&
        v.pipeline.watchdog.fails v.pipeline.watchdog.hailo (v.input c).hailoReply) = true := by
    rw [← step_action_fatal, ← haction]
    intro h
    obtain ⟨a, ha, hresult⟩ := Option.map_eq_some_iff.mp h
    exact hfatal a ha hresult
  -- the device whose action is returned does not fail
  obtain ⟨unit, hunit, hfails⟩ : ∃ unit, v.pipeline.watchdog.asks unit (v.input c) = true ∧
      v.pipeline.watchdog.fails (v.pipeline.watchdog.deviceOf unit) ((v.input c).reply unit) =
        false := by
    cases hgpu : v.pipeline.watchdog.asks .gpu780M (v.input c) with
    | true =>
      rw [if_pos hgpu, Bool.not_eq_true] at hgood
      exact ⟨.gpu780M, hgpu, hgood⟩
    | false =>
      have hhailo := hasks.resolve_left (by simp [hgpu])
      rw [hgpu, if_neg Bool.false_ne_true, hhailo, Bool.true_and, Bool.not_eq_true] at hgood
      exact ⟨.hailo8L, hhailo, hgood⟩
  simp only [fails, Bool.or_eq_false_iff, decide_eq_false_iff_not, Bool.not_eq_false'] at hfails
  obtain ⟨⟨hmax, hcallback⟩, hreply⟩ := hfails
  refine ⟨hw, ?_, hcallback, ?_⟩
  · by_contra hnone
    rw [Bool.not_eq_true, Option.isSome_eq_false_iff] at hnone
    cases unit <;> simp [Check.input, input, Input.reply, callback, hnone, resultOf] at hreply
  · have hrecovers : v.recovers c unit = true := by
      rw [Check.recovers, hunit, decide_eq_true (UInt32.not_le.mp hmax)]
      rfl
    cases unit with
    | gpu780M => simp [Check.requests, hrecovers]
    | hailo8L => simp [Check.requests, hrecovers]

structure Rebuilds (c : Surroundings K L) : Prop where
  gpu : ∀ k, c.gpuRebuild k = .ok ()
  hailo : ∀ k, c.hailoRebuild k = .ok ()
  rebuild : ∀ k, c.rebuild k = .ok ()

section

variable {step : Nat} {latents l : L} {v : Check K L}

theorem quiet_verdict (hv : v.pipeline = s.saveCheckpoint l (c.checkpointAllocated step))
    (hstep : v.step = step) (hl : v.latents = l) (hrun : s.runStep c step latents = .ok l)
    (hacts : v.acts c = false) :
    (s.outcome c step latents).verdict s.pipeline.watching s.pipeline.cfg.maxRecoveryAttempts
      s.pipeline.recoveryAttempts = .ok s.pipeline.recoveryAttempts := by
  subst hstep hl
  have hp : v.pipeline.pipeline = s.pipeline := by rw [hv]; rfl
  simp only [outcome, hrun, StepOutcome.verdict, answer, ← hv]
  cases hw : s.pipeline.watching with
  | false => rfl
  | true =>
    have hnone : (v.pipeline.watchdog.step (v.input c)).2 = none := by
      have h := hacts
      rwa [Check.acts, Check.action, hp, hw, if_pos rfl, Option.isSome_eq_false_iff,
        Option.isNone_iff_eq_none] at h
    have hcalled (unit : ComputeUnit) :
        (v.pipeline.watchdog.evaluate unit (v.input c)).called = false := by
      have h := @step_action_isSome K _ _ v.pipeline.watchdog (v.input c)
      rw [hnone, Option.isSome_none, eq_comm, Bool.or_eq_false_iff] at h
      rw [evaluate_called_eq]
      cases unit with
      | gpu780M => simp [h.1]
      | hailo8L => simp [h.2]
    have hgpu : (v.pipeline.watchdog.evaluateGpu (v.pipeline.input c v.step v.latents)).called =
      false := hcalled .gpu780M
    have hhailo : (v.pipeline.watchdog.evaluateHailo
      (v.pipeline.input c v.step v.latents)).called = false := hcalled .hailo8L
    have haction : (v.pipeline.watchdog.step (v.pipeline.input c v.step v.latents)).2 = none := hnone
    simp [hgpu, hhailo, haction]

theorem acting_verdict (hv : v.pipeline = s.saveCheckpoint l (c.checkpointAllocated step))
    (hstep : v.step = step) (hl : v.latents = l) (hrun : s.runStep c step latents = .ok l)
    (hbuilt : Rebuilds c) (hacts : v.acts c = true)
    (hfatal : ∀ a, v.action c = some a → a.result ≠ .fatal) :
    (s.outcome c step latents).verdict s.pipeline.watching s.pipeline.cfg.maxRecoveryAttempts
      s.pipeline.recoveryAttempts =
    if s.pipeline.cfg.maxRecoveryAttempts ≤ s.pipeline.recoveryAttempts + v.requests c then
      .error .recoveryTooManyAttempts
    else .ok (s.pipeline.recoveryAttempts + (v.requests c + 1)) := by
  subst hstep hl
  obtain ⟨hw, hcheckpoint, hcallback, _⟩ := callback_called hacts hfatal
  have hp : v.pipeline.pipeline = s.pipeline := by rw [hv]; rfl
  have hcalled (unit : ComputeUnit) :
      (v.pipeline.watchdog.evaluate unit (v.input c)).called = v.recovers c unit := by
    rw [evaluate_called_eq, hcallback, Bool.and_true]
    rfl
  have hgpu : (v.pipeline.watchdog.evaluateGpu (v.pipeline.input c v.step v.latents)).called =
    v.recovers c .gpu780M := hcalled .gpu780M
  have hhailo : (v.pipeline.watchdog.evaluateHailo
    (v.pipeline.input c v.step v.latents)).called = v.recovers c .hailo8L := hcalled .hailo8L
  obtain ⟨a, ha⟩ := Option.isSome_iff_exists.mp hacts
  have hresult := hfatal a ha
  rw [Check.action, if_pos hw] at ha
  have haction : (v.pipeline.watchdog.step (v.pipeline.input c v.step v.latents)).2 = some a := ha
  rw [hp] at hw
  have hsum : s.pipeline.recoveryAttempts + (v.recovers c .gpu780M).toNat +
      (v.recovers c .hailo8L).toNat = s.pipeline.recoveryAttempts + v.requests c := by
    rw [Check.requests, Nat.add_assoc]
  simp only [outcome, hrun, StepOutcome.verdict, answer, ← hv, hgpu, hhailo, haction, hw,
    hcheckpoint, Bool.and_true, hbuilt.rebuild, hsum, Option.map_some, hresult, ↓reduceIte,
    Bool.not_true, Bool.false_eq_true]
  rfl

theorem denoiseStep_check (req : GenerationRequest)
    (hv : v.pipeline = s.saveCheckpoint l (c.checkpointAllocated step)) (hstep : v.step = step)
    (hl : v.latents = l) (hrun : s.runStep c step latents = .ok l) (hbuilt : Rebuilds c)
    (hfatal : ∀ a, v.action c = some a → a.result ≠ .fatal) :
    ((s.denoiseStep req c step latents).2 =
      if v.acts c = true ∧ s.pipeline.cfg.maxRecoveryAttempts ≤
        s.pipeline.recoveryAttempts + v.requests c then .error .recoveryTooManyAttempts
      else .ok l) ∧
    (s.denoiseStep req c step latents).1.pipeline.cfg = s.pipeline.cfg ∧
    ∀ l', (s.denoiseStep req c step latents).2 = .ok l' →
      (s.denoiseStep req c step latents).1.pipeline.recoveryAttempts =
        s.pipeline.recoveryAttempts + if v.acts c then v.requests c + 1 else 0 := by
  let st : Stages :=
    { now := c.now, step := fun _ ↦ s.outcome c step latents, decodeLatents := .error .unknown }
  have href : ((s.denoiseStep req c step latents).1.pipeline,
      (s.denoiseStep req c step latents).2.map fun _ ↦ ()) = s.pipeline.denoiseStep req st step :=
    denoiseStep_refines req rfl rfl
  obtain ⟨hfixed, hverdict⟩ := denoiseStep_verdict s.pipeline req st step
  rw [← href] at hfixed hverdict
  have hresult := (denoiseStep_effect s req c step latents).result
  generalize hd : s.denoiseStep req c step latents = d at *
  obtain ⟨t, r⟩ := d
  have hok {n : Nat} (h : (r.map fun _ ↦ ()).map (fun _ ↦ t.pipeline.recoveryAttempts) = .ok n) :
      r = .ok l ∧ t.pipeline.recoveryAttempts = n := by
    cases r with
    | error e => cases h
    | ok l' =>
      have hl' := (hresult l' rfl).1
      rw [hrun] at hl'
      exact ⟨congrArg _ (Except.ok.inj hl').symm, Except.ok.inj h⟩
  refine ⟨?_, hfixed.cfg, ?_⟩
  · cases hacts : v.acts c with
    | false =>
      rw [if_neg (by simp)]
      exact (hok (hverdict.trans (quiet_verdict hv hstep hl hrun hacts))).1
    | true =>
      have h := hverdict.trans (acting_verdict hv hstep hl hrun hbuilt hacts hfatal)
      simp only [true_and]
      split at h
      · next hmax =>
        rw [if_pos hmax]
        cases r with
        | error e => exact congrArg _ (Except.error.inj h)
        | ok l' => cases h
      · next hmax =>
        rw [if_neg hmax]
        exact (hok h).1
  · intro l' hl'
    cases hacts : v.acts c with
    | false => exact (hok (hverdict.trans (quiet_verdict hv hstep hl hrun hacts))).2
    | true =>
      have h := hverdict.trans (acting_verdict hv hstep hl hrun hbuilt hacts hfatal)
      split at h
      · obtain rfl : r = .ok l' := hl'
        cases h
      · exact (hok h).2

theorem checks_ok {n : Nat} (hrun : s.runStep c step latents = .ok l) :
    checks req c (n + 1) step latents s =
      ⟨step, s.saveCheckpoint l (c.checkpointAllocated step), l,
        (s.denoiseStep req c step latents).2⟩ ::
      match s.denoiseStep req c step latents with
      | (_, .error _) => []
      | (s, .ok l) => checks req c n (step + 1) l s := by
  rw [checks, hrun]

theorem checks_error {n : Nat} {e : PipelineError} (hrun : s.runStep c step latents = .error e) :
    checks req c (n + 1) step latents s = [] := by
  rw [checks, hrun]

omit [LinearOrder K] in
theorem runStep_ne (hplain : c.Plain) :
    s.runStep c step latents ≠ .error .recoveryTooManyAttempts := by
  unfold runStep
  split
  · exact hplain.runUnet _ _ _
  · intro h
    cases h

theorem denoiseLoop_ended (req : GenerationRequest) (hplain : c.Plain) (n step : Nat) (latents : L)
    (s : WatchedPipeline K L) :
    (denoiseLoop req c n step latents s).2 = .error .recoveryTooManyAttempts ↔
      ∃ v ∈ checks req c n step latents s, v.result = .error .recoveryTooManyAttempts := by
  induction n generalizing step latents s with
  | zero => simp [denoiseLoop, checks]
  | succ n ih =>
    cases hrun : s.runStep c step latents with
    | error e =>
      have hne : (.error e : Except PipelineError L) ≠ .error .recoveryTooManyAttempts :=
        hrun ▸ runStep_ne hplain
      have hstep : (s.denoiseStep req c step latents).2 = .error e := by
        simp [denoiseStep, hrun, failWith]
      rw [checks_error hrun, denoiseLoop]
      generalize s.denoiseStep req c step latents = d at hstep
      obtain ⟨t, r⟩ := d
      obtain rfl : r = .error e := hstep
      simpa using hne
    | ok l =>
      rw [checks_ok hrun, denoiseLoop]
      generalize s.denoiseStep req c step latents = d
      obtain ⟨t, r⟩ := d
      cases r with
      | error e => simp
      | ok l' =>
        rw [List.exists_mem_cons_iff, ← ih (step + 1) l' t]
        simp

theorem generate_ended (hplain : c.Plain) (s : WatchedPipeline K L) :
    (s.generate req c).2 = .error .recoveryTooManyAttempts ↔
      ∃ v ∈ s.checked req c, v.result = .error .recoveryTooManyAttempts := by
  have hloop := denoiseLoop_ended req hplain req.numSteps 0 c.noise (s.begin req)
  have hencode := hplain.encodePrompt
  unfold generate checked
  cases s.pipeline.shutdown with
  | true => simp [failWith]
  | false =>
    cases req.valid with
    | false => simp [failWith]
    | true =>
      cases he : c.encodePrompt with
      | error e =>
        rw [he] at hencode
        simpa [Except.toBool] using hencode
      | ok u =>
        cases c.latentsAllocated with
        | false => simp [failWith]
        | true =>
          simp only [Bool.not_true, Bool.or_self, Except.toBool, Bool.false_eq_true, ↓reduceIte]
          rw [← hloop]
          generalize denoiseLoop req c req.numSteps 0 c.noise (s.begin req) = d
          obtain ⟨t, r⟩ := d
          cases r with
          | error e => simp
          | ok l =>
            have hdecode := hplain.decodeLatents l
            cases hd : c.decodeLatents l with
            | error e =>
              rw [hd] at hdecode
              simpa [failWith, hd] using hdecode
            | ok image => simp [hd]

theorem spent_append (pre post : List (Check K L)) :
    spent c (pre ++ post) = spent c pre + spent c post := by
  simp [spent]

/-- A check that goes on costs at least two attempts: the watchdog's own and the one of
`generate`. -/
theorem two_countP_le_spent {checks : List (Check K L)}
    (hfatal : ∀ v ∈ checks, ∀ a, v.action c = some a → a.result ≠ .fatal) :
    2 * checks.countP (Check.acts c) ≤ spent c checks := by
  induction checks with
  | nil => exact Nat.zero_le _
  | cons v vs ih =>
    have hrest := ih fun u hu ↦ hfatal u (List.mem_cons_of_mem v hu)
    rw [← List.singleton_append, spent_append, List.countP_append]
    cases hacts : v.acts c with
    | false => simpa [spent, hacts] using hrest
    | true =>
      have hrequests := (callback_called hacts (hfatal v List.mem_cons_self)).2.2.2
      simp only [spent, List.map_cons, List.map_nil, hacts, ↓reduceIte, List.sum_cons,
        List.sum_nil, List.countP_cons, List.countP_nil] at hrest ⊢
      omega

structure CheckRun (c : Surroundings K L) (maxAttempts attempts : Nat) (pre : List (Check K L))
    (v : Check K L) : Prop where
  result : v.result = if v.acts c = true ∧ maxAttempts ≤ attempts + spent c pre + v.requests c
    then .error .recoveryTooManyAttempts else .ok v.latents
  bounded : attempts ≤ maxAttempts → attempts + spent c pre ≤ maxAttempts

theorem checks_run (hbuilt : Rebuilds c) (n step : Nat) (latents : L) (s : WatchedPipeline K L)
    (hfatal : ∀ v ∈ checks req c n step latents s, ∀ a, v.action c = some a → a.result ≠ .fatal)
    {pre post : List (Check K L)} {v : Check K L}
    (hsplit : checks req c n step latents s = pre ++ v :: post) :
    CheckRun c s.pipeline.cfg.maxRecoveryAttempts s.pipeline.recoveryAttempts pre v := by
  induction n generalizing step latents s pre with
  | zero => simp [checks] at hsplit
  | succ n ih =>
    cases hrun : s.runStep c step latents with
    | error e => simp [checks_error hrun] at hsplit
    | ok l =>
      rw [checks_ok hrun] at hsplit hfatal
      obtain ⟨hresult, hcfg, hattempts⟩ := denoiseStep_check req rfl rfl rfl hrun hbuilt
        (hfatal _ List.mem_cons_self)
      cases pre with
      | nil =>
        obtain ⟨rfl, _⟩ := List.cons.inj hsplit
        refine ⟨?_, fun h ↦ h⟩
        rw [hresult]
        rfl
      | cons u pre =>
        obtain ⟨rfl, htail⟩ := List.cons.inj hsplit
        generalize hd : s.denoiseStep req c step latents = d at *
        obtain ⟨t, r⟩ := d
        cases r with
        | error e => simp at htail
        | ok l' =>
          have hrest := ih (step + 1) l' t (fun u hu ↦ hfatal u (List.mem_cons_of_mem _ hu)) htail
          have ht := hattempts l' rfl
          generalize hu : (⟨step, s.saveCheckpoint l (c.checkpointAllocated step), l,
            .ok l'⟩ : Check K L) = u at *
          have hcost : s.pipeline.recoveryAttempts + spent c (u :: pre) =
              t.pipeline.recoveryAttempts + spent c pre := by
            rw [ht, ← List.singleton_append, spent_append, ← Nat.add_assoc]
            simp [spent]
          refine ⟨?_, fun hle ↦ ?_⟩
          · rw [hcost, ← hcfg]
            exact hrest.result
          · rw [hcost]
            rw [← hcfg] at hle hresult ⊢
            apply hrest.bounded
            rw [ht]
            cases hacts : u.acts c with
            | false => simpa using hle
            | true =>
              have hmax : ¬ t.pipeline.cfg.maxRecoveryAttempts ≤
                  s.pipeline.recoveryAttempts + u.requests c := by
                intro hmax
                rw [if_pos ⟨hacts, hmax⟩] at hresult
                cases hresult
              rw [if_pos rfl]
              omega

theorem checked_run (hbuilt : Rebuilds c) (s : WatchedPipeline K L)
    (hfatal : ∀ v ∈ s.checked req c, ∀ a, v.action c = some a → a.result ≠ .fatal)
    {pre post : List (Check K L)} (hsplit : s.checked req c = pre ++ v :: post) :
    CheckRun c s.pipeline.cfg.maxRecoveryAttempts 0 pre v ∧
      2 * pre.countP (Check.acts c) ≤ spent c pre := by
  have hpre : 2 * pre.countP (Check.acts c) ≤ spent c pre :=
    two_countP_le_spent fun u hu ↦ hfatal u (hsplit ▸ List.mem_append_left _ hu)
  unfold checked at hsplit hfatal
  split at hsplit
  · simp at hsplit
  · next hreached =>
    rw [if_neg hreached] at hfatal
    exact ⟨checks_run hbuilt req.numSteps 0 c.noise (s.begin req) hfatal hsplit, hpre⟩

end

end WatchedPipeline

/-- Where a list has more than `n` elements of a kind, one of them comes after exactly `n`. -/
theorem exists_split_of_lt_countP {α : Type} {p : α → Bool} {l : List α} {n : Nat}
    (h : n < l.countP p) : ∃ pre a post, l = pre ++ a :: post ∧ p a = true ∧ pre.countP p = n := by
  induction l generalizing n with
  | nil => simp at h
  | cons b l ih =>
    cases hb : p b with
    | false =>
      rw [List.countP_cons_of_neg (by simp [hb])] at h
      obtain ⟨pre, a, post, rfl, ha, hcount⟩ := ih h
      exact ⟨b :: pre, a, post, rfl, ha, by rw [List.countP_cons_of_neg (by simp [hb]), hcount]⟩
    | true =>
      rw [List.countP_cons_of_pos hb] at h
      cases n with
      | zero => exact ⟨[], b, l, rfl, hb, rfl⟩
      | succ n =>
        obtain ⟨pre, a, post, rfl, ha, hcount⟩ := ih (Nat.lt_of_succ_lt_succ h)
        exact ⟨b :: pre, a, post, rfl, ha, by rw [List.countP_cons_of_pos hb, hcount]⟩

open WatchedPipeline

/-- In a call whose rebuilds succeed and whose checks give no fatal answer, the recovery budget
is kept exactly when it is affordable, since a recovery takes two attempts and more. -/
theorem recovery_budget_iff [LinearOrder K] (s : WatchedPipeline K L) (req : GenerationRequest)
    (c : Surroundings K L) (hplain : c.Plain) (hbuilt : Rebuilds c)
    (hfatal : ∀ v ∈ s.checked req c, ∀ a, v.action c = some a → a.result ≠ .fatal) :
    s.Budgeted req c ↔ s.Affordable req c := by
  generalize hn : s.pipeline.cfg.maxRecoveryAttempts = n
  have hrun {pre v post} (hsplit : s.checked req c = pre ++ v :: post) :
      CheckRun c n 0 pre v ∧ 2 * pre.countP (Check.acts c) ≤ spent c pre :=
    hn ▸ checked_run hbuilt s hfatal hsplit
  constructor
  · intro h
    unfold Affordable
    rw [hn, or_iff_not_imp_left]
    intro hpos pre v post hsplit hacts
    obtain ⟨⟨hresult, hbounded⟩, hcount⟩ := hrun hsplit
    have hspent := hbounded (Nat.zero_le n)
    have hlt : pre.countP (Check.acts c) < n := by omega
    have hcheck := h.check pre v post hsplit hacts
    rw [hn, if_pos hlt, hresult] at hcheck
    by_contra hmax
    rw [if_pos ⟨hacts, by omega⟩] at hcheck
    cases hcheck
  · intro h
    unfold Affordable at h
    rw [hn] at h
    have hcheck : ∀ pre v post, s.checked req c = pre ++ v :: post → v.acts c = true →
        v.result = if pre.countP (Check.acts c) < n then .ok v.latents
          else .error .recoveryTooManyAttempts := by
      intro pre v post hsplit hacts
      obtain ⟨⟨hresult, hbounded⟩, hcount⟩ := hrun hsplit
      have hspent := hbounded (Nat.zero_le n)
      rcases h with rfl | hafford
      · rw [hresult, if_pos ⟨hacts, Nat.zero_le _⟩, if_neg (Nat.not_lt_zero _)]
      · have hlt := hafford pre v post hsplit hacts
        rw [hresult, if_neg (by omega), if_pos (by omega)]
    refine ⟨hn ▸ hcheck, ?_⟩
    rw [generate_ended hplain, hn]
    constructor
    · rintro ⟨v, hv, hended⟩
      obtain ⟨pre, post, hsplit⟩ := List.append_of_mem hv
      have hresult := (hrun hsplit).1.result
      have hacts : v.acts c = true := by
        by_contra hacts
        rw [if_neg (fun h ↦ hacts h.1), hended] at hresult
        cases hresult
      have hover : ¬ pre.countP (Check.acts c) < n := by
        intro hlt
        have hok := hcheck pre v post hsplit hacts
        rw [if_pos hlt, hended] at hok
        cases hok
      rw [hsplit, List.countP_append, List.countP_cons_of_pos hacts]
      omega
    · intro hlt
      obtain ⟨pre, v, post, hsplit, hacts, hcount⟩ := exists_split_of_lt_countP hlt
      refine ⟨v, hsplit ▸ List.mem_append_right _ List.mem_cons_self, ?_⟩
      rw [hcheck pre v post hsplit hacts, hcount, if_neg (Nat.lt_irrefl n)]

section

/-- One recovery takes two of the three attempts, and is affordable. -/
theorem recovery_budget_iff_one : guarded.Budgeted (probeRequest 2) gpuFalls := by
  obtain ⟨u, v, hchecked, hu, hrequests, haction, hv⟩ : ∃ u v : Check Int Unit,
      guarded.checked (probeRequest 2) gpuFalls = [u, v] ∧
      (u.action gpuFalls).map (fun a ↦ a.result) = some .success ∧ u.requests gpuFalls = 1 ∧
      (v.action gpuFalls).isSome = false ∧ v.acts gpuFalls = false :=
    ⟨_, _, rfl, rfl, rfl, rfl, rfl⟩
  refine (recovery_budget_iff guarded (probeRequest 2) gpuFalls
    ⟨fun h ↦ (by cases h), fun _ _ _ h ↦ (by cases h), fun _ h ↦ (by cases h)⟩
    ⟨fun _ ↦ rfl, fun _ ↦ rfl, fun _ ↦ rfl⟩ ?_).mpr (.inr ?_)
  · rw [hchecked]
    intro w hw a ha hfatal
    rcases List.mem_pair.mp hw with rfl | rfl
    · rw [ha, Option.map_some, hfatal] at hu
      cases hu
    · rw [ha] at haction
      cases haction
  · rw [hchecked]
    intro pre w post hsplit hacts
    rcases pre with _ | ⟨w', pre⟩
    · obtain ⟨rfl, _⟩ := List.cons.inj hsplit
      rw [hrequests]
      decide
    · obtain ⟨_, htail⟩ := List.cons.inj hsplit
      rcases pre with _ | ⟨w'', pre⟩
      · obtain ⟨rfl, _⟩ := List.cons.inj htail
        rw [hv] at hacts
        cases hacts
      · simp at htail

def gpuStays : Surroundings Int Unit := { gpuFalls with gpuSnap := fun _ ↦ ⟨some 10, some 50⟩ }

/-- With three attempts the second recovery is refused. -/
theorem second_recovery_refused :
    Rebuilds gpuStays ∧
    (∀ v ∈ guarded.checked (probeRequest 2) gpuStays, ∀ a, v.action gpuStays = some a →
      a.result ≠ .fatal) ∧
    ¬ guarded.Budgeted (probeRequest 2) gpuStays := by
  obtain ⟨u, v, hchecked, hu, hv⟩ : ∃ u v : Check Int Unit,
      guarded.checked (probeRequest 2) gpuStays = [u, v] ∧
      (u.action gpuStays).map (fun a ↦ a.result) = some .success ∧
      (v.action gpuStays).map (fun a ↦ a.result) = some .success :=
    ⟨_, _, rfl, rfl, rfl⟩
  refine ⟨⟨fun _ ↦ rfl, fun _ ↦ rfl, fun _ ↦ rfl⟩, ?_, fun h ↦ ?_⟩
  · rw [hchecked]
    intro w hw a ha hfatal
    rcases List.mem_pair.mp hw with rfl | rfl
    · rw [ha, Option.map_some, hfatal] at hu
      cases hu
    · rw [ha, Option.map_some, hfatal] at hv
      cases hv
  · have hended : (guarded.generate (probeRequest 2) gpuStays).2 =
      .error .recoveryTooManyAttempts := rfl
    have hover := h.ended.mp hended
    have hlength := List.countP_le_length (p := Check.acts gpuStays)
      (l := guarded.checked (probeRequest 2) gpuStays)
    rw [hchecked] at hover hlength
    have hlt : guarded.pipeline.cfg.maxRecoveryAttempts < 2 := hover.trans_le hlength
    exact absurd hlt (by decide)

end

end Cerberus.Generation
