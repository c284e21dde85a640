import Cerberus.Generation.Model

namespace Cerberus.Generation

open Std Foundation Foundation.Bytes Foundation.Trace MaintenanceDb

def statusOf {α : Type} : Except PipelineError α → ByteString
  | .ok _ => lit "success"
  | .error _ => lit "failed"

def Historic (p : Pipeline) : Prop :=
  p.cfg.enableInferenceHistory = true ∧ ∃ db, p.lcmdDb = some db ∧ db.initialized = true

structure Fixed (p p' : Pipeline) : Prop where
  cfg : p'.cfg = p.cfg
  watchdog : p'.watchdog = p.watchdog
  transport : p'.transport = p.transport
  shutdown : p'.shutdown = p.shutdown

structure Untouched (p p' : Pipeline) : Prop extends Fixed p p' where
  counter : p'.inferenceCounter = p.inferenceCounter
  lcmdDb : p'.lcmdDb = p.lcmdDb

/-- One record was stored, under the next number, with the prompt and a status. -/
structure Recorded (p : Pipeline) (req : GenerationRequest) (status : ByteString) (p' : Pipeline) :
    Prop extends Fixed p p' where
  counter : p'.inferenceCounter = (p.inferenceCounter + 1) % 2 ^ 64
  stored : ∃ (db : LocalMaintenanceDB) (now : Int) (record : InferenceRecord),
    p.lcmdDb = some db ∧ p'.lcmdDb = some (db.storeInferenceRecord now record).1 ∧
    record.status = status ∧ record.prompt = req.prompt ∧
    record.inferenceId = decimal p'.inferenceCounter ∧
    (db.storeInferenceRecord now record).1.tables =
      db.tables.upsert .inferenceRecords record.inferenceId record.toMap

theorem Untouched.refl (p : Pipeline) : Untouched p p := ⟨⟨rfl, rfl, rfl, rfl⟩, rfl, rfl⟩

variable {p p' p'' : Pipeline} {req : GenerationRequest} {s : Stages} {status : ByteString}

theorem Fixed.trans (h : Fixed p p') (h' : Fixed p' p'') : Fixed p p'' :=
  ⟨h'.cfg.trans h.cfg, h'.watchdog.trans h.watchdog, h'.transport.trans h.transport,
    h'.shutdown.trans h.shutdown⟩

theorem Untouched.trans (h : Untouched p p') (h' : Untouched p' p'') : Untouched p p'' :=
  ⟨h.toFixed.trans h'.toFixed, h'.counter.trans h.counter, h'.lcmdDb.trans h.lcmdDb⟩

theorem Untouched.recorded (h : Untouched p p') (h' : Recorded p' req status p'') :
    Recorded p req status p'' :=
  ⟨h.toFixed.trans h'.toFixed, by rw [h'.counter, h.counter], by
    obtain ⟨db, hdb⟩ := h'.stored
    exact ⟨db, by rwa [h.lcmdDb] at hdb⟩⟩

theorem Recorded.not_untouched (h : Recorded p req status p') : ¬ Untouched p p' := by
  intro h'
  have hcounter := h.counter.symm.trans h'.counter
  omega

theorem Historic.untouched (h : Historic p) (h' : Untouched p p') : Historic p' := by
  rw [Historic, h'.cfg, h'.lcmdDb]
  exact h

theorem storeInferenceRecord_accepts {db : LocalMaintenanceDB} (hopen : db.initialized = true)
    (now : Int) {record : InferenceRecord} (hid : record.inferenceId ≠ []) :
    (db.storeInferenceRecord now record).1.initialized = true ∧
      (db.storeInferenceRecord now record).1.tables =
        db.tables.upsert .inferenceRecords record.inferenceId record.toMap := by
  simp [LocalMaintenanceDB.storeInferenceRecord, hopen, hid, LocalMaintenanceDB.store,
    LocalMaintenanceDB.upsert, LocalMaintenanceDB.markDirty]

theorem decimal_ne_nil (n : Nat) : decimal n ≠ [] := digits_ne_nil 10 n

theorem Historic.recorded (h : Historic p) (h' : Recorded p req status p') : Historic p' := by
  obtain ⟨hon, db, hdb, hopen⟩ := h
  obtain ⟨db', now, record, hdb', hstored, -, -, hid, -⟩ := h'.stored
  obtain rfl : db' = db := Option.some.inj (hdb'.symm.trans hdb)
  have haccepts := storeInferenceRecord_accepts hopen now (hid ▸ decimal_ne_nil _)
  exact ⟨h'.cfg ▸ hon, _, hstored, haccepts.1⟩

theorem storeInferenceRecord_recorded (h : Historic p) (now : Int) (width height : Nat)
    (ms : ByteString) :
    Recorded p req status (p.storeInferenceRecord req now status width height ms) := by
  obtain ⟨hon, db, hdb, hopen⟩ := h
  simp only [Pipeline.storeInferenceRecord, hdb, hon, Bool.not_true, Bool.false_eq_true, if_false]
  exact ⟨⟨rfl, rfl, rfl, rfl⟩, rfl, db, now, _, hdb, rfl, rfl, rfl, rfl,
    (storeInferenceRecord_accepts hopen now (decimal_ne_nil _)).2⟩

theorem failure_recorded (h : Historic p) (now : Int) (width height : Nat) (ms : ByteString) :
    Recorded p req (lit "failed")
      (p.countFailure.storeInferenceRecord req now (lit "failed") width height ms) := by
  have hcount : Untouched p p.countFailure := ⟨⟨rfl, rfl, rfl, rfl⟩, rfl, rfl⟩
  exact hcount.recorded (storeInferenceRecord_recorded (h.untouched hcount) _ _ _ _)

def Pipeline.watching (p : Pipeline) : Bool := p.watchdog && p.cfg.enableWatchdog

def StepOutcome.attempts (o : StepOutcome) : Nat :=
  o.gpuRecovery.toNat + o.hailoRecovery.toNat + o.action.isSome.toNat

def Stages.attempts (s : Stages) : Nat → Nat
  | 0 => 0
  | k + 1 => s.attempts k + (s.step k).attempts

/-- A step in which the watchdog asks for a recovery that `generate` tries: it is not fatal,
and the attempts are not used up. -/
def Recovers (p : Pipeline) (s : Stages) (k : Nat) : Prop :=
  p.watching = true ∧ (∃ r, (s.step k).action = some r ∧ r ≠ .fatal) ∧
    s.attempts (k + 1) ≤ p.cfg.maxRecoveryAttempts

def Passes (p : Pipeline) (s : Stages) (k : Nat) : Prop :=
  (s.step k).denoise = .ok () ∧
    (p.watching = false ∨ (s.step k).action = none ∨
      Recovers p s k ∧ ∃ r, (s.step k).recovery = .ok r)

def RecoveryFails (p : Pipeline) (s : Stages) (k : Nat) : Prop :=
  (s.step k).denoise = .ok () ∧ Recovers p s k ∧ ∃ e, (s.step k).recovery = .error e

inductive StepEnd (p : Pipeline) (req : GenerationRequest) (s : Stages) (k : Nat) :
    Pipeline × Except PipelineError Unit → Prop
  | passed {p' : Pipeline} : Untouched p p' → Passes p s k →
      (p.watching = true → p'.recoveryAttempts = s.attempts (k + 1)) →
      StepEnd p req s k (p', .ok ())
  | lost {p' : Pipeline} (e : PipelineError) : Untouched p p' → RecoveryFails p s k →
      StepEnd p req s k (p', .error e)
  | recorded {p' : Pipeline} (e : PipelineError) : Recorded p req (lit "failed") p' →
      ¬ Passes p s k → ¬ RecoveryFails p s k → StepEnd p req s k (p', .error e)

theorem denoiseStep_end (req : GenerationRequest) (s : Stages) (k : Nat) (h : Historic p)
    (ha : p.watching = true → p.recoveryAttempts = s.attempts k) :
    StepEnd p req s k (p.denoiseStep req s k) := by
  simp only [Pipeline.denoiseStep]
  cases hd : (s.step k).denoise with
  | error e =>
    have hp : ¬ Passes p s k := fun hp ↦ nomatch hd.symm.trans hp.1
    have hf : ¬ RecoveryFails p s k := fun hf ↦ nomatch hd.symm.trans hf.1
    exact .recorded e (failure_recorded h _ _ _ _) hp hf
  | ok u =>
    simp only
    by_cases hw : (p.watchdog && p.cfg.enableWatchdog) = true
    · rw [if_pos hw]
      replace hw : p.watching = true := hw
      have hused : (p.watchdogStep (s.step k)).recoveryAttempts + (s.step k).action.isSome.toNat =
          s.attempts (k + 1) := by
        simp only [Pipeline.watchdogStep, Stages.attempts, StepOutcome.attempts, ha hw]
        omega
      cases haction : (s.step k).action with
      | none =>
        refine .passed ⟨⟨rfl, rfl, rfl, rfl⟩, rfl, rfl⟩ ⟨hd, .inr (.inl haction)⟩ (fun _ ↦ ?_)
        simpa [haction, Pipeline.countStep] using hused
      | some result =>
        simp only [haction, Option.isSome_some, Bool.toNat_true] at hused
        have hasked : Untouched p (p.watchdogStep (s.step k)).countRecovery :=
          ⟨⟨rfl, rfl, rfl, rfl⟩, rfl, rfl⟩
        have hno (hr : ¬ Recovers p s k) : ¬ Passes p s k ∧ ¬ RecoveryFails p s k := by
          refine ⟨?_, fun hf ↦ hr hf.2.1⟩
          rintro ⟨-, hoff | hnone | ⟨hrec, -⟩⟩
          · simp [hw] at hoff
          · simp [haction] at hnone
          · exact hr hrec
        simp only
        split
        · next hmax =>
          obtain ⟨hp, hf⟩ := hno (fun hr ↦ by
            have hle := hr.2.2
            simp only [Pipeline.countRecovery, Pipeline.watchdogStep] at hmax hused
            omega)
          exact .recorded _ (hasked.recorded (failure_recorded (h.untouched hasked) _ _ _ _)) hp hf
        · next hmax =>
          split
          · next hfatal =>
            obtain ⟨hp, hf⟩ := hno (fun ⟨_, ⟨r, hr, hne⟩, _⟩ ↦
              hne ((Option.some.inj (haction.symm.trans hr)).symm.trans hfatal))
            exact .recorded _ (hasked.recorded (failure_recorded (h.untouched hasked) _ _ _ _)) hp hf
          · next hfatal =>
            have hrec : Recovers p s k := by
              refine ⟨hw, ⟨result, haction, hfatal⟩, ?_⟩
              simp only [Pipeline.countRecovery, Pipeline.watchdogStep] at hmax hused
              omega
            cases hr : (s.step k).recovery with
            | error e => exact .lost e ⟨⟨rfl, rfl, rfl, rfl⟩, rfl, rfl⟩ ⟨hd, hrec, e, hr⟩
            | ok r =>
              exact .passed ⟨⟨rfl, rfl, rfl, rfl⟩, rfl, rfl⟩ ⟨hd, .inr (.inr ⟨hrec, r, hr⟩)⟩
                (fun _ ↦ hused)
    · rw [if_neg hw]
      replace hw : ¬ p.watching = true := hw
      have hoff : p.watching = false := by simpa using hw
      exact .passed ⟨⟨rfl, rfl, rfl, rfl⟩, rfl, rfl⟩ ⟨hd, .inl hoff⟩ (fun hon ↦ absurd hon hw)

/-- The steps up to the given one pass, and its recovery fails. -/
def LosesRecord (p : Pipeline) (req : GenerationRequest) (s : Stages) : Prop :=
  ∃ k < req.numSteps, (∀ j < k, Passes p s j) ∧ RecoveryFails p s k

theorem Passes.not_fails {k : Nat} (h : Passes p s k) : ¬ RecoveryFails p s k := by
  rintro ⟨-, ⟨hw, ⟨r, hr, -⟩, -⟩, e, he⟩
  obtain ⟨-, hoff | hnone | ⟨-, r', hok⟩⟩ := h
  · simp [hw] at hoff
  · simp [hr] at hnone
  · simp [he] at hok

theorem Fixed.watching (h : Fixed p p') : p'.watching = p.watching := by
  rw [Pipeline.watching, Pipeline.watching, h.watchdog, h.cfg]

theorem Fixed.passes (h : Fixed p p') (k : Nat) :
    (Passes p' s k ↔ Passes p s k) ∧ (RecoveryFails p' s k ↔ RecoveryFails p s k) := by
  have hrecovers : Recovers p' s k ↔ Recovers p s k := by
    rw [Recovers, Recovers, h.watching, h.cfg]
  constructor
  · rw [Passes, Passes, h.watching, hrecovers]
  · rw [RecoveryFails, RecoveryFails, hrecovers]

theorem Fixed.losesRecord (h : Fixed p p') : LosesRecord p' req s ↔ LosesRecord p req s := by
  simp only [LosesRecord, (h.passes _).1, (h.passes _).2]

inductive LoopEnd (p : Pipeline) (req : GenerationRequest) (s : Stages) :
    Pipeline × Except PipelineError Unit → Prop
  | finished {p' : Pipeline} : Untouched p p' → ¬ LosesRecord p req s →
      LoopEnd p req s (p', .ok ())
  | lost {p' : Pipeline} (e : PipelineError) : Untouched p p' → LosesRecord p req s →
      LoopEnd p req s (p', .error e)
  | recorded {p' : Pipeline} (e : PipelineError) : Recorded p req (lit "failed") p' →
      ¬ LosesRecord p req s → LoopEnd p req s (p', .error e)

theorem LoopEnd.untouched {r : Pipeline × Except PipelineError Unit} (hu : Untouched p p')
    (h : LoopEnd p' req s r) : LoopEnd p req s r := by
  have hloses : LosesRecord p' req s ↔ LosesRecord p req s := hu.toFixed.losesRecord
  cases h with
  | finished hu' hl => exact .finished (hu.trans hu') (fun h ↦ hl (hloses.mpr h))
  | lost e hu' hl => exact .lost e (hu.trans hu') (hloses.mp hl)
  | recorded e hr hl => exact .recorded e (hu.recorded hr) (fun h ↦ hl (hloses.mpr h))

theorem denoiseLoop_end (req : GenerationRequest) (s : Stages) {n step : Nat}
    (hn : step + n = req.numSteps) (h : Historic p)
    (ha : p.watching = true → p.recoveryAttempts = s.attempts step)
    (hbefore : ∀ j < step, Passes p s j) :
    LoopEnd p req s (Pipeline.denoiseLoop req s n step p) := by
  induction n generalizing step p with
  | zero =>
    refine .finished (.refl p) ?_
    rintro ⟨k, hk, -, hf⟩
    exact (hbefore k (by omega)).not_fails hf
  | succ n ih =>
    have hend := denoiseStep_end req s step h ha
    rw [Pipeline.denoiseLoop]
    generalize p.denoiseStep req s step = r at hend ⊢
    cases hend with
    | passed hu hp ha' =>
      have hwatching : _ = p.watching := hu.toFixed.watching
      refine (ih (by omega) (h.untouched hu) (fun hw ↦ ha' (hwatching ▸ hw)) (fun j hj ↦ ?_)).untouched hu
      rw [(hu.toFixed.passes j).1]
      rcases Nat.eq_or_lt_of_le (Nat.le_of_lt_succ hj) with rfl | hlt
      · exact hp
      · exact hbefore j hlt
    | lost e hu hf => exact .lost e hu ⟨step, by omega, hbefore, hf⟩
    | recorded e hr hnp hnf =>
      refine .recorded e hr ?_
      rintro ⟨k, hk, hall, hf⟩
      rcases Nat.lt_trichotomy k step with hlt | rfl | hgt
      · exact (hbefore k hlt).not_fails hf
      · exact hnf hf
      · exact hnp (hall step hgt)

/-- A call with one of the three exits that store nothing: a worker of the cluster returns the
image, the prompt cannot be encoded, or a recovery fails. -/
def Unrecorded (p : Pipeline) (req : GenerationRequest) (s : Stages) : Prop :=
  p.shutdown = false ∧ req.valid = true ∧
    ((p.dispatch s).isSome = true ∨ (∃ e, s.encodePrompt = .error e) ∨
      s.latentsAllocated = true ∧ (p.cfg.enableHipGraph && s.hipGraphUsed) = false ∧
        LosesRecord p req s)

inductive CallEnd (p : Pipeline) (req : GenerationRequest) (unrecorded : Prop) :
    Pipeline × Except PipelineError GeneratedImage → Prop
  | untouched {p' : Pipeline} (r : Except PipelineError GeneratedImage) : Untouched p p' →
      unrecorded → CallEnd p req unrecorded (p', r)
  | recorded {p' : Pipeline} (r : Except PipelineError GeneratedImage) :
      Recorded p req (statusOf r) p' → ¬ unrecorded → CallEnd p req unrecorded (p', r)

theorem denoise_end (req : GenerationRequest) (s : Stages) (h : Historic p) (ha : p.recoveryAttempts = 0) :
    (∃ p', p.denoise req s = (p', .ok ()) ∧ Untouched p p' ∧
        ¬ ((p.cfg.enableHipGraph && s.hipGraphUsed) = false ∧ LosesRecord p req s)) ∨
      ∃ p' e, p.denoise req s = (p', .error e) ∧
        (Untouched p p' ∧ (p.cfg.enableHipGraph && s.hipGraphUsed) = false ∧ LosesRecord p req s ∨
          Recorded p req (lit "failed") p' ∧ ¬ LosesRecord p req s) := by
  unfold Pipeline.denoise
  split
  · next hhip => exact .inl ⟨_, rfl, ⟨⟨rfl, rfl, rfl, rfl⟩, rfl, rfl⟩, by simp [hhip]⟩
  · next hhip =>
    have hloop := denoiseLoop_end (p := p) req s (Nat.zero_add _) h (fun _ ↦ ha)
      (fun j hj ↦ absurd hj (Nat.not_lt_zero j))
    generalize Pipeline.denoiseLoop req s req.numSteps 0 p = r at hloop ⊢
    cases hloop with
    | finished hu hl => exact .inl ⟨_, rfl, hu, fun hn ↦ hl hn.2⟩
    | lost e hu hl => exact .inr ⟨_, e, rfl, .inl ⟨hu, by simpa using hhip, hl⟩⟩
    | recorded e hr hl => exact .inr ⟨_, e, rfl, .inr ⟨hr, hl⟩⟩

theorem generateLocally_end (req : GenerationRequest) (s : Stages) (h : Historic p) :
    CallEnd p req ((∃ e, s.encodePrompt = .error e) ∨
      s.latentsAllocated = true ∧ (p.cfg.enableHipGraph && s.hipGraphUsed) = false ∧
        LosesRecord p req s) (p.generateLocally req s) := by
  unfold Pipeline.generateLocally
  cases hencode : s.encodePrompt with
  | error e => exact .untouched _ ⟨⟨rfl, rfl, rfl, rfl⟩, rfl, rfl⟩ (.inl ⟨e, rfl⟩)
  | ok u =>
    simp only
    cases hlatents : s.latentsAllocated with
    | false =>
      simp only [Bool.not_false, if_true]
      exact .recorded (.error .gpuOutOfMemory) (failure_recorded h _ _ _ _) (by simp)
    | true =>
      simp only [Bool.not_true, Bool.false_eq_true, if_false, true_and]
      have hreset : Untouched p { p with recoveryAttempts := 0 } := ⟨⟨rfl, rfl, rfl, rfl⟩, rfl, rfl⟩
      have hno {l : Prop} (hl : ¬ l) : ¬ ((∃ e : PipelineError, Except.ok u = .error e) ∨ l) := by
        rintro (⟨e, he⟩ | hl')
        · cases he
        · exact hl hl'
      rcases denoise_end req s (h.untouched hreset) rfl with
        ⟨p', hd, hu, hl⟩ | ⟨p', e, hd, ⟨hu, hhip, hl⟩ | ⟨hr, hl⟩⟩
      · rw [hd]
        have hp' : Untouched p p' := hreset.trans hu
        cases hdecode : s.decodeLatents with
        | error e =>
          exact .recorded (.error e) (hp'.recorded (failure_recorded (h.untouched hp') _ _ _ _))
            (hno hl)
        | ok image =>
          have hdone : Untouched p
              { p' with acceleration := s.hardware.report p'.acceleration }.countCompletion :=
            hp'.trans ⟨⟨rfl, rfl, rfl, rfl⟩, rfl, rfl⟩
          exact .recorded (.ok image)
            (hdone.recorded (storeInferenceRecord_recorded (h.untouched hdone) _ _ _ _)) (hno hl)
      · rw [hd]
        exact .untouched _ (hreset.trans hu) (.inr ⟨hhip, hl⟩)
      · rw [hd]
        exact .recorded _ (hreset.recorded hr) (hno (fun hl' ↦ hl hl'.2))

theorem generate_end (req : GenerationRequest) (s : Stages) (h : Historic p) :
    CallEnd p req (Unrecorded p req s) (p.generate req s) := by
  unfold Pipeline.generate
  split
  · next hshut =>
    exact .recorded (.error .shutdownInProgress) (failure_recorded h _ _ _ _) (by simp [Unrecorded, hshut])
  · next hshut =>
    split
    · next hvalid =>
      exact .recorded (.error .invalidRequest) (failure_recorded h _ _ _ _)
        (fun hu ↦ by simp [hu.2.1] at hvalid)
    · next hvalid =>
      have hopen : p.shutdown = false := by simpa using hshut
      have hreq : req.valid = true := by simpa using hvalid
      cases hdispatch : p.dispatch s with
      | some image =>
        exact .untouched _ ⟨⟨rfl, rfl, rfl, rfl⟩, rfl, rfl⟩
          ⟨hopen, hreq, .inl (by simp [hdispatch])⟩
      | none =>
        have hlocal := generateLocally_end req s h
        simp only
        generalize p.generateLocally req s = r at hlocal ⊢
        cases hlocal with
        | untouched r hu hun => exact .untouched r hu ⟨hopen, hreq, .inr hun⟩
        | recorded r hr hun =>
          refine .recorded r hr (fun hu ↦ hun (hu.2.2.resolve_left ?_))
          simp [hdispatch]

inductive Event
  | generate (req : GenerationRequest) (s : Stages)
  | shutdown

def Pipeline.serve (p : Pipeline) : Event → Pipeline
  | .generate req s => (p.generate req s).1
  | .shutdown => p.shutDown

def Happens (p : Pipeline) (e : Event) (p' : Pipeline) : Prop := p' = p.serve e

/-- The call stores exactly one record, with the status of its result. -/
def Event.audited (p : Pipeline) : Event → Prop
  | .generate req s => Recorded p req (statusOf (p.generate req s).2) (p.generate req s).1
  | .shutdown => True

def Event.covered (p : Pipeline) : Event → Prop
  | .generate req s => ¬ Unrecorded p req s
  | .shutdown => True

theorem happens_historic {e : Event} (h : Historic p) (hs : Happens p e p') : Historic p' := by
  cases e with
  | generate req s =>
    have hend := generate_end req s h
    rw [hs, Pipeline.serve]
    generalize p.generate req s = r at hend ⊢
    cases hend with
    | untouched r hu => exact h.untouched hu
    | recorded r hr => exact h.recorded hr
  | shutdown =>
    rw [hs]
    exact h

theorem audited_iff {e : Event} (h : Historic p) : e.audited p ↔ e.covered p := by
  cases e with
  | generate req s =>
    have hend := generate_end req s h
    simp only [Event.audited, Event.covered]
    generalize p.generate req s = r at hend ⊢
    cases hend with
    | untouched r hu hun => exact iff_of_false (fun hr ↦ hr.not_untouched hu) (fun hn ↦ hn hun)
    | recorded r hr hun => exact iff_of_true hr hun
  | shutdown => exact Iff.rfl

def samplePipeline : Pipeline where
  cfg := {}
  watchdog := true
  transport := false
  lcmdDb := some { initialized := true }

theorem samplePipeline_historic : Historic samplePipeline := ⟨rfl, _, rfl, rfl⟩

end Cerberus.Generation
