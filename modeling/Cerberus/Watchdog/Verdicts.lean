import Cerberus.Watchdog.Automaton

namespace Cerberus.Watchdog

open Foundation Foundation.Bytes Generation

variable {K : Type}

def fatalFor (unit : ComputeUnit) (action : Option (RecoveryAction K)) : Bool :=
  action.any fun a ↦ decide (a.device = unit) && decide (a.result = .fatal)

namespace UtilizationWatchdog

variable [NatCast K] [LinearOrder K]

section

variable (w : UtilizationWatchdog K) (unit : ComputeUnit) (i : Input K) (is : List (Input K))

def asks : Bool :=
  w.triggers (i.snap unit) (w.lowThreshold unit) (w.criticalThreshold unit) (w.deviceOf unit)

/-- Both devices ask for recovery in one step, and the one that comes second gets none. -/
def masks : Bool :=
  w.asks .gpu780M i && w.asks .hailo8L i && w.fails w.hailo i.hailoReply

/-- A fatal verdict on the device is returned by its own step, or by a later one that comes
before the next sample at or above the low threshold. -/
def Reported : Prop :=
  ∀ pre i post, is = pre ++ i :: post →
    fatalFor unit ((w.after pre).evaluate unit i).action = true →
    fatalFor unit ((w.after pre).step i).2 = true ∨
      ∃ mid j rest, post = mid ++ j :: rest ∧
        (∀ x ∈ mid ++ [j], (x.snap unit).utilization.atLeast (w.lowThreshold unit) = false) ∧
        fatalFor unit ((w.after (pre ++ i :: mid)).step j).2 = true

end

variable {w : UtilizationWatchdog K} {unit : ComputeUnit} {i : Input K} {is : List (Input K)}

theorem evaluate_action_isSome : (w.evaluate unit i).action.isSome = w.asks unit i :=
  (evaluate_spec w unit i).acts

theorem evaluate_action_eq_none (h : w.asks unit i = false) : (w.evaluate unit i).action = none := by
  rw [← Option.not_isSome_iff_eq_none, evaluate_action_isSome, h]
  exact Bool.false_ne_true

theorem fatalFor_evaluate : fatalFor unit (w.evaluate unit i).action =
    (w.asks unit i && w.fails (w.deviceOf unit) (i.reply unit)) := by
  have hsome : (w.evaluate unit i).action.isSome = w.asks unit i := evaluate_action_isSome
  cases ha : (w.evaluate unit i).action with
  | none =>
    rw [ha] at hsome
    rw [← hsome]
    rfl
  | some a =>
    obtain ⟨hunit, hresult⟩ := (evaluate_spec w unit i).action a ha
    rw [ha] at hsome
    rw [← hsome]
    by_cases hfatal : a.result = .fatal
    · simp [fatalFor, hunit, hfatal, hresult.mp hfatal]
    · have hfails := mt hresult.mpr hfatal
      rw [Bool.not_eq_true] at hfails
      simp [fatalFor, hfatal, hfails]

/-- A step returns the verdict on the GPU, and the one on the Hailo if there is none on the GPU. -/
theorem step_action : (w.step i).2 =
    (w.evaluate .gpu780M i).action.or (w.evaluate .hailo8L i).action := by
  show (w.step i).2 = (w.evaluateGpu i).action.or (w.evaluateHailo i).action
  unfold step
  dsimp only
  cases (w.evaluateGpu i).action with
  | some action => rfl
  | none => cases (w.evaluateHailo i).action <;> rfl

theorem step_action_gpu (h : w.asks .gpu780M i = true) :
    ∃ a, (w.step i).2 = some a ∧ a.device = .gpu780M := by
  rw [← evaluate_action_isSome, Option.isSome_iff_exists] at h
  obtain ⟨a, ha⟩ := h
  exact ⟨a, by rw [step_action, ha, Option.some_or], ((evaluate_spec w _ i).action a ha).1⟩

theorem evaluate_called_eq : (w.evaluate unit i).called = (w.asks unit i &&
    decide ((w.deviceOf unit).recoveryCount < w.cfg.maxRecoveries) && w.onRecovery) :=
  (evaluate_spec w unit i).called

theorem called_of_not_fails (hasks : w.asks unit i = true)
    (h : w.fails (w.deviceOf unit) (i.reply unit) = false) :
    (w.evaluate unit i).called = true ∧ resultOf (i.reply unit) ≠ .fatal := by
  simp only [fails, Bool.or_eq_false_iff, decide_eq_false_iff_not, Bool.not_eq_false'] at h
  obtain ⟨⟨hmax, hcallback⟩, hresult⟩ := h
  refine ⟨?_, hresult⟩
  rw [evaluate_called_eq, hasks, hcallback, decide_eq_true (UInt32.not_le.mp hmax)]
  rfl

theorem evaluate_called (h : (w.evaluate unit i).called = true) : w.asks unit i = true := by
  rw [evaluate_called_eq, Bool.and_eq_true, Bool.and_eq_true] at h
  exact h.1.1

theorem step_action_isSome : (w.step i).2.isSome = (w.asks .gpu780M i || w.asks .hailo8L i) := by
  rw [step_action, Option.isSome_or, evaluate_action_isSome, evaluate_action_isSome]

theorem step_action_fatal : (w.step i).2.map (fun a ↦ a.result) = some .fatal ↔
    (if w.asks .gpu780M i then w.fails w.gpu i.gpuReply
      else w.asks .hailo8L i && w.fails w.hailo i.hailoReply) = true := by
  rw [step_action]
  have hgpu := evaluate_spec w .gpu780M i
  have hhailo := evaluate_spec w .hailo8L i
  cases hasks : w.asks .gpu780M i with
  | true =>
    rw [← evaluate_action_isSome, Option.isSome_iff_exists] at hasks
    obtain ⟨a, ha⟩ := hasks
    rw [ha, Option.some_or, Option.map_some, Option.some.injEq, if_pos rfl]
    exact (hgpu.action a ha).2
  | false =>
    rw [evaluate_action_eq_none hasks, Option.none_or, if_neg Bool.false_ne_true, Bool.and_eq_true]
    cases hasks' : w.asks .hailo8L i with
    | true =>
      rw [← evaluate_action_isSome, Option.isSome_iff_exists] at hasks'
      obtain ⟨a, ha⟩ := hasks'
      rw [ha, Option.map_some, Option.some.injEq]
      exact (hhailo.action a ha).2.trans (and_iff_right rfl).symm
    | false => simp [evaluate_action_eq_none hasks']

theorem fatalFor_evaluate_other {unit' : ComputeUnit} (h : unit' ≠ unit) :
    fatalFor unit' (w.evaluate unit i).action = false := by
  cases ha : (w.evaluate unit i).action with
  | none => rfl
  | some a => simp [fatalFor, ((evaluate_spec w unit i).action a ha).1, h.symm]

theorem fatalFor_step : fatalFor unit (w.step i).2 =
    (fatalFor unit (w.evaluate unit i).action &&
      (decide (unit = .gpu780M) || !w.asks .gpu780M i)) := by
  rw [step_action]
  cases hgpu : w.asks .gpu780M i with
  | false =>
    have hnone := evaluate_action_eq_none hgpu
    rw [hnone, Option.none_or, Bool.not_false, Bool.or_true, Bool.and_true]
    cases unit with
    | gpu780M => rw [hnone, fatalFor_evaluate_other (by decide)]; rfl
    | hailo8L => rfl
  | true =>
    rw [← evaluate_action_isSome, Option.isSome_iff_exists] at hgpu
    obtain ⟨a, ha⟩ := hgpu
    have hother : fatalFor .hailo8L (w.evaluate .gpu780M i).action = false :=
      fatalFor_evaluate_other (by decide)
    rw [ha] at hother
    rw [ha, Option.some_or]
    cases unit with
    | gpu780M => simp [ha]
    | hailo8L => simpa using hother

theorem fatalFor_step_of_not_masks (hm : w.masks i = false)
    (hf : fatalFor unit (w.evaluate unit i).action = true) : fatalFor unit (w.step i).2 = true := by
  rw [fatalFor_step, hf, Bool.true_and]
  cases unit with
  | gpu780M => rfl
  | hailo8L =>
    rw [fatalFor_evaluate, Bool.and_eq_true] at hf
    obtain ⟨hasks, hfails⟩ := hf
    have hfails : w.fails w.hailo i.hailoReply = true := hfails
    simpa [masks, hasks, hfails] using hm

theorem masks_spec (h : w.masks i = true) : fatalFor .hailo8L (w.step i).2 = false ∧
    fatalFor .hailo8L (w.evaluate .hailo8L i).action = true := by
  simp only [masks, Bool.and_eq_true] at h
  obtain ⟨⟨hgpu, hhailo⟩, hfails⟩ := h
  have hfails : w.fails (w.deviceOf .hailo8L) (i.reply .hailo8L) = true := hfails
  exact ⟨by simp [fatalFor_step, hgpu], by rw [fatalFor_evaluate, hhailo, hfails]; rfl⟩

structure Moves (w : UtilizationWatchdog K) (unit : ComputeUnit) (i : Input K) (d d' : Device) :
    Prop where
  rests : (i.snap unit).utilization.atLeast (w.lowThreshold unit) = true →
    d'.consecutive = 0 ∧ d'.inRecovery = false ∧ d'.recoveryCount = d.recoveryCount
  falls : (i.snap unit).utilization.atLeast (w.lowThreshold unit) = false →
    w.asks unit i = false →
    d'.consecutive = d.consecutive + 1 ∧ d'.inRecovery = d.inRecovery ∧
      d'.recoveryCount = d.recoveryCount
  tries : w.asks unit i = true → d.recoveryCount < w.cfg.maxRecoveries →
    d'.consecutive = d.consecutive + 1 ∧ d'.inRecovery = false ∧
      d'.recoveryCount = d.recoveryCount + 1
  givesUp : w.asks unit i = true → w.cfg.maxRecoveries ≤ d.recoveryCount →
    d'.inRecovery = true ∧ d'.recoveryCount = d.recoveryCount

theorem asks_low (h : w.asks unit i = true) :
    (i.snap unit).utilization.atLeast (w.lowThreshold unit) = false := by
  simp only [asks, triggers, Bool.and_eq_true, Bool.not_eq_true'] at h
  exact h.1.1.1

theorem step_moves (w : UtilizationWatchdog K) (unit : ComputeUnit) (i : Input K) :
    Moves w unit i (w.deviceOf unit) ((w.step i).1.deviceOf unit) := by
  have hadvances := evaluate_advances w unit i
  have hcount : ((w.step i).1.deviceOf unit).recoveryCount =
      if w.asks unit i && decide ((w.deviceOf unit).recoveryCount < w.cfg.maxRecoveries)
      then (w.deviceOf unit).recoveryCount + 1 else (w.deviceOf unit).recoveryCount := by
    rw [step_device]
    exact (evaluate_spec w unit i).recoveryCount
  rw [← step_device] at hadvances
  refine ⟨fun hhigh ↦ ?_, fun hlow hquiet ↦ ?_, fun hasks hlt ↦ ?_, fun hasks hle ↦ ?_⟩
  · have hquiet : w.asks unit i = false := by
      rw [← Bool.not_eq_true]
      intro h
      cases hhigh.symm.trans (asks_low h)
    obtain ⟨hcons, hrec⟩ := hadvances.normal hhigh
    exact ⟨hcons, hrec, by rw [hcount, hquiet]; rfl⟩
  · obtain ⟨hcons, hrec⟩ := hadvances.quiet hlow hquiet
    exact ⟨hcons, hrec, by rw [hcount, hquiet]; rfl⟩
  · obtain ⟨hcons, hrec⟩ := hadvances.attempted hasks hlt
    exact ⟨hcons, hrec, by simp [hcount, hasks, hlt]⟩
  · exact ⟨hadvances.exhausted hasks hle, by simp [hcount, UInt32.not_lt.mpr hle]⟩

theorem asks_of_inRecovery (hrec : (w.deviceOf unit).inRecovery = true) :
    w.asks unit i = false := by
  simp [asks, triggers, hrec]

theorem asks_inRecovery (h : w.asks unit i = true) : (w.deviceOf unit).inRecovery = false := by
  rw [← Bool.not_eq_true]
  intro hrec
  cases (asks_of_inRecovery hrec).symm.trans h

theorem step_inRecovery
    (hlow : (i.snap unit).utilization.atLeast (w.lowThreshold unit) = false)
    (h : (w.deviceOf unit).inRecovery = true ∨ w.asks unit i = true ∧
      (w.deviceOf unit).recoveryCount ≥ w.cfg.maxRecoveries) :
    ((w.step i).1.deviceOf unit).inRecovery = true := by
  rcases h with hrec | ⟨hasks, hmax⟩
  · exact ((step_moves w unit i).falls hlow (asks_of_inRecovery hrec)).2.1.trans hrec
  · exact ((step_moves w unit i).givesUp hasks hmax).1

theorem after_inRecovery (hrec : (w.deviceOf unit).inRecovery = true)
    (hlow : ∀ x ∈ is, (x.snap unit).utilization.atLeast (w.lowThreshold unit) = false) :
    ((w.after is).deviceOf unit).inRecovery = true := by
  induction is generalizing w with
  | nil => exact hrec
  | cons i is ih =>
    refine ih ?_ fun x hx ↦ hlow x (List.mem_cons_of_mem _ hx)
    exact step_inRecovery (hlow i List.mem_cons_self) (.inl hrec)

end UtilizationWatchdog

open UtilizationWatchdog

/-- A fatal verdict that is masked is lost when the next sample is high. -/
theorem masked_verdict_lost [NatCast K] [LinearOrder K] {w : UtilizationWatchdog K}
    {pre : List (Input K)} {i j : Input K} (hm : (w.after pre).masks i = true)
    (hhigh : (j.snap .hailo8L).utilization.atLeast (w.lowThreshold .hailo8L) = true)
    (rest : List (Input K)) : ¬ w.Reported .hailo8L (pre ++ i :: j :: rest) := by
  intro hreported
  obtain ⟨hstep, hverdict⟩ := masks_spec hm
  rcases hreported pre i (j :: rest) rfl hverdict with h | ⟨mid, j', rest', hpost, hlow, -⟩
  · exact Bool.false_ne_true (hstep.symm.trans h)
  · have hj : j ∈ mid ++ [j'] := by
      cases mid with
      | nil => simp [(List.cons.inj hpost).1]
      | cons x mid => simp [(List.cons.inj hpost).1]
    exact Bool.false_ne_true ((hlow j hj).symm.trans hhigh)

/-- One that is masked because the recoveries are exhausted is lost whatever follows: no step
returns one while the samples stay low. -/
theorem exhausted_verdict_lost [NatCast K] [LinearOrder K] {w : UtilizationWatchdog K} {i : Input K}
    (hm : w.masks i = true) (hmax : w.hailo.recoveryCount ≥ w.cfg.maxRecoveries)
    (is : List (Input K)) : ¬ w.Reported .hailo8L (i :: is) := by
  intro hreported
  obtain ⟨hstep, hverdict⟩ := masks_spec hm
  have hasks : w.asks .hailo8L i = true := by
    rw [fatalFor_evaluate, Bool.and_eq_true] at hverdict
    exact hverdict.1
  rcases hreported [] i is rfl hverdict with h | ⟨mid, j, rest, rfl, hlow, hlater⟩
  · exact Bool.false_ne_true (hstep.symm.trans h)
  · have hrec : ((w.step i).1.deviceOf .hailo8L).inRecovery = true :=
      step_inRecovery (asks_low hasks) (.inr ⟨hasks, hmax⟩)
    have hmid : (((w.step i).1.after mid).deviceOf .hailo8L).inRecovery = true :=
      after_inRecovery hrec fun x hx ↦ hlow x (List.mem_append_left _ hx)
    have hquiet : (w.after (i :: mid)).asks .hailo8L j = false := asks_of_inRecovery hmid
    rw [List.nil_append, fatalFor_step, fatalFor_evaluate, hquiet] at hlater
    exact Bool.false_ne_true hlater

/-- A fatal verdict is returned in every run in which none is masked. -/
theorem verdicts_reported [NatCast K] [LinearOrder K] (w : UtilizationWatchdog K)
    (unit : ComputeUnit) (is : List (Input K))
    (h : ∀ pre i post, is = pre ++ i :: post → (w.after pre).masks i = false) :
    w.Reported unit is :=
  fun pre i post his hf ↦ .inl (fatalFor_step_of_not_masks (h pre i post his) hf)

section

def watched : UtilizationWatchdog Int := .construct {} true fun _ ↦ []

def bothFall : Input Int where
  stepNum := 0
  gpuSnap := ⟨some 10, some 50⟩
  hailoSnap := ⟨some 10, some 50⟩
  hailoReply := .ok .fatal

def hailoFalls : Input Int where
  stepNum := 1
  gpuSnap := ⟨some 90, some 50⟩
  hailoSnap := ⟨some 10, some 50⟩
  hailoReply := .ok .fatal

def bothBusy : Input Int where
  stepNum := 1
  gpuSnap := ⟨some 90, some 50⟩
  hailoSnap := ⟨some 90, some 50⟩

theorem verdicts_reported_hailo : watched.Reported .hailo8L [hailoFalls] := by
  refine verdicts_reported watched .hailo8L [hailoFalls] fun pre i post his ↦ ?_
  obtain ⟨rfl, rfl, rfl⟩ : pre = [] ∧ i = hailoFalls ∧ post = [] := by
    cases pre with
    | nil =>
      obtain ⟨hi, hpost⟩ := List.cons.inj his
      exact ⟨rfl, hi.symm, hpost.symm⟩
    | cons x pre => simp at his
  decide

/-- The GPU's recovery succeeds and is returned; that the Hailo's failed is not, and its next
sample is high. -/
theorem fatal_verdict_hidden : ¬ watched.Reported .hailo8L [bothFall, bothBusy] :=
  @masked_verdict_lost Int _ _ watched [] bothFall bothBusy (by decide) (by decide) []

end

end Cerberus.Watchdog
