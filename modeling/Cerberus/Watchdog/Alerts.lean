import Cerberus.Watchdog.Verdicts

namespace Cerberus.Watchdog

open Foundation Foundation.Bytes Generation

variable {K : Type}

/-- A change of the state of a device, with the call of `step` that made it. -/
structure Transition (K : Type) where
  step : UInt32
  util : Reading K
  oldState : WatchdogState
  newState : WatchdogState

/-- The alerts that begin as `log_state_change` writes them. -/
def isStateChange (a : Alert K) : Bool :=
  (lit "[" ++ deviceName a.unit ++ lit "] step=" ++ decimal a.step.toNat ++
    lit " state_change: ").isPrefixOf a.message

namespace UtilizationWatchdog

variable [NatCast K] (w : UtilizationWatchdog K) (unit : ComputeUnit)

def announcement (t : Transition K) : Alert K where
  unit := unit
  step := t.step
  util := t.util
  message := lit "[" ++ deviceName unit ++ lit "] step=" ++ decimal t.step.toNat ++
    lit " state_change: " ++ stateName t.oldState ++ lit " -> " ++ stateName t.newState ++
    lit " util=" ++ w.percent t.util ++ lit "%"

section

variable (util : Reading K) (step : UInt32) (oldState newState : WatchdogState)

def transitionOf : List (Transition K) :=
  if oldState = newState then [] else [⟨step, util, oldState, newState⟩]

theorem logStateChange_eq : w.logStateChange unit util step oldState newState =
    (transitionOf util step oldState newState).map (w.announcement unit) := by
  unfold logStateChange transitionOf
  split
  · rfl
  · rfl

theorem isStateChange_announcement (t : Transition K) :
    isStateChange (w.announcement unit t) = true := by
  unfold isStateChange
  rw [List.isPrefixOf_iff_prefix]
  simp only [announcement, List.append_assoc, List.prefix_append_right_inj]
  exact List.prefix_append _ _

/-- Where a state change has its name, the other messages have the utilization. -/
theorem isStateChange_heading (rest : ByteString) :
    isStateChange (⟨unit, step, util, w.heading unit util step ++ rest⟩ : Alert K) = false := by
  unfold isStateChange heading
  rw [Bool.eq_false_iff]
  intro h
  rw [List.isPrefixOf_iff_prefix] at h
  simp only [List.append_assoc, List.prefix_append_right_inj] at h
  have htake := h.take 2
  have hchange : (lit " state_change: ").take 2 = [32, 115] := by decide
  have hutil (s : ByteString) : (lit " util=" ++ s).take 2 = [32, 117] := by
    have hlit : lit " util=" = [32, 117, 116, 105, 108, 61] := by decide
    rw [hlit]
    rfl
  rw [hchange, hutil] at htake
  exact absurd htake (by decide)

theorem isStateChange_thermal (temperature : Reading K) (isCritical : Bool) : isStateChange
    (⟨unit, step, util, w.thermalMessage unit util step temperature isCritical⟩ : Alert K) =
      false := by
  unfold thermalMessage
  simp only [List.append_assoc]
  exact w.isStateChange_heading unit util step _

theorem isStateChange_exhausted (zone : ByteString) : isStateChange
    (⟨unit, step, util, w.exhaustedMessage unit util step zone⟩ : Alert K) = false := by
  unfold exhaustedMessage
  simp only [List.append_assoc]
  exact w.isStateChange_heading unit util step _

theorem filter_logStateChange : (w.logStateChange unit util step oldState newState).filter
    isStateChange = w.logStateChange unit util step oldState newState := by
  rw [logStateChange_eq, List.filter_eq_self]
  intro a ha
  obtain ⟨t, _, rfl⟩ := List.mem_map.mp ha
  exact w.isStateChange_announcement unit t

end

variable [LinearOrder K] (i : Input K)

/-- The alerts of one call of `step`, which evaluates the GPU first. -/
def stepAlerts : List (Alert K) := (w.evaluateGpu i).alerts ++ (w.evaluateHailo i).alerts

def alertsOf : UtilizationWatchdog K → List (Input K) → List (Alert K)
  | _, [] => []
  | w, i :: is => w.stepAlerts i ++ alertsOf (w.step i).1 is

def reported (is : List (Input K)) : List (Alert K) :=
  (w.alertsOf is).filter fun a ↦ a.unit = unit ∧ isStateChange a

def transition : List (Transition K) :=
  transitionOf (i.snap unit).utilization i.stepNum (w.deviceOf unit).state
    ((w.step i).1.deviceOf unit).state

def transitions : UtilizationWatchdog K → List (Input K) → List (Transition K)
  | _, [] => []
  | w, i :: is => w.transition unit i ++ transitions (w.step i).1 is

/-- The device recovers while it has a streak of low samples. -/
def doubles : Bool :=
  (i.snap unit).utilization.atLeast (w.lowThreshold unit) &&
    (w.deviceOf unit).consecutive ≠ 0 && (w.deviceOf unit).state ≠ .normal

section

variable {w unit i} {step : UInt32} {snap : UtilizationSnapshot K}
  {threshold criticalThreshold : Reading K} {d : Device} {reply : Reply}

theorem evaluateDevice_changes_normal (h : snap.utilization.atLeast threshold = true) :
    (w.evaluateDevice unit step snap threshold criticalThreshold d reply).alerts.filter
        isStateChange =
      (if d.consecutive ≠ 0 then w.logStateChange unit snap.utilization step d.state .normal
        else []) ++ w.logStateChange unit snap.utilization step d.state .normal := by
  simp only [evaluateDevice, h, ↓reduceIte, List.filter_append, filter_logStateChange]
  split
  · rw [filter_logStateChange]
  · rfl

theorem evaluateDevice_changes_low (h : snap.utilization.atLeast threshold = false) :
    (w.evaluateDevice unit step snap threshold criticalThreshold d reply).alerts.filter
        isStateChange =
      w.logStateChange unit snap.utilization step d.state
        (zone threshold criticalThreshold snap.utilization) := by
  have hother {a : Alert K} (l : List (Alert K)) (ha : isStateChange a = false) :
      (l ++ [a]).filter isStateChange = l.filter isStateChange := by
    simp [List.filter_append, ha]
  cases hcrit : snap.utilization.atLeast criticalThreshold with
  | true =>
    have hzone : zone threshold criticalThreshold snap.utilization = .warning := by
      simp [zone, h, hcrit]
    simp only [evaluateDevice, h, hcrit, hzone, Bool.false_eq_true, ↓reduceIte]
    split
    · rw [hother _ (w.isStateChange_thermal unit snap.utilization step _ _), filter_logStateChange]
    · split
      · split
        · rw [hother _ (w.isStateChange_exhausted unit snap.utilization step _),
            filter_logStateChange]
        · exact w.filter_logStateChange unit snap.utilization step _ _
      · exact w.filter_logStateChange unit snap.utilization step _ _
  | false =>
    have hzone : zone threshold criticalThreshold snap.utilization = .critical := by
      simp [zone, h, hcrit]
    simp only [evaluateDevice, h, hcrit, hzone, Bool.false_eq_true, ↓reduceIte]
    split
    · rw [hother _ (w.isStateChange_thermal unit snap.utilization step _ _), filter_logStateChange]
    · split
      · split
        · rw [hother _ (w.isStateChange_exhausted unit snap.utilization step _),
            filter_logStateChange]
        · exact w.filter_logStateChange unit snap.utilization step _ _
      · exact w.filter_logStateChange unit snap.utilization step _ _

theorem evaluateDevice_unit {a : Alert K} (ha : a ∈
    (w.evaluateDevice unit step snap threshold criticalThreshold d reply).alerts) :
    a.unit = unit := by
  have hlog (oldState newState : WatchdogState) :
      ∀ a ∈ w.logStateChange unit snap.utilization step oldState newState, a.unit = unit := by
    intro a ha
    rw [logStateChange_eq] at ha
    obtain ⟨t, _, rfl⟩ := List.mem_map.mp ha
    rfl
  unfold evaluateDevice at ha
  grind

theorem filter_stepAlerts : (w.stepAlerts i).filter (fun a ↦ a.unit = unit ∧ isStateChange a) =
    (w.evaluate unit i).alerts.filter isStateChange := by
  have hown {l : List (Alert K)} (h : ∀ a ∈ l, a.unit = unit) :
      l.filter (fun a ↦ a.unit = unit ∧ isStateChange a) = l.filter isStateChange := by
    apply List.filter_congr
    intro a ha
    simp [h a ha]
  have hother {l : List (Alert K)} {unit' : ComputeUnit} (h : ∀ a ∈ l, a.unit = unit')
      (hne : unit' ≠ unit) : l.filter (fun a ↦ a.unit = unit ∧ isStateChange a) = [] := by
    rw [List.filter_eq_nil_iff]
    intro a ha
    simp [h a ha, hne]
  have hgpu : ∀ a ∈ (w.evaluateGpu i).alerts, a.unit = .gpu780M := fun _ ↦ evaluateDevice_unit
  have hhailo : ∀ a ∈ (w.evaluateHailo i).alerts, a.unit = .hailo8L := fun _ ↦ evaluateDevice_unit
  rw [stepAlerts, List.filter_append]
  cases unit with
  | gpu780M =>
    rw [hown hgpu, hother hhailo (by decide), List.append_nil]
    rfl
  | hailo8L =>
    rw [hother hgpu (by decide), hown hhailo, List.nil_append]
    rfl

theorem evaluate_changes_normal
    (h : (i.snap unit).utilization.atLeast (w.lowThreshold unit) = true) :
    (w.evaluate unit i).alerts.filter isStateChange =
      (if (w.deviceOf unit).consecutive ≠ 0 then w.logStateChange unit (i.snap unit).utilization
        i.stepNum (w.deviceOf unit).state .normal else []) ++
      w.logStateChange unit (i.snap unit).utilization i.stepNum (w.deviceOf unit).state .normal := by
  cases unit with
  | gpu780M => exact evaluateDevice_changes_normal h
  | hailo8L => exact evaluateDevice_changes_normal h

theorem evaluate_changes_low
    (h : (i.snap unit).utilization.atLeast (w.lowThreshold unit) = false) :
    (w.evaluate unit i).alerts.filter isStateChange =
      w.logStateChange unit (i.snap unit).utilization i.stepNum (w.deviceOf unit).state
        (zone (w.lowThreshold unit) (w.criticalThreshold unit) (i.snap unit).utilization) := by
  cases unit with
  | gpu780M => exact evaluateDevice_changes_low h
  | hailo8L => exact evaluateDevice_changes_low h

theorem transition_eq : w.transition unit i = transitionOf (i.snap unit).utilization i.stepNum
    (w.deviceOf unit).state
    (zone (w.lowThreshold unit) (w.criticalThreshold unit) (i.snap unit).utilization) := by
  rw [transition, step_device, (evaluate_spec w unit i).state]

theorem evaluate_changes (h : w.doubles unit i = false) :
    (w.evaluate unit i).alerts.filter isStateChange =
      (w.transition unit i).map (w.announcement unit) := by
  rw [transition_eq, ← logStateChange_eq]
  cases hlow : (i.snap unit).utilization.atLeast (w.lowThreshold unit) with
  | false => exact evaluate_changes_low hlow
  | true =>
    have hzone : zone (w.lowThreshold unit) (w.criticalThreshold unit)
        (i.snap unit).utilization = .normal := by simp [zone, hlow]
    rw [evaluate_changes_normal hlow, hzone]
    by_cases hcons : (w.deviceOf unit).consecutive = 0
    · simp [hcons]
    · have hstate : (w.deviceOf unit).state = .normal := by
        simpa [doubles, hlow, hcons] using h
      simp [hstate, logStateChange]

theorem evaluate_changes_doubled (h : w.doubles unit i = true) :
    ∃ t, w.transition unit i = [t] ∧ (w.evaluate unit i).alerts.filter isStateChange =
      [w.announcement unit t, w.announcement unit t] := by
  simp only [doubles, Bool.and_eq_true, decide_eq_true_eq] at h
  obtain ⟨⟨hlow, hcons⟩, hstate⟩ := h
  have hzone : zone (w.lowThreshold unit) (w.criticalThreshold unit)
      (i.snap unit).utilization = .normal := by simp [zone, hlow]
  refine ⟨⟨i.stepNum, (i.snap unit).utilization, (w.deviceOf unit).state, .normal⟩, ?_, ?_⟩
  · rw [transition_eq, hzone, transitionOf, if_neg hstate]
  · rw [evaluate_changes_normal hlow, if_pos hcons, logStateChange_eq, transitionOf,
      if_neg hstate]
    rfl

theorem reported_cons (i : Input K) (is : List (Input K)) : w.reported unit (i :: is) =
    (w.evaluate unit i).alerts.filter isStateChange ++ (w.step i).1.reported unit is := by
  rw [reported, alertsOf, List.filter_append, filter_stepAlerts]
  rfl

theorem transitions_length_le (w : UtilizationWatchdog K) (unit : ComputeUnit)
    (is : List (Input K)) :
    (w.transitions unit is).length ≤ (w.reported unit is).length := by
  induction is generalizing w with
  | nil => exact Nat.zero_le _
  | cons i is ih =>
    rw [transitions, reported_cons, List.length_append, List.length_append]
    apply Nat.add_le_add _ (ih _)
    cases hd : w.doubles unit i with
    | false => rw [evaluate_changes hd, List.length_map]
    | true =>
      obtain ⟨t, ht, hchanges⟩ := evaluate_changes_doubled hd
      rw [ht, hchanges]
      exact Nat.le_succ 1

end

def Mirrors (is : List (Input K)) : Prop :=
  w.reported unit is = (w.transitions unit is).map (w.announcement unit)

def NeverDoubles (is : List (Input K)) : Prop :=
  ∀ pre i post, is = pre ++ i :: post → (w.after pre).doubles unit i = false

theorem neverDoubles_cons (i : Input K) (is : List (Input K)) : w.NeverDoubles unit (i :: is) ↔
    w.doubles unit i = false ∧ (w.step i).1.NeverDoubles unit is := by
  constructor
  · intro h
    refine ⟨h [] i is rfl, fun pre j post hsplit ↦ ?_⟩
    exact h (i :: pre) j post (congrArg (i :: ·) hsplit)
  · rintro ⟨hfirst, hrest⟩ pre j post hsplit
    cases pre with
    | nil =>
      obtain ⟨rfl, rfl⟩ := List.cons.inj hsplit
      exact hfirst
    | cons k pre =>
      obtain ⟨rfl, htail⟩ := List.cons.inj hsplit
      exact hrest pre j post htail

end UtilizationWatchdog

open UtilizationWatchdog

/-- The alerts for state changes mirror the transitions of a device in exactly the runs in which
it never recovers from a streak of low samples. -/
theorem alerts_mirror_iff [NatCast K] [LinearOrder K] (w : UtilizationWatchdog K)
    (unit : ComputeUnit) (is : List (Input K)) :
    w.Mirrors unit is ↔ w.NeverDoubles unit is := by
  induction is generalizing w with
  | nil =>
    constructor
    · intro _ pre i post h
      simp at h
    · intro _
      rfl
  | cons i is ih =>
    rw [neverDoubles_cons, ← ih, Mirrors, reported_cons, transitions, List.map_append]
    cases hd : w.doubles unit i with
    | false =>
      rw [evaluate_changes hd, List.append_cancel_left_eq]
      exact ⟨fun h ↦ ⟨rfl, h⟩, fun h ↦ h.2⟩
    | true =>
      obtain ⟨t, ht, hchanges⟩ := evaluate_changes_doubled hd
      have hlength := transitions_length_le (w.step i).1 unit is
      constructor
      · intro h
        have hl := congrArg List.length h
        rw [ht, hchanges] at hl
        simp only [List.length_append, List.length_cons, List.length_nil, List.length_map] at hl
        omega
      · rintro ⟨h, _⟩
        cases h

section

def dip : List (Input Int) :=
  [⟨0, ⟨some 50, some 50⟩, ⟨some 90, some 50⟩, .ok .success, .ok .success⟩,
    ⟨1, ⟨some 90, some 50⟩, ⟨some 90, some 50⟩, .ok .success, .ok .success⟩]

/-- The devices are cool and no recovery was tried, and the GPU's two transitions come to three
alerts. -/
theorem recovery_announced_twice :
    (∀ i ∈ dip, ∀ unit, watched.thermalSkipRecovery (i.snap unit).temperature = false) ∧
    (∀ unit, ((watched.after dip).deviceOf unit).recoveryCount = 0) ∧
    (watched.transitions .gpu780M dip).length = 2 ∧
    (watched.reported .gpu780M dip).length = 3 ∧ ¬ watched.Mirrors .gpu780M dip := by
  have htransitions : (watched.transitions .gpu780M dip).length = 2 := by decide
  have hreported : (watched.reported .gpu780M dip).length = 3 := by decide
  refine ⟨fun i hi unit ↦ ?_, fun unit ↦ ?_, htransitions, hreported, fun h ↦ ?_⟩
  · cases unit <;> revert i <;> decide
  · cases unit <;> decide
  · have hlength := congrArg List.length h
    rw [hreported, List.length_map, htransitions] at hlength
    exact absurd hlength (by decide)

end

end Cerberus.Watchdog
