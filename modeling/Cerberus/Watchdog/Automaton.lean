import Cerberus.Watchdog.Model

namespace Cerberus.Watchdog

open Foundation Foundation.Bytes Generation

variable {K : Type} [NatCast K] [LinearOrder K]

/-- The zone of a sample; one that is not a number is critical. -/
def zone (threshold criticalThreshold util : Reading K) : WatchdogState :=
  if util.atLeast threshold then .normal
  else if util.atLeast criticalThreshold then .warning
  else .critical

namespace UtilizationWatchdog

section

variable (w : UtilizationWatchdog K) (unit : ComputeUnit) (step : UInt32)
  (snap : UtilizationSnapshot K) (threshold criticalThreshold : Reading K) (d : Device)
  (reply : Reply)

/-- A device asks for recovery: at once in the critical zone, after enough samples below the
threshold in the warning zone. -/
def triggers : Bool :=
  !snap.utilization.atLeast threshold && !w.thermalSkipRecovery snap.temperature &&
    !d.inRecovery && (!snap.utilization.atLeast criticalThreshold ||
      decide (d.consecutive + 1 ≥ w.cfg.consecutiveThreshold))

def fails : Bool :=
  decide (d.recoveryCount ≥ w.cfg.maxRecoveries) || !w.onRecovery || resultOf reply = .fatal

/-- What `evaluate_device` does. -/
structure Evaluated (e : Evaluation K) : Prop where
  state : e.device.state = zone threshold criticalThreshold snap.utilization
  consecutive : e.device.consecutive = 0 ∨
    snap.utilization.atLeast threshold = false ∧ e.device.consecutive = d.consecutive + 1
  recoveryCount : e.device.recoveryCount =
    if w.triggers snap threshold criticalThreshold d && decide (d.recoveryCount < w.cfg.maxRecoveries)
    then d.recoveryCount + 1 else d.recoveryCount
  called : e.called = (w.triggers snap threshold criticalThreshold d &&
    decide (d.recoveryCount < w.cfg.maxRecoveries) && w.onRecovery)
  acts : e.action.isSome = w.triggers snap threshold criticalThreshold d
  action : ∀ a, e.action = some a → a.device = unit ∧ (a.result = .fatal ↔ w.fails d reply = true)

variable {w unit step snap threshold criticalThreshold d reply}

omit [LinearOrder K] in
theorem fails_exhausted (h : d.recoveryCount ≥ w.cfg.maxRecoveries) : w.fails d reply = true := by
  simp [fails, h]

omit [LinearOrder K] in
theorem triggerRecovery_fatal (h : ¬ d.recoveryCount ≥ w.cfg.maxRecoveries) (d' : Device) :
    resultOf (w.triggerRecovery d' reply).2 = .fatal ↔ w.fails d reply = true := by
  cases hc : w.onRecovery with
  | false => simp [triggerRecovery, fails, hc, resultOf]
  | true => simp [triggerRecovery, fails, hc, h]

theorem Evaluated.quiet {e : Evaluation K}
    (ht : w.triggers snap threshold criticalThreshold d = false)
    (hs : e.device.state = zone threshold criticalThreshold snap.utilization)
    (hc : e.device.consecutive = 0 ∨
      snap.utilization.atLeast threshold = false ∧ e.device.consecutive = d.consecutive + 1)
    (hr : e.device.recoveryCount = d.recoveryCount) (hcalled : e.called = false)
    (ha : e.action = none) : Evaluated w unit snap threshold criticalThreshold d reply e :=
  ⟨hs, hc, by simp [ht, hr], by simp [ht, hcalled], by simp [ht, ha], by simp [ha]⟩

theorem Evaluated.exhausted {e : Evaluation K} {reason : ByteString}
    (ht : w.triggers snap threshold criticalThreshold d = true)
    (hmax : d.recoveryCount ≥ w.cfg.maxRecoveries)
    (hs : e.device.state = zone threshold criticalThreshold snap.utilization)
    (hc : e.device.consecutive = 0 ∨
      snap.utilization.atLeast threshold = false ∧ e.device.consecutive = d.consecutive + 1)
    (hr : e.device.recoveryCount = d.recoveryCount) (hcalled : e.called = false)
    (ha : e.action = some ⟨.fatal, unit, step, snap.utilization, reason⟩) :
    Evaluated w unit snap threshold criticalThreshold d reply e := by
  have hlt : decide (d.recoveryCount < w.cfg.maxRecoveries) = false :=
    decide_eq_false (UInt32.not_lt.mpr hmax)
  refine ⟨hs, hc, by simp [hlt, hr], by simp [hlt, hcalled], by simp [ht, ha], fun a hact ↦ ?_⟩
  obtain rfl := Option.some.inj (ha.symm.trans hact)
  exact ⟨rfl, by simp [fails_exhausted hmax]⟩

theorem Evaluated.attempted {e : Evaluation K} {d' : Device} {reason : ByteString}
    (ht : w.triggers snap threshold criticalThreshold d = true)
    (hmax : ¬ d.recoveryCount ≥ w.cfg.maxRecoveries)
    (hs : e.device.state = zone threshold criticalThreshold snap.utilization)
    (hc : e.device.consecutive = 0 ∨
      snap.utilization.atLeast threshold = false ∧ e.device.consecutive = d.consecutive + 1)
    (hr : e.device.recoveryCount = d.recoveryCount + 1) (hcalled : e.called = w.onRecovery)
    (ha : e.action = some ⟨resultOf (w.triggerRecovery d' reply).2, unit, step,
      snap.utilization, reason⟩) :
    Evaluated w unit snap threshold criticalThreshold d reply e := by
  have hlt : decide (d.recoveryCount < w.cfg.maxRecoveries) = true :=
    decide_eq_true (UInt32.not_le.mp hmax)
  refine ⟨hs, hc, by simp [ht, hlt, hr], by simp [ht, hlt, hcalled], by simp [ht, ha],
    fun a hact ↦ ?_⟩
  obtain rfl := Option.some.inj (ha.symm.trans hact)
  exact ⟨rfl, triggerRecovery_fatal hmax d'⟩

theorem evaluateDevice_spec :
    Evaluated w unit snap threshold criticalThreshold d reply
      (w.evaluateDevice unit step snap threshold criticalThreshold d reply) := by
  unfold evaluateDevice
  dsimp only
  cases hlow : snap.utilization.atLeast threshold with
  | true => exact .quiet (by simp [triggers, hlow]) (by simp [zone, hlow]) (.inl rfl) rfl rfl rfl
  | false =>
    cases hcrit : snap.utilization.atLeast criticalThreshold with
    | true =>
      have hzone : WatchdogState.warning = zone threshold criticalThreshold snap.utilization := by
        simp [zone, hlow, hcrit]
      cases htherm : w.thermalSkipRecovery snap.temperature with
      | true => exact .quiet (by simp [triggers, htherm]) hzone (.inr ⟨hlow, rfl⟩) rfl rfl rfl
      | false =>
        simp only [Bool.false_eq_true, ↓reduceIte]
        split
        · next hask =>
          have ht : w.triggers snap threshold criticalThreshold d = true := by
            simp [triggers, hlow, htherm, hask.1, hask.2]
          split
          · next hmax => exact .exhausted ht hmax hzone (.inl rfl) rfl rfl rfl
          · next hmax => exact .attempted ht hmax hzone (.inr ⟨hlow, rfl⟩) rfl rfl rfl
        · next hask =>
          refine .quiet ?_ hzone (.inr ⟨hlow, rfl⟩) rfl rfl rfl
          rw [and_comm, not_and] at hask
          cases hrec : d.inRecovery with
          | true => simp [triggers, hrec]
          | false => simp [triggers, hcrit, decide_eq_false (hask hrec)]
    | false =>
      have hzone : WatchdogState.critical = zone threshold criticalThreshold snap.utilization := by
        simp [zone, hlow, hcrit]
      cases htherm : w.thermalSkipRecovery snap.temperature with
      | true => exact .quiet (by simp [triggers, htherm]) hzone (.inr ⟨hlow, rfl⟩) rfl rfl rfl
      | false =>
        cases hrec : d.inRecovery with
        | true => exact .quiet (by simp [triggers, hrec]) hzone (.inr ⟨hlow, rfl⟩) rfl rfl rfl
        | false =>
          have ht : w.triggers snap threshold criticalThreshold d = true := by
            simp [triggers, hlow, htherm, hcrit, hrec]
          simp only [Bool.false_eq_true, ↓reduceIte]
          split
          · next hmax => exact .exhausted ht hmax hzone (.inr ⟨hlow, rfl⟩) rfl rfl rfl
          · next hmax => exact .attempted ht hmax hzone (.inr ⟨hlow, rfl⟩) rfl rfl rfl

structure Advances (w : UtilizationWatchdog K) (snap : UtilizationSnapshot K)
    (threshold criticalThreshold : Reading K) (d d' : Device) : Prop where
  normal : snap.utilization.atLeast threshold = true →
    d'.consecutive = 0 ∧ d'.inRecovery = false
  quiet : snap.utilization.atLeast threshold = false →
    w.triggers snap threshold criticalThreshold d = false →
    d'.consecutive = d.consecutive + 1 ∧ d'.inRecovery = d.inRecovery
  attempted : w.triggers snap threshold criticalThreshold d = true →
    d.recoveryCount < w.cfg.maxRecoveries →
    d'.consecutive = d.consecutive + 1 ∧ d'.inRecovery = false
  exhausted : w.triggers snap threshold criticalThreshold d = true →
    d.recoveryCount ≥ w.cfg.maxRecoveries → d'.inRecovery = true

theorem evaluateDevice_advances : Advances w snap threshold criticalThreshold d
    (w.evaluateDevice unit step snap threshold criticalThreshold d reply).device := by
  cases hlow : snap.utilization.atLeast threshold with
  | true =>
    have hquiet : w.triggers snap threshold criticalThreshold d = false := by
      simp [triggers, hlow]
    have hnot {P : Prop} (h : w.triggers snap threshold criticalThreshold d = true) : P := by
      cases hquiet.symm.trans h
    exact ⟨fun _ ↦ by simp [evaluateDevice, hlow], fun h ↦ (by cases hlow.symm.trans h),
      fun h ↦ hnot h, fun h ↦ hnot h⟩
  | false =>
    have hnormal {P : Prop} (h : snap.utilization.atLeast threshold = true) : P := by
      cases hlow.symm.trans h
    have hask (ht : w.triggers snap threshold criticalThreshold d = true) :
        w.thermalSkipRecovery snap.temperature = false ∧ d.inRecovery = false ∧
          (snap.utilization.atLeast criticalThreshold = true →
            d.consecutive + 1 ≥ w.cfg.consecutiveThreshold) := by
      simp only [triggers, Bool.and_eq_true, Bool.not_eq_true', Bool.or_eq_true,
        decide_eq_true_eq] at ht
      obtain ⟨⟨⟨_, htherm⟩, hrec⟩, hzone⟩ := ht
      refine ⟨htherm, hrec, fun hcrit ↦ hzone.resolve_left ?_⟩
      simp [hcrit]
    refine ⟨fun h ↦ hnormal h, fun _ ht ↦ ?_, fun ht hmax ↦ ?_, fun ht hmax ↦ ?_⟩
    · cases hcrit : snap.utilization.atLeast criticalThreshold with
      | true =>
        cases htherm : w.thermalSkipRecovery snap.temperature with
        | true => simp [evaluateDevice, hlow, hcrit, htherm]
        | false =>
          have hnot : ¬ (d.consecutive + 1 ≥ w.cfg.consecutiveThreshold ∧ d.inRecovery = false) := by
            rintro ⟨hcons, hrec⟩
            simp [triggers, hlow, htherm, hrec, hcons] at ht
          simp [evaluateDevice, hlow, hcrit, htherm, hnot]
      | false =>
        cases htherm : w.thermalSkipRecovery snap.temperature with
        | true => simp [evaluateDevice, hlow, hcrit, htherm]
        | false =>
          cases hrec : d.inRecovery with
          | true => simp [evaluateDevice, hlow, hcrit, htherm, hrec]
          | false => simp [triggers, hlow, hcrit, htherm, hrec] at ht
    · obtain ⟨htherm, hrec, hcons⟩ := hask ht
      have hmax : ¬ d.recoveryCount ≥ w.cfg.maxRecoveries := UInt32.not_le.mpr hmax
      cases hcrit : snap.utilization.atLeast criticalThreshold with
      | true => simp [evaluateDevice, triggerRecovery, hlow, hcrit, htherm, hrec, hcons hcrit, hmax]
      | false => simp [evaluateDevice, triggerRecovery, hlow, hcrit, htherm, hrec, hmax]
    · obtain ⟨htherm, hrec, hcons⟩ := hask ht
      cases hcrit : snap.utilization.atLeast criticalThreshold with
      | true => simp [evaluateDevice, hlow, hcrit, htherm, hrec, hcons hcrit, hmax]
      | false => simp [evaluateDevice, hlow, hcrit, htherm, hrec, hmax]

end

variable (w : UtilizationWatchdog K) (unit : ComputeUnit)

def deviceOf : Device :=
  match unit with
  | .gpu780M => w.gpu
  | .hailo8L => w.hailo

def lowThreshold : Reading K :=
  match unit with
  | .gpu780M => w.cfg.gpuLowThreshold
  | .hailo8L => w.cfg.hailoLowThreshold

def criticalThreshold : Reading K :=
  match unit with
  | .gpu780M => w.cfg.gpuCriticalThreshold
  | .hailo8L => w.cfg.hailoCriticalThreshold

def Input.snap (i : Input K) : ComputeUnit → UtilizationSnapshot K
  | .gpu780M => i.gpuSnap
  | .hailo8L => i.hailoSnap

def Input.reply (i : Input K) : ComputeUnit → Reply
  | .gpu780M => i.gpuReply
  | .hailo8L => i.hailoReply

def evaluate (i : Input K) : Evaluation K :=
  match unit with
  | .gpu780M => w.evaluateGpu i
  | .hailo8L => w.evaluateHailo i

/-- The watchdog after a run of calls of `step`. -/
def after (is : List (Input K)) : UtilizationWatchdog K := is.foldl (fun w i ↦ (w.step i).1) w

def calls : UtilizationWatchdog K → List (Input K) → Nat
  | _, [] => 0
  | w, i :: is => (w.evaluate unit i).called.toNat + calls (w.step i).1 is

def streak (threshold : Reading K) (samples : List (UtilizationSnapshot K)) : Nat :=
  (samples.reverse.takeWhile fun x ↦ !x.utilization.atLeast threshold).length

variable {w unit} {i : Input K} {is : List (Input K)}

theorem evaluate_spec (w : UtilizationWatchdog K) (unit : ComputeUnit) (i : Input K) :
    Evaluated w unit (i.snap unit) (w.lowThreshold unit) (w.criticalThreshold unit)
      (w.deviceOf unit) (i.reply unit) (w.evaluate unit i) := by
  cases unit <;> exact evaluateDevice_spec

theorem evaluate_advances (w : UtilizationWatchdog K) (unit : ComputeUnit) (i : Input K) :
    Advances w (i.snap unit) (w.lowThreshold unit) (w.criticalThreshold unit) (w.deviceOf unit)
      (w.evaluate unit i).device := by
  cases unit <;> exact evaluateDevice_advances

theorem step_device : (w.step i).1.deviceOf unit = (w.evaluate unit i).device := by
  cases unit <;> rfl

theorem after_cfg : (w.after is).cfg = w.cfg := by
  induction is generalizing w with
  | nil => rfl
  | cons i is ih => exact ih

theorem after_concat (w : UtilizationWatchdog K) (is : List (Input K)) (i : Input K) :
    w.after (is ++ [i]) = ((w.after is).step i).1 := by
  simp [after]

theorem calls_concat (w : UtilizationWatchdog K) (unit : ComputeUnit) (is : List (Input K))
    (i : Input K) : w.calls unit (is ++ [i]) =
      w.calls unit is + ((w.after is).evaluate unit i).called.toNat := by
  induction is generalizing w with
  | nil => simp [calls, after]
  | cons j is ih =>
    simp only [List.cons_append, calls, ih, Nat.add_assoc]
    rfl

omit [NatCast K] in
theorem streak_concat (threshold : Reading K) (samples : List (UtilizationSnapshot K))
    (x : UtilizationSnapshot K) : streak threshold (samples ++ [x]) =
      if x.utilization.atLeast threshold then 0 else streak threshold samples + 1 := by
  unfold streak
  rw [List.reverse_concat, List.takeWhile_cons]
  cases x.utilization.atLeast threshold <;> rfl

structure Tracks (w : UtilizationWatchdog K) (unit : ComputeUnit) (is : List (Input K)) : Prop where
  state : ∀ i, is.getLast? = some i → ((w.after is).deviceOf unit).state =
    zone (w.lowThreshold unit) (w.criticalThreshold unit) (i.snap unit).utilization
  consecutive : ((w.after is).deviceOf unit).consecutive.toNat ≤
    streak (w.lowThreshold unit) (is.map fun i ↦ i.snap unit)
  calls : w.calls unit is ≤ ((w.after is).deviceOf unit).recoveryCount.toNat
  bounded : ((w.after is).deviceOf unit).recoveryCount ≤ w.cfg.maxRecoveries

theorem after_lowThreshold : (w.after is).lowThreshold unit = w.lowThreshold unit := by
  simp only [lowThreshold, after_cfg]

theorem after_criticalThreshold :
    (w.after is).criticalThreshold unit = w.criticalThreshold unit := by
  simp only [criticalThreshold, after_cfg]

theorem toNat_succ_le (n : UInt32) : (n + 1).toNat ≤ n.toNat + 1 := by
  rw [UInt32.toNat_add]
  exact Nat.mod_le _ _

theorem toNat_succ_of_lt {a b : UInt32} (h : a < b) : (a + 1).toNat = a.toNat + 1 := by
  have hlt := UInt32.lt_iff_toNat_lt.mp h
  have hb := b.toNat_lt
  rw [UInt32.toNat_add]
  exact Nat.mod_eq_of_lt (by have : (1 : UInt32).toNat = 1 := rfl; omega)

theorem Tracks.step (h : Tracks w unit is) (i : Input K) : Tracks w unit (is ++ [i]) := by
  have he := evaluate_spec (w.after is) unit i
  rw [after_lowThreshold, after_criticalThreshold] at he
  have hd : (w.after (is ++ [i])).deviceOf unit = ((w.after is).evaluate unit i).device := by
    rw [after_concat, step_device]
  have hbound := h.bounded
  have hcfg : (w.after is).cfg = w.cfg := after_cfg
  have hcount : (w.calls unit (is ++ [i])) ≤
        ((w.after is).evaluate unit i).device.recoveryCount.toNat ∧
      ((w.after is).evaluate unit i).device.recoveryCount ≤ w.cfg.maxRecoveries := by
    rw [calls_concat, he.recoveryCount, he.called, hcfg]
    have hcalls := h.calls
    split
    · next ht =>
      rw [ht, Bool.true_and]
      simp only [Bool.and_eq_true, decide_eq_true_eq, UInt32.lt_iff_toNat_lt] at ht
      have hsucc := toNat_succ_of_lt (UInt32.lt_iff_toNat_lt.mpr ht.2)
      have hone := Bool.toNat_le w.onRecovery
      have hon : (w.after is).onRecovery.toNat ≤ 1 := Bool.toNat_le _
      rw [UInt32.le_iff_toNat_le, hsucc]
      omega
    · next ht =>
      rw [Bool.not_eq_true] at ht
      rw [ht]
      exact ⟨by simpa using hcalls, hbound⟩
  refine ⟨fun j hj ↦ ?_, ?_, hd ▸ hcount.1, hd ▸ hcount.2⟩
  · obtain rfl : i = j := by simpa using hj
    rw [hd]
    exact he.state
  · rw [hd, List.map_append, List.map_singleton, streak_concat]
    rcases he.consecutive with hz | ⟨hlow, hc⟩
    · simp [hz]
    · rw [hlow, hc]
      have := h.consecutive
      have := toNat_succ_le ((w.after is).deviceOf unit).consecutive
      simp only [Bool.false_eq_true, ↓reduceIte]
      omega

theorem tracks (w : UtilizationWatchdog K) (unit : ComputeUnit) (is : List (Input K)) :
    Tracks w.resetAll unit is := by
  induction is using List.reverseRecOn with
  | nil =>
    have hd : (w.resetAll.after []).deviceOf unit = {} := by cases unit <;> rfl
    refine ⟨fun i hi ↦ by simp at hi, ?_, ?_, ?_⟩
    · rw [hd]
      exact Nat.zero_le _
    · rw [hd]
      exact Nat.le_refl _
    · rw [hd]
      exact UInt32.le_iff_toNat_le.mpr (Nat.zero_le _)
  | append_singleton is i ih => exact ih.step i

/-- The circumstances in which the recovery callback may be called: the sample is below the
threshold, the device is not too hot, and in the warning zone there were enough such samples. -/
structure CalledRightly (w : UtilizationWatchdog K) (unit : ComputeUnit) (pre : List (Input K))
    (i : Input K) : Prop where
  below : (i.snap unit).utilization.atLeast (w.lowThreshold unit) = false
  cool : (i.snap unit).temperature.above w.cfg.thermalThrottleThresholdC = false
  streak : zone (w.lowThreshold unit) (w.criticalThreshold unit) (i.snap unit).utilization =
      .warning → w.cfg.consecutiveThreshold.toNat ≤
    streak (w.lowThreshold unit) ((pre ++ [i]).map fun i ↦ i.snap unit)

theorem Tracks.calledRightly (h : Tracks w unit is) {i : Input K}
    (hcalled : ((w.after is).evaluate unit i).called = true) : CalledRightly w unit is i := by
  have he := evaluate_spec (w.after is) unit i
  rw [after_lowThreshold, after_criticalThreshold] at he
  rw [he.called] at hcalled
  simp only [triggers, thermalSkipRecovery, after_cfg, Bool.and_eq_true, Bool.or_eq_true,
    Bool.not_eq_true', decide_eq_true_eq] at hcalled
  obtain ⟨⟨⟨⟨⟨hlow, hcool⟩, _⟩, hask⟩, _⟩, _⟩ := hcalled
  refine ⟨hlow, hcool, fun hzone ↦ ?_⟩
  rcases hask with hcrit | hcons
  · simp [zone, hlow, hcrit] at hzone
  · have hc := h.consecutive
    have hsucc := toNat_succ_le ((w.after is).deviceOf unit).consecutive
    rw [ge_iff_le, UInt32.le_iff_toNat_le] at hcons
    rw [List.map_append, List.map_singleton, streak_concat, hlow]
    simp only [Bool.false_eq_true, ↓reduceIte]
    omega

end UtilizationWatchdog

open UtilizationWatchdog

/-- In a run of calls of `step` from a watchdog that is new or was reset, the state of a device
is the zone of its last sample, and the recovery callback is called at most `max_recoveries`
times and only in the right circumstances. -/
theorem watchdog_automaton (w : UtilizationWatchdog K) (unit : ComputeUnit) (is : List (Input K)) :
    (∀ i, is.getLast? = some i → ((w.resetAll.after is).deviceOf unit).state =
      zone (w.lowThreshold unit) (w.criticalThreshold unit) (i.snap unit).utilization) ∧
    w.resetAll.calls unit is ≤ w.cfg.maxRecoveries.toNat ∧
    ∀ pre i post, is = pre ++ i :: post →
      ((w.resetAll.after pre).evaluate unit i).called = true → CalledRightly w unit pre i := by
  have ht := tracks w unit is
  refine ⟨ht.state, ht.calls.trans (UInt32.le_iff_toNat_le.mp ht.bounded), ?_⟩
  intro pre i post _ hcalled
  have hright := (tracks w unit pre).calledRightly hcalled
  exact ⟨hright.below, hright.cool, hright.streak⟩

/-- A GPU at 10% is critical, and a recovery is tried at once. -/
theorem watchdog_automaton_critical :
    let w : UtilizationWatchdog Int := construct {} true fun _ ↦ []
    let i : Input Int := ⟨0, ⟨some 10, some 50⟩, ⟨some 90, some 50⟩, .ok .success, .ok .success⟩
    ((w.resetAll.after [i]).deviceOf .gpu780M).state =
        zone (w.lowThreshold .gpu780M) (w.criticalThreshold .gpu780M) (some 10) ∧
      CalledRightly w .gpu780M [] i := by
  intro w i
  exact ⟨(watchdog_automaton w .gpu780M [i]).1 i rfl,
    (watchdog_automaton w .gpu780M [i]).2.2 [] i [] rfl (by decide)⟩

theorem construct_resetAll (cfg : WatchdogConfig K) (onRecovery : Bool)
    (percent : Reading K → ByteString) :
    (construct cfg onRecovery percent).resetAll = construct cfg onRecovery percent := rfl

end Cerberus.Watchdog
