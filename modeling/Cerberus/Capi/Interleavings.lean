import Cerberus.Capi.Sessions

namespace Cerberus.Capi

open Function Foundation Foundation.Bytes Foundation.Trace

variable {F T : Type} {s s' : State F T} {x : Thread T} {p q : Point F}

section states

def Job.IsTask (j : Job F) : Prop :=
  ∃ session input data, j = ⟨.run session input true true, some data⟩

/-- A program makes calls without a callback, a worker the tasks. -/
def Job.Of (j : Job F) : Thread T → Prop
  | .client _ => j.callback = none
  | .worker _ => j.IsTask

def Job.Asks (j : Job F) : Prop :=
  j.call.valid = true ∧ ∃ session input callback, j.call = .runAsync session input callback

def Point.Fits (x : Thread T) : Point F → Prop
  | .outside => True
  | .dozing => ∃ i, x = .worker i
  | .asleep => ∃ i, x = .worker i
  | .gone => ∃ i, x = .worker i
  | .calling j => j.Of x ∧ j.call.valid = true
  | .reporting _ j r => j.Of x ∧ Refused j.call r
  | .stuck _ j => j.Of x
  | .stopping j => j.Of x ∧ j.call = .shutdown
  | .waking j => j.Of x ∧ j.call = .shutdown
  | .joining j => j.Of x ∧ j.call = .shutdown
  | .looking j => j.Of x ∧ j.Asks
  | .sending j => j.Of x ∧ j.Asks
  | .pushing j _ => j.Of x ∧ j.Asks
  | .notifying j _ => j.Of x ∧ j.Asks
  | .faulted j _ => j.Of x ∧ j.Asks

structure State.Fits (s : State F T) : Prop where
  point : ∀ x, (s.point x).Fits x
  queue : ∀ j ∈ s.queue, j.IsTask
  returned : ∀ e ∈ s.returned, e.2.status ∈ e.1.call.statuses
  ordered : s.gs.Ordered

theorem State.Fits.at (h : s.Fits) (hp : s.point x = p) : p.Fits x := hp ▸ h.point x

def Point.callback (p : Point F) : Option Nat := p.job.bind (·.callback)

theorem Job.Of.callback {j : Job F} (h : j.Of x)
    (hc : j.call.unlocked = true ∨ j.call.isAsync = true) : j.callback = none := by
  cases x with
  | client t => exact h
  | worker i =>
    obtain ⟨session, input, data, rfl⟩ := h
    rcases hc with hc | hc
    · cases hc
    · cases hc

theorem Job.Asks.isAsync {j : Job F} (h : j.Asks) : j.call.isAsync = true := by
  obtain ⟨-, session, input, callback, hc⟩ := h
  rw [hc]
  rfl

theorem Job.Asks.task {j : Job F} (h : j.Asks) : j.task.IsTask := by
  obtain ⟨hvalid, session, input, callback, hc⟩ := h
  rw [hc] at hvalid
  simp only [Call.valid, Bool.and_eq_true] at hvalid
  obtain ⟨data, rfl⟩ := Option.isSome_iff_exists.mp hvalid.2
  exact ⟨session, input, data, by simp [Job.task, hc]⟩

def Point.Rests (p : Point F) : Prop := p = .asleep ∨ p = .gone

def State.Stirs (s s' : State F T) : Prop :=
  ∀ y, s'.point y = s.point y ∨ (s.point y).Rests ∧ s'.point y = .outside

theorem State.Stirs.same {α : Type} (h : s.Stirs s') (f : Point F → α)
    (hasleep : f .asleep = f .outside) (hgone : f .gone = f .outside) (y : Thread T) :
    f (s'.point y) = f (s.point y) := by
  rcases h y with heq | ⟨hrest | hrest, hout⟩
  · rw [heq]
  · rw [hrest, hout, hasleep]
  · rw [hrest, hout, hgone]

theorem State.Stirs.at (h : s.Stirs s') (hp : s.point x = p) (hbusy : ¬p.Rests) :
    s'.point x = p := by
  rcases h x with heq | ⟨hrests, -⟩
  · rw [heq, hp]
  · rw [hp] at hrests
    exact absurd hrests hbusy

theorem State.Fits.stirs (h : s.Fits) (hs : s.Stirs s') (y : Thread T) : (s'.point y).Fits y := by
  rcases hs y with heq | ⟨-, hout⟩
  · rw [heq]
    exact h.point y
  · rw [hout]
    trivial

def State.Quiet (s : State F T) : Prop := ∀ x, (s.point x).stage = none

/-- There is no pool, or there is one, or a thread destroys it. -/
inductive State.Phase (s : State F T) : Prop
  | absent : s.gs.threadPool = false → s.gs.initialized = false → s.alive = false →
      s.stop = false → s.queue = [] → (∀ i, s.point (.worker i) = .gone) → s.Quiet → s.Phase
  | running : s.gs.threadPool = true → s.alive = true → s.stop = false →
      (∀ i, s.point (.worker i) ≠ .gone) → s.Quiet → s.Phase
  | ending {x : Thread T} : s.gs.threadPool = false → s.alive = true →
      (s.point x).stage = some s.stop → (s.stop = false → ∀ i, s.point (.worker i) ≠ .gone) →
      s.Phase

theorem State.Phase.congr (h : s.Phase) (hpool : s'.gs.threadPool = s.gs.threadPool)
    (hinit : s.gs.threadPool = false → s'.gs.initialized = s.gs.initialized)
    (halive : s'.alive = s.alive) (hstop : s'.stop = s.stop)
    (hqueue : s.alive = false → s'.queue = s.queue)
    (hgone : ∀ i, s'.point (.worker i) = .gone ↔ s.point (.worker i) = .gone)
    (hstage : ∀ y, (s'.point y).stage = (s.point y).stage) : s'.Phase := by
  cases h with
  | absent hp hi ha hs hq hg hquiet =>
    exact .absent (hpool.trans hp) ((hinit hp).trans hi) (halive.trans ha) (hstop.trans hs)
      ((hqueue ha).trans hq) (fun i ↦ (hgone i).mpr (hg i)) (fun y ↦ (hstage y).trans (hquiet y))
  | running hp ha hs hg hquiet =>
    exact .running (hpool.trans hp) (halive.trans ha) (hstop.trans hs)
      (fun i ↦ mt (hgone i).mp (hg i)) (fun y ↦ (hstage y).trans (hquiet y))
  | @ending x hp ha hx hg =>
    refine .ending (hpool.trans hp) (halive.trans ha) ((hstage x).trans (hstop ▸ hx))
      (fun hs i ↦ ?_)
    rw [hstop] at hs
    exact mt (hgone i).mp (hg hs i)

def Point.Plain (p : Point F) : Prop := p.holds = false ∧ p ≠ .gone

theorem Point.Plain.stage (h : p.Plain) : p.stage = none := by
  have hholds := h.1
  rw [Point.holds, Bool.or_eq_false_iff] at hholds
  exact Option.not_isSome_iff_eq_none.mp (by simp [hholds.2])

def State.Owned (s : State F T) : Prop := ∀ x, s.owner = some x ↔ (s.point x).holds = true

theorem Point.holds_of_stage {b : Bool} (h : p.stage = some b) : p.holds = true := by
  simp [Point.holds, h]

theorem State.Owned.quiet (h : s.Owned) (hfree : s.owner = none) : s.Quiet := by
  intro x
  have hnot := mt (h x).mpr (by simp [hfree])
  rw [← Option.not_isSome_iff_eq_none]
  exact fun hsome ↦ hnot (by simp [Point.holds, hsome])

theorem State.Owned.stirs (h : s.Owned) (hs : s.Stirs s') (howner : s'.owner = s.owner) :
    s'.Owned := by
  intro y
  rw [howner, hs.same Point.holds rfl rfl]
  exact h y

/-- What holds of every state that is reached. -/
structure State.Sound (s : State F T) : Prop where
  fits : s.Fits
  owned : s.Owned
  phase : s.Phase

theorem State.Sound.absent (h : s.Sound) (hfree : s.owner = none)
    (hpool : s.gs.threadPool = false) : s.stop = false ∧ s.queue = [] ∧
      ∀ i, s.point (.worker i) = .gone := by
  cases h.phase with
  | absent hp hi ha hs hq hg hquiet => exact ⟨hs, hq, hg⟩
  | running hp ha hs hg hquiet =>
    rw [hp] at hpool
    cases hpool
  | @ending x hp ha hx hg =>
    have hquiet := h.owned.quiet hfree x
    rw [hx] at hquiet
    cases hquiet

theorem State.Sound.ending {b : Bool} (h : s.Sound) (hx : (s.point x).stage = some b) :
    s.owner = some x ∧ s.gs.threadPool = false ∧ s.alive = true ∧ s.stop = b ∧
      (b = false → ∀ i, s.point (.worker i) ≠ .gone) := by
  have howner := (h.owned x).mpr (Point.holds_of_stage hx)
  have hloud (hquiet : s.Quiet) : False := by
    rw [hquiet x] at hx
    cases hx
  cases h.phase with
  | absent hp hi ha hs hq hg hquiet => exact (hloud hquiet).elim
  | running hp ha hs hg hquiet => exact (hloud hquiet).elim
  | @ending y hp ha hy hg =>
    have howner' := (h.owned y).mpr (Point.holds_of_stage hy)
    obtain rfl := Option.some.inj (howner.symm.trans howner')
    obtain rfl := Option.some.inj (hx.symm.trans hy)
    exact ⟨howner, hp, ha, rfl, hg⟩

@[simp] theorem becomes_gs (s : State F T) (gs : GlobalState F) : (s.becomes gs).gs = gs := by
  unfold State.becomes
  split <;> rfl

@[simp] theorem becomes_owner (s : State F T) (gs : GlobalState F) :
    (s.becomes gs).owner = s.owner := by
  unfold State.becomes
  split <;> rfl

@[simp] theorem becomes_queue (s : State F T) (gs : GlobalState F) :
    (s.becomes gs).queue = s.queue := by
  unfold State.becomes
  split <;> rfl

@[simp] theorem becomes_lost (s : State F T) (gs : GlobalState F) :
    (s.becomes gs).lost = s.lost := by
  unfold State.becomes
  split <;> rfl

@[simp] theorem becomes_returned (s : State F T) (gs : GlobalState F) :
    (s.becomes gs).returned = s.returned := by
  unfold State.becomes
  split <;> rfl

theorem State.Sound.becomes_stirs (h : s.Sound) (hfree : s.owner = none) (gs : GlobalState F) :
    s.Stirs (s.becomes gs) := by
  intro y
  unfold State.becomes
  split
  · next hspawn =>
    have hpool : s.gs.threadPool = false := by
      simp only [Bool.and_eq_true, Bool.not_eq_true'] at hspawn
      exact hspawn.2
    cases y with
    | client t => exact .inl rfl
    | worker i => exact .inr ⟨.inr ((h.absent hfree hpool).2.2 i), rfl⟩
  · exact .inl rfl

theorem State.Sound.becomes (h : s.Sound) (hfree : s.owner = none) {gs : GlobalState F}
    (ho : gs.Ordered)
    (hgs : gs.threadPool = s.gs.threadPool ∧ gs.initialized = s.gs.initialized ∨
      gs.threadPool = true) : (s.becomes gs).Sound where
  fits :=
    { point := h.fits.stirs (h.becomes_stirs hfree gs)
      queue := by
        rw [becomes_queue]
        exact h.fits.queue
      returned := by
        rw [becomes_returned]
        exact h.fits.returned
      ordered := by rwa [becomes_gs] }
  owned := h.owned.stirs (h.becomes_stirs hfree gs) (becomes_owner s gs)
  phase := by
    have hquiet : (s.becomes gs).Quiet := fun y ↦
      ((h.becomes_stirs hfree gs).same Point.stage rfl rfl y).trans (h.owned.quiet hfree y)
    unfold State.becomes at hquiet ⊢
    split at hquiet
    · next hspawn =>
      rw [if_pos hspawn]
      simp only [Bool.and_eq_true, Bool.not_eq_true'] at hspawn
      exact .running hspawn.1 rfl (h.absent hfree hspawn.2).1 (fun i ↦ by simp) hquiet
    · next hspawn =>
      rw [if_neg hspawn]
      refine h.phase.congr ?_ ?_ rfl rfl (fun _ ↦ rfl) (fun _ ↦ Iff.rfl) (fun _ ↦ rfl)
      · rcases hgs with ⟨hpool, -⟩ | hnew
        · exact hpool
        · have hold : s.gs.threadPool = true := by simpa [hnew] using hspawn
          exact hnew.trans hold.symm
      · intro hold
        rcases hgs with ⟨-, hinit⟩ | hnew
        · exact hinit
        · simp [hnew, hold] at hspawn

theorem State.rouse_stirs (s : State F T) (l : List (Fin 4)) : s.Stirs (s.rouse l) := by
  rintro (t | i)
  · exact .inl rfl
  · change (if i ∈ l then (s.point (.worker i)).roused else s.point (.worker i)) = _ ∨
      _ ∧ (if i ∈ l then (s.point (.worker i)).roused else s.point (.worker i)) = _
    split
    · cases hp : s.point (.worker i) with
      | asleep => exact .inr ⟨.inl rfl, rfl⟩
      | _ => exact .inl rfl
    · exact .inl rfl

theorem rouse_gone (l : List (Fin 4)) (i : Fin 4) :
    (s.rouse l).point (.worker i) = .gone ↔ s.point (.worker i) = .gone := by
  change (if i ∈ l then (s.point (.worker i)).roused else s.point (.worker i)) = _ ↔ _
  split
  · cases s.point (.worker i) <;> simp [Point.roused]
  · rfl

theorem State.Sound.rouse (h : s.Sound) (l : List (Fin 4)) : (s.rouse l).Sound where
  fits := ⟨h.fits.stirs (s.rouse_stirs l), h.fits.queue, h.fits.returned, h.fits.ordered⟩
  owned := h.owned.stirs (s.rouse_stirs l) rfl
  phase := h.phase.congr rfl (fun _ ↦ rfl) rfl rfl (fun _ ↦ rfl) (rouse_gone l)
    ((s.rouse_stirs l).same Point.stage rfl rfl)

def State.handed (s : State F T) : List Nat := s.returned.filterMap (·.2.handle)

/-- A thread waits for the mutex that it has. -/
def State.Hangs (s : State F T) : Prop := ∃ x, (s.point x).isStuck = true

theorem State.Owned.of_stuck (h : s.Owned) (hx : (s.point x).isStuck = true) :
    s.owner = some x :=
  (h x).mpr (by simp [Point.holds, hx])

/-- What still happens when a thread hangs: nobody gets the mutex. -/
structure State.Frozen (s s' : State F T) : Prop where
  gs : s'.gs = s.gs
  stuck : ∀ x, (s.point x).isStuck = true → (s'.point x).isStuck = true
  returned : ∃ later, s'.returned = s.returned ++ later ∧ ∀ e ∈ later, e.1.callback = none ∧
    (e.1.call.unlocked = true ∨ e.1.call.isAsync = true)

theorem State.sound_initial : ({} : State F T).Sound where
  fits :=
    { point := by
        rintro (t | i)
        · trivial
        · exact ⟨i, rfl⟩
      queue := by simp
      returned := by simp
      ordered := ⟨rfl, by simp, by simp, by simp, by simp⟩ }
  owned := by
    rintro (t | i)
    · exact iff_of_false (by simp) (by simp [Point.holds, Point.isStuck, Point.stage])
    · exact iff_of_false (by simp) (by simp [Point.holds, Point.isStuck, Point.stage])
  phase := .absent rfl rfl rfl rfl rfl (fun _ ↦ rfl) (by rintro (t | i) <;> rfl)

end states

section moves

variable [DecidableEq T]

theorem update_same {α : Type} (f : Point F → α) {point : Thread T → Point F}
    (h : f p = f (point x)) (y : Thread T) : f (update point x p y) = f (point y) := by
  by_cases hy : y = x
  · subst hy
    rwa [update_self]
  · rw [update_of_ne hy]

theorem update_eq {point : Thread T → Point F} {y : Thread T} (h : update point x p y = q)
    (hp : p ≠ q) : y ≠ x ∧ point y = q := by
  by_cases hy : y = x
  · subst hy
    rw [update_self] at h
    exact absurd h hp
  · rw [update_of_ne hy] at h
    exact ⟨hy, h⟩

theorem forall_update {P : Thread T → Point F → Prop} {point : Thread T → Point F}
    (h : ∀ y, y ≠ x → P y (point y)) (hp : P x p) (y : Thread T) : P y (update point x p y) := by
  by_cases hy : y = x
  · subst hy
    rwa [update_self]
  · rw [update_of_ne hy]
    exact h y hy

theorem stuck_update {point : Thread T → Point F} (hx : (point x).isStuck = false) {y : Thread T}
    (hy : (point y).isStuck = true) : (update point x p y).isStuck = true := by
  have hne : y ≠ x := by
    rintro rfl
    rw [hx] at hy
    cases hy
  rwa [update_of_ne hne]

theorem not_stuck_update {point : Thread T → Point F} (hpoint : ∀ y, (point y).isStuck = false)
    (hp : p.isStuck = false) (y : Thread T) : (update point x p y).isStuck = false :=
  forall_update (P := fun _ q ↦ q.isStuck = false) (fun y _ ↦ hpoint y) hp y

theorem State.Fits.moves (h : s.Fits) (hp : p.Fits x) : (s.moves x p).Fits where
  point := forall_update (fun y _ ↦ h.point y) hp
  queue := h.queue
  returned := h.returned
  ordered := h.ordered

theorem State.Fits.replies (h : s.Fits) {j : Job F} {r : Reply F}
    (hr : r.status ∈ j.call.statuses) : (s.replies x j r).Fits where
  point := forall_update (fun y _ ↦ h.point y) trivial
  queue := h.queue
  returned := by
    simp only [State.replies, List.forall_mem_append, List.forall_mem_singleton]
    exact ⟨h.returned, hr⟩
  ordered := h.ordered

theorem State.Owned.update (h : s.Owned) (howner : s'.owner = s.owner)
    (hpoint : s'.point = Function.update s.point x p) (hx : p.holds = (s.point x).holds) :
    s'.Owned := by
  intro y
  rw [howner, hpoint, update_same Point.holds hx]
  exact h y

theorem State.Owned.takes (h : s.Owned) (hfree : s.owner = none) (howner : s'.owner = some x)
    (hpoint : s'.point = Function.update s.point x p) (hp : p.holds = true) : s'.Owned := by
  intro y
  rw [howner, hpoint]
  by_cases hy : y = x
  · subst hy
    rw [update_self, hp]
    exact iff_of_true rfl rfl
  · have hnot := mt (h y).mpr (by simp [hfree])
    rw [update_of_ne hy]
    exact iff_of_false (fun heq ↦ hy (Option.some.inj heq).symm) hnot

theorem State.Owned.leaves (h : s.Owned) (hx : s.owner = some x) (howner : s'.owner = none)
    (hpoint : s'.point = Function.update s.point x p) (hp : p.holds = false) : s'.Owned := by
  intro y
  rw [howner, hpoint]
  refine iff_of_false (by simp) ?_
  by_cases hy : y = x
  · subst hy
    simp [hp]
  · rw [update_of_ne hy, ← h y, hx]
    exact fun heq ↦ hy (Option.some.inj heq).symm

theorem update_gone {point : Thread T → Point F} (hx : point x ≠ .gone) (hp : p ≠ .gone)
    (y : Thread T) : update point x p y = .gone ↔ point y = .gone := by
  have hsame := update_same (· = Point.gone) (propext (iff_of_false hp hx)) y
  exact iff_of_eq hsame

theorem State.Phase.moves (h : s.Phase) (hx : (s.point x).stage = p.stage)
    (hgone : s.point x ≠ .gone) (hp : p ≠ .gone) : (s.moves x p).Phase :=
  h.congr rfl (fun _ ↦ rfl) rfl rfl (fun _ ↦ rfl) (fun _ ↦ update_gone hgone hp _)
    (update_same Point.stage hx.symm)

theorem State.Sound.moves (h : s.Sound) (hq : s.point x = q) (hplain : q.Plain) (hp : p.Plain)
    (hfit : p.Fits x) : (s.moves x p).Sound where
  fits := h.fits.moves hfit
  owned := h.owned.update rfl rfl (by rw [hq, hp.1, hplain.1])
  phase := h.phase.moves (by rw [hq, hp.stage, hplain.stage]) (by rw [hq]; exact hplain.2) hp.2

theorem State.Sound.replies (h : s.Sound) (hq : s.point x = q) (hplain : q.Plain) {j : Job F}
    {r : Reply F} (hr : r.status ∈ j.call.statuses) : (s.replies x j r).Sound where
  fits := h.fits.replies hr
  owned := (h.moves (p := .outside) hq hplain ⟨rfl, by simp⟩ trivial).owned
  phase := (h.moves (p := .outside) hq hplain ⟨rfl, by simp⟩ trivial).phase.congr rfl
    (fun _ ↦ rfl) rfl rfl (fun _ ↦ rfl) (fun _ ↦ Iff.rfl) (fun _ ↦ rfl)

theorem State.Sound.begin (h : s.Sound) (hq : s.point x = q) (hplain : q.Plain) {j : Job F}
    (hj : j.Of x) : (s.begin x j).Sound := by
  have hbegun := begins_begun s.gs j.call
  unfold State.begin
  generalize begins s.gs j.call = start at hbegun ⊢
  cases hbegun with
  | answers hc hstatus hr => exact h.replies hq hplain hstatus
  | reports msg hr => exact h.moves hq hplain ⟨rfl, by simp⟩ ⟨hj, hr⟩
  | locks hc => exact h.moves hq hplain ⟨rfl, by simp⟩ ⟨hj, hc⟩

omit [DecidableEq T] in
theorem State.Sound.queue (h : s.Sound) (halive : s.alive = true) {queue : List (Job F)}
    (hq : ∀ j ∈ queue, j.IsTask) : ({ s with queue } : State F T).Sound where
  fits := ⟨h.fits.point, hq, h.fits.returned, h.fits.ordered⟩
  owned := h.owned
  phase := h.phase.congr rfl (fun _ ↦ rfl) rfl rfl (fun hdead ↦ by simp [halive] at hdead)
    (fun _ ↦ Iff.rfl) (fun _ ↦ rfl)

theorem begin_task {j : Job F} (hj : j.IsTask) (i : Fin 4) :
    ∃ p : Point F, s.begin (.worker i) j = s.moves (.worker i) p ∧ p.job = some j ∧
      (p = .calling j ∨ ∃ msg r, p = .reporting msg j r) := by
  have hbegun := begins_begun s.gs j.call
  obtain ⟨session, input, data, rfl⟩ := hj
  unfold State.begin
  dsimp only at hbegun ⊢
  generalize begins s.gs _ = start at hbegun ⊢
  cases hbegun with
  | answers hc => cases hc
  | @reports msg r hr => exact ⟨_, rfl, rfl, .inr ⟨msg, r, rfl⟩⟩
  | locks hc => exact ⟨_, rfl, rfl, .inl rfl⟩

end moves

section steps

variable [DecidableEq T] [Mul F] [LT F] [DecidableLT F] [LE F] [DecidableLE F] {host : Host F}
  {e : Event F T} {tr tr' : List (State F T × Event F T)} {u : State F T}

def Fails (host : Host F) (s : State F T) : Event F T → Prop
  | .lock x m => ∃ j gs msg, s.point x = .calling j ∧ inside host m s.gs j.call = .fails gs msg
  | _ => False

omit [DecidableEq T] in
theorem State.Fits.ends (h : s.Fits) {j : Job F} {m : Moment F} {result : Section F}
    (hp : s.point x = .calling j) (hin : inside host m s.gs j.call = result) :
    Ends j.call s.gs result :=
  hin ▸ inside_ends (h.at hp).2

omit [DecidableEq T] [Mul F] [LT F] [DecidableLT F] [LE F] [DecidableLE F] in
theorem State.Sound.present (h : s.Sound) (hfree : s.owner = none)
    (hinit : s.gs.initialized = true) :
    s.alive = true ∧ s.stop = false ∧ ∀ i, s.point (.worker i) ≠ .gone := by
  cases h.phase with
  | absent hp hi ha hs hq hg hquiet =>
    rw [hi] at hinit
    cases hinit
  | running hp ha hs hg hquiet => exact ⟨ha, hs, hg⟩
  | @ending x hp ha hx hg =>
    have hquiet := h.owned.quiet hfree x
    rw [hx] at hquiet
    cases hquiet

omit [DecidableEq T] [Mul F] [LT F] [DecidableLT F] [LE F] [DecidableLE F] in
theorem State.Sound.alive (h : s.Sound) (hq : s.queue ≠ [] ∨ s.gs.threadPool = true) :
    s.alive = true := by
  cases h.phase with
  | absent hp hi ha hs hnil hg hquiet => simp [hnil, hp] at hq
  | running hp ha hs hg hquiet => exact ha
  | ending hp ha hx hg => exact ha

theorem State.Sound.step (h : s.Sound) (hstep : Steps host s e s') : s'.Sound := by
  cases hstep with
  | call c hp => exact h.begin hp ⟨rfl, by simp⟩ rfl
  | @returns x j m gs r hp ho hin =>
    have hends := h.fits.ends hp hin
    cases hends with
    | returns hasync hr =>
      have hx := (h.becomes_stirs ho gs).at hp (by simp [Point.Rests])
      exact (h.becomes ho (hr.ordered h.fits.ordered) (hr.pool.imp_right And.left)).replies hx
        ⟨rfl, by simp⟩ hr.status
  | @fails x j m gs msg hp ho hin =>
    have hends := h.fits.ends hp hin
    have hx := (h.becomes_stirs ho gs).at hp (by simp [Point.Rests])
    have hs : (s.becomes gs).Sound := by
      cases hends with
      | fails => exact h.becomes ho h.fits.ordered (.inl ⟨rfl, rfl⟩)
      | incomplete msg hinit hpool hinit' hsessions hhandles hlimit =>
        exact h.becomes ho (h.fits.ordered.congr hsessions hhandles hlimit) (.inr hpool)
    have hfits : ({ s.becomes gs with owner := some x } : State F T).Fits :=
      ⟨hs.fits.point, hs.fits.queue, hs.fits.returned, hs.fits.ordered⟩
    have hphase := hs.phase.moves (x := x) (p := .stuck msg j) (by rw [hx]; rfl) (by simp [hx])
      (by simp)
    exact ⟨hfits.moves (h.fits.at hp).1, hs.owned.takes ((becomes_owner s gs).trans ho) rfl rfl rfl,
      hphase.congr rfl (fun _ ↦ rfl) rfl rfl (fun _ ↦ rfl) (fun _ ↦ Iff.rfl) (fun _ ↦ rfl)⟩
  | @joins x j m gs hp ho hin =>
    have hends := h.fits.ends hp hin
    cases hends with
    | joins hc hinit =>
      obtain ⟨halive, hstop, hgone⟩ := h.present ho hinit
      have hordered := h.fits.ordered.sublist (List.nil_sublist _)
      have hs : ({ s with
          gs := { s.gs with sessions := [], threadPool := false }
          owner := some x } : State F T).Fits :=
        ⟨h.fits.point, h.fits.queue, h.fits.returned, hordered.congr rfl rfl rfl⟩
      refine ⟨hs.moves ⟨(h.fits.at hp).1, hc⟩, h.owned.takes ho rfl rfl rfl,
        .ending (x := x) rfl halive ?_ (fun _ i ↦ ?_)⟩
      · change (Function.update s.point x (.stopping j) x).stage = some s.stop
        rw [update_self, hstop]
        rfl
      · exact mt (update_gone (by simp [hp]) (by simp) _).mp (hgone i)
  | @found x j m hp ho hin =>
    have hends := h.fits.ends hp hin
    cases hends with
    | found hc =>
      have hpoint := h.fits.at hp
      exact h.moves hp ⟨rfl, by simp⟩ ⟨rfl, by simp⟩ ⟨hpoint.1, hpoint.2, _, _, _, hc⟩
  | @report x msg j r hp ho =>
    have hs : ({ s with gs := { s.gs with lastError := msg } } : State F T).Sound :=
      ⟨⟨h.fits.point, h.fits.queue, h.fits.returned, h.fits.ordered.congr rfl rfl rfl⟩, h.owned,
        h.phase.congr rfl (fun _ ↦ rfl) rfl rfl (fun _ ↦ rfl) (fun _ ↦ Iff.rfl) (fun _ ↦ rfl)⟩
    exact hs.replies hp ⟨rfl, by simp⟩ (h.fits.at hp).2.status
  | @available x j hp hpool =>
    have hpoint := h.fits.at hp
    exact h.moves hp ⟨rfl, by simp⟩ ⟨rfl, by simp⟩ hpoint
  | @unavailable x j hp hpool =>
    obtain ⟨hof, hvalid, session, input, callback, hc⟩ := h.fits.at hp
    refine h.moves hp ⟨rfl, by simp⟩ ⟨rfl, by simp⟩ ⟨hof, ?_, by simp, rfl⟩
    unfold Call.statuses
    rw [if_pos hvalid, hc]
    simp
  | @sends x j hp hpool =>
    have hpoint := h.fits.at hp
    exact h.moves hp ⟨rfl, by simp⟩ ⟨rfl, by simp⟩ hpoint
  | @sendsNull x j hp hpool =>
    have hpoint := h.fits.at hp
    exact h.moves hp ⟨rfl, by simp⟩ ⟨rfl, by simp⟩ hpoint
  | @pushes x j pool hp hhas hfree =>
    have hqueue : ∀ j' ∈ s.queue ++ [j.task], j'.IsTask := by
      simp only [List.forall_mem_append, List.forall_mem_singleton]
      exact ⟨h.fits.queue, (h.fits.at hp).2.task⟩
    have hpoint := h.fits.at hp
    exact (h.queue hhas.1 hqueue).moves hp ⟨rfl, by simp⟩ ⟨rfl, by simp⟩ hpoint
  | @pushesFreed x j pool hp hhas =>
    have hpoint := h.fits.at hp
    exact h.moves hp ⟨rfl, by simp⟩ ⟨rfl, by simp⟩ hpoint
  | @notifiesOne x j pool woken hp hhas hpicks =>
    have hx := (s.rouse_stirs woken.toList).at hp (by simp [Point.Rests])
    exact (h.rouse _).replies hx ⟨rfl, by simp⟩ (ok_mem_statuses (h.fits.at hp).2.1)
  | @notifiesFreed x j pool woken hp hhas =>
    have hpoint := h.fits.at hp
    exact h.moves hp ⟨rfl, by simp⟩ ⟨rfl, by simp⟩ hpoint
  | dozes hp hfree hstop hq => exact h.moves hp ⟨rfl, by simp⟩ ⟨rfl, by simp⟩ ⟨_, rfl⟩
  | sleeps hp => exact h.moves hp ⟨rfl, by simp⟩ ⟨rfl, by simp⟩ ⟨_, rfl⟩
  | wakes hp => exact h.moves hp ⟨rfl, by simp⟩ ⟨rfl, by simp⟩ trivial
  | @takes i j queue hp hfree hq =>
    have hqueue := h.fits.queue
    rw [hq, List.forall_mem_cons] at hqueue
    exact (h.queue (h.alive (.inl (by simp [hq]))) hqueue.2).begin hp ⟨rfl, by simp⟩
      hqueue.1
  | @leaves i hp hfree hstop hq =>
    refine ⟨h.fits.moves ⟨i, rfl⟩, h.owned.update rfl rfl (by rw [hp]; rfl), ?_⟩
    cases h.phase with
    | absent hpool hi ha hs hnil hg hquiet =>
      rw [hs] at hstop
      cases hstop
    | running hpool ha hs hg hquiet =>
      rw [hs] at hstop
      cases hstop
    | @ending y hpool ha hy hg =>
      refine .ending (x := y) hpool ha ?_ (fun hno ↦ by simp [State.moves, hstop] at hno)
      exact (update_same Point.stage (by rw [hp]; rfl) y).trans hy
  | @stops x j hp =>
    obtain ⟨howner, hpool, halive, hstop, hgone⟩ := h.ending (x := x) (by rw [hp]; rfl)
    have hs : ({ s with stop := true } : State F T).Fits :=
      ⟨h.fits.point, h.fits.queue, h.fits.returned, h.fits.ordered⟩
    have hpoint := h.fits.at hp
    refine ⟨hs.moves hpoint, h.owned.update rfl rfl (by rw [hp]; rfl),
      .ending (x := x) hpool halive ?_ (fun hno ↦ by simp [State.moves] at hno)⟩
    change (Function.update s.point x (.waking j) x).stage = some true
    rw [update_self]
    rfl
  | @notifiesAll x j hp =>
    obtain ⟨howner, hpool, halive, hstop, hgone⟩ := h.ending (x := x) (by rw [hp]; rfl)
    have hs := h.rouse (List.finRange 4)
    have hx := (s.rouse_stirs (List.finRange 4)).at hp (by simp [Point.Rests])
    have hpoint := h.fits.at hp
    refine ⟨hs.fits.moves hpoint, hs.owned.update rfl rfl (by rw [hx]; rfl),
      .ending (x := x) hpool halive ?_ (fun hno ↦ ?_)⟩
    · change (Function.update (s.rouse _).point x (.joining j) x).stage = some s.stop
      rw [update_self, hstop]
      rfl
    · rw [show s.stop = false from hno] at hstop
      cases hstop
  | @join x j hp hall =>
    obtain ⟨howner, hpool, halive, hstop, hgone⟩ := h.ending (x := x) (by rw [hp]; rfl)
    have hs : (s.destroyed).Fits :=
      ⟨h.fits.point, by simp [State.destroyed], h.fits.returned, h.fits.ordered.congr rfl rfl rfl⟩
    have howned : (s.destroyed.replies x j ⟨.ok, .nothing⟩).Owned :=
      h.owned.leaves howner rfl rfl rfl
    have hstatus : Status.ok ∈ j.call.statuses := by
      rw [(h.fits.at hp).2]
      exact ok_mem_statuses rfl
    refine ⟨hs.replies hstatus, howned, .absent hpool rfl rfl rfl rfl (fun i ↦ ?_)
      (howned.quiet rfl)⟩
    have hi : Thread.worker i ≠ x := by
      rintro rfl
      cases hp.symm.trans (hall i)
    exact (update_of_ne hi _ _).trans (hall i)

theorem sound_run (h : Run (Steps host) {} tr s) : s.Sound :=
  (h.invariant (fun _ _ _ hs hstep ↦ hs.step hstep) State.sound_initial).2

def sampleHost : Host ℚ where
  zero := 0
  hundred := 100
  defaultGuidance := 15 / 2
  pixel := fun b ↦ b.toNat / 255
  npuWeight := 2
  gpuWeight := 3 / 2
  cpuWeight := 1

def sampleMoment : Moment ℚ where
  npuUtilization := 0
  generate := fun _ _ ↦ .pixels [255, 0, 0, 255]

abbrev SampleRun := Run (Steps (T := Bool) sampleHost) {}

theorem SampleRun.call {tr : List (State ℚ Bool × Event ℚ Bool)} {s : State ℚ Bool}
    (h : SampleRun tr s) {t : Bool} (c : Call ℚ) (hp : s.point (.client t) = .outside) :
    SampleRun (tr ++ [(s, .call t c)]) (s.begin (.client t) ⟨c, none⟩) :=
  h.append (.cons (.call c hp) (.nil _))

theorem SampleRun.returns {tr : List (State ℚ Bool × Event ℚ Bool)} {s : State ℚ Bool}
    (h : SampleRun tr s) {t : Bool} {j : Job ℚ} {gs : GlobalState ℚ} {r : Reply ℚ}
    (hp : s.point (.client t) = .calling j) (hfree : s.owner = none)
    (hin : inside sampleHost sampleMoment s.gs j.call = .returns gs r) :
    SampleRun (tr ++ [(s, .lock (.client t) sampleMoment)])
      ((s.becomes gs).replies (.client t) j r) :=
  h.append (.cons (.returns hp hfree hin) (.nil _))

theorem sample_session : ∃ tr s, SampleRun tr s ∧ s.returned.length = 2 ∧ s.handed = [1] := by
  have hinit := SampleRun.call (.nil _) (t := true) .init rfl
  have hstart := SampleRun.returns hinit (t := true) (j := ⟨.init, none⟩) rfl rfl rfl
  have hcall := SampleRun.call hstart (t := true)
    (.createSession (some { guidanceScale := 0 }) true) rfl
  exact ⟨_, _, SampleRun.returns (t := true) hcall rfl rfl rfl, rfl, rfl⟩

/-- Whatever the threads do: a call that returns has one of its statuses, and there are never more
than 16 sessions. -/
theorem replies_without_failures (h : Run (Steps host) {} tr s) :
    (∀ e ∈ s.returned, e.2.status ∈ e.1.call.statuses) ∧ s.gs.Ordered :=
  ⟨(sound_run h).fits.returned, (sound_run h).fits.ordered⟩

theorem replies_without_failures_session : ∃ tr s, SampleRun tr s ∧ s.returned.length = 2 ∧
    (∀ e ∈ s.returned, e.2.status ∈ e.1.call.statuses) ∧ s.gs.Ordered := by
  obtain ⟨tr, s, hrun, hlength, -⟩ := sample_session
  exact ⟨tr, s, hrun, hlength, replies_without_failures hrun⟩

omit [Mul F] [LT F] [DecidableLT F] [LE F] [DecidableLE F] in
theorem begin_handed (s : State F T) (x : Thread T) (j : Job F) :
    (s.begin x j).handed = s.handed ∧ (s.begin x j).gs = s.gs := by
  have hbegun := begins_begun s.gs j.call
  unfold State.begin
  generalize begins s.gs j.call = start at hbegun ⊢
  cases hbegun with
  | @answers r hc hstatus hr => exact ⟨by simp [State.handed, State.replies, hr], rfl⟩
  | reports msg hr => exact ⟨rfl, rfl⟩
  | locks hc => exact ⟨rfl, rfl⟩

theorem handed_step (h : s.Sound) (hstep : Steps host s e s') :
    s'.handed = s.handed ∧ s'.gs.handles = s.gs.handles ∨
    s'.handed = s.handed ++ [s.gs.handles + 1] ∧ s'.gs.handles = s.gs.handles + 1 := by
  have hreply (j : Job F) {r : Reply F} (hr : r.handle = none) :
      (s.returned ++ [(j, r)]).filterMap (·.2.handle) = s.handed := by
    simp [State.handed, hr]
  cases hstep with
  | @call t c hp =>
    obtain ⟨hhanded, hgs⟩ := begin_handed s (.client t) ⟨c, none⟩
    exact .inl ⟨hhanded, by rw [hgs]⟩
  | @returns x j m gs r hp ho hin =>
    have hends := h.fits.ends hp hin
    cases hends with
    | returns hasync hr =>
      rcases hr.handle with ⟨hnone, hsame⟩ | ⟨hsome, hnext⟩
      · exact .inl ⟨by simp [State.handed, State.replies, hnone],
          by simpa [State.replies] using hsame⟩
      · exact .inr ⟨by simp [State.handed, State.replies, hsome],
          by simpa [State.replies] using hnext⟩
  | @fails x j m gs msg hp ho hin =>
    have hends := h.fits.ends hp hin
    have hhandles : gs.handles = s.gs.handles := by
      cases hends with
      | fails => rfl
      | incomplete msg hinit hpool hinit' hsessions hhandles hlimit => exact hhandles
    exact .inl ⟨by simp [State.handed, State.moves], by simpa [State.moves] using hhandles⟩
  | @joins x j m gs hp ho hin =>
    have hends := h.fits.ends hp hin
    cases hends with
    | joins hc hinit => exact .inl ⟨rfl, rfl⟩
  | @report x msg j r hp ho => exact .inl ⟨hreply j (h.fits.at hp).2.handle, rfl⟩
  | @notifiesOne x j pool woken hp hhas hpicks => exact .inl ⟨hreply j rfl, rfl⟩
  | @takes i j queue hp hfree hq =>
    obtain ⟨hhanded, hgs⟩ := begin_handed { s with queue } (.worker i) j
    exact .inl ⟨hhanded, by rw [hgs]⟩
  | @join x j hp hall => exact .inl ⟨hreply j rfl, rfl⟩
  | _ => exact .inl ⟨rfl, rfl⟩

/-- No handle is given out twice, and the sessions that there are have handles that were. -/
theorem handed_once (h : Run (Steps host) {} tr s) :
    s.handed.Nodup ∧ ∀ ss ∈ s.gs.sessions, ss.handle ∈ s.handed := by
  have hnumbered : s.handed = (List.range s.gs.handles).map (· + 1) := by
    refine ((h.invariant (I := fun s ↦ s.Sound ∧
      s.handed = (List.range s.gs.handles).map (· + 1)) ?_ ⟨State.sound_initial, rfl⟩).2).2
    rintro s e s' ⟨hs, heq⟩ hstep
    refine ⟨hs.step hstep, ?_⟩
    rcases handed_step hs hstep with ⟨hhanded, hhandles⟩ | ⟨hhanded, hhandles⟩
    · rw [hhanded, heq, hhandles]
    · rw [hhanded, heq, hhandles, List.range_succ, List.map_append]
      rfl
  rw [hnumbered]
  refine ⟨List.nodup_range.map (add_left_injective 1), fun ss hss ↦ ?_⟩
  obtain ⟨hpos, hle⟩ := (sound_run h).fits.ordered.range ss hss
  exact List.mem_map.mpr ⟨ss.handle - 1, List.mem_range.mpr (by omega), by omega⟩

theorem handed_once_session : ∃ tr s, SampleRun tr s ∧ s.handed = [1] ∧ s.handed.Nodup := by
  obtain ⟨tr, s, hrun, -, hhanded⟩ := sample_session
  exact ⟨tr, s, hrun, hhanded, (handed_once hrun).1⟩

omit [Mul F] [LT F] [DecidableLT F] [LE F] [DecidableLE F] in
theorem Frozen.moves {t : State F T} (hgs : t.gs = s.gs)
    (hpoint : ∀ y, (t.point y).isStuck = (s.point y).isStuck) (hreturned : t.returned = s.returned)
    (hq : s.point x = q) (hfree : q.isStuck = false) : s.Frozen (t.moves x p) where
  gs := hgs
  stuck := fun y hy ↦ stuck_update ((hpoint x).trans (hq ▸ hfree)) ((hpoint y).trans hy)
  returned := ⟨[], by simpa [State.moves] using hreturned, by simp⟩

omit [Mul F] [LT F] [DecidableLT F] [LE F] [DecidableLE F] in
theorem Frozen.replies {t : State F T} (hgs : t.gs = s.gs)
    (hpoint : ∀ y, (t.point y).isStuck = (s.point y).isStuck) (hreturned : t.returned = s.returned)
    (hq : s.point x = q) (hfree : q.isStuck = false) {j : Job F} {r : Reply F}
    (hj : j.callback = none) (hc : j.call.unlocked = true ∨ j.call.isAsync = true) :
    s.Frozen (t.replies x j r) where
  gs := hgs
  stuck := fun y hy ↦ stuck_update ((hpoint x).trans (hq ▸ hfree)) ((hpoint y).trans hy)
  returned := ⟨[(j, r)], by simp [State.replies, hreturned],
    by simp only [List.forall_mem_singleton]; exact ⟨hj, hc⟩⟩

omit [Mul F] [LT F] [DecidableLT F] [LE F] [DecidableLE F] in
theorem Frozen.begin {t : State F T} (hgs : t.gs = s.gs)
    (hpoint : ∀ y, (t.point y).isStuck = (s.point y).isStuck) (hreturned : t.returned = s.returned)
    (hq : s.point x = q) (hfree : q.isStuck = false) {j : Job F} (hj : j.Of x) :
    s.Frozen (t.begin x j) := by
  have hbegun := begins_begun t.gs j.call
  unfold State.begin
  generalize begins t.gs j.call = start at hbegun ⊢
  cases hbegun with
  | answers hc =>
    exact Frozen.replies hgs hpoint hreturned hq hfree (hj.callback (.inl hc)) (.inl hc)
  | reports msg hr => exact Frozen.moves hgs hpoint hreturned hq hfree
  | locks hc => exact Frozen.moves hgs hpoint hreturned hq hfree

theorem frozen_step (h : s.Sound) (hhangs : s.Hangs) (hstep : Steps host s e s') : s.Frozen s' := by
  have hmoves {x : Thread T} {p q : Point F} (hq : s.point x = q) (hfree : q.isStuck = false) :
      s.Frozen (s.moves x p) := Frozen.moves rfl (fun _ ↦ rfl) rfl hq hfree
  obtain ⟨z, hz⟩ := hhangs
  have howner := h.owned.of_stuck hz
  have hbusy (hfree : s.owner = none) : False := by
    rw [howner] at hfree
    cases hfree
  -- the thread that hangs is not the one that destroys the pool
  have hending {y : Thread T} {q : Point F} {b : Bool} (hy : s.point y = q)
      (hq : q.stage = some b) : False := by
    have hstage : (s.point y).stage = some b := by rw [hy, hq]
    obtain ⟨howner', -⟩ := h.ending hstage
    obtain rfl := Option.some.inj (howner.symm.trans howner')
    rw [hy] at hz
    cases q with
    | stuck msg j => cases hq
    | _ => cases hz
  cases hstep with
  | @call t c hp =>
    exact Frozen.begin rfl (fun _ ↦ rfl) rfl hp rfl rfl
  | returns hp ho hin => exact (hbusy ho).elim
  | fails hp ho hin => exact (hbusy ho).elim
  | joins hp ho hin => exact (hbusy ho).elim
  | found hp ho hin => exact (hbusy ho).elim
  | report hp ho => exact (hbusy ho).elim
  | @notifiesOne x j pool woken hp hhas hpicks =>
    obtain ⟨hof, hasks⟩ := h.fits.at hp
    have hsame := (s.rouse_stirs woken.toList).same Point.isStuck rfl rfl
    exact Frozen.replies (s := s) (t := s.rouse woken.toList) rfl hsame rfl hp rfl
      (hof.callback (.inr hasks.isAsync)) (.inr hasks.isAsync)
  | @takes i j queue hp hfree hq =>
    have htask : j.IsTask := h.fits.queue j (by simp [hq])
    exact Frozen.begin (s := s) (t := { s with queue }) rfl (fun _ ↦ rfl) rfl hp rfl htask
  | pushes hp hhas hfree =>
    exact Frozen.moves (t := { s with queue := _ }) rfl (fun _ ↦ rfl) rfl hp rfl
  | stops hp => exact (hending hp rfl).elim
  | notifiesAll hp => exact (hending hp rfl).elim
  | join hp hall => exact (hending hp rfl).elim
  | available hp hpool => exact hmoves hp rfl
  | unavailable hp hpool => exact hmoves hp rfl
  | sends hp hpool => exact hmoves hp rfl
  | sendsNull hp hpool => exact hmoves hp rfl
  | pushesFreed hp hhas => exact hmoves hp rfl
  | notifiesFreed hp hhas => exact hmoves hp rfl
  | dozes hp hfree hstop hq => exact hmoves hp rfl
  | sleeps hp => exact hmoves hp rfl
  | wakes hp => exact hmoves hp rfl
  | leaves hp hfree hstop hq => exact hmoves hp rfl

omit [Mul F] [LT F] [DecidableLT F] [LE F] [DecidableLE F] in
theorem begin_isStuck (hs : ∀ y, (s.point y).isStuck = false) (x : Thread T) (j : Job F)
    (y : Thread T) : ((s.begin x j).point y).isStuck = false := by
  unfold State.begin
  split
  · exact not_stuck_update hs rfl y
  · exact not_stuck_update hs rfl y
  · exact not_stuck_update hs rfl y

theorem hangs_step (h : s.Sound) (hs : ∀ y, (s.point y).isStuck = false)
    (hstep : Steps host s e s') : s'.Hangs ↔ Fails host s e := by
  have hno {s' : State F T} (h : ∀ y, (s'.point y).isStuck = false) (hf : ¬Fails host s e) :
      s'.Hangs ↔ Fails host s e := by
    refine iff_of_false ?_ hf
    rintro ⟨y, hy⟩
    rw [h y] at hy
    cases hy
  have hlock {x : Thread T} {j : Job F} {m : Moment F} (hp : s.point x = .calling j)
      (hin : ∀ gs msg, inside host m s.gs j.call ≠ .fails gs msg) : ¬Fails host s (.lock x m) := by
    rintro ⟨j', gs, msg, hp', hin'⟩
    cases hp.symm.trans hp'
    exact hin gs msg hin'
  have hstirs {t : State F T} (ht : s.Stirs t) (y : Thread T) : (t.point y).isStuck = false :=
    (ht.same Point.isStuck rfl rfl y).trans (hs y)
  cases hstep with
  | @call t c hp => exact hno (begin_isStuck hs _ _) id
  | @returns x j m gs r hp ho hin =>
    exact hno (not_stuck_update (hstirs (h.becomes_stirs ho gs)) rfl) (hlock hp (by simp [hin]))
  | @fails x j m gs msg hp ho hin =>
    refine iff_of_true ⟨x, ?_⟩ ⟨j, gs, msg, hp, hin⟩
    simp [State.moves, Point.isStuck]
  | joins hp ho hin => exact hno (not_stuck_update hs rfl) (hlock hp (by simp [hin]))
  | found hp ho hin => exact hno (not_stuck_update hs rfl) (hlock hp (by simp [hin]))
  | @takes i j queue hp hfree hq =>
    have hsame : ∀ y, (({ s with queue } : State F T).point y).isStuck = false := hs
    exact hno (begin_isStuck hsame _ _) id
  | notifiesOne hp hhas hpicks =>
    exact hno (not_stuck_update (hstirs (s.rouse_stirs _)) rfl) id
  | notifiesAll hp => exact hno (not_stuck_update (hstirs (s.rouse_stirs _)) rfl) id
  | _ => exact hno (not_stuck_update hs rfl) id

theorem frozen_run (h : Run (Steps host) s tr u) (hs : s.Sound) (hhangs : s.Hangs) :
    s.Frozen u := by
  induction h with
  | nil s => exact ⟨rfl, fun _ hy ↦ hy, [], by simp, by simp⟩
  | @cons s t u e tr hstep _ ih =>
    have hfirst := frozen_step hs hhangs hstep
    obtain ⟨z, hz⟩ := hhangs
    have hrest := ih (hs.step hstep) ⟨z, hfirst.stuck z hz⟩
    obtain ⟨l, hl, hmem⟩ := hfirst.returned
    obtain ⟨l', hl', hmem'⟩ := hrest.returned
    exact ⟨hrest.gs.trans hfirst.gs, fun y hy ↦ hrest.stuck y (hfirst.stuck y hy), l ++ l',
      by rw [hl', hl, List.append_assoc], List.forall_mem_append.mpr ⟨hmem, hmem'⟩⟩

/-- A thread locks itself out just if some call failed while it had the mutex. From then on the
state of the library never changes, and the calls that still come back do without the mutex, or are
asynchronous ones past it. -/
theorem hangs_iff_failed (h : Run (Steps host) {} tr s) :
    (s.Hangs ↔ ∃ e ∈ tr, Fails host e.1 e.2) ∧
    (s.Hangs → ∀ tr' u, Run (Steps host) s tr' u → s.Frozen u) := by
  refine ⟨?_, fun hhangs tr' u hrun ↦ frozen_run hrun (sound_run h) hhangs⟩
  have hsound : Run (fun s e s' ↦ s.Sound ∧ Steps host s e s') {} tr s :=
    h.restrict (h.invariant (fun _ _ _ hs hstep ↦ hs.step hstep) State.sound_initial).1
  have hkeeps (s : State F T) (e : Event F T) (s' : State F T) (hs : ¬s.Hangs)
      (hstep : s.Sound ∧ Steps host s e s') : ¬s'.Hangs ↔ ¬Fails host s e := by
    refine not_congr (hangs_step hstep.1 (fun y ↦ ?_) hstep.2)
    exact Bool.eq_false_of_not_eq_true (fun hy ↦ hs ⟨y, hy⟩)
  have hnone : ¬({} : State F T).Hangs := by
    rintro ⟨t | i, hx⟩
    · cases hx
    · cases hx
  have hiff := hsound.step_iff hkeeps hnone
  have hend : Throughout (fun s ↦ ¬s.Hangs) tr s ↔ ¬s.Hangs := by
    refine ⟨And.right, fun hno ↦ ⟨fun e he hhangs ↦ ?_, hno⟩⟩
    obtain ⟨before, after, rfl⟩ := List.append_of_mem he
    obtain ⟨z, hz⟩ := hhangs
    obtain ⟨t, hbefore, hstep, hafter⟩ := h.cut
    have hfrozen := frozen_run (.cons hstep hafter) (sound_run hbefore) ⟨z, hz⟩
    exact hno ⟨z, hfrozen.stuck z hz⟩
  have hnot := hend.symm.trans hiff
  rw [← not_iff_not, hnot]
  simp only [not_exists, not_and]

/-- The library is started a second time. -/
theorem hangs_iff_failed_twice : ∃ tr s, SampleRun tr s ∧ s.Hangs := by
  have hinit := SampleRun.call (.nil _) (t := true) .init rfl
  have hstart := SampleRun.returns hinit (t := true) (j := ⟨.init, none⟩) rfl rfl rfl
  have hcall := SampleRun.call hstart (t := true) .init rfl
  have hfails := hcall.append
    (.cons (.fails (x := .client true) (m := sampleMoment) rfl rfl rfl) (.nil _))
  refine ⟨_, _, hfails, (hangs_iff_failed hfails).1.mpr ⟨_, List.mem_append_right _
    (List.mem_singleton_self _), _, _, _, rfl, rfl⟩⟩

def Point.Drowsy (p : Point F) : Prop := p = .dozing ∨ p = .asleep

def Point.Idle (p : Point F) : Prop := p = .outside ∨ p = .gone ∨ p.Drowsy

def State.drowsy (s : State F T) : Set (Fin 4) := {i | (s.point (.worker i)).Drowsy}

def State.notifiers (s : State F T) : Set (Thread T) := {y | ∃ j, s.point y = .notifying j s.pool}

/-- There is a notification to come for each worker that sleeps or is about to. -/
def State.Saved (s : State F T) : Prop := s.drowsy.encard ≤ s.notifiers.encard

/-- The workers are gone, or they can leave: no task is left, and those that sleep wake by
themselves or are notified. -/
def State.Clear (wakes : Bool) (s : State F T) : Prop :=
  (∀ i, s.point (.worker i) = .gone) ∨
    s.queue = [] ∧ (∀ i, (s.point (.worker i)).Idle) ∧ (wakes = true ∨ s.Saved)

def Event.isWake : Event F T → Bool
  | .wake _ => true
  | _ => false

section clear

variable {wakes : Bool} {i : Fin 4}

omit [DecidableEq T] [Mul F] [LT F] [DecidableLT F] [LE F] [DecidableLE F]

theorem Job.Asks.client {j : Job F} (h : j.Asks) (hof : j.Of x) : ∃ t, x = .client t := by
  cases x with
  | client t => exact ⟨t, rfl⟩
  | worker i =>
    obtain ⟨session, input, data, rfl⟩ := hof
    cases h.isAsync

theorem State.Saved.mono (h : s'.Saved) (hdrowsy : s.drowsy ⊆ s'.drowsy)
    (hnotifiers : s'.notifiers ⊆ s.notifiers) : s.Saved :=
  (Set.encard_le_encard hdrowsy).trans (h.trans (Set.encard_le_encard hnotifiers))

theorem State.Clear.idle (h : s.Clear wakes) (i : Fin 4) : (s.point (.worker i)).Idle := by
  rcases h with hgone | ⟨-, hidle, -⟩
  · exact .inr (.inl (hgone i))
  · exact hidle i

theorem State.Clear.saved (h : s.Clear wakes) : wakes = true ∨ s.Saved := by
  rcases h with hgone | ⟨-, -, hsaved⟩
  · have hnobody : s.drowsy = ∅ := by
      refine Set.eq_empty_of_forall_notMem fun i hi ↦ ?_
      rcases hi with hdozing | hasleep
      · cases (hgone i).symm.trans hdozing
      · cases (hgone i).symm.trans hasleep
    refine .inr ?_
    rw [State.Saved, hnobody, Set.encard_empty]
    exact zero_le
  · exact hsaved

theorem drowsy_subset (hworkers : ∀ k, k ≠ i → s'.point (.worker k) = s.point (.worker k))
    (hi : (s.point (.worker i)).Drowsy → (s'.point (.worker i)).Drowsy) :
    s.drowsy ⊆ s'.drowsy := by
  intro k hk
  by_cases hki : k = i
  · subst hki
    exact hi hk
  · change (s'.point (.worker k)).Drowsy
    rw [hworkers k hki]
    exact hk

theorem drowsy_insert (hworkers : ∀ k, k ≠ i → s'.point (.worker k) = s.point (.worker k)) :
    s.drowsy ⊆ insert i s'.drowsy := by
  intro k hk
  by_cases hki : k = i
  · exact .inl hki
  · refine .inr ?_
    change (s'.point (.worker k)).Drowsy
    rw [hworkers k hki]
    exact hk

theorem rouse_worker {l : List (Fin 4)} (h : i ∉ l) :
    (s.rouse l).point (.worker i) = s.point (.worker i) :=
  if_neg h

theorem notifiers_rouse (s : State F T) (l : List (Fin 4)) :
    (s.rouse l).notifiers = s.notifiers := by
  ext y
  exact iff_of_eq ((s.rouse_stirs l).same (fun p ↦ ∃ j, p = Point.notifying j s.pool) (by simp)
    (by simp) y)

theorem State.Clear.of_same (h : s'.Clear wakes) (hqueue : s'.queue = s.queue)
    (hworkers : ∀ i, s'.point (.worker i) = s.point (.worker i))
    (hnotifiers : s'.notifiers ⊆ s.notifiers) : s.Clear wakes := by
  rcases h with hgone | ⟨hnil, hidle, hsaved⟩
  · exact .inl (fun i ↦ (hworkers i).symm.trans (hgone i))
  · have hdrowsy : s.drowsy ⊆ s'.drowsy := fun i hi ↦ by
      change (s'.point (.worker i)).Drowsy
      rwa [hworkers i]
    exact .inr ⟨hqueue.symm.trans hnil, fun i ↦ hworkers i ▸ hidle i,
      hsaved.imp_right (·.mono hdrowsy hnotifiers)⟩

theorem State.Clear.of_worker (h : s'.Clear wakes) (hnil : s.queue = [])
    (hi : (s.point (.worker i)).Idle)
    (hworkers : ∀ k, k ≠ i → s'.point (.worker k) = s.point (.worker k))
    (hsaved : wakes = true ∨ (s'.Saved → s.Saved)) : s.Clear wakes := by
  refine .inr ⟨hnil, fun k ↦ ?_, ?_⟩
  · by_cases hk : k = i
    · rwa [hk]
    · exact hworkers k hk ▸ h.idle k
  · rcases hsaved with hwakes | hsaved
    · exact .inl hwakes
    · exact h.saved.imp_right hsaved

end clear

section clear

variable {wakes : Bool} {t : T} {i : Fin 4}

omit [Mul F] [LT F] [DecidableLT F] [LE F] [DecidableLE F]

theorem update_client (point : Thread T → Point F) (t : T) (p : Point F) (i : Fin 4) :
    update point (.client t) p (.worker i) = point (.worker i) := by
  rw [update_of_ne]
  simp

theorem update_worker (point : Thread T → Point F) (p : Point F) {k : Fin 4} (h : k ≠ i) :
    update point (.worker i) p (.worker k : Thread T) = point (.worker k) := by
  rw [update_of_ne]
  simpa using h

theorem notifiers_moves (hp : ∀ j, p ≠ .notifying j s.pool) :
    (s.moves x p).notifiers ⊆ s.notifiers := by
  rintro y ⟨j, hy⟩
  exact ⟨j, (update_eq hy (hp j)).2⟩

theorem notifiers_replies {j : Job F} {r : Reply F} :
    (s.replies x j r).notifiers = s.notifiers \ {x} := by
  ext y
  constructor
  · rintro ⟨j', hy⟩
    obtain ⟨hne, hy⟩ := update_eq hy (by simp)
    exact ⟨⟨j', hy⟩, hne⟩
  · rintro ⟨⟨j', hy⟩, hne⟩
    exact ⟨j', (update_of_ne hne _ _).trans hy⟩

theorem State.Clear.of_moves (h : (s.moves (.client t) p).Clear wakes)
    (hp : ∀ j, p ≠ .notifying j s.pool) : s.Clear wakes :=
  h.of_same rfl (fun _ ↦ update_client _ t p _) (notifiers_moves hp)

theorem State.Clear.of_begin {j : Job F} (h : (s.begin (.client t) j).Clear wakes) :
    s.Clear wakes := by
  unfold State.begin at h
  split at h
  · exact h.of_same rfl (fun _ ↦ update_client _ t .outside _)
      (notifiers_replies.trans_subset Set.sdiff_subset)
  · exact h.of_moves (by simp)
  · exact h.of_moves (by simp)

end clear

/-- A shutdown that has the mutex keeps everybody else from it. -/
theorem clear_step {wakes : Bool} {j : Job F} (h : s.Sound) (hx : s.point x = .joining j)
    (hstep : Steps host s e s') (hwake : e.isWake = true → wakes = true) (hclear : s'.Clear wakes) :
    s.Clear wakes := by
  obtain ⟨howner, hpool, halive, hstop, -⟩ := h.ending (x := x) (b := true) (by rw [hx]; rfl)
  have hbusy (hfree : s.owner = none) : False := by
    rw [howner] at hfree
    cases hfree
  have hnull (h : s.gs.threadPool = true) : False := by
    rw [hpool] at h
    cases h
  have hending {y : Thread T} {q : Point F} (hy : s.point y = q) (hq : q.stage.isSome)
      (hne : q ≠ .joining j) : False := by
    obtain ⟨b, hb⟩ := Option.isSome_iff_exists.mp hq
    obtain ⟨howner', -⟩ := h.ending (x := y) (b := b) (by rw [hy, hb])
    obtain rfl := Option.some.inj (howner.symm.trans howner')
    exact hne (hy.symm.trans hx)
  have hcalls {y : Thread T} {j : Job F} {q : Point F} (hy : s.point y = q)
      (hq : q.Fits y → j.Of y ∧ j.Asks) : ∃ t, y = .client t :=
    (hq (h.fits.at hy)).2.client (hq (h.fits.at hy)).1
  cases hstep with
  | call c hp => exact hclear.of_begin
  | returns hp ho hin => exact (hbusy ho).elim
  | fails hp ho hin => exact (hbusy ho).elim
  | joins hp ho hin => exact (hbusy ho).elim
  | found hp ho hin => exact (hbusy ho).elim
  | report hp ho => exact (hbusy ho).elim
  | available hp hpool => exact (hnull hpool).elim
  | unavailable hp hpool =>
    obtain ⟨t, rfl⟩ := hcalls hp id
    exact hclear.of_moves (by simp)
  | sends hp hpool => exact (hnull hpool).elim
  | sendsNull hp hpool =>
    obtain ⟨t, rfl⟩ := hcalls hp id
    exact hclear.of_moves (by simp)
  | @pushes y j' pool hp hhas hfree =>
    -- a task that is put into the queue is never taken out
    obtain ⟨t, rfl⟩ := hcalls hp id
    rcases hclear with hgone | ⟨hnil, -⟩
    · exact .inl (fun i ↦ (update_client _ t (.notifying j' pool) i).symm.trans (hgone i))
    · cases List.append_ne_nil_of_right_ne_nil _ (List.cons_ne_nil _ _) hnil
  | pushesFreed hp hhas =>
    obtain ⟨t, rfl⟩ := hcalls hp id
    exact hclear.of_moves (by simp)
  | @notifiesOne y j' pool woken hp hhas hpicks =>
    obtain ⟨t, rfl⟩ := hcalls hp id
    have hmem : Thread.client t ∈ s.notifiers := ⟨j', by rw [hp, hhas.2]⟩
    cases woken with
    | none =>
      refine hclear.of_same rfl (fun i ↦ ?_) ?_
      · exact (update_client (s.rouse []).point t .outside i).trans (rouse_worker (by simp))
      · rw [notifiers_replies]
        exact Set.sdiff_subset.trans (notifiers_rouse s _).subset
    | some i =>
      have hi : s.point (.worker i) = .asleep := hpicks
      have hothers (k : Fin 4) (hk : k ≠ i) :
          ((s.rouse (some i).toList).replies (.client t) j' ⟨.ok, .nothing⟩).point (.worker k) =
            s.point (.worker k) :=
        (update_client _ t .outside k).trans (rouse_worker (by simpa using hk))
      rcases hclear with hgone | ⟨hnil, hrest⟩
      · have hout := (update_client (s.rouse [i]).point t .outside i).trans (if_pos (by simp))
        rw [hi] at hout
        cases hout.symm.trans (hgone i)
      · refine State.Clear.of_worker (.inr ⟨hnil, hrest⟩) hnil (i := i) (.inr (.inr (.inr hi)))
          hothers (.inr fun hsaved ↦ ?_)
        -- the worker that is notified and the thread that does it go together
        have hpair := notifiers_replies (s := s.rouse (some i).toList) (x := .client t) (j := j')
          (r := ⟨.ok, .nothing⟩)
        rw [notifiers_rouse] at hpair
        calc s.drowsy.encard ≤ _ := Set.encard_le_encard (drowsy_insert hothers)
          _ ≤ _ := Set.encard_insert_le _ _
          _ ≤ _ := add_le_add_left hsaved 1
          _ = s.notifiers.encard := by
            rw [hpair, Set.encard_sdiff_singleton_add_one hmem]
  | notifiesFreed hp hhas =>
    obtain ⟨t, rfl⟩ := hcalls hp id
    exact hclear.of_moves (by simp)
  | dozes hp hfree hno hq =>
    rw [hstop] at hno
    cases hno
  | @sleeps i hp =>
    rcases hclear with hgone | ⟨hnil, hrest⟩
    · cases (update_self _ _ _).symm.trans (hgone i)
    · refine State.Clear.of_worker (.inr ⟨hnil, hrest⟩) hnil (i := i) (.inr (.inr (.inl hp)))
        (fun k hk ↦ update_worker _ _ hk) (.inr fun hsaved ↦ ?_)
      refine hsaved.mono (drowsy_subset (i := i) (fun k hk ↦ update_worker _ _ hk) (fun _ ↦ ?_))
        (notifiers_moves (by simp))
      exact .inr (update_self _ _ _)
  | @wakes i hp =>
    rcases hclear with hgone | ⟨hnil, hrest⟩
    · cases (update_self _ _ _).symm.trans (hgone i)
    · exact State.Clear.of_worker (.inr ⟨hnil, hrest⟩) hnil (i := i) (.inr (.inr (.inr hp)))
        (fun k hk ↦ update_worker _ _ hk) (.inl (hwake rfl))
  | @takes i j' queue hp hfree hq =>
    -- the task waits for the mutex, and the worker with it
    obtain ⟨p, hbegin, hjob, -⟩ :=
      begin_task (s := { s with queue }) (h.fits.queue j' (by simp [hq])) i
    rw [hbegin] at hclear
    have hidle : p.Idle := by simpa [State.moves] using hclear.idle i
    rcases hidle with rfl | rfl | rfl | rfl <;> cases hjob
  | @leaves i hp hfree hstop' hq =>
    refine hclear.of_worker hq (i := i) (.inl hp) (fun k hk ↦ update_worker _ _ hk)
      (.inr fun hsaved ↦ ?_)
    refine hsaved.mono (drowsy_subset (fun k hk ↦ update_worker _ _ hk) (fun hdrowsy ↦ ?_))
      (notifiers_moves (by simp))
    rw [hp] at hdrowsy
    rcases hdrowsy with hno | hno <;> cases hno
  | stops hp => exact (hending hp rfl (by simp)).elim
  | notifiesAll hp => exact (hending hp rfl (by simp)).elim
  | join hp hall => exact .inl hall

/-- Only the end of the workers makes a shutdown return. -/
theorem joining_step {j : Job F} (h : s.Sound) (hx : s.point x = .joining j)
    (hstep : Steps host s e s') : s'.point x = .joining j ∨ ∀ i, s.point (.worker i) = .gone := by
  have hne {y : Thread T} {q : Point F} (hy : s.point y = q) (hq : q ≠ .joining j) : x ≠ y := by
    rintro rfl
    exact hq (hy.symm.trans hx)
  have hmoves {t : State F T} {y : Thread T} {q p : Point F} (hy : s.point y = q)
      (hq : q ≠ .joining j) (ht : t.point x = .joining j) :
      Function.update t.point y p x = .joining j :=
    (update_of_ne (hne hy hq) _ _).trans ht
  cases hstep with
  | call c hp =>
    refine .inl ?_
    unfold State.begin
    split
    · exact hmoves hp (by simp) hx
    · exact hmoves hp (by simp) hx
    · exact hmoves hp (by simp) hx
  | @returns y j' m gs r hp ho hin =>
    exact .inl (hmoves hp (by simp) ((h.becomes_stirs ho gs).at hx (by simp [Point.Rests])))
  | @fails y j' m gs msg hp ho hin =>
    exact .inl (hmoves hp (by simp) ((h.becomes_stirs ho gs).at hx (by simp [Point.Rests])))
  | joins hp => exact .inl (hmoves hp (by simp) hx)
  | found hp => exact .inl (hmoves hp (by simp) hx)
  | report hp => exact .inl (hmoves hp (by simp) hx)
  | available hp => exact .inl (hmoves hp (by simp) hx)
  | unavailable hp => exact .inl (hmoves hp (by simp) hx)
  | sends hp => exact .inl (hmoves hp (by simp) hx)
  | sendsNull hp => exact .inl (hmoves hp (by simp) hx)
  | pushes hp => exact .inl (hmoves hp (by simp) hx)
  | pushesFreed hp => exact .inl (hmoves hp (by simp) hx)
  | notifiesOne hp =>
    exact .inl (hmoves hp (by simp) ((s.rouse_stirs _).at hx (by simp [Point.Rests])))
  | notifiesFreed hp => exact .inl (hmoves hp (by simp) hx)
  | dozes hp => exact .inl (hmoves hp (by simp) hx)
  | sleeps hp => exact .inl (hmoves hp (by simp) hx)
  | wakes hp => exact .inl (hmoves hp (by simp) hx)
  | takes hp hfree hq =>
    refine .inl ?_
    unfold State.begin
    split
    · exact hmoves hp (by simp) hx
    · exact hmoves hp (by simp) hx
    · exact hmoves hp (by simp) hx
  | leaves hp => exact .inl (hmoves hp (by simp) hx)
  | stops hp => exact .inl (hmoves hp (by simp) hx)
  | notifiesAll hp =>
    exact .inl (hmoves hp (by simp) ((s.rouse_stirs _).at hx (by simp [Point.Rests])))
  | join hp hall => exact .inr hall

structure State.Empties (x : Thread T) (j : Job F) (wakes : Bool) (s : State F T) : Prop where
  sound : s.Sound
  joining : s.point x = .joining j
  queue : s.queue = []
  idle : ∀ i, (s.point (.worker i)).Idle
  saved : wakes = true ∨ s.Saved

/-- A run in which nobody wakes by himself, unless this is allowed. -/
def Calm (host : Host F) (wakes : Bool) (s : State F T) (tr : List (State F T × Event F T))
    (u : State F T) : Prop :=
  Run (Steps host) s tr u ∧ ∀ e ∈ tr, e.2.isWake = true → wakes = true

theorem Calm.nil {wakes : Bool} (s : State F T) : Calm host wakes s [] s :=
  ⟨.nil s, by simp⟩

theorem Calm.append {wakes : Bool} {t : State F T} (h : Calm host wakes s tr t)
    (h' : Calm host wakes t tr' u) : Calm host wakes s (tr ++ tr') u :=
  ⟨h.1.append h'.1, List.forall_mem_append.mpr ⟨h.2, h'.2⟩⟩

theorem Calm.one {wakes : Bool} (hstep : Steps host s e s') (he : e.isWake = true → wakes = true) :
    Calm host wakes s [(s, e)] s' :=
  ⟨.cons hstep (.nil _), by simpa using he⟩

section empties

variable {wakes : Bool} {i : Fin 4} {j : Job F}

omit [DecidableEq T] [Mul F] [LT F] [DecidableLT F] [LE F] [DecidableLE F] in
theorem State.Empties.ending (h : s.Empties x j wakes) (i : Fin 4) :
    s.alive = true ∧ s.stop = true ∧ x ≠ .worker i := by
  obtain ⟨-, -, halive, hstop, -⟩ := h.sound.ending (x := x) (b := true) (by rw [h.joining]; rfl)
  refine ⟨halive, hstop, ?_⟩
  rintro rfl
  have hidle := h.idle i
  rw [h.joining] at hidle
  rcases hidle with hno | hno | hno | hno <;> cases hno

theorem State.Empties.next (h : s.Empties x j wakes) (hstep : Steps host s e s')
    (hx : s'.point x = s.point x) (hqueue : s'.queue = s.queue)
    (hworkers : ∀ k, k ≠ i → s'.point (.worker k) = s.point (.worker k))
    (hi : (s'.point (.worker i)).Idle) (hsaved : wakes = true ∨ (s.Saved → s'.Saved)) :
    s'.Empties x j wakes where
  sound := h.sound.step hstep
  joining := hx.trans h.joining
  queue := hqueue.trans h.queue
  idle := by
    intro k
    by_cases hk : k = i
    · rwa [hk]
    · rw [hworkers k hk]
      exact h.idle k
  saved := by
    rcases hsaved with hwakes | hsaved
    · exact .inl hwakes
    · exact h.saved.imp_right hsaved

theorem State.Empties.moves (h : s.Empties x j wakes)
    (hstep : Steps host s e (s.moves (.worker i) p)) (hidle : p.Idle)
    (hdrowsy : wakes = true ∨ (p.Drowsy → (s.point (.worker i)).Drowsy)) :
    (s.moves (.worker i) p).Empties x j wakes := by
  have hi : (s.moves (.worker i) p).point (.worker i) = p := update_self _ _ _
  have hworkers (k : Fin 4) (hk : k ≠ i) :
      (s.moves (.worker i) p).point (.worker k) = s.point (.worker k) := update_worker _ _ hk
  refine h.next hstep (update_of_ne (h.ending i).2.2 _ _) rfl hworkers (by rwa [hi]) ?_
  refine hdrowsy.imp_right fun hdrowsy hsaved ↦ ?_
  refine hsaved.mono (drowsy_subset (fun k hk ↦ (hworkers k hk).symm) (by rwa [hi])) ?_
  rintro y ⟨j', hy⟩
  have hne : y ≠ .worker i := by
    rintro rfl
    have hno := h.idle i
    rw [hy] at hno
    rcases hno with hno | hno | hno | hno <;> cases hno
  exact ⟨j', (update_of_ne hne _ _).trans hy⟩

theorem State.Empties.woken (h : s.Empties x j wakes) (hi : s.point (.worker i) = .asleep) :
    ∃ e s', Steps host s e s' ∧ (e.isWake = true → wakes = true) ∧ s'.Empties x j wakes ∧
      s'.point (.worker i) = .outside ∧
      ∀ k, k ≠ i → s'.point (.worker k) = s.point (.worker k) := by
  rcases h.saved with hwakes | hsaved
  · have hstep : Steps host s (.wake i) (s.moves (.worker i) .outside) := .wakes hi
    exact ⟨_, _, hstep, fun _ ↦ hwakes, h.moves hstep (.inl rfl) (.inl hwakes), update_self _ _ _,
      fun k hk ↦ update_worker _ _ hk⟩
  · have hmem : i ∈ s.drowsy := .inr hi
    have hsome : s.notifiers.encard ≠ 0 := fun hnone ↦
      Set.encard_ne_zero_of_mem hmem (nonpos_iff_eq_zero.mp (hsaved.trans_eq hnone))
    obtain ⟨y, j', hy⟩ := Set.nonempty_of_encard_ne_zero hsome
    have hfits := h.sound.fits.at hy
    obtain ⟨t, rfl⟩ := hfits.2.client hfits.1
    have hstep : Steps host s (.notifyOne (.client t) (some i))
        ((s.rouse (some i).toList).replies (.client t) j' ⟨.ok, .nothing⟩) :=
      .notifiesOne hy ⟨(h.ending i).1, rfl⟩ hi
    have hworkers (k : Fin 4) (hk : k ≠ i) :
        ((s.rouse (some i).toList).replies (.client t) j' ⟨.ok, .nothing⟩).point (.worker k) =
          s.point (.worker k) :=
      (update_client _ t .outside k).trans (rouse_worker (by simpa using hk))
    have hout : ((s.rouse (some i).toList).replies (.client t) j' ⟨.ok, .nothing⟩).point
        (.worker i) = .outside := by
      refine (update_client _ t .outside i).trans ((if_pos (by simp)).trans ?_)
      rw [hi]
      rfl
    refine ⟨_, _, hstep, by simp [Event.isWake], ?_, hout, hworkers⟩
    refine h.next hstep ?_ rfl hworkers (by rw [hout]; exact .inl rfl) (.inr fun hsaved ↦ ?_)
    · have hne : x ≠ .client t := by
        rintro rfl
        cases h.joining.symm.trans hy
      have hx := (s.rouse_stirs (some i).toList).at h.joining (by simp [Point.Rests])
      exact (update_of_ne hne _ _).trans (hx.trans h.joining.symm)
    · have hy : Thread.client t ∈ s.notifiers := ⟨j', hy⟩
      rw [State.Saved, notifiers_replies, notifiers_rouse,
        ← ENat.add_le_add_iff_right ENat.one_ne_top, Set.encard_sdiff_singleton_add_one hy]
      refine (add_le_add_left (Set.encard_le_encard ?_) 1).trans
        ((Set.encard_sdiff_singleton_add_one hmem).trans_le hsaved)
      intro k hk
      have hki : k ≠ i := by
        rintro rfl
        rw [State.drowsy, Set.mem_ofPred_eq, hout] at hk
        rcases hk with hno | hno <;> cases hno
      rw [State.drowsy, Set.mem_ofPred_eq, hworkers k hki] at hk
      exact ⟨hk, by simpa using hki⟩

theorem State.Empties.left (h : s.Empties x j wakes) (hfree : s.Unlocked) (i : Fin 4) :
    ∃ tr u, Calm host wakes s tr u ∧ (u.Empties x j wakes ∧ u.Unlocked) ∧
      u.point (.worker i) = .gone ∧ ∀ k, k ≠ i → u.point (.worker k) = s.point (.worker k) := by
  have hleave {t : State F T} (ht : t.Empties x j wakes) (hfree : t.Unlocked)
      (hi : t.point (.worker i) = .outside) :
      Calm host wakes t [(t, .leave i)] (t.moves (.worker i) .gone) ∧
        (t.moves (.worker i) .gone).Empties x j wakes ∧
        (t.moves (.worker i) .gone).Unlocked := by
    have hstep : Steps host t (.leave i) (t.moves (.worker i) .gone) :=
      .leaves hi hfree (ht.ending i).2.1 ht.queue
    refine ⟨.one hstep (by simp [Event.isWake]), ht.moves hstep (.inr (.inl rfl)) (.inr ?_),
      fun k hk ↦ hfree k (update_eq hk (by simp)).2⟩
    rintro (hno | hno) <;> cases hno
  rcases h.idle i with hout | hgone | hdozing | hasleep
  · obtain ⟨hrun, hu, hfreeu⟩ := hleave h hfree hout
    exact ⟨_, _, hrun, ⟨hu, hfreeu⟩, update_self _ _ _, fun k hk ↦ update_worker _ _ hk⟩
  · exact ⟨[], s, .nil s, ⟨h, hfree⟩, hgone, fun _ _ ↦ rfl⟩
  · exact absurd hdozing (hfree i)
  · obtain ⟨e, t, hstep, he, ht, hout, hothers⟩ := h.woken hasleep
    have hfreet : t.Unlocked := by
      intro k
      by_cases hk : k = i
      · rw [hk, hout]
        simp
      · rw [hothers k hk]
        exact hfree k
    obtain ⟨hrun, hu, hfreeu⟩ := hleave ht hfreet hout
    exact ⟨_, _, (Calm.one hstep he).append hrun, ⟨hu, hfreeu⟩, update_self _ _ _,
      fun k hk ↦ (update_worker _ _ hk).trans (hothers k hk)⟩

theorem State.Empties.sleeps (h : s.Empties x j wakes) (i : Fin 4) :
    ∃ tr u, Calm host wakes s tr u ∧ u.Empties x j wakes ∧ u.point (.worker i) ≠ .dozing ∧
      ∀ k, k ≠ i → u.point (.worker k) = s.point (.worker k) := by
  by_cases hi : s.point (.worker i) = .dozing
  · have hstep : Steps host s (.sleep i) (s.moves (.worker i) .asleep) := .sleeps hi
    have hout : (s.moves (.worker i) .asleep).point (.worker i) = .asleep := update_self _ _ _
    exact ⟨_, _, .one hstep (by simp [Event.isWake]),
      h.moves hstep (.inr (.inr (.inr rfl))) (.inr fun _ ↦ .inl hi), by simp [hout],
      fun k hk ↦ update_worker _ _ hk⟩
  · exact ⟨[], s, .nil s, h, hi, fun _ _ ↦ rfl⟩

theorem each_worker (host : Host F) {P : State F T → Prop} {Q : Point F → Prop}
    (hone : ∀ s, P s → ∀ i, ∃ tr u, Calm host wakes s tr u ∧ P u ∧ Q (u.point (.worker i)) ∧
      ∀ k, k ≠ i → u.point (.worker k) = s.point (.worker k)) (hs : P s) :
    ∃ tr u, Calm host wakes s tr u ∧ P u ∧ ∀ i, Q (u.point (.worker i)) := by
  have hlist (l : List (Fin 4)) :
      ∃ tr u, Calm host wakes s tr u ∧ P u ∧ ∀ i ∈ l, Q (u.point (.worker i)) := by
    induction l with
    | nil => exact ⟨[], s, .nil s, hs, by simp⟩
    | cons i l ih =>
      obtain ⟨tr, t, hrun, ht, hl⟩ := ih
      obtain ⟨tr', u, hrun', hu, hi, hothers⟩ := hone t ht i
      refine ⟨_, u, hrun.append hrun', hu, fun k hk ↦ ?_⟩
      by_cases hki : k = i
      · rwa [hki]
      · rw [hothers k hki]
        exact hl k (by simpa [hki] using hk)
  obtain ⟨tr, u, hrun, hu, hl⟩ := hlist (List.finRange 4)
  exact ⟨tr, u, hrun, hu, fun i ↦ hl i (List.mem_finRange i)⟩

end empties

/-- A shutdown that waits for the workers can return just if they can all leave. -/
theorem shutdown_returns_iff (h : Run (Steps host) {} tr s) {j : Job F}
    (hx : s.point x = .joining j) (wakes : Bool) :
    (∃ tr' u, Run (Steps host) s tr' u ∧ (∀ e ∈ tr', e.2.isWake = true → wakes = true) ∧
      u.point x ≠ .joining j) ↔ s.Clear wakes := by
  have hsound := sound_run h
  constructor
  · rintro ⟨tr', u, hrun, hcalm, hreturned⟩
    clear h
    induction hrun with
    | nil s => exact absurd hx hreturned
    | @cons s t u e tr' hstep hrun ih =>
      have he : e.isWake = true → wakes = true := hcalm (s, e) (by simp)
      rcases joining_step hsound hx hstep with hstays | hgone
      · exact clear_step hsound hx hstep he (ih hstays (hsound.step hstep)
          (fun e' he' ↦ hcalm e' (List.mem_cons_of_mem _ he')) hreturned)
      · exact .inl hgone
  · intro hclear
    have hreturn {tr' : List (State F T × Event F T)} {t : State F T}
        (hcalm : Calm host wakes s tr' t) (ht : t.point x = .joining j)
        (hgone : ∀ i, t.point (.worker i) = .gone) :
        ∃ tr' u, Run (Steps host) s tr' u ∧ (∀ e ∈ tr', e.2.isWake = true → wakes = true) ∧
          u.point x ≠ .joining j := by
      have hlast := hcalm.append (.one (.join ht hgone) (by simp [Event.isWake]))
      refine ⟨_, _, hlast.1, hlast.2, ?_⟩
      change Function.update t.point x .outside x ≠ .joining j
      simp
    rcases hclear with hgone | ⟨hnil, hidle, hsaved⟩
    · exact hreturn (.nil s) hx hgone
    · have hempties : s.Empties x j wakes := ⟨hsound, hx, hnil, hidle, hsaved⟩
      obtain ⟨tr₁, t, hrun₁, ht, hfree⟩ := each_worker host (Q := (· ≠ .dozing))
        (fun s hs i ↦ hs.sleeps i) hempties
      obtain ⟨tr₂, u, hrun₂, hu, hgone⟩ := each_worker host (Q := (· = .gone))
        (P := fun s ↦ s.Empties x j wakes ∧ s.Unlocked) (fun s hs i ↦ hs.1.left hs.2 i) ⟨ht, hfree⟩
      exact hreturn (hrun₁.append hrun₂) hu.1.joining hgone

theorem sample_dozing : ∃ tr s j, SampleRun tr s ∧ s.point (.client true) = .joining j ∧
    s.queue = [] ∧ s.point (.worker 0) = .dozing ∧ (∀ i, (s.point (.worker i)).Idle) ∧
    s.notifiers = ∅ := by
  have hinit := SampleRun.call (.nil _) (t := true) .init rfl
  have hstart := SampleRun.returns hinit (t := true) (j := ⟨.init, none⟩) rfl rfl rfl
  have hdoze := hstart.append (.cons (.dozes (i := 0) rfl (fun i hi ↦ by cases hi) rfl rfl)
    (.nil _))
  have hcall := SampleRun.call hdoze (t := true) .shutdown rfl
  have hlock := hcall.append (.cons (.joins (x := .client true) (m := sampleMoment)
    (j := ⟨.shutdown, none⟩) rfl rfl rfl) (.nil _))
  have hstop := hlock.append (.cons (.stops (x := .client true) (j := ⟨.shutdown, none⟩) rfl)
    (.nil _))
  have hwake := hstop.append (.cons (.notifiesAll (x := .client true) (j := ⟨.shutdown, none⟩) rfl)
    (.nil _))
  refine ⟨_, _, _, hwake, rfl, rfl, rfl, fun i ↦ ?_, ?_⟩
  · fin_cases i
    · exact .inr (.inr (.inl rfl))
    · exact .inl rfl
    · exact .inl rfl
    · exact .inl rfl
  · refine Set.eq_empty_of_forall_notMem ?_
    rintro (t | i) ⟨j, hj⟩
    · cases t <;> cases hj
    · fin_cases i <;> cases hj

/-- The worker is not notified again, and the shutdown waits until it wakes by itself. -/
theorem shutdown_returns_iff_dozing : ∃ tr s j, SampleRun tr s ∧
    s.point (.client true) = .joining j ∧
    (¬∃ tr' u, Run (Steps sampleHost) s tr' u ∧ (∀ e ∈ tr', e.2.isWake = true → false = true) ∧
      u.point (.client true) ≠ .joining j) ∧
    ∃ tr' u, Run (Steps sampleHost) s tr' u ∧ (∀ e ∈ tr', e.2.isWake = true → true = true) ∧
      u.point (.client true) ≠ .joining j := by
  obtain ⟨tr, s, j, hrun, hx, hnil, hdozing, hidle, hnobody⟩ := sample_dozing
  refine ⟨tr, s, j, hrun, hx, ?_, ?_⟩
  · rw [shutdown_returns_iff hrun hx false]
    rintro (hgone | ⟨-, -, hno | hsaved⟩)
    · cases hdozing.symm.trans (hgone 0)
    · cases hno
    · rw [State.Saved, hnobody, Set.encard_empty, nonpos_iff_eq_zero, Set.encard_eq_zero] at hsaved
      exact Set.eq_empty_iff_forall_notMem.mp hsaved 0 (.inl hdozing)
  · exact (shutdown_returns_iff hrun hx true).mpr (.inr ⟨hnil, hidle, .inl rfl⟩)

/-- The user data of an asynchronous call that is accepted. -/
def accepted (e : Job F × Reply F) : Option Nat :=
  match e.1.call with
  | .runAsync _ _ callback => if e.2.status = .ok then callback else none
  | _ => none

/-- The user data of a task that is in the queue while its call has yet to return. -/
def Point.unsettled : Point F → Option Nat
  | .notifying j _ => j.task.callback
  | .faulted j sent => if sent then j.task.callback else none
  | _ => none

instance [Fintype T] : Fintype (Thread T) :=
  .ofSurjective (Sum.elim .client .worker : T ⊕ Fin 4 → Thread T) (by
    rintro (t | i)
    · exact ⟨.inl t, rfl⟩
    · exact ⟨.inr i, rfl⟩)

def one (d : Nat) (o : Option Nat) : Nat := if o = some d then 1 else 0

def tally [Fintype T] (f : Point F → Option Nat) (point : Thread T → Point F) (d : Nat) : Nat :=
  ∑ x, one d (f (point x))

/-- Each task that has been put into a queue has been told its end, or a worker has it, or it is in
the queue or was destroyed with one. -/
def State.Balanced [Fintype T] (s : State F T) : Prop :=
  ∀ d, (s.returned.filterMap accepted).count d + tally Point.unsettled s.point d =
    (s.returned.filterMap (·.1.callback)).count d + tally Point.callback s.point d +
      (s.queue.filterMap (·.callback)).count d + (s.lost.filterMap (·.callback)).count d

section counts

omit [Mul F] [LT F] [DecidableLT F] [LE F] [DecidableLE F]

omit [DecidableEq T] in
theorem count_append {α : Type} (f : α → Option Nat) (l : List α) (a : α) (d : Nat) :
    ((l ++ [a]).filterMap f).count d = (l.filterMap f).count d + one d (f a) := by
  cases ha : f a with
  | none => simp [ha, one]
  | some b => simp [ha, one, List.count_singleton]

omit [DecidableEq T] in
theorem count_cons {α : Type} (f : α → Option Nat) (l : List α) (a : α) (d : Nat) :
    ((a :: l).filterMap f).count d = one d (f a) + (l.filterMap f).count d := by
  cases ha : f a with
  | none => simp [ha, one]
  | some b => simp [ha, one, List.count_cons, add_comm]

omit [DecidableEq T] in
theorem accepted_of_not_async {j : Job F} {r : Reply F} (h : j.call.isAsync = false) :
    accepted (j, r) = none := by
  unfold accepted
  dsimp only
  split
  · next heq =>
    rw [heq] at h
    cases h
  · rfl

omit [DecidableEq T] in
theorem not_async_of_unlocked {c : Call F} (h : c.unlocked = true) : c.isAsync = false := by
  cases c with
  | runAsync session input callback => cases h
  | _ => rfl

omit [DecidableEq T] in
theorem accepted_of_failed {j : Job F} {r : Reply F} (h : r.status ≠ .ok) :
    accepted (j, r) = none := by
  unfold accepted
  dsimp only
  split
  · exact if_neg h
  · rfl

omit [DecidableEq T] in
theorem accepted_of_asks {j : Job F} (h : j.Asks) :
    accepted (j, ⟨.ok, .nothing⟩) = j.task.callback := by
  obtain ⟨-, session, input, callback, hc⟩ := h
  simp [accepted, Job.task, hc]

variable [Fintype T] {f : Point F → Option Nat}

theorem tally_update (f : Point F → Option Nat) (point : Thread T → Point F) (x : Thread T)
    (p : Point F) (d : Nat) :
    tally f (update point x p) d + one d (f (point x)) = tally f point d + one d (f p) := by
  have hrest : ∑ y ∈ Finset.univ.erase x, one d (f (update point x p y)) =
      ∑ y ∈ Finset.univ.erase x, one d (f (point y)) := by
    refine Finset.sum_congr rfl fun y hy ↦ ?_
    rw [update_of_ne (Finset.ne_of_mem_erase hy)]
  have hafter := Finset.add_sum_erase Finset.univ (fun y ↦ one d (f (update point x p y)))
    (Finset.mem_univ x)
  have hbefore := Finset.add_sum_erase Finset.univ (fun y ↦ one d (f (point y)))
    (Finset.mem_univ x)
  rw [hrest, update_self] at hafter
  unfold tally
  omega

theorem tally_same (hf : f p = f (s.point x)) (d : Nat) :
    tally f (update s.point x p) d = tally f s.point d := by
  have hupdate := tally_update f s.point x p d
  rw [hf] at hupdate
  omega

theorem State.Balanced.stirs (h : s.Balanced) (hs : s.Stirs s')
    (hreturned : s'.returned = s.returned) (hqueue : s'.queue = s.queue)
    (hlost : s'.lost = s.lost) : s'.Balanced := by
  intro d
  have hunsettled : tally Point.unsettled s'.point d = tally Point.unsettled s.point d :=
    Finset.sum_congr rfl fun y _ ↦ by rw [hs.same Point.unsettled rfl rfl]
  have hcallback : tally Point.callback s'.point d = tally Point.callback s.point d :=
    Finset.sum_congr rfl fun y _ ↦ by rw [hs.same Point.callback rfl rfl]
  rw [hunsettled, hcallback, hreturned, hqueue, hlost]
  exact h d

theorem State.Balanced.moves (h : s.Balanced) (hq : s.point x = q)
    (hcallback : p.callback = q.callback) (hunsettled : p.unsettled = q.unsettled) :
    (s.moves x p).Balanced := by
  intro d
  subst hq
  change _ + tally _ (update s.point x p) d = _ + tally _ (update s.point x p) d + _ + _
  rw [tally_same hcallback, tally_same hunsettled]
  exact h d

theorem State.Balanced.replies (h : s.Balanced) (hq : s.point x = q) {j : Job F} {r : Reply F}
    (hcallback : q.callback = j.callback) (hunsettled : q.unsettled = accepted (j, r)) :
    (s.replies x j r).Balanced := by
  intro d
  subst hq
  have hbefore := h d
  have hsettled := tally_update Point.unsettled s.point x .outside d
  have htold := tally_update Point.callback s.point x .outside d
  rw [hunsettled] at hsettled
  rw [hcallback] at htold
  change ((s.returned ++ [(j, r)]).filterMap accepted).count d +
      tally _ (update s.point x .outside) d =
    ((s.returned ++ [(j, r)]).filterMap (·.1.callback)).count d +
      tally _ (update s.point x .outside) d + (s.queue.filterMap (·.callback)).count d +
      (s.lost.filterMap (·.callback)).count d
  rw [count_append, count_append]
  have hzero : one d (Point.outside : Point F).unsettled = 0 := rfl
  have hzero' : one d (Point.outside : Point F).callback = 0 := rfl
  dsimp only
  omega

theorem State.Balanced.pushes (h : s.Balanced) {j : Job F} {pool : Nat}
    (hp : s.point x = .pushing j pool) :
    ({ s with queue := s.queue ++ [j.task] }.moves x (.notifying j pool)).Balanced := by
  intro d
  have hbefore := h d
  have hsettled := tally_update Point.unsettled s.point x (.notifying j pool) d
  rw [hp] at hsettled
  change (s.returned.filterMap accepted).count d + tally _ (update s.point x _) d =
    (s.returned.filterMap (·.1.callback)).count d + tally _ (update s.point x _) d +
      ((s.queue ++ [j.task]).filterMap (·.callback)).count d +
      (s.lost.filterMap (·.callback)).count d
  rw [count_append, tally_same (f := Point.callback) (by rw [hp]; rfl)]
  have hzero : one d (Point.pushing j pool : Point F).unsettled = 0 := rfl
  have hone : one d (Point.notifying j pool : Point F).unsettled = one d j.task.callback := rfl
  omega

theorem State.Balanced.takes (h : s.Balanced) {j : Job F} {queue : List (Job F)} {i : Fin 4}
    (hp : s.point (.worker i) = .outside) (hq : s.queue = j :: queue) (hj : p.job = some j)
    (hunsettled : p.unsettled = none) :
    ({ s with queue }.moves (.worker i) p).Balanced := by
  intro d
  have hbefore := h d
  have htaken := tally_update Point.callback s.point (.worker i) p d
  rw [hp] at htaken
  rw [hq, count_cons] at hbefore
  change (s.returned.filterMap accepted).count d + tally _ (update s.point _ p) d =
    (s.returned.filterMap (·.1.callback)).count d + tally _ (update s.point _ p) d +
      (queue.filterMap (·.callback)).count d + (s.lost.filterMap (·.callback)).count d
  rw [tally_same (f := Point.unsettled) (by rw [hp, hunsettled]; rfl)]
  have hzero : one d (Point.outside : Point F).callback = 0 := rfl
  have hone : one d p.callback = one d j.callback := by rw [Point.callback, hj]; rfl
  omega

end counts

def Point.sends : Point F → Bool
  | .sending _ => true
  | .pushing _ _ => true
  | .notifying _ _ => true
  | _ => false

/-- A shutdown gets the mutex while a thread is on the way to the queue. -/
def Overtakes (host : Host F) (s : State F T) : Event F T → Prop
  | .lock x m => (∃ j gs, s.point x = .calling j ∧ inside host m s.gs j.call = .joins gs) ∧
      ∃ y, (s.point y).sends = true
  | _ => False

theorem balanced_step [Fintype T] (h : s.Sound) (hb : s.Balanced) (hstep : Steps host s e s') :
    s'.Balanced := by
  cases hstep with
  | @call t c hp =>
    have hbegun := begins_begun s.gs c
    unfold State.begin
    dsimp only
    generalize begins s.gs c = start at hbegun ⊢
    cases hbegun with
    | answers hc =>
      exact hb.replies hp rfl (accepted_of_not_async (not_async_of_unlocked hc)).symm
    | reports msg hr => exact hb.moves hp rfl rfl
    | locks hc => exact hb.moves hp rfl rfl
  | @returns x j m gs r hp ho hin =>
    have hends := h.fits.ends hp hin
    have hstirs := h.becomes_stirs ho gs
    have hx := hstirs.at hp (by simp [Point.Rests])
    cases hends with
    | returns hasync hr =>
      exact (hb.stirs hstirs (becomes_returned s gs) (becomes_queue s gs)
        (becomes_lost s gs)).replies hx rfl (accepted_of_not_async hasync).symm
  | @fails x j m gs msg hp ho hin =>
    have hstirs := h.becomes_stirs ho gs
    have hx := hstirs.at hp (by simp [Point.Rests])
    have howned : ({ s.becomes gs with owner := some x } : State F T).Balanced :=
      hb.stirs hstirs (becomes_returned s gs) (becomes_queue s gs) (becomes_lost s gs)
    exact howned.moves hx rfl rfl
  | @joins x j m gs hp ho hin =>
    have howned : ({ s with gs, owner := some x } : State F T).Balanced := hb
    exact howned.moves hp rfl rfl
  | found hp ho hin => exact hb.moves hp rfl rfl
  | @report x msg j r hp ho =>
    have hstored : ({ s with gs := { s.gs with lastError := msg } } : State F T).Balanced := hb
    exact hstored.replies hp rfl (accepted_of_failed (h.fits.at hp).2.failed).symm
  | available hp hpool => exact hb.moves hp rfl rfl
  | unavailable hp hpool => exact hb.moves hp rfl rfl
  | sends hp hpool => exact hb.moves hp rfl rfl
  | sendsNull hp hpool => exact hb.moves hp rfl rfl
  | pushes hp hhas hfree => exact hb.pushes hp
  | pushesFreed hp hhas => exact hb.moves hp rfl rfl
  | @notifiesOne x j pool woken hp hhas hpicks =>
    have hx := (s.rouse_stirs woken.toList).at hp (by simp [Point.Rests])
    exact (hb.stirs (s.rouse_stirs woken.toList) rfl rfl rfl).replies hx rfl
      (accepted_of_asks (h.fits.at hp).2).symm
  | notifiesFreed hp hhas => exact hb.moves hp rfl rfl
  | dozes hp hfree hstop hq => exact hb.moves hp rfl rfl
  | sleeps hp => exact hb.moves hp rfl rfl
  | wakes hp => exact hb.moves hp rfl rfl
  | @takes i j queue hp hfree hq =>
    obtain ⟨p, hbegin, hjob, hwaits⟩ :=
      begin_task (s := { s with queue }) (h.fits.queue j (by simp [hq])) i
    rw [hbegin]
    refine hb.takes hp hq hjob ?_
    rcases hwaits with rfl | ⟨msg, r, rfl⟩
    · rfl
    · rfl
  | leaves hp hfree hstop hq => exact hb.moves hp rfl rfl
  | @stops x j hp =>
    have hstopped : ({ s with stop := true } : State F T).Balanced := hb
    exact hstopped.moves hp rfl rfl
  | @notifiesAll x j hp =>
    have hx := (s.rouse_stirs (List.finRange 4)).at hp (by simp [Point.Rests])
    exact (hb.stirs (s.rouse_stirs _) rfl rfl rfl).moves hx rfl rfl
  | @join x j hp hall =>
    have hdestroyed : s.destroyed.Balanced := by
      intro d
      have hbefore := hb d
      change _ = (s.returned.filterMap (·.1.callback)).count d + tally _ s.point d + 0 +
        ((s.lost ++ s.queue).filterMap (·.callback)).count d
      rw [List.filterMap_append, List.count_append]
      exact hbefore.trans (by omega)
    have hsync : j.call.isAsync = false := by
      rw [(h.fits.at hp).2]
      rfl
    exact hdestroyed.replies hp rfl (accepted_of_not_async hsync).symm

def Point.Spared (threadPool : Bool) (pool : Nat) : Point F → Prop
  | .sending _ => threadPool = true
  | .pushing _ n => threadPool = true ∧ n = pool
  | .notifying _ n => threadPool = true ∧ n = pool
  | .faulted _ _ => False
  | _ => True

/-- What holds as long as no shutdown overtakes an asynchronous call. -/
structure State.Spared (s : State F T) : Prop where
  point : ∀ x, (s.point x).Spared s.gs.threadPool s.pool
  kept : s.queue ≠ [] → ∀ i, s.point (.worker i) ≠ .gone
  lost : s.lost = []

omit [DecidableEq T] [Mul F] [LT F] [DecidableLT F] [LE F] [DecidableLE F] in
theorem State.Sound.staffed (h : s.Sound) (hpool : s.gs.threadPool = true) (i : Fin 4) :
    s.point (.worker i) ≠ .gone := by
  cases h.phase with
  | absent hno =>
    rw [hno] at hpool
    cases hpool
  | running hp ha hs hg => exact hg i
  | ending hno =>
    rw [hno] at hpool
    cases hpool

section spared

omit [Mul F] [LT F] [DecidableLT F] [LE F] [DecidableLE F]

theorem State.Spared.next {t : State F T} (h : s.Spared) (hs : s.Stirs t)
    (hpoint : s'.point = update t.point x p) (hpool : s'.gs.threadPool = s.gs.threadPool)
    (hnumber : s'.pool = s.pool) (hp : p.Spared s.gs.threadPool s.pool)
    (hkept : s'.queue ≠ [] → (∀ i, s.point (.worker i) ≠ .gone) ∧ p ≠ .gone)
    (hlost : s'.lost = s.lost) : s'.Spared where
  point := by
    rw [hpoint, hpool, hnumber]
    refine forall_update (P := fun _ q ↦ q.Spared s.gs.threadPool s.pool) (fun y _ ↦ ?_) hp
    rw [hs.same (Point.Spared s.gs.threadPool s.pool) rfl rfl]
    exact h.point y
  kept := by
    intro hne i
    obtain ⟨hstay, hp⟩ := hkept hne
    rw [hpoint]
    by_cases hi : Thread.worker i = x
    · rwa [hi, update_self]
    · rw [update_of_ne hi]
      rcases hs (.worker i) with hsame | ⟨-, hout⟩
      · rw [hsame]
        exact hstay i
      · simp [hout]
  lost := hlost.trans h.lost

theorem State.Spared.moves (h : s.Spared) (hp : p.Spared s.gs.threadPool s.pool)
    (hgone : p ≠ .gone) : (s.moves x p).Spared :=
  h.next (fun _ ↦ .inl rfl) rfl rfl rfl hp (fun hne ↦ ⟨h.kept hne, hgone⟩) rfl

theorem State.Spared.replies (h : s.Spared) (j : Job F) (r : Reply F) :
    (s.replies x j r).Spared :=
  h.next (p := .outside) (fun _ ↦ .inl rfl) rfl rfl rfl trivial
    (fun hne ↦ ⟨h.kept hne, by simp⟩) rfl

theorem State.Spared.begin (h : s.Spared) (x : Thread T) (j : Job F) : (s.begin x j).Spared := by
  unfold State.begin
  split
  · exact h.replies _ _
  · exact h.moves trivial (by simp)
  · exact h.moves trivial (by simp)

omit [DecidableEq T] in
theorem Point.Spared.change {threadPool threadPool' : Bool} {n n' : Nat}
    (h : p.Spared threadPool n) (hp : threadPool = true → p.sends = false) :
    p.Spared threadPool' n' := by
  cases p with
  | sending j => cases hp h
  | pushing j pool => cases hp h.1
  | notifying j pool => cases hp h.1
  | faulted j b => exact h.elim
  | _ => trivial

omit [DecidableEq T] in
theorem State.Spared.becomes (h : s.Spared) {gs : GlobalState F}
    (hgs : gs.threadPool = s.gs.threadPool ∨ gs.threadPool = true) : (s.becomes gs).Spared := by
  unfold State.becomes
  split
  · next hspawn =>
    simp only [Bool.and_eq_true, Bool.not_eq_true'] at hspawn
    refine ⟨?_, fun _ i ↦ by simp, h.lost⟩
    rintro (t | i)
    · exact (h.point (.client t)).change (by simp [hspawn.2])
    · trivial
  · next hspawn =>
    have hpool : gs.threadPool = s.gs.threadPool := by
      rcases hgs with hsame | hnew
      · exact hsame
      · have hold : s.gs.threadPool = true := by simpa [hnew] using hspawn
        exact hnew.trans hold.symm
    refine ⟨fun y ↦ ?_, h.kept, h.lost⟩
    rw [show ({ s with gs } : State F T).gs.threadPool = s.gs.threadPool from hpool]
    exact h.point y

end spared

theorem spared_step (h : s.Sound) (hs : s.Spared) (hok : ¬Overtakes host s e)
    (hstep : Steps host s e s') : s'.Spared := by
  have hpresent {x : Thread T} {p : Point F} (hp : s.point x = p) :
      p.Spared s.gs.threadPool s.pool := hp ▸ hs.point x
  cases hstep with
  | call c hp => exact hs.begin _ _
  | @returns x j m gs r hp ho hin =>
    have hends := h.fits.ends hp hin
    cases hends with
    | returns hasync hr =>
      exact (hs.becomes (hr.pool.imp And.left And.left)).replies _ _
  | @fails x j m gs msg hp ho hin =>
    have hends := h.fits.ends hp hin
    have hgs : gs.threadPool = s.gs.threadPool ∨ gs.threadPool = true := by
      cases hends with
      | fails => exact .inl rfl
      | incomplete msg hinit hpool => exact .inr hpool
    have hbecomes := hs.becomes hgs
    have howned : ({ s.becomes gs with owner := some x } : State F T).Spared :=
      ⟨hbecomes.point, hbecomes.kept, hbecomes.lost⟩
    exact howned.moves trivial (by simp)
  | @joins x j m gs hp ho hin =>
    have hnobody (y : Thread T) : (s.point y).sends = false :=
      Bool.eq_false_of_not_eq_true fun hy ↦ hok ⟨⟨j, gs, hp, hin⟩, y, hy⟩
    have hended : ({ s with gs, owner := some x } : State F T).Spared :=
      ⟨fun y ↦ (hs.point y).change fun _ ↦ hnobody y, hs.kept, hs.lost⟩
    exact hended.moves trivial (by simp)
  | found hp ho hin => exact hs.moves trivial (by simp)
  | @report x msg j r hp ho =>
    have hstored : ({ s with gs := { s.gs with lastError := msg } } : State F T).Spared :=
      ⟨hs.point, hs.kept, hs.lost⟩
    exact hstored.replies _ _
  | available hp hpool => exact hs.moves hpool (by simp)
  | unavailable hp hpool => exact hs.moves trivial (by simp)
  | sends hp hpool => exact hs.moves ⟨hpool, rfl⟩ (by simp)
  | sendsNull hp hpool =>
    rw [show s.gs.threadPool = true from hpresent hp] at hpool
    cases hpool
  | @pushes x j pool hp hhas hfree =>
    have hfound := hpresent hp
    refine hs.next (fun _ ↦ .inl rfl) rfl rfl rfl hfound (fun _ ↦ ⟨?_, by simp⟩) rfl
    exact h.staffed hfound.1
  | pushesFreed hp hhas =>
    have hfound := hpresent hp
    exact absurd ⟨h.alive (.inr hfound.1), hfound.2⟩ hhas
  | @notifiesOne x j pool woken hp hhas hpicks =>
    exact hs.next (s.rouse_stirs _) rfl rfl rfl trivial (fun hne ↦ ⟨hs.kept hne, by simp⟩) rfl
  | notifiesFreed hp hhas =>
    have hfound := hpresent hp
    exact absurd ⟨h.alive (.inr hfound.1), hfound.2⟩ hhas
  | dozes hp hfree hstop hq => exact hs.moves trivial (by simp)
  | sleeps hp => exact hs.moves trivial (by simp)
  | wakes hp => exact hs.moves trivial (by simp)
  | @takes i j queue hp hfree hq =>
    have htaken : ({ s with queue } : State F T).Spared :=
      ⟨hs.point, fun _ ↦ hs.kept (by simp [hq]), hs.lost⟩
    exact htaken.begin _ _
  | leaves hp hfree hstop hq =>
    exact hs.next (fun _ ↦ .inl rfl) rfl rfl rfl trivial (fun hne ↦ absurd hq hne) rfl
  | @stops x j hp =>
    have hstopped : ({ s with stop := true } : State F T).Spared := ⟨hs.point, hs.kept, hs.lost⟩
    exact hstopped.moves trivial (by simp)
  | notifiesAll hp =>
    exact hs.next (s.rouse_stirs _) rfl rfl rfl trivial (fun hne ↦ ⟨hs.kept hne, by simp⟩) rfl
  | @join x j hp hall =>
    -- the workers have left an empty queue
    have hnil : s.queue = [] := by
      by_contra hne
      exact hs.kept hne 0 (hall 0)
    have hdestroyed : s.destroyed.Spared :=
      ⟨hs.point, by simp [State.destroyed], by simp [State.destroyed, hs.lost, hnil]⟩
    exact hdestroyed.replies _ _

/-- Whatever the threads do: each asynchronous call whose task came to the queue is told its end
once, or a worker still has the task, or it is still in the queue or was destroyed with it. Nothing
is destroyed, and no pool used that is not there, unless a shutdown overtakes a call. -/
theorem callbacks_balanced [Fintype T] (h : Run (Steps host) {} tr s) :
    (∀ d, (s.returned.filterMap accepted).count d + tally Point.unsettled s.point d =
      (s.returned.filterMap (·.1.callback)).count d + tally Point.callback s.point d +
        (s.queue.filterMap (·.callback)).count d + (s.lost.filterMap (·.callback)).count d) ∧
    ((∀ e ∈ tr, ¬Overtakes host e.1 e.2) → s.lost = [] ∧ ∀ x j b, s.point x ≠ .faulted j b) := by
  constructor
  · have hempty : ({} : State F T).Balanced := by
      intro d
      have hnobody (f : Point F → Option Nat) (hout : f .outside = none) (hgone : f .gone = none) :
          tally f ({} : State F T).point d = 0 := by
        refine Finset.sum_eq_zero fun x _ ↦ ?_
        cases x with
        | client t => exact congrArg (one d) hout
        | worker i => exact congrArg (one d) hgone
      rw [hnobody Point.unsettled rfl rfl, hnobody Point.callback rfl rfl]
      simp
    exact (h.invariant (I := fun s ↦ s.Sound ∧ s.Balanced)
      (fun s e s' hs hstep ↦ ⟨hs.1.step hstep, balanced_step hs.1 hs.2 hstep⟩)
      ⟨State.sound_initial, hempty⟩).2.2
  · intro hok
    have hempty : ({} : State F T).Spared := by
      refine ⟨?_, by simp, rfl⟩
      rintro (t | i)
      · trivial
      · trivial
    have hspared := (h.guarded (I := fun s ↦ s.Sound ∧ s.Spared)
      (fun s e s' hs hok hstep ↦ ⟨hs.1.step hstep, spared_step hs.1 hs.2 hok hstep⟩)
      ⟨State.sound_initial, hempty⟩ hok).2.2
    refine ⟨hspared.lost, fun x j b hx ↦ ?_⟩
    have hpoint := hspared.point x
    rwa [hx] at hpoint

def State.without (s : State F T) (l : List (Fin 4)) : State F T :=
  { s with point := fun x ↦ if x ∈ l.map Thread.worker then .gone else s.point x }

omit [Mul F] [LT F] [DecidableLT F] [LE F] [DecidableLE F] in
theorem without_cons (s : State F T) (i : Fin 4) (l : List (Fin 4)) :
    s.without (i :: l) = (s.without l).moves (.worker i) .gone := by
  simp only [State.without, State.moves]
  congr 1
  funext x
  by_cases hx : x = .worker i
  · subst hx
    simp
  · rw [update_of_ne hx]
    simp [hx]

theorem leave_all (h : Run (Steps host) {} tr s) (hstop : s.stop = true) (hnil : s.queue = [])
    (hout : ∀ i, s.point (.worker i) = .outside) {l : List (Fin 4)} (hl : l.Nodup) :
    ∃ tr, Run (Steps host) {} tr (s.without l) := by
  induction l with
  | nil =>
    have hsame : s.without [] = s := by simp [State.without]
    exact ⟨tr, hsame ▸ h⟩
  | cons i l ih =>
    obtain ⟨hi, hl⟩ := List.nodup_cons.mp hl
    obtain ⟨tr, hrun⟩ := ih hl
    rw [without_cons]
    have hstays : (s.without l).point (.worker i) = .outside :=
      (if_neg (by simpa using hi)).trans (hout i)
    refine ⟨_, hrun.append (.cons (.leaves hstays (fun k ↦ ?_) hstop hnil) (.nil _))⟩
    simp only [State.without, hout k]
    split <;> simp

/-- A shutdown overtakes an asynchronous call, whose task comes to the queue when the workers have
left. -/
theorem sample_overtaken : ∃ tr s, SampleRun tr s ∧ s.returned.filterMap accepted = [7] ∧
    s.lost.filterMap (·.callback) = [7] ∧ ∀ x, s.point x = .outside ∨ s.point x = .gone := by
  have hinit := SampleRun.call (.nil _) (t := true) .init rfl
  have hstart := SampleRun.returns hinit (t := true) (j := ⟨.init, none⟩) rfl rfl rfl
  have hcreate := SampleRun.call hstart (t := true)
    (.createSession (some { guidanceScale := 0 }) true) rfl
  have hmade := SampleRun.returns (t := true) hcreate rfl rfl rfl
  have hasync := SampleRun.call hmade (t := false) (.runAsync 1 [] (some 7)) rfl
  have hfound := hasync.append (.cons (.found (x := .client false) (m := sampleMoment)
    (j := ⟨.runAsync 1 [] (some 7), none⟩) rfl rfl rfl) (.nil _))
  have hlook := hfound.append (.cons (.available (x := .client false)
    (j := ⟨.runAsync 1 [] (some 7), none⟩) rfl rfl) (.nil _))
  have hsend := hlook.append (.cons (.sends (x := .client false)
    (j := ⟨.runAsync 1 [] (some 7), none⟩) rfl rfl) (.nil _))
  have hcall := SampleRun.call hsend (t := true) .shutdown rfl
  have hlock := hcall.append (.cons (.joins (x := .client true) (m := sampleMoment)
    (j := ⟨.shutdown, none⟩) rfl rfl rfl) (.nil _))
  have hstop := hlock.append (.cons (.stops (x := .client true) (j := ⟨.shutdown, none⟩) rfl)
    (.nil _))
  have hwake := hstop.append (.cons (.notifiesAll (x := .client true) (j := ⟨.shutdown, none⟩) rfl)
    (.nil _))
  obtain ⟨tr, hleft⟩ := leave_all hwake rfl rfl (fun i ↦ if_pos (List.mem_finRange i))
    (List.nodup_finRange 4)
  have hgone {p : Point ℚ} (i : Fin 4) :
      (if (.worker i : Thread Bool) ∈ (List.finRange 4).map .worker then .gone else p) = .gone :=
    if_pos (List.mem_map_of_mem (List.mem_finRange i))
  have hpush := hleft.append (.cons (.pushes (x := .client false)
    (j := ⟨.runAsync 1 [] (some 7), none⟩) rfl ⟨rfl, rfl⟩
    (fun i ↦ ne_of_eq_of_ne (hgone i) (by simp))) (.nil _))
  have hnotify := hpush.append (.cons (.notifiesOne (x := .client false)
    (j := ⟨.runAsync 1 [] (some 7), none⟩) rfl ⟨rfl, rfl⟩
    (show State.Picks _ none from fun i ↦ ne_of_eq_of_ne (hgone i) (by simp))) (.nil _))
  have hjoin := hnotify.append (.cons (.join (x := .client true) (j := ⟨.shutdown, none⟩) rfl
    (fun i ↦ hgone i)) (.nil _))
  refine ⟨_, _, hjoin, rfl, rfl, ?_⟩
  rintro (t | i)
  · cases t <;> exact .inl rfl
  · exact .inr (hgone i)

/-- The call is answered, and nobody ever hears of it. -/
theorem callbacks_balanced_lost : ∃ tr s, SampleRun tr s ∧
    (s.returned.filterMap accepted).count 7 = 1 ∧
    (s.returned.filterMap (·.1.callback)).count 7 = 0 ∧ ∃ e ∈ tr, Overtakes sampleHost e.1 e.2 := by
  obtain ⟨tr, s, hrun, haccepted, hlost, hleft⟩ := sample_overtaken
  have hnobody (f : Point ℚ → Option Nat) (hout : f .outside = none) (hgone : f .gone = none) :
      tally f s.point 7 = 0 := by
    refine Finset.sum_eq_zero fun x _ ↦ ?_
    rcases hleft x with hx | hx
    · rw [hx, hout]
      rfl
    · rw [hx, hgone]
      rfl
  have hcalls := callbacks_balanced hrun
  have hbalanced := hcalls.1 7
  rw [hnobody Point.unsettled rfl rfl, haccepted, hlost] at hbalanced
  refine ⟨tr, s, hrun, by rw [haccepted]; rfl, by simp at hbalanced; omega, ?_⟩
  by_contra hnone
  have hkept := (hcalls.2 fun e he hover ↦ hnone ⟨e, he, hover⟩).1
  rw [hkept] at hlost
  cases hlost

end steps

end Cerberus.Capi
