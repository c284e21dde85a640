import Mathlib

/-! Threads that lock and unlock mutexes, in any interleaving of their steps. -/

namespace Cerberus.Foundation.Mutex

open Function Relation

inductive LockStep (M : Type)
  | lock (m : M)
  | unlock (m : M)
  deriving DecidableEq

def LockStep.mutex {M : Type} : LockStep M → M
  | lock m => m
  | unlock m => m

/-- The steps that each thread has left, and the threads that hold the mutexes. -/
@[ext]
structure State (M T : Type) where
  left : T → List (LockStep M)
  owner : M → Option T

variable {M T : Type} [DecidableEq M] [DecidableEq T]

def initial (program : T → List (LockStep M)) : State M T where
  left := program
  owner := fun _ ↦ none

inductive Step : State M T → State M T → Prop
  | lock {s : State M T} {t : T} {m : M} {r : List (LockStep M)} (hl : s.left t = .lock m :: r)
      (hfree : s.owner m = none) :
      Step s { left := update s.left t r, owner := update s.owner m (some t) }
  | unlock {s : State M T} {t : T} {m : M} {r : List (LockStep M)}
      (hl : s.left t = .unlock m :: r) (howner : s.owner m = some t) :
      Step s { left := update s.left t r, owner := update s.owner m none }

def Reachable (program : T → List (LockStep M)) (s : State M T) : Prop :=
  ReflTransGen Step (initial program) s

def State.WaitsFor (s : State M T) (t u : T) : Prop :=
  ∃ m r, s.left t = .lock m :: r ∧ s.owner m = some u ∧ t ≠ u

def State.Deadlocked (s : State M T) : Prop :=
  ∃ W : Set T, W.Nonempty ∧ ∀ t ∈ W, ∃ u ∈ W, s.WaitsFor t u

def nextOf (m : M) (l : List (LockStep M)) : Option (LockStep M) := l.find? (fun a ↦ a.mutex = m)

/-- A locked mutex is next unlocked, and an unlocked one is not next unlocked. -/
def Paired : List (LockStep M) → Prop
  | [] => True
  | .lock m :: r => nextOf m r = some (.unlock m) ∧ Paired r
  | .unlock m :: r => nextOf m r ≠ some (.unlock m) ∧ Paired r

structure Balanced (l : List (LockStep M)) : Prop where
  paired : Paired l
  outside : ∀ m, nextOf m l ≠ some (.unlock m)

/-- Somewhere in its steps a thread holds one mutex while it locks another one. -/
def Nests (l : List (LockStep M)) (held wanted : M) : Prop :=
  ∃ r, .lock wanted :: r <:+ l ∧ nextOf held (.lock wanted :: r) = some (.unlock held)

variable {program : T → List (LockStep M)} {s s' : State M T} {t u : T} {m k : M}
  {a : LockStep M} {l r : List (LockStep M)}

@[simp] theorem nextOf_lock (m : M) (r : List (LockStep M)) :
    nextOf m (.lock m :: r) = some (.lock m) := by
  simp [nextOf, LockStep.mutex]

@[simp] theorem nextOf_unlock (m : M) (r : List (LockStep M)) :
    nextOf m (.unlock m :: r) = some (.unlock m) := by
  simp [nextOf, LockStep.mutex]

theorem nextOf_ne (h : a.mutex ≠ m) (r : List (LockStep M)) : nextOf m (a :: r) = nextOf m r := by
  simp [nextOf, h]

theorem nests_cons : Nests (a :: l) m k ↔
    (a = .lock k ∧ nextOf m (a :: l) = some (.unlock m)) ∨ Nests l m k := by
  constructor
  · rintro ⟨r, hr, hnext⟩
    rcases List.suffix_cons_iff.mp hr with heq | hr
    · obtain ⟨rfl, rfl⟩ := List.cons.inj heq
      exact .inl ⟨rfl, hnext⟩
    · exact .inr ⟨r, hr, hnext⟩
  · rintro (⟨rfl, hnext⟩ | ⟨r, hr, hnext⟩)
    · exact ⟨l, List.suffix_refl _, hnext⟩
    · exact ⟨r, hr.trans (List.suffix_cons a l), hnext⟩

theorem not_nests_nil : ¬Nests ([] : List (LockStep M)) m k := by
  rintro ⟨r, hr, -⟩
  exact absurd (List.suffix_nil.mp hr) (List.cons_ne_nil _ _)

theorem Balanced.nil : Balanced ([] : List (LockStep M)) where
  paired := trivial
  outside := by simp [nextOf]

theorem Balanced.single (h : Balanced l) (m : M) : Balanced (.lock m :: .unlock m :: l) where
  paired := ⟨nextOf_unlock m l, h.outside m, h.paired⟩
  outside := by
    intro k
    by_cases hk : k = m
    · subst hk
      simp
    · rw [nextOf_ne (a := .lock m) (Ne.symm hk), nextOf_ne (a := .unlock m) (Ne.symm hk)]
      exact h.outside k

theorem Balanced.nests_single (h : Balanced l) {n : M}
    (hn : Nests (.lock n :: .unlock n :: l) m k) : Nests l m k := by
  rw [nests_cons, nests_cons] at hn
  rcases hn with ⟨-, hnext⟩ | ⟨hlock, -⟩ | hn
  · exact absurd hnext ((h.single n).outside m)
  · cases hlock
  · exact hn

theorem Balanced.nested (h : Balanced l) {o i : M} (hne : o ≠ i) :
    Balanced (.lock o :: .lock i :: .unlock i :: .unlock o :: l) where
  paired := by
    refine ⟨?_, nextOf_unlock i _, ?_, h.outside o, h.paired⟩
    · rw [nextOf_ne (a := .lock i) hne.symm, nextOf_ne (a := .unlock i) hne.symm, nextOf_unlock]
    · rw [nextOf_ne (a := .unlock o) hne]
      exact h.outside i
  outside := by
    intro k
    by_cases ho : k = o
    · subst ho
      simp
    · rw [nextOf_ne (a := .lock o) (Ne.symm ho)]
      by_cases hi : k = i
      · subst hi
        simp
      · rw [nextOf_ne (a := .lock i) (Ne.symm hi), nextOf_ne (a := .unlock i) (Ne.symm hi),
          nextOf_ne (a := .unlock o) (Ne.symm ho)]
        exact h.outside k

theorem Balanced.nests_nested (h : Balanced l) {o i : M} (hne : o ≠ i)
    (hn : Nests (.lock o :: .lock i :: .unlock i :: .unlock o :: l) m k) :
    m = o ∧ k = i ∨ Nests l m k := by
  rw [nests_cons, nests_cons, nests_cons, nests_cons] at hn
  rcases hn with ⟨-, hnext⟩ | ⟨hlock, hnext⟩ | ⟨hlock, -⟩ | ⟨hlock, -⟩ | hn
  · exact absurd hnext ((h.nested hne).outside m)
  · cases hlock
    by_cases ho : m = o
    · exact .inl ⟨ho, rfl⟩
    · by_cases hk : m = k
      · subst hk
        simp at hnext
      · rw [nextOf_ne (a := .lock k) (Ne.symm hk), nextOf_ne (a := .unlock k) (Ne.symm hk),
          nextOf_ne (a := .unlock o) (Ne.symm ho)] at hnext
        exact absurd hnext (h.outside m)
  · cases hlock
  · cases hlock
  · exact .inr hn

/-- The invariant of the runs: a thread holds what it is to unlock next. -/
structure Consistent (program : T → List (LockStep M)) (s : State M T) : Prop where
  suffix : ∀ t, s.left t <:+ program t
  paired : ∀ t, Paired (s.left t)
  owner : ∀ t m, s.owner m = some t ↔ nextOf m (s.left t) = some (.unlock m)

omit [DecidableEq T] in
theorem consistent_initial (h : ∀ t, Balanced (program t)) :
    Consistent program (initial program) where
  suffix := fun t ↦ List.suffix_refl _
  paired := fun t ↦ (h t).paired
  owner := by
    intro t m
    constructor
    · intro howner
      cases howner
    · intro hnext
      exact absurd hnext ((h t).outside m)

theorem Consistent.advance (hc : Consistent program s) (hl : s.left t = a :: r) {o : Option T}
    (ho : ∀ u, o = some u ↔ nextOf a.mutex (update s.left t r u) = some (.unlock a.mutex)) :
    Consistent program { left := update s.left t r, owner := update s.owner a.mutex o } where
  suffix := by
    intro u
    change update s.left t r u <:+ program u
    by_cases hu : u = t
    · subst hu
      rw [update_self]
      exact (List.suffix_cons a r).trans (hl ▸ hc.suffix u)
    · rw [update_of_ne hu]
      exact hc.suffix u
  paired := by
    intro u
    change Paired (update s.left t r u)
    by_cases hu : u = t
    · subst hu
      have hpaired := hc.paired u
      rw [hl] at hpaired
      rw [update_self]
      cases a with
      | lock m => exact hpaired.2
      | unlock m => exact hpaired.2
    · rw [update_of_ne hu]
      exact hc.paired u
  owner := by
    intro u k
    change update s.owner a.mutex o k = some u ↔ nextOf k (update s.left t r u) = some (.unlock k)
    by_cases hk : k = a.mutex
    · subst hk
      rw [update_self]
      exact ho u
    · rw [update_of_ne hk, hc.owner u k]
      by_cases hu : u = t
      · subst hu
        rw [update_self, hl, nextOf_ne (Ne.symm hk)]
      · rw [update_of_ne hu]

theorem consistent_step (hc : Consistent program s) (h : Step s s') : Consistent program s' := by
  cases h with
  | @lock t m r hl hfree =>
    have hpaired := hc.paired t
    rw [hl] at hpaired
    apply hc.advance (a := .lock m) hl
    intro u
    by_cases hu : u = t
    · subst hu
      rw [update_self]
      exact iff_of_true rfl hpaired.1
    · rw [update_of_ne hu, LockStep.mutex, ← hc.owner u m, hfree]
      exact iff_of_false (fun he ↦ hu (Option.some.inj he).symm)
        (fun he ↦ Option.some_ne_none u he.symm)
  | @unlock t m r hl hheld =>
    have hpaired := hc.paired t
    rw [hl] at hpaired
    apply hc.advance (a := .unlock m) hl
    intro u
    by_cases hu : u = t
    · subst hu
      rw [update_self]
      exact iff_of_false (fun he ↦ Option.some_ne_none u he.symm) hpaired.1
    · rw [update_of_ne hu, LockStep.mutex, ← hc.owner u m, hheld]
      exact iff_of_false (fun he ↦ Option.some_ne_none u he.symm)
        (fun he ↦ hu (Option.some.inj he).symm)

theorem consistent_reachable (h : ∀ t, Balanced (program t)) (hs : Reachable program s) :
    Consistent program s := by
  induction hs with
  | refl => exact consistent_initial h
  | tail _ hstep ih => exact consistent_step ih hstep

omit [DecidableEq T] in
/-- A thread that others wait for nests what they wait for with what it waits for itself. -/
theorem Consistent.nests (hc : Consistent program s) (hheld : s.owner m = some u)
    (hl : s.left u = .lock k :: r) : Nests (program u) m k :=
  ⟨r, hl ▸ hc.suffix u, hl ▸ (hc.owner u m).mp hheld⟩

theorem run_alone (hl : s.left t = l ++ r) (hp : Paired l)
    (ho : ∀ m, s.owner m = if nextOf m l = some (.unlock m) then some t else none) :
    ReflTransGen Step s { left := update s.left t r, owner := fun _ ↦ none } := by
  induction l generalizing s with
  | nil =>
    have hs : s = { left := update s.left t r, owner := fun _ ↦ none } := by
      apply State.ext
      · rw [← List.nil_append r, ← hl, update_eq_self]
      · funext m
        simp [ho, nextOf]
    rw [← hs]
  | cons a l ih =>
    -- what the steps after this one need of the owners
    have hnext (o : Option T)
        (hm : o = if nextOf a.mutex l = some (.unlock a.mutex) then some t else none) (k : M) :
        update s.owner a.mutex o k = if nextOf k l = some (.unlock k) then some t else none := by
      by_cases hk : k = a.mutex
      · subst hk
        rw [update_self, hm]
      · rw [update_of_ne hk, ho, nextOf_ne (Ne.symm hk)]
    cases a with
    | lock m =>
      have hfree : s.owner m = none := by simp [ho]
      have hrest := @ih { left := update s.left t (l ++ r), owner := update s.owner m (some t) }
        (update_self _ _ _) hp.2 (hnext (some t) (by simp [LockStep.mutex, hp.1]))
      rw [update_idem] at hrest
      exact ReflTransGen.head (Step.lock hl hfree) hrest
    | unlock m =>
      have hheld : s.owner m = some t := by simp [ho]
      have hrest := @ih { left := update s.left t (l ++ r), owner := update s.owner m none }
        (update_self _ _ _) hp.2 (hnext none (by simp [LockStep.mutex, hp.1]))
      rw [update_idem] at hrest
      exact ReflTransGen.head (Step.unlock hl hheld) hrest

end Cerberus.Foundation.Mutex
