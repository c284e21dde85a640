import Mathlib.Logic.Function.Basic
import Mathlib.Data.Option.Basic
import Mathlib.Logic.Equiv.Basic

namespace Cerberus.Foundation.Ownership

open Function

variable {K A B : Type}

/-- The occupied cells of a store are exactly those a family of references points to, and
no two references point to the same cell. -/
structure Owns (ref : K → Option A) (mem : A → Option B) : Prop where
  live : ∀ {k p}, ref k = some p → (mem p).isSome
  owned : ∀ {p}, (mem p).isSome → ∃ k, ref k = some p
  unique : ∀ {k k' p}, ref k = some p → ref k' = some p → k = k'

namespace Owns

variable {ref : K → Option A} {mem mem' : A → Option B} {k : K} {p : A}

theorem empty : Owns (fun _ : K ↦ (none : Option A)) (fun _ ↦ (none : Option B)) :=
  ⟨by simp, by simp, by simp⟩

theorem congr (h : Owns ref mem) (hm : ∀ p, (mem' p).isSome = (mem p).isSome) :
    Owns ref mem' :=
  ⟨fun hr ↦ by rw [hm]; exact h.live hr, fun hp ↦ h.owned (by rwa [← hm]), h.unique⟩

theorem reindex {K' : Type} (h : Owns ref mem) (e : K' ≃ K) : Owns (fun k ↦ ref (e k)) mem where
  live := h.live
  owned := by
    intro p hp
    obtain ⟨k, hk⟩ := h.owned hp
    exact ⟨e.symm k, by rwa [e.apply_symm_apply]⟩
  unique := fun hk hk' ↦ e.injective (h.unique hk hk')

theorem option (h : Owns ref mem) : Owns (fun k : Option K ↦ k.bind ref) mem where
  live := by
    intro k p hk
    obtain ⟨j, _, hj⟩ := Option.bind_eq_some_iff.mp hk
    exact h.live hj
  owned := by
    intro p hp
    obtain ⟨k, hk⟩ := h.owned hp
    exact ⟨some k, hk⟩
  unique := by
    intro k k' p hk hk'
    obtain ⟨j, rfl, hj⟩ := Option.bind_eq_some_iff.mp hk
    obtain ⟨j', rfl, hj'⟩ := Option.bind_eq_some_iff.mp hk'
    rw [h.unique hj hj']

variable [DecidableEq K] [DecidableEq A]

theorem claim (h : Owns ref mem) (hk : ref k = none) (hp : mem p = none) (b : B) :
    Owns (update ref k (some p)) (update mem p (some b)) where
  live := by
    intro j q hj
    by_cases hq : q = p
    · simp [hq]
    · rw [update_of_ne hq]
      by_cases hjk : j = k
      · subst j
        simp only [update_self, Option.some.injEq] at hj
        exact absurd hj.symm hq
      · exact h.live (by rwa [update_of_ne hjk] at hj)
  owned := by
    intro q hq
    by_cases hqp : q = p
    · exact ⟨k, by simp [hqp]⟩
    · rw [update_of_ne hqp] at hq
      obtain ⟨j, hj⟩ := h.owned hq
      have hjk : j ≠ k := by rintro rfl; simp [hk] at hj
      exact ⟨j, by rwa [update_of_ne hjk]⟩
  unique := by
    intro j j' q hj hj'
    have hfresh : ∀ i, ref i ≠ some p := by
      intro i hi
      have := h.live hi
      simp [hp] at this
    by_cases hjk : j = k <;> by_cases hjk' : j' = k
    · rw [hjk, hjk']
    · subst j
      rw [update_self, Option.some.injEq] at hj
      rw [update_of_ne hjk'] at hj'
      exact absurd (hj ▸ hj') (hfresh j')
    · subst j'
      rw [update_self, Option.some.injEq] at hj'
      rw [update_of_ne hjk] at hj
      exact absurd (hj' ▸ hj) (hfresh j)
    · rw [update_of_ne hjk] at hj
      rw [update_of_ne hjk'] at hj'
      exact h.unique hj hj'

theorem drop (h : Owns ref mem) (hk : ref k = some p) :
    Owns (update ref k none) (update mem p none) where
  live := by
    intro j q hj
    have hjk : j ≠ k := by rintro rfl; simp at hj
    rw [update_of_ne hjk] at hj
    have hq : q ≠ p := by rintro rfl; exact hjk (h.unique hj hk)
    rw [update_of_ne hq]
    exact h.live hj
  owned := by
    intro q hq
    have hqp : q ≠ p := by rintro rfl; simp at hq
    rw [update_of_ne hqp] at hq
    obtain ⟨j, hj⟩ := h.owned hq
    have hjk : j ≠ k := by
      rintro rfl
      rw [hk, Option.some.injEq] at hj
      exact hqp hj.symm
    exact ⟨j, by rwa [update_of_ne hjk]⟩
  unique := by
    intro j j' q hj hj'
    have hjk : j ≠ k := by rintro rfl; simp at hj
    have hjk' : j' ≠ k := by rintro rfl; simp at hj'
    rw [update_of_ne hjk] at hj
    rw [update_of_ne hjk'] at hj'
    exact h.unique hj hj'

end Owns

end Cerberus.Foundation.Ownership
