import Mathlib

/-! Sorting by a key, the largest first, with nothing said about the order of equal keys. -/

namespace Cerberus.Foundation

variable {α K : Type} [LinearOrder K]

structure DescendingSort (key : α → K) where
  sort : List α → List α
  perm : ∀ l, (sort l).Perm l
  sorted : ∀ l, (sort l).Pairwise (fun a b ↦ key b ≤ key a)

namespace DescendingSort

def stable (key : α → K) : DescendingSort key where
  sort := fun l ↦ l.mergeSort (fun a b ↦ decide (key b ≤ key a))
  perm := fun l ↦ List.mergeSort_perm l _
  sorted := by
    intro l
    have h := @List.pairwise_mergeSort α (fun a b ↦ decide (key b ≤ key a))
      (fun a b c hab hbc ↦ by
        simp only [decide_eq_true_eq] at hab hbc ⊢
        exact hbc.trans hab)
      (fun a b ↦ by
        simp only [Bool.or_eq_true, decide_eq_true_eq]
        exact le_total _ _) l
    exact h.imp (fun hab ↦ of_decide_eq_true hab)

variable {key : α → K} (S : DescendingSort key) (l : List α) (n : Nat)

theorem take_drop_perm : ((S.sort l).take n ++ (S.sort l).drop n).Perm l := by
  rw [List.take_append_drop]
  exact S.perm l

theorem take_sorted : ((S.sort l).take n).Pairwise (fun a b ↦ key b ≤ key a) :=
  (S.sorted l).sublist (List.take_sublist _ _)

theorem drop_le_take {a b : α} (ha : a ∈ (S.sort l).take n) (hb : b ∈ (S.sort l).drop n) :
    key b ≤ key a := by
  have h := S.sorted l
  rw [← List.take_append_drop n (S.sort l), List.pairwise_append] at h
  exact h.2.2 a ha b hb

end DescendingSort

end Cerberus.Foundation
