import Mathlib.Logic.Function.Basic

namespace Cerberus.Foundation.Digest

open Function

variable {S A : Type} {step : S → A → S}

/-- A digest whose steps lose nothing of the state loses nothing of it altogether. -/
theorem foldl_injective (hstate : ∀ a, Injective (step · a)) (l : List A) :
    Injective (l.foldl step) := by
  induction l with
  | nil => exact injective_id
  | cons a l ih => exact ih.comp (hstate a)

/-- If its steps lose nothing of the letters either, a change of one letter always shows. -/
theorem foldl_ne_of_existsUnique (hstate : ∀ a, Injective (step · a))
    (hletter : ∀ s, Injective (step s)) {l l' : List A} (hlen : l'.length = l.length)
    (h : ∃! i : Nat, l'[i]? ≠ l[i]?) (s : S) : l'.foldl step s ≠ l.foldl step s := by
  induction l generalizing l' s with
  | nil =>
    obtain ⟨i, hi, -⟩ := h
    rw [List.eq_nil_of_length_eq_zero hlen] at hi
    exact absurd rfl hi
  | cons a l ih =>
    obtain ⟨a', l', rfl⟩ := List.exists_cons_of_length_eq_add_one hlen
    have hlen' : l'.length = l.length := Nat.succ.inj hlen
    obtain ⟨i, hi, hunique⟩ := h
    cases i with
    | zero =>
      -- the letters after the first agree, so the lists do
      have htail : l' = l := by
        refine List.ext_getElem? (fun j ↦ ?_)
        by_contra hj
        exact absurd (hunique (j + 1) (by simpa using hj)) (Nat.succ_ne_zero j)
      have hhead : a' ≠ a := by simpa using hi
      rw [List.foldl_cons, List.foldl_cons, htail]
      exact fun he ↦ hhead (hletter s (foldl_injective hstate l he))
    | succ i =>
      have hhead : a' = a := by
        by_contra ha
        exact absurd (hunique 0 (by simpa using ha)) (Nat.succ_ne_zero i).symm
      rw [List.foldl_cons, List.foldl_cons, hhead]
      refine ih hlen' ⟨i, by simpa using hi, ?_⟩ (step s a)
      intro j hj
      exact Nat.succ.inj (hunique (j + 1) (by simpa using hj))

end Cerberus.Foundation.Digest
