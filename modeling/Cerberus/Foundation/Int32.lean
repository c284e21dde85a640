import Mathlib.Algebra.BigOperators.Group.Finset.Basic
import Mathlib.Algebra.Order.Group.Abs
import Mathlib.Algebra.Order.Ring.Int

namespace Cerberus.Foundation.Int32

/-- An integer is one of `int32_t`. -/
def Fits (z : Int) : Prop := -2 ^ 31 ≤ z ∧ z < 2 ^ 31

instance (z : Int) : Decidable (Fits z) := inferInstanceAs (Decidable (_ ∧ _))

def int32 (z : Int) : Option Int := if Fits z then some z else none

/-- A sum added up in an `int32_t`; no value on the way is without representation. -/
def runningSum (n : Nat) (term : Nat → Option Int) : Option Int :=
  (List.range n).foldlM (fun acc l ↦ do
    let p ← term l
    int32 (acc + p)) 0

theorem fits_of_abs_le {z : Int} (h : |z| ≤ 2 ^ 31 - 1) : Fits z := by
  have hle := abs_le.mp h
  exact ⟨by omega, by omega⟩

theorem int32_of_fits {z : Int} (h : Fits z) : int32 z = some z := if_pos h

@[simp] theorem int32_eq_some {z w : Int} : int32 z = some w ↔ Fits z ∧ z = w := by
  unfold int32
  split
  · simp [*]
  · simp [*]

theorem runningSum_eq_some {n : Nat} {term : Nat → Option Int} {ok : Nat → Prop} {v : Nat → Int}
    {s : Int} (hterm : ∀ l < n, ∀ p, term l = some p ↔ ok l ∧ v l = p) :
    runningSum n term = some s ↔
      (∀ l < n, ok l) ∧ (∀ r ≤ n, Fits (∑ l ∈ Finset.range r, v l)) ∧
        ∑ l ∈ Finset.range n, v l = s := by
  induction n generalizing s with
  | zero =>
    have hzero : Fits 0 := ⟨by decide, by decide⟩
    simp [runningSum, hzero]
  | succ n ih =>
    have hpre (s : Int) := ih (s := s) (fun l hl ↦ hterm l (by omega))
    have hstep : runningSum (n + 1) term =
        (runningSum n term).bind (fun acc ↦ (term n).bind (fun p ↦ int32 (acc + p))) := by
      simp [runningSum, List.range_succ]
    rw [hstep]
    simp only [Option.bind_eq_some_iff, hpre, hterm n (by omega), int32_eq_some,
      Finset.sum_range_succ]
    constructor
    · rintro ⟨_, ⟨hok, hfits, rfl⟩, _, ⟨hn, rfl⟩, hsum, hs⟩
      refine ⟨fun l hl ↦ ?_, fun r hr ↦ ?_, hs⟩
      · rcases Nat.lt_succ_iff_lt_or_eq.mp hl with hl | rfl
        · exact hok l hl
        · exact hn
      · rcases Nat.lt_or_eq_of_le hr with hr | rfl
        · exact hfits r (by omega)
        · rwa [Finset.sum_range_succ]
    · rintro ⟨hok, hfits, hs⟩
      have hlast := hfits (n + 1) le_rfl
      rw [Finset.sum_range_succ] at hlast
      exact ⟨_, ⟨fun l hl ↦ hok l (by omega), fun r hr ↦ hfits r (by omega), rfl⟩, _,
        ⟨hok n (by omega), rfl⟩, hlast, hs⟩

end Cerberus.Foundation.Int32
