import Mathlib.Algebra.Order.Floor.Ring
import Mathlib.Algebra.Order.Field.Basic
import Mathlib.Tactic.Linarith

namespace Cerberus.Foundation.Rounding

variable {K : Type} [Field K] [LinearOrder K] [FloorRing K]

/-- The nearest integer; of two that are equally near, the one further from zero. -/
def roundAway (x : K) : Int := if 0 ≤ x then ⌊x + 1 / 2⌋ else -⌊-x + 1 / 2⌋

/-- The nearest integer, but not more than so many steps above the rounded lower end. -/
def level (steps : Nat) (lo x : K) : Int := min (roundAway x) (roundAway lo + steps)

variable [IsStrictOrderedRing K] {lo x y : K} {steps : Nat}

theorem roundAway_le (x : K) : (roundAway x : K) ≤ x + 1 / 2 := by
  unfold roundAway
  split
  · exact Int.floor_le _
  · have hlt := Int.lt_floor_add_one (-x + 1 / 2)
    push_cast
    linarith

theorem le_roundAway (x : K) : x - 1 / 2 ≤ roundAway x := by
  unfold roundAway
  split
  · have hlt := Int.lt_floor_add_one (x + 1 / 2)
    linarith
  · have hle := Int.floor_le (-x + 1 / 2)
    push_cast
    linarith

@[simp] theorem roundAway_zero : roundAway (0 : K) = 0 := by
  unfold roundAway
  rw [if_pos le_rfl, zero_add, Int.floor_eq_iff]
  norm_num

theorem roundAway_neg (x : K) : roundAway (-x) = -roundAway x := by
  rcases lt_trichotomy x 0 with hx | rfl | hx
  · unfold roundAway
    rw [if_pos (by linarith), if_neg (by linarith), neg_neg]
  · rw [neg_zero, roundAway_zero, neg_zero]
  · unfold roundAway
    rw [if_neg (by linarith), if_pos hx.le, neg_neg]

theorem roundAway_mono (h : x ≤ y) : roundAway x ≤ roundAway y := by
  unfold roundAway
  split
  · rename_i hx
    rw [if_pos (hx.trans h)]
    exact Int.floor_le_floor (by linarith)
  · rename_i hx
    have hneg : -⌊-x + 1 / 2⌋ ≤ 0 := by
      rw [neg_nonpos]
      exact Int.floor_nonneg.mpr (by linarith)
    split
    · exact hneg.trans (Int.floor_nonneg.mpr (by linarith))
    · exact neg_le_neg (Int.floor_le_floor (by linarith))

theorem roundAway_le_level (h : lo ≤ x) : roundAway lo ≤ level steps lo x :=
  le_min (roundAway_mono h) (by omega)

omit [IsStrictOrderedRing K] in
theorem level_le (lo x : K) : level steps lo x ≤ roundAway lo + steps := min_le_right _ _

theorem level_error (hx : x ≤ lo + steps) : |(level steps lo x : K) - x| ≤ 1 / 2 := by
  have hle := roundAway_le x
  have hge := le_roundAway x
  have hlo := le_roundAway lo
  rw [abs_le]
  rcases le_total (roundAway x) (roundAway lo + steps) with h | h
  · rw [level, min_eq_left h]
    constructor <;> linarith
  · -- The rounded upper end can be one step too high; then the step below it is as near.
    have hcast : ((roundAway lo + steps : Int) : K) ≤ roundAway x := Int.cast_le.mpr h
    rw [level, min_eq_right h]
    push_cast at hcast ⊢
    constructor <;> linarith

end Cerberus.Foundation.Rounding
