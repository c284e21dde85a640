import Mathlib.Algebra.BigOperators.Group.List.Basic
import Mathlib.Data.List.Forall2
import Mathlib.Tactic.Ring

namespace Cerberus.Foundation.RowMajor

abbrev InRange (dims is : List ℕ) : Prop := List.Forall₂ (· < ·) is dims

/-- The position of an index in a box whose last coordinate runs fastest. -/
def position : List ℕ → List ℕ → ℕ
  | _ :: dims, i :: is => i * dims.prod + position dims is
  | _, _ => 0

variable {dims is js : List ℕ}

theorem position_lt (h : InRange dims is) : position dims is < dims.prod := by
  induction h with
  | nil => exact Nat.one_pos
  | @cons i d is dims hi _ ih =>
    calc i * dims.prod + position dims is < i * dims.prod + dims.prod := Nat.add_lt_add_left ih _
      _ = (i + 1) * dims.prod := by ring
      _ ≤ d * dims.prod := Nat.mul_le_mul_right _ hi
      _ = (d :: dims).prod := List.prod_cons.symm

theorem position_injective (h : InRange dims is) (h' : InRange dims js)
    (heq : position dims is = position dims js) : is = js := by
  induction h generalizing js with
  | nil => exact (List.forall₂_nil_right_iff.mp h').symm
  | @cons i d is dims hi hrest ih =>
    cases h' with
    | @cons j _ js _ hj hrest' =>
      have hlt := position_lt hrest
      have hlt' := position_lt hrest'
      rw [position, position] at heq
      have hdiv := congrArg (· / dims.prod) heq
      have hmod := congrArg (· % dims.prod) heq
      simp only [Nat.mul_comm _ dims.prod, Nat.mul_add_div (Nat.zero_lt_of_lt hlt),
        Nat.mul_add_mod, Nat.div_eq_of_lt hlt, Nat.div_eq_of_lt hlt', Nat.mod_eq_of_lt hlt,
        Nat.mod_eq_of_lt hlt', Nat.add_zero] at hdiv hmod
      rw [hdiv, ih hrest' hmod]

theorem position_surjective {k : ℕ} (h : k < dims.prod) :
    ∃ is, InRange dims is ∧ position dims is = k := by
  induction dims generalizing k with
  | nil =>
    obtain rfl : k = 0 := Nat.lt_one_iff.mp h
    exact ⟨[], .nil, rfl⟩
  | cons d dims ih =>
    rw [List.prod_cons] at h
    have hpos : 0 < dims.prod := Nat.pos_of_ne_zero fun hzero ↦ by simp [hzero] at h
    obtain ⟨is, his, hposition⟩ := ih (Nat.mod_lt k hpos)
    refine ⟨k / dims.prod :: is, .cons ((Nat.div_lt_iff_lt_mul hpos).mpr h) his, ?_⟩
    rw [position, hposition, Nat.mul_comm, Nat.div_add_mod]

end Cerberus.Foundation.RowMajor
