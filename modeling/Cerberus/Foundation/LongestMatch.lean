import Mathlib

/-! Covering a text from the left by the longest known pieces. -/

namespace Cerberus.Foundation.LongestMatch

variable {α : Type} {known : List α → Prop} {p w : List α} {ps qs : List (List α)}

structure Longest (known : List α → Prop) (p w : List α) : Prop where
  ne_nil : p ≠ []
  begins : p <+: w
  isKnown : known p
  longest : ∀ q, q ≠ [] → q <+: w → known q → q.length ≤ p.length

/-- A covering takes the longest known piece, or a single letter where no piece is known. -/
inductive Covers (known : List α → Prop) : List α → List (List α) → Prop
  | nil : Covers known [] []
  | longest {p w : List α} {ps : List (List α)} (hp : Longest known p (p ++ w))
      (h : Covers known w ps) : Covers known (p ++ w) (p :: ps)
  | single {a : α} {w : List α} {ps : List (List α)} (ha : ∀ q, ¬ Longest known q (a :: w))
      (h : Covers known w ps) : Covers known (a :: w) ([a] :: ps)

theorem Covers.flatten_eq (h : Covers known w ps) : ps.flatten = w := by
  induction h with
  | nil => rfl
  | longest hp h ih => rw [List.flatten_cons, ih]
  | single ha h ih => rw [List.flatten_cons, ih, List.singleton_append]

theorem Longest.unique {q : List α} (hp : Longest known p w) (hq : Longest known q w) : p = q := by
  have hle := hq.longest p hp.ne_nil hp.begins hp.isKnown
  have hge := hp.longest q hq.ne_nil hq.begins hq.isKnown
  exact (List.prefix_of_prefix_length_le hp.begins hq.begins hle).eq_of_length_le hge

theorem Covers.unique (h : Covers known w ps) (h' : Covers known w qs) : ps = qs := by
  induction h generalizing qs with
  | nil =>
    generalize hw : ([] : List α) = v at h'
    cases h' with
    | nil => rfl
    | longest hp _ => simp [hp.ne_nil] at hw
    | single => cases hw
  | @longest p w ps hp h ih =>
    generalize hw : p ++ w = v at h'
    cases h' with
    | nil => simp [hp.ne_nil] at hw
    | @longest q v qs hq h' =>
      have he : p = q := hp.unique (hw ▸ hq)
      subst he
      rw [List.append_cancel_left hw] at ih
      rw [ih h']
    | @single a v qs ha h' => exact absurd (hw ▸ hp) (ha p)
  | @single a w ps ha h ih =>
    generalize hw : a :: w = v at h'
    cases h' with
    | nil => cases hw
    | @longest q v qs hq h' => exact absurd (hw ▸ hq) (ha q)
    | single hb h' =>
      cases hw
      rw [ih h']

/-- A search through all of the lengths that keeps the last one it likes finds the greatest. -/
theorem foldl_eq_findGreatest (P : Nat → Prop) [DecidablePred P] (n : Nat) :
    (List.range n).foldl (fun best i ↦ if P (i + 1) then i + 1 else best) 0 =
      Nat.findGreatest P n := by
  induction n with
  | zero => rfl
  | succ n ih => rw [List.range_succ, List.foldl_append, ih, Nat.findGreatest_succ]; rfl

variable [DecidablePred known]

theorem longest_take (h : 0 < Nat.findGreatest (fun n ↦ known (w.take n)) w.length) :
    Longest known (w.take (Nat.findGreatest (fun n ↦ known (w.take n)) w.length)) w where
  ne_nil := by
    have hw : w ≠ [] := by
      rintro rfl
      simp at h
    simp [hw, h.ne']
  begins := List.take_prefix _ _
  isKnown := by
    obtain ⟨n, -, hle, hn⟩ := Nat.findGreatest_pos.mp h
    exact Nat.findGreatest_spec (P := fun n ↦ known (w.take n)) hle hn
  longest := by
    intro q hne hq hknown
    rw [List.prefix_iff_eq_take] at hq
    rw [hq] at hknown
    have hle : q.length ≤ w.length := by
      rw [hq]
      exact List.length_take_le' _ _
    rw [List.length_take, min_eq_left (Nat.findGreatest_le _)]
    exact Nat.le_findGreatest hle hknown

theorem not_longest (h : Nat.findGreatest (fun n ↦ known (w.take n)) w.length = 0)
    (q : List α) : ¬ Longest known q w := by
  intro hq
  have htake := List.prefix_iff_eq_take.mp hq.begins
  apply Nat.findGreatest_eq_zero_iff.mp h (List.length_pos_iff.mpr hq.ne_nil) hq.begins.length_le
  exact htake ▸ hq.isKnown

end Cerberus.Foundation.LongestMatch
