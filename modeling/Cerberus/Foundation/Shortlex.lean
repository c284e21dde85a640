import Mathlib.Data.List.MinMax
import Mathlib.Data.List.Lex
import Mathlib.Data.Prod.Lex

namespace Cerberus.Foundation.Shortlex

variable {α : Type} [LinearOrder α] {p q : List α} {a b : α} {l : List (List α)}

/-- Shorter lists come first, and lists of one length in the lexicographic order. -/
def place (p : List α) : Nat ×ₗ List α := toLex (p.length, p)

def latest (l : List (List α)) : List α := (l.argmax place).getD []

omit [LinearOrder α] in
theorem place_injective : Function.Injective (place (α := α)) := by
  intro p q h
  exact congrArg Prod.snd (congrArg ofLex h)

theorem place_lt : place p < place q ↔ p.length < q.length ∨ p.length = q.length ∧ p < q :=
  Prod.Lex.toLex_lt_toLex

theorem place_lt_append (p : List α) (a : α) : place p < place (p ++ [a]) :=
  place_lt.mpr (.inl (by simp))

theorem append_lt_append (hlen : p.length = q.length) (h : p < q) : p ++ [a] < q ++ [b] := by
  induction p generalizing q with
  | nil =>
    obtain rfl := List.eq_nil_of_length_eq_zero hlen.symm
    exact absurd h (lt_irrefl _)
  | cons x p ih =>
    cases q with
    | nil => simp at hlen
    | cons y q =>
      rw [List.cons_append, List.cons_append]
      rcases List.cons_lt_cons_iff.mp h with hxy | ⟨hxy, hpq⟩
      · exact List.cons_lt_cons_iff.mpr (.inl hxy)
      · exact List.cons_lt_cons_iff.mpr (.inr ⟨hxy, ih (Nat.succ_injective hlen) hpq⟩)

theorem place_append_lt (h : place p < place q) : place (p ++ [a]) < place (q ++ [b]) := by
  rcases place_lt.mp h with hlen | ⟨hlen, hlt⟩
  · exact place_lt.mpr (.inl (by simpa using hlen))
  · exact place_lt.mpr (.inr ⟨by simpa using hlen, append_lt_append hlen hlt⟩)

theorem place_append_lt_append (p : List α) (h : a < b) : place (p ++ [a]) < place (p ++ [b]) := by
  refine place_lt.mpr (.inr ⟨by simp, ?_⟩)
  induction p with
  | nil => exact List.cons_lt_cons_iff.mpr (.inl h)
  | cons x p ih => exact List.cons_lt_cons_iff.mpr (.inr ⟨rfl, ih⟩)

theorem place_nil_lt (h : p ≠ []) : place [] < place p :=
  place_lt.mpr (.inl (List.length_pos_iff.mpr h))

@[simp] theorem latest_nil : latest ([] : List (List α)) = [] := rfl

theorem le_latest (hp : p ∈ l) : place p ≤ place (latest l) := by
  obtain ⟨q, hq⟩ : ∃ q, l.argmax place = some q := by
    refine Option.ne_none_iff_exists'.mp (fun hnone ↦ ?_)
    rw [List.argmax_eq_none.mp hnone] at hp
    contradiction
  rw [latest, hq, Option.getD_some]
  exact List.le_of_mem_argmax hp hq

theorem latest_mem (hp : p ∈ l) : latest l ∈ l := by
  cases hq : l.argmax place with
  | none =>
    rw [List.argmax_eq_none.mp hq] at hp
    contradiction
  | some q =>
    rw [latest, hq, Option.getD_some]
    exact List.argmax_mem hq

theorem latest_eq (hp : p ∈ l) (h : ∀ q ∈ l, place q ≤ place p) : latest l = p :=
  place_injective (le_antisymm (h _ (latest_mem hp)) (le_latest hp))

end Cerberus.Foundation.Shortlex
