import Mathlib.Data.List.Nodup
import Mathlib.Order.Basic

namespace Cerberus.Foundation.Precedence

variable {α β : Type} {x y : α}

theorem pair_sublist_cons {z : α} {l : List α} :
    [x, y].Sublist (z :: l) ↔ [x, y].Sublist l ∨ x = z ∧ y ∈ l := by
  rw [List.sublist_cons_iff]
  simp

theorem pair_sublist_append {l l' : List α} : [x, y].Sublist (l ++ l') ↔
    [x, y].Sublist l ∨ [x, y].Sublist l' ∨ x ∈ l ∧ y ∈ l' := by
  induction l with
  | nil => simp
  | cons z l ih =>
    rw [List.cons_append, pair_sublist_cons, pair_sublist_cons, ih]
    simp only [List.mem_append, List.mem_cons]
    tauto

theorem pair_sublist_flatMap {f : β → List α} {l : List β} : [x, y].Sublist (l.flatMap f) ↔
    (∃ k k', [k, k'].Sublist l ∧ x ∈ f k ∧ y ∈ f k') ∨ ∃ k ∈ l, [x, y].Sublist (f k) := by
  induction l with
  | nil => simp
  | cons z l ih =>
    rw [List.flatMap_cons, pair_sublist_append, ih]
    simp only [pair_sublist_cons, List.mem_flatMap, List.mem_cons, exists_eq_or_imp]
    constructor
    · rintro (h | (⟨k, k', hk, hx, hy⟩ | h) | ⟨hx, k', hk', hy⟩)
      · exact .inr (.inl h)
      · exact .inl ⟨k, k', .inl hk, hx, hy⟩
      · exact .inr (.inr h)
      · exact .inl ⟨z, k', .inr ⟨rfl, hk'⟩, hx, hy⟩
    · rintro (⟨k, k', hk | ⟨rfl, hk⟩, hx, hy⟩ | h | h)
      · exact .inr (.inl (.inl ⟨k, k', hk, hx, hy⟩))
      · exact .inr (.inr ⟨hx, k', hk, hy⟩)
      · exact .inl h
      · exact .inr (.inl (.inr h))

theorem pair_sublist_filter {p : α → Bool} {l : List α} : [x, y].Sublist (l.filter p) ↔
    [x, y].Sublist l ∧ p x = true ∧ p y = true := by
  constructor
  · intro h
    have hx := List.mem_filter.mp (h.subset (by simp : x ∈ [x, y]))
    have hy := List.mem_filter.mp (h.subset (by simp : y ∈ [x, y]))
    exact ⟨h.trans List.filter_sublist, hx.2, hy.2⟩
  · rintro ⟨h, hx, hy⟩
    have hfilter := h.filter p
    simpa [hx, hy] using hfilter

theorem mem_before_iff {pre post : List α} (hn : (pre ++ y :: post).Nodup) :
    x ∈ pre ↔ [x, y].Sublist (pre ++ y :: post) := by
  rw [pair_sublist_append, pair_sublist_cons]
  rw [List.nodup_append] at hn
  obtain ⟨-, hpost, hdisjoint⟩ := hn
  have hy : y ∉ post := (List.nodup_cons.mp hpost).1
  constructor
  · exact fun hx ↦ .inr (.inr ⟨hx, by simp⟩)
  · rintro (h | (h | ⟨rfl, h⟩) | ⟨hx, -⟩)
    · exact absurd rfl (hdisjoint y (h.subset (by simp)) y (by simp))
    · exact absurd (h.subset (by simp)) hy
    · exact absurd h hy
    · exact hx

theorem mem_before_iff_lt {κ : Type} [Preorder κ] {r : α → κ} {pre post : List α}
    (h : (pre ++ y :: post).Pairwise (fun a b ↦ r a < r b)) (hx : x ∈ pre ++ y :: post) :
    x ∈ pre ↔ r x < r y := by
  obtain ⟨-, hpost, hpre⟩ := List.pairwise_append.mp h
  constructor
  · exact fun hx ↦ hpre x hx y (by simp)
  · intro hlt
    rcases List.mem_append.mp hx with hx | hx
    · exact hx
    · rcases List.mem_cons.mp hx with rfl | hx
      · exact absurd hlt (lt_irrefl _)
      · exact absurd hlt ((List.pairwise_cons.mp hpost).1 x hx).asymm

theorem pair_sublist_trans {z : α} {l : List α} (hn : l.Nodup) (h : [x, y].Sublist l)
    (h' : [y, z].Sublist l) : [x, z].Sublist l := by
  obtain ⟨pre, post, rfl⟩ := List.append_of_mem (h'.subset (by simp : z ∈ [y, z]))
  obtain ⟨pre, mid, rfl⟩ := List.append_of_mem ((mem_before_iff hn).mpr h')
  refine (mem_before_iff hn).mp ?_
  rw [List.append_assoc, List.cons_append] at hn h
  exact List.mem_append_left _ ((mem_before_iff hn).mpr h)

theorem not_pair_sublist_self {l : List α} (hn : l.Nodup) : ¬[x, x].Sublist l := by
  intro h
  exact absurd (hn.sublist h) (by simp)

end Cerberus.Foundation.Precedence
