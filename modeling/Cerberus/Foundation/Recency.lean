import Mathlib.Data.List.Nodup

namespace Cerberus.Foundation.Recency

variable {α : Type} [DecidableEq α]

def touch (a : α) (l : List α) : List α := a :: l.erase a

variable {a b c v : α} {l : List α} {n : Nat}

@[simp] theorem mem_touch : b ∈ touch a l ↔ b = a ∨ b ∈ l := by
  rw [touch, List.mem_cons]
  by_cases h : b = a
  · simp [h]
  · simp [h, List.mem_erase_of_ne h]

theorem nodup_touch (h : l.Nodup) : (touch a l).Nodup :=
  List.nodup_cons.mpr ⟨h.not_mem_erase, h.erase a⟩

@[simp] theorem idxOf_touch_self : (touch a l).idxOf a = 0 := List.idxOf_cons_self

theorem idxOf_touch_pos (h : b ≠ a) : 0 < (touch a l).idxOf b := by
  rw [touch, List.idxOf_cons_ne _ h.symm]
  exact Nat.succ_pos _

theorem idxOf_erase_lt (hb : b ≠ a) (hc : c ≠ a) :
    (l.erase a).idxOf b < (l.erase a).idxOf c ↔ l.idxOf b < l.idxOf c := by
  induction l with
  | nil => rfl
  | cons x l ih =>
    by_cases hx : x = a
    · rw [hx, List.erase_cons_head, List.idxOf_cons_ne _ hb.symm, List.idxOf_cons_ne _ hc.symm]
      exact Nat.succ_lt_succ_iff.symm
    · rw [List.erase_cons_tail (by simpa using hx)]
      by_cases hxc : x = c
      · rw [hxc, List.idxOf_cons_self, List.idxOf_cons_self]
        exact iff_of_false (Nat.not_lt_zero _) (Nat.not_lt_zero _)
      · rw [List.idxOf_cons_ne _ hxc, List.idxOf_cons_ne _ hxc]
        by_cases hxb : x = b
        · rw [hxb, List.idxOf_cons_self, List.idxOf_cons_self]
          exact iff_of_true (Nat.succ_pos _) (Nat.succ_pos _)
        · rw [List.idxOf_cons_ne _ hxb, List.idxOf_cons_ne _ hxb, Nat.succ_lt_succ_iff,
            Nat.succ_lt_succ_iff, ih]

theorem idxOf_touch_lt (hb : b ≠ a) (hc : c ≠ a) :
    (touch a l).idxOf b < (touch a l).idxOf c ↔ l.idxOf b < l.idxOf c := by
  rw [touch, List.idxOf_cons_ne _ hb.symm, List.idxOf_cons_ne _ hc.symm, Nat.succ_lt_succ_iff,
    idxOf_erase_lt hb hc]

theorem mem_take_touch (h : a ∈ l.take n) : b ∈ (touch a l).take n ↔ b ∈ l.take n := by
  induction l generalizing n with
  | nil => simp at h
  | cons x l ih =>
    cases n with
    | zero => simp at h
    | succ n =>
      by_cases hx : x = a
      · simp [hx, touch]
      · have ha : a ∈ l.take n := by
          rw [List.take_succ_cons, List.mem_cons] at h
          exact h.resolve_left (Ne.symm hx)
        have hrest := ih ha
        cases n with
        | zero => simp at ha
        | succ n =>
          rw [touch, List.take_succ_cons, List.mem_cons] at hrest
          rw [touch, List.erase_cons_tail (by simpa using hx), List.take_succ_cons,
            List.take_succ_cons, List.mem_cons, List.mem_cons, or_left_comm, hrest,
            List.take_succ_cons (a := x), List.mem_cons]

theorem take_touch (h : a ∉ l.take n) : (touch a l).take (n + 1) = a :: l.take n := by
  rw [touch, List.take_succ_cons]
  congr 1
  induction l generalizing n with
  | nil => rfl
  | cons x l ih =>
    cases n with
    | zero => simp
    | succ n =>
      rw [List.take_succ_cons, List.mem_cons, not_or] at h
      rw [List.erase_cons_tail (by simpa using Ne.symm h.1), List.take_succ_cons,
        List.take_succ_cons, ih h.2]

theorem mem_take (h : n ≤ l.length) : b ∈ l.take n ↔ l.idxOf b < n := by
  by_cases hb : b ∈ l
  · exact List.mem_take_iff_idxOf_lt hb
  · have hlen := List.idxOf_of_notMem hb
    exact ⟨fun hmem ↦ absurd (List.mem_of_mem_take hmem) hb, fun hlt ↦ by omega⟩

/-- One of the most recent is the last of them if the others are what is left without it. -/
theorem mem_take_pred_iff (hn : l.Nodup) (hlen : n < l.length) (hv : v ∈ l.take (n + 1)) :
    (∀ b, b ∈ l.take n ↔ b ∈ l.take (n + 1) ∧ b ≠ v) ↔
      ∀ b ∈ l.take (n + 1), l.idxOf b ≤ l.idxOf v := by
  have hv' := (mem_take hlen).mp hv
  constructor
  · intro h b hb
    have hb' := (mem_take hlen).mp hb
    have hlow : ¬ l.idxOf v < n := by
      intro hlow
      exact ((h v).mp ((mem_take (Nat.le_of_lt hlen)).mpr hlow)).2 rfl
    omega
  · intro h b
    have hlast := h l[n] ((mem_take hlen).mpr (by rw [hn.idxOf_getElem]; omega))
    rw [hn.idxOf_getElem] at hlast
    have hmem : v ∈ l := List.mem_of_mem_take hv
    rw [mem_take (Nat.le_of_lt hlen), mem_take hlen]
    constructor
    · intro hb
      refine ⟨by omega, ?_⟩
      intro he
      rw [he] at hb
      omega
    · intro hb
      have hne : l.idxOf v ≠ l.idxOf b := fun he ↦ hb.2 ((List.idxOf_inj hmem).mp he).symm
      omega

end Cerberus.Foundation.Recency
