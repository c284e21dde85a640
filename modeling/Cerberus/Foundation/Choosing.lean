import Mathlib.Data.List.MinMax
import Mathlib.Data.List.Nodup
import Mathlib.Data.List.Perm.Subperm
import Mathlib.Data.Nat.ModEq
import Mathlib.Data.Set.Function
import Mathlib.Order.Interval.Set.Defs

namespace Cerberus.Foundation.Choosing

/-- Where a counter with `m` values, which starts with `r`, points to among `n` places after `i`
steps. -/
def place (m n r i : Nat) : Nat := (r + i) % m % n

variable {α : Type} {m n r i j : Nat} {l l' : List α}

/-- A loop that keeps what is larger than all before it, and its value, ends with the first of the
largest, if that is larger than the value it has started with. -/
theorem foldl_best {ι K : Type} [LinearOrder K] (f : α → K) (id : α → ι) (start : ι) (low : K) (l : List α) :
    l.foldl (fun best a ↦ if best.2 < f a then (id a, f a) else best) (start, low) =
      ((l.argmax f).filter (fun a ↦ low < f a)).elim (start, low) (fun a ↦ (id a, f a)) := by
  induction l using List.reverseRecOn with
  | nil => rfl
  | append_singleton l a ih =>
    rw [List.foldl_concat, ih, List.argmax_concat]
    cases l.argmax f with
    | none => by_cases hlow : low < f a <;> simp [Option.filter_some, hlow]
    | some c =>
      by_cases hlt : f c < f a
      · by_cases hc : low < f c
        · simp [Option.filter_some, hc, hlt, hc.trans hlt]
        · by_cases hlow : low < f a <;> simp [Option.filter_some, hc, hlow, hlt]
      · by_cases hc : low < f c
        · simp [Option.filter_some, hc, hlt]
        · have hlow : ¬ low < f a := fun h ↦ hlt ((not_lt.mp hc).trans_lt h)
          simp [Option.filter_some, hc, hlow, hlt]

theorem place_lt (hn : 0 < n) : place m n r i < n := Nat.mod_lt _ hn

theorem place_succ : place m n ((r + 1) % m) i = place m n r (i + 1) := by
  unfold place
  rw [Nat.mod_add_mod, Nat.add_right_comm, Nat.add_assoc]

theorem place_injOn_of_mod (h : ∀ i < n, place m n r i = (r + i) % n) :
    Set.InjOn (place m n r) (Set.Iio n) := by
  intro i hi j hj hij
  rw [h i hi, h j hj] at hij
  have hmod : i ≡ j [MOD n] := Nat.ModEq.add_left_cancel' r hij
  exact hmod.eq_of_lt_of_lt hi hj

/-- A counter goes round evenly exactly as long as it does not overflow, or where the number of
places divides the number of its values. -/
theorem place_injOn_iff (hr : r < m) :
    Set.InjOn (place m n r) (Set.Iio n) ↔ r + n ≤ m ∨ n ∣ m := by
  constructor
  · intro hinj
    by_contra hno
    push Not at hno
    obtain ⟨hover, hdvd⟩ := hno
    have hn : 0 < n := by omega
    have hc : 0 < m % n := Nat.pos_of_ne_zero (fun h ↦ hdvd (Nat.dvd_of_mod_eq_zero h))
    have hcn : m % n < n := Nat.mod_lt m hn
    have hcm : m % n ≤ m := Nat.mod_le m n
    have hblock : n ∣ m - m % n := Nat.dvd_sub_mod m
    by_cases hlow : m % n ≤ m - r
    · -- the start of the last, incomplete round and the start after the overflow
      have h₀ : place m n r (m - m % n - r) = 0 := by
        unfold place
        have hlt : m - m % n < m := by omega
        rw [Nat.add_sub_of_le (by omega), Nat.mod_eq_of_lt hlt]
        exact Nat.mod_eq_zero_of_dvd hblock
      have h₁ : place m n r (m - r) = 0 := by
        unfold place
        rw [Nat.add_sub_of_le hr.le, Nat.mod_self, Nat.zero_mod]
      have := hinj (Set.mem_Iio.mpr (by omega)) (Set.mem_Iio.mpr (by omega)) (h₀.trans h₁.symm)
      omega
    · -- the first place, and the one that the incomplete round is too short for
      have h₀ : place m n r 0 = r % n := by
        unfold place
        rw [Nat.add_zero, Nat.mod_eq_of_lt hr]
      have h₁ : place m n r (m % n) = r % n := by
        unfold place
        have hwrap : (r + m % n) % m = r + m % n - m := by
          rw [Nat.mod_eq_sub_mod (by omega), Nat.mod_eq_of_lt (by omega)]
        rw [hwrap]
        have hsplit : r = r + m % n - m + (m - m % n) := by omega
        have hmod : r % n = (r + m % n - m + (m - m % n)) % n := congrArg (· % n) hsplit
        rw [hmod, Nat.add_mod, Nat.mod_eq_zero_of_dvd hblock, Nat.add_zero, Nat.mod_mod]
      have := hinj (Set.mem_Iio.mpr hn) (Set.mem_Iio.mpr hcn) (h₀.trans h₁.symm)
      omega
  · rintro (hfit | hdvd)
    · apply place_injOn_of_mod
      intro i hi
      have hlt : r + i < m := by omega
      rw [place, Nat.mod_eq_of_lt hlt]
    · apply place_injOn_of_mod
      intro i hi
      exact Nat.mod_mod_of_dvd _ hdvd

theorem nodup_iff_injOn (hl : l.Nodup) (hlen : l'.length = l.length)
    (hget : ∀ i < l.length, l'[i]? = l[place m l.length r i]?) :
    l'.Nodup ↔ Set.InjOn (place m l.length r) (Set.Iio l.length) := by
  rw [List.nodup_iff_getElem?_ne_getElem?, hlen]
  constructor
  · intro hne i hi j hj hij
    have heq : l'[i]? = l'[j]? := by rw [hget i hi, hget j hj, hij]
    rcases Nat.lt_trichotomy i j with hlt | rfl | hgt
    · exact absurd heq (hne i j hlt hj)
    · rfl
    · exact absurd heq.symm (hne j i hgt hi)
  · intro hinj i j hij hj heq
    have hi : i < l.length := by omega
    rw [hget i hi, hget j hj] at heq
    have := hinj hi hj ((List.getElem?_inj (place_lt (by omega)) hl).mp heq)
    omega

/-- The elements that a counter picks out of a list, one for each of its places, are those of the
list. -/
theorem perm_iff (hl : l.Nodup) (hlen : l'.length = l.length)
    (hget : ∀ i < l.length, l'[i]? = l[place m l.length r i]?) (hr : r < m) :
    l'.Perm l ↔ r + l.length ≤ m ∨ l.length ∣ m := by
  rw [← place_injOn_iff hr, ← nodup_iff_injOn hl hlen hget]
  constructor
  · exact fun hp ↦ hp.nodup_iff.mpr hl
  · intro hnodup
    have hsub : l' ⊆ l := by
      intro a ha
      obtain ⟨i, hi⟩ := List.mem_iff_getElem?.mp ha
      obtain ⟨hlt, -⟩ := List.getElem?_eq_some_iff.mp hi
      rw [hget i (by omega)] at hi
      exact List.mem_of_getElem? hi
    exact (List.subperm_of_subset hnodup hsub).perm_of_length_le hlen.ge

end Cerberus.Foundation.Choosing
