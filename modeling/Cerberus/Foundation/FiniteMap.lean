import Mathlib

namespace Cerberus.Foundation.FiniteMap

open Std

variable {K V : Type} [Ord K] [TransOrd K] [LawfulEqOrd K]

theorem get_insert [DecidableEq K] (m : ExtTreeMap K V) (k j : K) (v : V) :
    (m.insert k v)[j]? = if k = j then some v else m[j]? := by
  simp only [ExtTreeMap.getElem?_insert, Std.compare_eq_iff_eq]

theorem insert_eq_self [DecidableEq K] {m : ExtTreeMap K V} {k : K} {v : V} :
    m.insert k v = m ↔ m[k]? = some v := by
  constructor
  · intro h
    rw [← h, get_insert, if_pos rfl]
  · intro h
    apply ExtTreeMap.ext_getElem?
    intro j
    rw [get_insert]
    split
    · next he => rw [← he, h]
    · rfl

theorem get_erase [DecidableEq K] (m : ExtTreeMap K V) (k j : K) :
    (m.erase k)[j]? = if k = j then none else m[j]? := by
  simp only [ExtTreeMap.getElem?_erase, Std.compare_eq_iff_eq]

theorem erase_absent [DecidableEq K] {m : ExtTreeMap K V} {k : K} (hk : m[k]? = none) :
    m.erase k = m := by
  apply ExtTreeMap.ext_getElem?
  intro j
  rw [get_erase]
  split
  · next he => rw [← he, hk]
  · rfl

theorem insertIfNew_fresh (m : ExtTreeMap K V) {k : K} (v : V) (hk : m[k]? = none) :
    m.insertIfNew k v = m.insert k v := by
  apply ExtTreeMap.ext_getElem?
  intro j
  have hm : k ∉ m := by
    rw [ExtTreeMap.mem_iff_isSome_getElem?, hk]
    simp
  rw [ExtTreeMap.getElem?_insertIfNew, ExtTreeMap.getElem?_insert]
  exact if_congr (and_iff_left hm) rfl rfl

theorem get_foldl_insert [DecidableEq K] {E : Type} (key : E → K) (value : E → V) (l : List E)
    (m : ExtTreeMap K V) (k : K) : (l.foldl (fun m e ↦ m.insert (key e) (value e)) m)[k]? =
      ((l.reverse.find? (fun e ↦ key e = k)).map value).or m[k]? := by
  induction l using List.reverseRecOn with
  | nil => rfl
  | append_singleton l e ih =>
    rw [List.foldl_append, List.foldl_cons, List.foldl_nil, get_insert, List.reverse_append,
      List.reverse_singleton, List.singleton_append, List.find?_cons, ih]
    by_cases he : key e = k
    · simp [he]
    · simp [he]

theorem length_le_size {m : ExtTreeMap K V} {l : List K} (hl : l.Nodup) (h : ∀ k ∈ l, k ∈ m) :
    l.length ≤ m.size := by
  rw [← ExtTreeMap.length_keys]
  exact (hl.subperm (fun k hk ↦ ExtTreeMap.mem_keys.mpr (h k hk))).length_le

theorem size_eq_length {m : ExtTreeMap K V} {l : List K} (hl : l.Nodup) (h : ∀ k, k ∈ m ↔ k ∈ l) :
    m.size = l.length := by
  rw [← ExtTreeMap.length_keys]
  exact ((List.perm_ext_iff_of_nodup ExtTreeMap.nodup_keys hl).mpr
    (fun k ↦ ExtTreeMap.mem_keys.trans (h k))).length_eq

theorem toList_nodup (m : ExtTreeMap K V) : m.toList.Nodup := by
  apply m.distinct_keys_toList.imp
  rintro a b hab rfl
  exact hab ReflCmp.compare_self

theorem toList_insert_perm (m : ExtTreeMap K V) {k : K} (v : V) (hk : m[k]? = none) :
    (m.insert k v).toList.Perm ((k, v) :: m.toList) := by
  have hfresh : (k, v) ∉ m.toList := by
    rw [ExtTreeMap.mem_toList_iff_getElem?_eq_some, hk]
    simp
  rw [List.perm_ext_iff_of_nodup (toList_nodup _) (List.nodup_cons.mpr ⟨hfresh, toList_nodup m⟩)]
  rintro ⟨j, w⟩
  simp only [ExtTreeMap.mem_toList_iff_getElem?_eq_some, ExtTreeMap.getElem?_insert,
    List.mem_cons, Prod.mk.injEq, Std.compare_eq_iff_eq]
  by_cases hj : k = j
  · subst j
    simp [hk, eq_comm]
  · simp [hj, Ne.symm hj]

theorem get_insertMany_toList (m other : ExtTreeMap K V) (k : K) :
    (m.insertMany other.toList)[k]? = other[k]?.or m[k]? := by
  classical
  let _ : BEq K := instBEqOfDecidableEq
  cases hk : other[k]? with
  | none =>
    have habsent : (other.toList.map Prod.fst).contains k = false := by
      rw [ExtTreeMap.map_fst_toList_eq_keys, ExtTreeMap.contains_keys,
        ExtTreeMap.contains_eq_isSome_getElem?, hk]
      exact Option.isSome_none
    rw [ExtTreeMap.getElem?_insertMany_list_of_contains_eq_false habsent]
    rfl
  | some v =>
    exact ExtTreeMap.getElem?_insertMany_list_of_mem ReflCmp.compare_self
      other.distinct_keys_toList (ExtTreeMap.mem_toList_iff_getElem?_eq_some.mpr hk)

theorem insertMany_toList (m : ExtTreeMap K V) :
    (∅ : ExtTreeMap K V).insertMany m.toList = m := by
  apply ExtTreeMap.ext_getElem?
  intro k
  rw [get_insertMany_toList]
  simp

def weigh (w : K → V → Nat) (m : ExtTreeMap K V) : Nat :=
  (m.toList.map (fun e ↦ w e.1 e.2)).sum

variable (w : K → V → Nat)

omit [LawfulEqOrd K] in
@[simp] theorem weigh_empty : weigh w (∅ : ExtTreeMap K V) = 0 := by
  simp [weigh, ExtTreeMap.toList_eq_nil_iff.mpr rfl]

theorem weigh_insert_fresh (m : ExtTreeMap K V) {k : K} (v : V) (hk : m[k]? = none) :
    weigh w (m.insert k v) = w k v + weigh w m := by
  have h := ((toList_insert_perm m v hk).map (fun e ↦ w e.1 e.2)).sum_eq
  simpa [weigh] using h

theorem insert_erase_self (m : ExtTreeMap K V) {k : K} {v : V} (hk : m[k]? = some v) :
    (m.erase k).insert k v = m := by
  apply ExtTreeMap.ext_getElem?
  intro j
  rw [ExtTreeMap.getElem?_insert, ExtTreeMap.getElem?_erase]
  by_cases hj : k = j
  · subst j; simp [hk]
  · simp [hj]

theorem weigh_erase (m : ExtTreeMap K V) {k : K} {v : V} (hk : m[k]? = some v) :
    w k v + weigh w (m.erase k) = weigh w m := by
  have h := weigh_insert_fresh w (m.erase k) v (k := k) (by simp)
  rw [insert_erase_self m hk] at h
  exact h.symm

theorem weigh_insert_over (m : ExtTreeMap K V) {k : K} {v : V} (v' : V) (hk : m[k]? = some v) :
    w k v + weigh w (m.insert k v') = w k v' + weigh w m := by
  have hi : m.insert k v' = (m.erase k).insert k v' := by
    apply ExtTreeMap.ext_getElem?
    intro j
    rw [ExtTreeMap.getElem?_insert, ExtTreeMap.getElem?_insert, ExtTreeMap.getElem?_erase]
    by_cases hj : k = j
    · simp [hj]
    · simp [hj]
  have h := weigh_insert_fresh w (m.erase k) v' (k := k) (by simp)
  have h' := weigh_erase w m hk
  rw [hi, h]
  omega

end Cerberus.Foundation.FiniteMap
