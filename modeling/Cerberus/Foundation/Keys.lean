import Cerberus.Foundation.FiniteMap

namespace Cerberus.Foundation.Keys

open Std FiniteMap

section numbered

variable {K V : Type} [Ord K] [TransOrd K] {name : Nat → K} {m m' : ExtTreeMap K V} {k : K} {v : V}

/-- Every numbered name in use has a number below the size of the map. -/
def NamesBelow (name : Nat → K) (m : ExtTreeMap K V) : Prop := ∀ j, name j ∈ m → j < m.size

def Adds (name : Nat → K) (m m' : ExtTreeMap K V) : Prop := ∃ v, m' = m.insert (name m.size) v

theorem namesBelow_empty : NamesBelow name (∅ : ExtTreeMap K V) := fun j hj ↦ by simp at hj

theorem NamesBelow.free (h : NamesBelow name m) : name m.size ∉ m :=
  fun hm ↦ (h m.size hm).false

theorem size_insert_absent (hk : k ∉ m) : (m.insert k v).size = m.size + 1 := by
  simp [ExtTreeMap.size_insert, hk]

theorem size_insert_present (hk : k ∈ m) : (m.insert k v).size = m.size := by
  simp [ExtTreeMap.size_insert, hk]

theorem Adds.extends (h : Adds name m m') (hfree : name m.size ∉ m) :
    m'.size = m.size + 1 ∧ ∀ (k : K) (v : V), m[k]? = some v → m'[k]? = some v := by
  obtain ⟨v, rfl⟩ := h
  refine ⟨size_insert_absent hfree, fun k w hk ↦ ?_⟩
  rw [ExtTreeMap.getElem?_insert, if_neg, hk]
  intro he
  have hmem : k ∈ m := by
    rw [ExtTreeMap.mem_iff_isSome_getElem?, hk]
    rfl
  exact hfree ((ExtTreeMap.mem_congr he).mpr hmem)

variable [LawfulEqOrd K]

theorem NamesBelow.insert_iff (h : NamesBelow name m) :
    NamesBelow name (m.insert k v) ↔ ∀ j, name j = k → j ≤ m.size := by
  constructor
  · rintro hi j rfl
    have hlt := hi j (by simp)
    by_cases hk : name j ∈ m
    · exact (h j hk).le
    · rw [size_insert_absent hk] at hlt
      omega
  · intro hk j hj
    rcases ExtTreeMap.mem_insert.mp hj with he | hj
    · have hname : name j = k := (Std.compare_eq_iff_eq.mp he).symm
      by_cases hm : k ∈ m
      · rw [size_insert_present hm]
        exact h j (hname ▸ hm)
      · rw [size_insert_absent hm]
        exact Nat.lt_succ_of_le (hk j hname)
    · exact (h j hj).trans_le ExtTreeMap.size_le_size_insert

theorem Adds.namesBelow (hname : Function.Injective name) (h : Adds name m m')
    (hm : NamesBelow name m) : NamesBelow name m' := by
  obtain ⟨v, rfl⟩ := h
  exact hm.insert_iff.mpr (fun j hj ↦ (hname hj).le)

/-- In a system that can always add, the names are below the size exactly when no sequence of
additions comes to a name that is in use. -/
theorem namesBelow_iff_free {σ : Type} {R : σ → σ → Prop} {f : σ → ExtTreeMap K V}
    (hname : Function.Injective name) (hadds : ∀ s t, R s t → Adds name (f s) (f t))
    (htotal : ∀ s, ∃ t, R s t) (s : σ) :
    NamesBelow name (f s) ↔
      ∀ t, Relation.ReflTransGen R s t → name (f t).size ∉ f t := by
  constructor
  · intro h t hr
    have hbelow : NamesBelow name (f t) := by
      induction hr with
      | refl => exact h
      | tail _ ht ih => exact (hadds _ _ ht).namesBelow hname ih
    exact hbelow.free
  · intro h j hj
    by_contra hge
    obtain ⟨d, hd⟩ := Nat.exists_eq_add_of_le (Nat.not_lt.mp hge)
    clear hge
    -- the name is taken, and each addition brings the size one closer to it
    induction d generalizing s with
    | zero => exact h s .refl (by simpa [hd] using hj)
    | succ d ih =>
      obtain ⟨t, ht⟩ := htotal s
      obtain ⟨hsize, -⟩ := (hadds s t ht).extends (h s .refl)
      refine ih t (fun u hu ↦ h u (hu.head ht)) ?_ (by omega)
      obtain ⟨v, hv⟩ := hadds s t ht
      rw [hv]
      exact ExtTreeMap.mem_insert.mpr (.inr hj)

end numbered

section paired

variable {K P V : Type} [Ord K] [TransOrd K] [LawfulEqOrd K] [DecidableEq K]

/-- An entry written under the key of one object is seen under no other exactly when it was there
already, or the key is of that object only. -/
theorem insert_seen_iff {m : ExtTreeMap K V} {f : P → K} {p : P} {v z : V} :
    (∀ q, q ≠ p → (m.insert (f p) v)[f q]?.getD z = m[f q]?.getD z) ↔
      m[f p]?.getD z = v ∨ ∀ q, f q = f p → q = p := by
  constructor
  · intro h
    by_cases hkey : ∀ q, f q = f p → q = p
    · exact .inr hkey
    · push Not at hkey
      obtain ⟨q, hq, hne⟩ := hkey
      have hseen := h q hne
      rw [get_insert, if_pos hq.symm, hq, Option.getD_some] at hseen
      exact .inl hseen.symm
  · rintro (h | h) q hne
    · rw [get_insert]
      split
      · next he => rw [← he, h, Option.getD_some]
      · rfl
    · rw [get_insert, if_neg (fun he ↦ hne (h q he.symm))]

/-- Two lists put together with a separator can be told apart exactly when neither has one. -/
theorem joined_iff {α : Type} {s : α} {a b : List α} :
    (∀ q : List α × List α, q.1 ++ s :: q.2 = a ++ s :: b → q = (a, b)) ↔ s ∉ a ∧ s ∉ b := by
  constructor
  · intro h
    constructor
    · intro ha
      obtain ⟨a₁, a₂, rfl⟩ := List.append_of_mem ha
      have hq := congrArg (fun q ↦ q.2.length) (h (a₁, a₂ ++ s :: b) (by simp))
      simp only [List.length_append, List.length_cons] at hq
      omega
    · intro hb
      obtain ⟨b₁, b₂, rfl⟩ := List.append_of_mem hb
      have hq := congrArg (fun q ↦ q.1.length) (h (a ++ s :: b₁, b₂) (by simp))
      simp only [List.length_append, List.length_cons] at hq
      omega
  · rintro ⟨ha, hb⟩ ⟨a', b'⟩ h
    obtain ⟨rfl, -, rfl⟩ := (List.append_cons_inj_of_notMem ha hb).mp h.symm
    rfl

end paired

end Cerberus.Foundation.Keys
