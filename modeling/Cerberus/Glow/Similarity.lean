import Cerberus.Foundation.Text
import Mathlib.Algebra.Order.Field.Basic
import Mathlib.Tactic.Linarith
import Mathlib.Tactic.FieldSimp
import Mathlib.Tactic.Ring

namespace Cerberus.Glow

open Foundation.Bytes Foundation.Text

def overlap (wa wb : List ByteString) : Nat := wa.countP (fun ca ↦ wb.contains ca)

section

variable (K : Type) [Field K]

def jaccard (wa wb : List ByteString) : K :=
  let denom := wa.length + wb.length - overlap wa wb
  if denom = 0 then 0 else (overlap wa wb : K) / denom * ((6 : ℕ) / (10 : ℕ))

def calculateSimilarity (a b : ByteString) : K :=
  if a = b then 1
  else if a = [] ∨ b = [] then 0
  else if a <:+: b ∨ b <:+: a then
    (7 : ℕ) / (10 : ℕ) +
      (3 : ℕ) / (10 : ℕ) * ((min a.length b.length : ℕ) / (max a.length b.length : ℕ))
  else jaccard K (words a) (words b)

end

variable {K : Type} [Field K] [LinearOrder K] [IsStrictOrderedRing K] {a b : ByteString}
  {wa wb : List ByteString}

theorem overlap_le : overlap wa wb ≤ wa.length := List.countP_le_length

theorem denom_pos (h : 0 < wa.length + wb.length) :
    0 < wa.length + wb.length - overlap wa wb := by
  have hle : overlap wa wb ≤ wa.length := overlap_le
  cases wb with
  | nil =>
    have hnone : overlap wa [] = 0 := by simp [overlap]
    omega
  | cons w wb =>
    rw [List.length_cons]
    omega

omit [LinearOrder K] [IsStrictOrderedRing K] in
theorem jaccard_eq (h : 0 < wa.length + wb.length) : jaccard K wa wb =
    6 * overlap wa wb / (10 * ((wa.length : K) + wb.length - overlap wa wb)) := by
  have hpos := denom_pos h
  have hle : overlap wa wb ≤ wa.length + wb.length := Nat.le_add_right_of_le overlap_le
  have hcast : ((wa.length + wb.length - overlap wa wb : ℕ) : K) =
      (wa.length : K) + wb.length - overlap wa wb := by
    rw [Nat.cast_sub hle, Nat.cast_add]
  rw [jaccard]
  rw [if_neg hpos.ne', hcast, div_mul_div_comm]
  push_cast
  ring

theorem cast_denom_pos (h : 0 < wa.length + wb.length) :
    (0 : K) < (wa.length : K) + wb.length - overlap wa wb := by
  have hpos := denom_pos h
  have hlt : overlap wa wb < wa.length + wb.length := by omega
  rw [sub_pos]
  exact_mod_cast hlt

theorem jaccard_nonneg : 0 ≤ jaccard K wa wb := by
  rw [jaccard]
  split_ifs
  · exact le_rfl
  · positivity

omit [LinearOrder K] [IsStrictOrderedRing K] in
theorem jaccard_empty (h : wa.length + wb.length = 0) :
    jaccard K wa wb = 0 ∧ overlap wa wb = 0 := by
  obtain ⟨ha, hb⟩ := Nat.add_eq_zero_iff.mp h
  rw [List.length_eq_zero_iff.mp ha, List.length_eq_zero_iff.mp hb]
  simp [jaccard, overlap]

theorem jaccard_symm_iff :
    jaccard K wa wb = jaccard K wb wa ↔ overlap wa wb = overlap wb wa := by
  rcases Nat.eq_zero_or_pos (wa.length + wb.length) with hzero | hpos
  · obtain ⟨h₁, h₂⟩ := jaccard_empty (K := K) hzero
    obtain ⟨h₃, h₄⟩ := jaccard_empty (K := K) (Nat.add_comm .. ▸ hzero : wb.length + wa.length = 0)
    rw [h₁, h₂, h₃, h₄]
    simp
  · have hpos' : 0 < wb.length + wa.length := Nat.add_comm .. ▸ hpos
    have hd := cast_denom_pos (K := K) hpos
    have hd' := cast_denom_pos (K := K) hpos'
    rw [jaccard_eq hpos, jaccard_eq hpos', div_eq_div_iff (by positivity) (by positivity)]
    have hsum : (0 : K) < (wa.length : K) + wb.length := by exact_mod_cast hpos
    constructor
    · intro h
      have hprod : ((wa.length : K) + wb.length) * overlap wa wb =
          ((wa.length : K) + wb.length) * overlap wb wa := by linarith
      exact_mod_cast mul_left_cancel₀ hsum.ne' hprod
    · intro h
      rw [h]
      ring

theorem jaccard_lt_one (h : overlap wa wb = overlap wb wa) : jaccard K wa wb < 1 := by
  rcases Nat.eq_zero_or_pos (wa.length + wb.length) with hzero | hpos
  · rw [(jaccard_empty hzero).1]
    exact zero_lt_one
  · have hd := cast_denom_pos (K := K) hpos
    have hle : overlap wa wb ≤ wa.length := overlap_le
    have hle' : overlap wb wa ≤ wb.length := overlap_le
    have hhalf : (2 : K) * overlap wa wb ≤ (wa.length : K) + wb.length := by
      exact_mod_cast (by omega : 2 * overlap wa wb ≤ wa.length + wb.length)
    rw [jaccard_eq hpos, div_lt_one (by positivity)]
    linarith

structure Similar (K : Type) [Field K] [LinearOrder K] (a b : ByteString) : Prop where
  symm : calculateSimilarity K a b = calculateSimilarity K b a
  nonneg : 0 ≤ calculateSimilarity K a b
  le_one : calculateSimilarity K a b ≤ 1
  eq_of_eq_one : calculateSimilarity K a b = 1 → a = b

theorem similar_self (a : ByteString) : Similar K a a := by
  have hone : calculateSimilarity K a a = 1 := if_pos rfl
  exact ⟨rfl, hone ▸ zero_le_one, hone.le, fun _ ↦ rfl⟩

theorem similar_of_part (hne : a ≠ b) (h : a <:+: b ∨ b <:+: a) : Similar K a b := by
  by_cases hempty : a = [] ∨ b = []
  · have hvalue : calculateSimilarity K a b = 0 := by
      rw [calculateSimilarity, if_neg hne, if_pos hempty]
    have hvalue' : calculateSimilarity K b a = 0 := by
      rw [calculateSimilarity, if_neg hne.symm, if_pos hempty.symm]
    refine ⟨hvalue.trans hvalue'.symm, hvalue.ge, hvalue ▸ zero_le_one, fun hone ↦ ?_⟩
    exact absurd (hvalue.symm.trans hone) zero_ne_one
  · have hlen : a.length ≠ b.length := by
      rcases h with h | h
      · exact fun he ↦ hne (h.eq_of_length he)
      · exact fun he ↦ hne (h.eq_of_length he.symm).symm
    have hvalue : calculateSimilarity K a b = (7 : ℕ) / (10 : ℕ) +
        (3 : ℕ) / (10 : ℕ) * ((min a.length b.length : ℕ) / (max a.length b.length : ℕ)) := by
      rw [calculateSimilarity, if_neg hne, if_neg hempty, if_pos h]
    have hvalue' : calculateSimilarity K b a = calculateSimilarity K a b := by
      rw [hvalue, calculateSimilarity, if_neg hne.symm, if_neg (fun he ↦ hempty he.symm),
        if_pos h.symm, min_comm, max_comm]
    have hlt : min a.length b.length < max a.length b.length := min_lt_max.mpr hlen
    have hmax : (0 : K) < (max a.length b.length : ℕ) := by
      exact_mod_cast Nat.zero_lt_of_lt hlt
    have hratio : ((min a.length b.length : ℕ) : K) / (max a.length b.length : ℕ) < 1 := by
      rw [div_lt_one hmax]
      exact_mod_cast hlt
    have hnonneg : (0 : K) ≤ ((min a.length b.length : ℕ) : K) / (max a.length b.length : ℕ) := by
      positivity
    have hone : calculateSimilarity K a b < 1 := by
      rw [hvalue]
      push_cast at hratio ⊢
      linarith
    refine ⟨hvalue'.symm, ?_, hone.le, fun he ↦ absurd he hone.ne⟩
    rw [hvalue]
    positivity

theorem similar_words (hab : ¬ a <:+: b) (hba : ¬ b <:+: a) :
    Similar K a b ↔ overlap (words a) (words b) = overlap (words b) (words a) := by
  have hne : a ≠ b := by
    rintro rfl
    exact hab (List.infix_refl a)
  have ha : a ≠ [] := by
    rintro rfl
    exact hab (List.nil_infix)
  have hb : b ≠ [] := by
    rintro rfl
    exact hba (List.nil_infix)
  have hvalue : calculateSimilarity K a b = jaccard K (words a) (words b) := by
    rw [calculateSimilarity, if_neg hne, if_neg (not_or.mpr ⟨ha, hb⟩),
      if_neg (not_or.mpr ⟨hab, hba⟩)]
  have hvalue' : calculateSimilarity K b a = jaccard K (words b) (words a) := by
    rw [calculateSimilarity, if_neg hne.symm, if_neg (not_or.mpr ⟨hb, ha⟩),
      if_neg (not_or.mpr ⟨hba, hab⟩)]
  constructor
  · intro h
    have hsymm := h.symm
    rwa [hvalue, hvalue', jaccard_symm_iff] at hsymm
  · intro h
    have hlt := jaccard_lt_one (K := K) h
    refine ⟨?_, ?_, ?_, ?_⟩
    · rw [hvalue, hvalue', jaccard_symm_iff]
      exact h
    · rw [hvalue]
      exact jaccard_nonneg
    · rw [hvalue]
      exact hlt.le
    · intro hone
      rw [hvalue] at hone
      exact absurd hone hlt.ne

/-- The measure is one of similarity for two texts exactly if one is a part of the other, or as
many words of the first are found in the second as the other way round. -/
theorem similar_iff (a b : ByteString) : Similar K a b ↔
    a <:+: b ∨ b <:+: a ∨ overlap (words a) (words b) = overlap (words b) (words a) := by
  by_cases hne : a = b
  · subst hne
    exact iff_of_true (similar_self a) (.inl (List.infix_refl a))
  by_cases hab : a <:+: b
  · exact iff_of_true (similar_of_part hne (.inl hab)) (.inl hab)
  by_cases hba : b <:+: a
  · exact iff_of_true (similar_of_part hne (.inr hba)) (.inr (.inl hba))
  rw [similar_words hab hba]
  simp [hab, hba]

theorem similar_iff_cat : Similar ℚ (lit "cat") (lit "cat food") :=
  (similar_iff (lit "cat") (lit "cat food")).mpr (.inl ⟨[], lit " food", by decide⟩)

/-- A word that is repeated counts once for each time. -/
theorem repeated_word_counts_again : ¬ ∀ a b : ByteString, Similar ℚ a b := by
  intro h
  have ha : words (lit "x x") = [lit "x", lit "x"] := by
    rw [words_some (by decide : extractWord (lit "x x") = some (lit "x", lit " x")),
      words_some (by decide : extractWord (lit " x") = some (lit "x", [])), words_none (by decide)]
  have hb : words (lit "x y") = [lit "x", lit "y"] := by
    rw [words_some (by decide : extractWord (lit "x y") = some (lit "x", lit " y")),
      words_some (by decide : extractWord (lit " y") = some (lit "y", [])), words_none (by decide)]
  have hcounts := (similar_words (by decide) (by decide)).mp (h (lit "x x") (lit "x y"))
  rw [ha, hb] at hcounts
  revert hcounts
  decide

end Cerberus.Glow
