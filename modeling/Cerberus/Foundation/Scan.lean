import Mathlib

namespace Cerberus.Foundation.Scan

variable {α : Type} [DecidableEq α]

def cut (c : α) : List α → Option (List α × List α)
  | [] => none
  | a :: s => if a = c then some ([], s) else (cut c s).map (fun p ↦ (a :: p.1, p.2))

def after (word : List α) : List α → Option (List α)
  | [] => if word = [] then some [] else none
  | a :: s => if word <+: a :: s then some ((a :: s).drop word.length) else after word s

def cutWord (word : List α) : List α → Option (List α × List α)
  | [] => if word = [] then some ([], []) else none
  | a :: s =>
    if word <+: a :: s then some ([], (a :: s).drop word.length)
    else (cutWord word s).map (fun p ↦ (a :: p.1, p.2))

variable {c : α} {word p r s : List α}

theorem cut_append (h : c ∉ p) (r : List α) : cut c (p ++ c :: r) = some (p, r) := by
  induction p with
  | nil => simp [cut]
  | cons a p ih =>
    have ha : a ≠ c := fun he ↦ h (by simp [he])
    simp [cut, ha, ih (fun hm ↦ h (by simp [hm]))]

theorem cut_of_not_mem (h : c ∉ s) : cut c s = none := by
  induction s with
  | nil => rfl
  | cons a s ih =>
    have ha : a ≠ c := fun he ↦ h (by simp [he])
    simp [cut, ha, ih (fun hm ↦ h (by simp [hm]))]

theorem cut_skip (h : c ∉ p) (s : List α) :
    cut c (p ++ s) = (cut c s).map (fun e ↦ (p ++ e.1, e.2)) := by
  induction p with
  | nil => simp
  | cons a p ih =>
    have ha : a ≠ c := fun he ↦ h (by simp [he])
    simp [cut, ha, ih (fun hm ↦ h (by simp [hm])), Function.comp_def]

theorem cut_takeWhile (s r : List α) :
    ∃ q, cut c (s ++ c :: r) = some (s.takeWhile (· ≠ c), q) := by
  induction s with
  | nil => exact ⟨r, by simp [cut]⟩
  | cons a s ih =>
    by_cases ha : a = c
    · exact ⟨s ++ c :: r, by simp [cut, ha]⟩
    · obtain ⟨q, hq⟩ := ih
      exact ⟨q, by simp [cut, ha, hq]⟩

theorem cut_eq_some (h : cut c s = some (p, r)) : s = p ++ c :: r := by
  induction s generalizing p with
  | nil => cases h
  | cons a s ih =>
    by_cases ha : a = c
    · simp_all [cut]
    · simp only [cut, ha, if_false, Option.map_eq_some_iff] at h
      obtain ⟨⟨p', r'⟩, hs, he⟩ := h
      cases he
      simp [ih hs]

theorem cut_eq_some_iff : cut c s = some (p, r) ↔ s = p ++ c :: r ∧ c ∉ p := by
  constructor
  · intro h
    obtain ⟨q, hq⟩ := cut_takeWhile p r
    rw [← cut_eq_some h, h, Option.some.injEq, Prod.mk.injEq] at hq
    refine ⟨cut_eq_some h, fun hc ↦ ?_⟩
    rw [hq.1] at hc
    simpa using List.mem_takeWhile_imp hc
  · rintro ⟨rfl, hc⟩
    exact cut_append hc r

theorem cutWord_eq_some (h : cutWord word s = some (p, r)) : s = p ++ word ++ r := by
  induction s generalizing p with
  | nil =>
    rw [cutWord] at h
    split at h
    · rename_i hw
      cases h
      simp [hw]
    · cases h
  | cons a s ih =>
    rw [cutWord] at h
    split at h
    · rename_i hw
      obtain ⟨t, ht⟩ := hw
      cases h
      rw [← ht]
      simp
    · obtain ⟨⟨p', r'⟩, hs, he⟩ := Option.map_eq_some_iff.mp h
      cases he
      simp [ih hs]

theorem cutWord_append (hw : word ≠ [])
    (h : ∀ q t, p = q ++ t → t ≠ [] → ¬word <+: t ++ word ++ r) :
    cutWord word (p ++ word ++ r) = some (p, r) := by
  induction p with
  | nil =>
    obtain ⟨a, w, rfl⟩ := List.exists_cons_of_ne_nil hw
    have hbegins : a :: w <+: a :: (w ++ r) := ⟨r, by simp⟩
    rw [List.nil_append, List.cons_append, cutWord, if_pos hbegins]
    simp
  | cons a p ih =>
    have hhere : ¬word <+: a :: (p ++ word ++ r) := by
      simpa using h [] (a :: p) (by simp) (by simp)
    have hrest := ih (fun q t ht hne ↦ h (a :: q) t (by simp [ht]) hne)
    rw [List.cons_append, List.cons_append, cutWord, if_neg hhere, hrest]
    rfl

theorem cutWord_extend (h : cutWord word s = some (p, r)) (t : List α) :
    cutWord word (s ++ t) = some (p, r ++ t) := by
  induction s generalizing p with
  | nil =>
    rw [cutWord] at h
    split at h
    · rename_i hw
      cases h
      cases t with
      | nil => simp [cutWord, hw]
      | cons a t => simp [cutWord, hw]
    · cases h
  | cons a s ih =>
    rw [cutWord] at h
    split at h
    · rename_i hw
      cases h
      have hlen := hw.length_le
      have hw' : word <+: a :: (s ++ t) := hw.trans (List.prefix_append (a :: s) t)
      rw [List.cons_append, cutWord, if_pos hw', ← List.cons_append,
        List.drop_append_of_le_length hlen]
    · rename_i hw
      obtain ⟨⟨p', r'⟩, hs, he⟩ := Option.map_eq_some_iff.mp h
      cases he
      have hlen : word.length ≤ (a :: s).length := by
        rw [cutWord_eq_some hs]
        simp only [List.length_cons, List.length_append]
        omega
      have hw' : ¬word <+: a :: (s ++ t) := fun hbegins ↦
        hw (List.prefix_of_prefix_length_le hbegins (List.prefix_append (a :: s) t) hlen)
      rw [List.cons_append, cutWord, if_neg hw', ih hs]
      rfl

theorem cutWord_eq_none (h : ¬word <:+: s) : cutWord word s = none := by
  cases hcut : cutWord word s with
  | none => rfl
  | some e => exact absurd ⟨e.1, e.2, (cutWord_eq_some hcut).symm⟩ h

omit [DecidableEq α] in
theorem prefix_of_not_mem (h : c ∉ word) (hw : word <+: p ++ c :: r) : word <+: p := by
  rcases List.prefix_or_prefix_of_prefix hw (List.prefix_append p (c :: r)) with h' | ⟨t, ht⟩
  · exact h'
  · cases t with
    | nil => exact ⟨[], by simpa using ht.symm⟩
    | cons x t =>
      rw [← ht, List.prefix_append_right_inj] at hw
      have hx : x = c := (List.cons_prefix_cons.mp hw).1
      exact absurd (by simp [← ht, hx]) h

theorem after_append_cons (hw : word ≠ []) (hc : c ∉ word) (p r : List α) :
    after word (p ++ c :: r) = ((after word p).map (· ++ c :: r)).or (after word r) := by
  induction p with
  | nil =>
    have hno : ¬ word <+: c :: r := by
      intro h
      obtain ⟨x, w, rfl⟩ := List.exists_cons_of_ne_nil hw
      exact hc (by simp [(List.cons_prefix_cons.mp h).1])
    simp [after, hw, hno]
  | cons a p ih =>
    rw [List.cons_append, after, after]
    by_cases hp : word <+: a :: p
    · have hlong : word <+: a :: (p ++ c :: r) := hp.trans (List.prefix_append (a :: p) (c :: r))
      rw [if_pos hlong, if_pos hp, ← List.cons_append,
        List.drop_append_of_le_length hp.length_le]
      rfl
    · have hlong : ¬ word <+: a :: (p ++ c :: r) := fun h ↦ hp (prefix_of_not_mem hc h)
      rw [if_neg hlong, if_neg hp, ih]

theorem after_of_infix (p word r : List α) :
    ∃ q, after word (p ++ (word ++ r)) = some q ∧ r <:+ q := by
  induction p with
  | nil =>
    cases hs : word ++ r with
    | nil => exact ⟨[], by simp_all [after]⟩
    | cons a s =>
      refine ⟨r, ?_, List.suffix_refl r⟩
      rw [List.nil_append, after, if_pos ⟨r, hs⟩, ← hs, List.drop_left]
  | cons a p ih =>
    rw [List.cons_append, after]
    split
    · refine ⟨_, rfl, ?_⟩
      have hr : r <:+ a :: (p ++ (word ++ r)) := ⟨a :: (p ++ word), by simp⟩
      apply List.suffix_of_suffix_length_le hr (List.drop_suffix _ _)
      · simp only [List.length_drop, List.length_cons, List.length_append]
        omega
    · exact ih

theorem suffix_of_after (h : after word s = some r) : r <:+ s := by
  induction s with
  | nil =>
    rw [after] at h
    split at h
    · cases h
      exact List.suffix_rfl
    · cases h
  | cons a s ih =>
    rw [after] at h
    split at h
    · cases h
      exact List.drop_suffix _ _
    · exact (ih h).trans (List.suffix_cons a s)

theorem after_eq_some (h : after word s = some r) : ∃ p, s = p ++ word ++ r := by
  induction s with
  | nil =>
    rw [after] at h
    split at h
    · next hw =>
      cases h
      exact ⟨[], by rw [hw]; rfl⟩
    · cases h
  | cons a s ih =>
    rw [after] at h
    split at h
    · next hw =>
      cases h
      obtain ⟨t, ht⟩ := hw
      exact ⟨[], by rw [← ht, List.drop_left]; rfl⟩
    · obtain ⟨p, rfl⟩ := ih h
      exact ⟨a :: p, rfl⟩

theorem after_eq_some_iff : after word s = some r ↔
    ∃ p, s = p ++ word ++ r ∧ ∀ p' r', s = p' ++ word ++ r' → p.length ≤ p'.length := by
  constructor
  · intro h
    obtain ⟨p, rfl⟩ := after_eq_some h
    refine ⟨p, rfl, fun p' r' heq ↦ ?_⟩
    obtain ⟨q, hq, hsuffix⟩ := after_of_infix p' word r'
    rw [← List.append_assoc, ← heq, h, Option.some.injEq] at hq
    have hle := (hq ▸ hsuffix).length_le
    have hlen := congrArg List.length heq
    simp only [List.length_append] at hlen
    omega
  · rintro ⟨p, rfl, hfirst⟩
    obtain ⟨q, hq, hsuffix⟩ := after_of_infix p word r
    rw [← List.append_assoc] at hq
    obtain ⟨p', heq⟩ := after_eq_some hq
    have hle := hfirst p' q heq
    have hlen := congrArg List.length heq
    simp only [List.length_append] at hlen
    rw [hq, hsuffix.eq_of_length_le (by omega)]

theorem after_eq_none (hw : word ≠ []) : after word s = none ↔ ¬ word <:+: s := by
  induction s with
  | nil => simp [after, hw]
  | cons a s ih =>
    rw [after, List.infix_cons_iff]
    split
    · next h => simp [h]
    · next h => simp [h, ih]

theorem after_skip (h : c ∉ p) (word s : List α) :
    after (c :: word) (p ++ s) = after (c :: word) s := by
  induction p with
  | nil => rfl
  | cons a p ih =>
    have ha : ¬ c :: word <+: a :: (p ++ s) := by
      intro hw
      exact h (by simp [(List.cons_prefix_cons.mp hw).1])
    rw [List.cons_append, after, if_neg ha, ih (fun hm ↦ h (by simp [hm]))]

def quoted (c : α) (word : List α) : List α := c :: (word ++ [c])

theorem prefix_quoted (hw : c ∉ word) (hp : c ∉ p) (r : List α) :
    word ++ [c] <+: p ++ c :: r ↔ word = p := by
  constructor
  · rintro ⟨t, ht⟩
    have h := cut_append hw t
    rw [List.append_assoc, List.singleton_append] at ht
    rw [ht, cut_append hp r] at h
    exact (congrArg Prod.fst (Option.some.inj h)).symm
  · rintro rfl
    exact ⟨r, by simp⟩

theorem after_quoted (hw : c ∉ word) (hp : c ∉ p) (r : List α) :
    after (quoted c word) (c :: (p ++ c :: r)) =
      if word = p then some r else after (quoted c word) (c :: r) := by
  have hhere : quoted c word <+: c :: (p ++ c :: r) ↔ word = p := by
    rw [quoted, List.cons_prefix_cons, prefix_quoted hw hp]
    simp
  rw [after]
  split
  · next h =>
    have he := hhere.mp h
    rw [if_pos he]
    subst he
    simp [quoted]
  · next h =>
    rw [if_neg (fun he ↦ h (hhere.mpr he))]
    exact after_skip hp _ _

end Cerberus.Foundation.Scan
