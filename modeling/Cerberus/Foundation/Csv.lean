import Cerberus.Foundation.Bytes

/-! Tables with commas between their fields, and those that are written without doubling a quote. -/

namespace Cerberus.Foundation.Csv

open Bytes

def TextData (b : UInt8) : Prop := b ≠ 34 ∧ b ≠ 44 ∧ b ≠ 13 ∧ b ≠ 10

instance : DecidablePred TextData := fun _ ↦ inferInstanceAs (Decidable (_ ∧ _ ∧ _ ∧ _))

/-- The inside of a quoted field: any byte, but every quote twice. -/
inductive Doubled : ByteString → ByteString → Prop
  | nil : Doubled [] []
  | byte {b : UInt8} {e v : ByteString} (hb : b ≠ 34) (h : Doubled e v) : Doubled (b :: e) (b :: v)
  | quote {e v : ByteString} (h : Doubled e v) : Doubled (34 :: 34 :: e) (34 :: v)

inductive FieldText : ByteString → ByteString → Prop
  | bare {v : ByteString} (h : ∀ b ∈ v, TextData b) : FieldText v v
  | quoted {e v : ByteString} (h : Doubled e v) : FieldText v (34 :: e ++ [34])

inductive RowText : List ByteString → ByteString → Prop
  | one {v t : ByteString} (h : FieldText v t) : RowText [v] t
  | more {v t t' : ByteString} {vs : List ByteString} (h : FieldText v t) (h' : RowText vs t') :
      RowText (v :: vs) (t ++ 44 :: t')

def Break (b : ByteString) : Prop := b = [10] ∨ b = [13, 10]

/-- Rows on lines of their own; the last one may end without a break. -/
inductive FileText : List (List ByteString) → ByteString → Prop
  | last {row : List ByteString} {t : ByteString} (h : RowText row t) : FileText [row] t
  | ended {row : List ByteString} {t b : ByteString} (h : RowText row t) (hb : Break b) :
      FileText [row] (t ++ b)
  | more {row : List ByteString} {rows : List (List ByteString)} {t b t' : ByteString}
      (h : RowText row t) (hb : Break b) (h' : FileText rows t') :
      FileText (row :: rows) (t ++ b ++ t')

structure Cell where
  inQuotes : Bool
  value : ByteString
  deriving DecidableEq

namespace Cell

def text (c : Cell) : ByteString := if c.inQuotes then 34 :: c.value ++ [34] else c.value

def Kept (c : Cell) : Prop :=
  if c.inQuotes then 34 ∉ c.value else ∀ b ∈ c.value, TextData b

instance (c : Cell) : Decidable c.Kept :=
  inferInstanceAs (Decidable (if c.inQuotes then 34 ∉ c.value else ∀ b ∈ c.value, TextData b))

end Cell

def rowText (row : List Cell) : ByteString := List.intercalate [44] (row.map (·.text))

def fileText (rows : List (List Cell)) : ByteString := rows.flatMap (fun row ↦ rowText row ++ [10])

variable {e v x y r r' t : ByteString} {d : UInt8} {c : Cell} {row : List Cell}
  {rows : List (List Cell)}

theorem doubled_self (h : 34 ∉ v) : Doubled v v := by
  induction v with
  | nil => exact .nil
  | cons b v ih =>
    rw [List.mem_cons, not_or] at h
    exact .byte (Ne.symm h.1) (ih h.2)

theorem Doubled.length_le (h : Doubled e v) : v.length ≤ e.length := by
  induction h with
  | nil => exact le_rfl
  | byte _ _ ih => exact Nat.succ_le_succ ih
  | quote _ ih => exact (Nat.succ_le_succ ih).trans (Nat.le_succ _)

theorem Doubled.same (h : Doubled e v) (hlen : e.length ≤ v.length) : e = v ∧ 34 ∉ v := by
  induction h with
  | nil => exact ⟨rfl, List.not_mem_nil⟩
  | byte hb _ ih =>
    obtain ⟨rfl, hno⟩ := ih (Nat.le_of_succ_le_succ hlen)
    exact ⟨rfl, by simp [Ne.symm hb, hno]⟩
  | quote h _ =>
    have := h.length_le
    simp only [List.length_cons] at hlen
    omega

def Odd (x : ByteString) : Prop :=
  ∃ d z, d ≠ 34 ∧ (x = d :: z ∨ x = 34 :: d :: z)

theorem Doubled.byte_inv {b : UInt8} (h : Doubled (b :: e) v) (hb : b ≠ 34) :
    ∃ w, v = b :: w ∧ Doubled e w := by
  cases h with
  | byte _ h => exact ⟨_, rfl, h⟩
  | quote => exact absurd rfl hb

theorem Doubled.quote_inv {b : UInt8} (h : Doubled (34 :: b :: e) v) :
    b = 34 ∧ ∃ w, v = 34 :: w ∧ Doubled e w := by
  cases h with
  | byte hb => exact absurd rfl hb
  | quote h => exact ⟨rfl, _, rfl, h⟩

theorem replicate_quotes (n : Nat) (y : ByteString) :
    List.replicate n 34 ++ 34 :: y = List.replicate (n + 1) (34 : UInt8) ++ y := by
  rw [List.replicate_succ', List.append_assoc, List.singleton_append]

theorem Odd.not_doubled (h : Odd x) (n : Nat) : ¬Doubled x (List.replicate n 34) := by
  obtain ⟨d, z, hd, rfl | rfl⟩ := h
  · intro h
    obtain ⟨w, hw, -⟩ := h.byte_inv hd
    exact hd (List.eq_of_mem_replicate (hw ▸ List.mem_cons_self))
  · intro h
    exact hd h.quote_inv.1

/-- Reading some bytes and what comes behind them does not give the same bytes with quotes in front,
unless those behind go on with two quotes. -/
theorem not_doubled_append (hx : Odd x) (n : Nat) (y : ByteString) :
    ¬Doubled (y ++ x) (List.replicate n 34 ++ y) := by
  induction hlen : y.length using Nat.strong_induction_on generalizing n y with
  | _ len ih =>
    subst hlen
    intro h
    cases y with
    | nil => exact hx.not_doubled n (by simpa using h)
    | cons b y =>
      by_cases hb : b = 34
      · subst hb
        rw [replicate_quotes, List.replicate_succ] at h
        simp only [List.cons_append] at h
        cases y with
        | nil =>
          obtain ⟨d, z, hd, rfl | rfl⟩ := hx
          · exact hd h.quote_inv.1
          · obtain ⟨-, w, hw, hrest⟩ := h.quote_inv
            obtain ⟨u, rfl, -⟩ := hrest.byte_inv hd
            rw [List.append_nil, ← List.replicate_succ] at hw
            exact hd (List.eq_of_mem_replicate (hw ▸ List.mem_cons_of_mem _ List.mem_cons_self))
        | cons b' y =>
          obtain ⟨rfl, w, hw, hrest⟩ := h.quote_inv
          rw [replicate_quotes] at hw
          rw [← (List.cons.inj hw).2] at hrest
          exact ih y.length (by simp) (n + 1) y rfl hrest
      · obtain ⟨w, hw, hrest⟩ := h.byte_inv hb
        cases n with
        | zero =>
          rw [← (List.cons.inj hw).2] at hrest
          exact ih y.length (by simp) 0 y rfl hrest
        | succ n => exact hb (List.cons.inj hw).1.symm

theorem append_cases {a b a' b' : ByteString} (h : a ++ b = a' ++ b') (hle : a.length ≤ a'.length) :
    ∃ z, a' = a ++ z ∧ b = z ++ b' := by
  rcases List.append_eq_append_iff.mp h with ⟨z, ha, hb⟩ | ⟨z, ha, hb⟩
  · exact ⟨z, ha, hb⟩
  · have hz : z = [] := by
      rw [ha, List.length_append] at hle
      exact List.eq_nil_of_length_eq_zero (by omega)
    subst hz
    exact ⟨[], by simpa using ha.symm, by simpa using hb.symm⟩

theorem bare_only (hd : d ≠ 34) (h : FieldText v t) (heq : v ++ d :: r = t ++ r') :
    t = v ∧ ∀ b ∈ v, TextData b := by
  cases h with
  | bare h => exact ⟨rfl, h⟩
  | @quoted e _ h =>
    have hlen := h.length_le
    simp only [List.cons_append, List.append_assoc, List.nil_append] at heq
    cases v with
    | nil => exact absurd (List.cons.inj heq).1 hd
    | cons b v =>
      obtain ⟨rfl, hrest⟩ := List.cons.inj heq
      have hlen' : v.length ≤ e.length := Nat.le_of_succ_le hlen
      obtain ⟨z, rfl, hz⟩ := append_cases hrest hlen'
      cases z with
      | nil =>
        simp only [List.append_nil, List.length_cons] at hlen
        omega
      | cons d' z =>
        obtain ⟨rfl, -⟩ := List.cons.inj hz
        exact absurd h (not_doubled_append ⟨d, z, hd, .inl rfl⟩ 1 v)

theorem quoted_only (hd : d ≠ 34) (hr : r'.head? ≠ some 34) (h : FieldText v t)
    (heq : 34 :: v ++ [34] ++ d :: r = t ++ r') : t = 34 :: v ++ [34] ∧ 34 ∉ v := by
  cases h with
  | bare h =>
    cases v with
    | nil => exact absurd (by rw [← List.nil_append r', ← heq]; rfl) hr
    | cons b v =>
      obtain ⟨rfl, -⟩ := List.cons.inj heq
      exact absurd rfl (h _ List.mem_cons_self).1
  | @quoted e _ h =>
    have hlen := h.length_le
    simp only [List.cons_append, List.append_assoc, List.nil_append] at heq
    obtain ⟨z, rfl, hz⟩ := append_cases (List.cons.inj heq).2 hlen
    cases z with
    | nil =>
      rw [List.append_nil] at h ⊢
      exact ⟨rfl, (h.same le_rfl).2⟩
    | cons b z =>
      obtain ⟨rfl, htail⟩ := List.cons.inj hz
      cases z with
      | nil => exact absurd (List.cons.inj htail).1 hd
      | cons d' z =>
        obtain rfl : d = d' := (List.cons.inj htail).1
        exact absurd h (not_doubled_append ⟨d, z, hd, .inr rfl⟩ 0 v)

theorem Cell.only (hd : d ≠ 34) (hr : r'.head? ≠ some 34) (h : FieldText c.value t)
    (heq : c.text ++ d :: r = t ++ r') : t = c.text ∧ c.Kept := by
  unfold Cell.text Cell.Kept at *
  split at heq
  · next hq =>
    rw [if_pos hq, if_pos hq]
    exact quoted_only hd hr h heq
  · next hq =>
    rw [if_neg hq, if_neg hq]
    exact bare_only hd h heq

theorem Cell.fieldText (h : c.Kept) : FieldText c.value c.text := by
  unfold Cell.text
  unfold Cell.Kept at h
  split at h
  · next hq =>
    rw [if_pos hq]
    exact .quoted (doubled_self h)
  · next hq =>
    rw [if_neg hq]
    exact .bare h

theorem rowText_cons (c c' : Cell) (row : List Cell) :
    rowText (c :: c' :: row) = c.text ++ 44 :: rowText (c' :: row) := by
  simp [rowText, List.intercalate]

theorem rowText_single (c : Cell) : rowText [c] = c.text := by
  simp [rowText, List.intercalate]

theorem row_only (hd : d ≠ 34) (hr : r'.head? ≠ some 34) (h : RowText (row.map (·.value)) t)
    (heq : rowText row ++ d :: r = t ++ r') : t = rowText row ∧ ∀ c ∈ row, c.Kept := by
  induction row generalizing t with
  | nil => cases h
  | cons c row ih =>
    cases row with
    | nil =>
      rw [rowText_single] at heq ⊢
      cases h with
      | one h =>
        obtain ⟨rfl, hc⟩ := Cell.only hd hr h heq
        exact ⟨rfl, List.forall_mem_singleton.mpr hc⟩
      | more _ h' => cases h'
    | cons c' row =>
      rw [rowText_cons] at heq ⊢
      cases h with
      | @more _ t t' _ h h' =>
        simp only [List.append_assoc, List.cons_append] at heq
        obtain ⟨rfl, hc⟩ := Cell.only (by decide) (by simp) h heq
        obtain ⟨rfl, hrow⟩ := ih h' (List.cons.inj (List.append_cancel_left heq)).2
        exact ⟨rfl, List.forall_mem_cons.mpr ⟨hc, hrow⟩⟩

theorem row_text (hne : row ≠ []) (h : ∀ c ∈ row, c.Kept) :
    RowText (row.map (·.value)) (rowText row) := by
  induction row with
  | nil => exact absurd rfl hne
  | cons c row ih =>
    obtain ⟨hc, hrow⟩ := List.forall_mem_cons.mp h
    cases row with
    | nil =>
      rw [rowText_single]
      exact .one (Cell.fieldText hc)
    | cons c' row =>
      rw [rowText_cons]
      exact .more (Cell.fieldText hc) (ih (by simp) hrow)

theorem Break.head {b : ByteString} (h : Break b) (z : ByteString) :
    (b ++ z).head? ≠ some 34 := by
  rcases h with rfl | rfl <;> simp

theorem fileText_cons (row : List Cell) (rows : List (List Cell)) :
    fileText (row :: rows) = rowText row ++ 10 :: fileText rows := by
  simp [fileText]

theorem file_only (h : FileText (rows.map (fun row ↦ row.map (·.value))) t)
    (heq : fileText rows = t) : ∀ row ∈ rows, ∀ c ∈ row, c.Kept := by
  induction rows generalizing t with
  | nil => simp
  | cons row rows ih =>
    rw [fileText_cons] at heq
    cases rows with
    | nil =>
      rw [List.forall_mem_singleton]
      cases h with
      | last h => exact (row_only (by decide) (by simp) h (heq.trans (List.append_nil t).symm)).2
      | ended h hb =>
        have hb' := hb.head []
        rw [List.append_nil] at hb'
        exact (row_only (by decide) hb' h heq).2
      | more _ _ h' => cases h'
    | cons row' rows =>
      cases h with
      | more h hb h' =>
        rw [List.append_assoc] at heq
        obtain ⟨rfl, hrow⟩ := row_only (by decide) (hb.head _) h heq
        have hrest := List.append_cancel_left heq
        rcases hb with rfl | rfl
        · exact List.forall_mem_cons.mpr ⟨hrow, ih h' (List.cons.inj hrest).2⟩
        · cases (List.cons.inj hrest).1

theorem file_text (hne : rows ≠ []) (hrows : ∀ row ∈ rows, row ≠ [])
    (h : ∀ row ∈ rows, ∀ c ∈ row, c.Kept) :
    FileText (rows.map (fun row ↦ row.map (·.value))) (fileText rows) := by
  induction rows with
  | nil => exact absurd rfl hne
  | cons row rows ih =>
    obtain ⟨hrow, hrest⟩ := List.forall_mem_cons.mp h
    obtain ⟨hsome, hsomes⟩ := List.forall_mem_cons.mp hrows
    rw [fileText_cons]
    cases rows with
    | nil => exact .ended (row_text hsome hrow) (.inl rfl)
    | cons row' rows =>
      have hmore := FileText.more (row_text hsome hrow) (.inl rfl) (ih (by simp) hsomes hrest)
      simpa using hmore

/-- A table comes back just if every field is kept by the way it is written. -/
theorem fileText_iff (hne : rows ≠ []) (hrows : ∀ row ∈ rows, row ≠ []) :
    FileText (rows.map (fun row ↦ row.map (·.value))) (fileText rows) ↔
      ∀ row ∈ rows, ∀ c ∈ row, c.Kept :=
  ⟨fun h ↦ file_only h rfl, file_text hne hrows⟩

end Cerberus.Foundation.Csv
