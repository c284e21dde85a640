import Cerberus.Foundation.Json

/-! JSON values of any shape and their texts. -/

namespace Cerberus.Foundation.Json

open Bytes

def Digits (d : ByteString) : Prop := d ≠ [] ∧ ∀ b ∈ d, isDigit b = true

/-- A number as the grammar has it: no zeros in front, and the fraction and the exponent may be
missing. -/
def Numeral (n : ByteString) : Prop :=
  ∃ sign whole fraction exponent, n = sign ++ whole ++ fraction ++ exponent ∧
    (sign = [] ∨ sign = [45]) ∧ Digits whole ∧ (whole.head? = some 48 → whole = [48]) ∧
    (fraction = [] ∨ ∃ d, Digits d ∧ fraction = 46 :: d) ∧
    (exponent = [] ∨ ∃ e s d, (e = 101 ∨ e = 69) ∧ (s = [] ∨ s = [43] ∨ s = [45]) ∧ Digits d ∧
      exponent = e :: s ++ d)

@[ext] structure Number where
  text : ByteString
  numeral : Numeral text

/-- An object has its members in the order in which they stand. -/
inductive Value
  | null
  | bool (b : Bool)
  | number (n : Number)
  | string (s : ByteString)
  | array (l : List Value)
  | object (l : List (ByteString × Value))

structure Shape (β : Type) where
  null : β
  bool : Bool → β
  number : Number → β
  string : ByteString → β
  array : List β → β
  object : List (ByteString × β) → β

section fold

variable {β : Type} (s : Shape β)

mutual

def Value.fold : Value → β
  | .null => s.null
  | .bool b => s.bool b
  | .number n => s.number n
  | .string t => s.string t
  | .array l => s.array (foldItems l)
  | .object l => s.object (foldMembers l)

def foldItems : List Value → List β
  | [] => []
  | v :: l => v.fold :: foldItems l

def foldMembers : List (ByteString × Value) → List (ByteString × β)
  | [] => []
  | (k, v) :: l => (k, v.fold) :: foldMembers l

end

theorem foldItems_eq (l : List Value) : foldItems s l = l.map (·.fold s) := by
  induction l with
  | nil => rfl
  | cons v l ih => rw [foldItems, ih, List.map_cons]

theorem foldMembers_eq (l : List (ByteString × Value)) :
    foldMembers s l = l.map (fun m ↦ (m.1, m.2.fold s)) := by
  induction l with
  | nil => rfl
  | cons m l ih => rw [foldMembers, ih, List.map_cons]

theorem Value.fold_array (l : List Value) :
    (Value.array l).fold s = s.array (l.map (·.fold s)) := by
  rw [Value.fold, foldItems_eq]

theorem Value.fold_object (l : List (ByteString × Value)) :
    (Value.object l).fold s = s.object (l.map (fun m ↦ (m.1, m.2.fold s))) := by
  rw [Value.fold, foldMembers_eq]

end fold

section induction_

variable {motive : Value → Prop} (null : motive .null) (bool : ∀ b, motive (.bool b))
  (number : ∀ n, motive (.number n)) (string : ∀ s, motive (.string s))
  (array : ∀ l, (∀ v ∈ l, motive v) → motive (.array l))
  (object : ∀ l, (∀ m ∈ l, motive m.2) → motive (.object l))

include null bool number string array object

@[elab_as_elim]
theorem Value.induction (v : Value) : motive v := by
  refine @Value.rec motive (fun l ↦ ∀ v ∈ l, motive v) (fun l ↦ ∀ m ∈ l, motive m.2)
    (fun m ↦ motive m.2) null bool number string array object ?_ ?_ ?_ ?_ ?_ v
  · simp
  · intro v l hv hl
    exact List.forall_mem_cons.mpr ⟨hv, hl⟩
  · simp
  · intro m l hm hl
    exact List.forall_mem_cons.mpr ⟨hm, hl⟩
  · intro k v hv
    exact hv

end induction_

def numeric (b : UInt8) : Bool :=
  isDigit b || b == 45 || b == 43 || b == 46 || b == 101 || b == 69

/-- The texts of a value. What is inside an array or an object stands for its texts already. -/
def texts : Shape (ByteString → Prop) where
  null := (· = lit "null")
  bool b := (· = if b then lit "true" else lit "false")
  number n := (· = n.text)
  string := StringText
  array := ArrayText id
  object := ObjectText id

def ValueText (v : Value) : ByteString → Prop := v.fold texts

section maps

variable {α β : Type} {R : β → ByteString → Prop} {f : α → β}

theorem items_map {l : List α} {i : ByteString} :
    Items R (l.map f) i ↔ Items (fun a ↦ R (f a)) l i := by
  constructor
  · intro h
    generalize hl : l.map f = m at h
    induction h generalizing l with
    | nil =>
      rw [List.map_eq_nil_iff.mp hl]
      exact .nil
    | one h =>
      obtain ⟨a, rfl, rfl⟩ := List.map_eq_singleton_iff.mp hl
      exact .one h
    | more h hw hw' _ ih =>
      obtain ⟨a, r, rfl, rfl, hr⟩ := List.map_eq_cons_iff.mp hl
      obtain ⟨b, q, rfl, rfl, rfl⟩ := List.map_eq_cons_iff.mp hr
      exact .more h hw hw' (ih rfl)
  · intro h
    induction h with
    | nil => exact .nil
    | one h => exact .one h
    | more h hw hw' _ ih => exact .more h hw hw' ih

theorem enclosed_map {open_ close : UInt8} {l : List α} {t : ByteString} :
    Enclosed open_ close R (l.map f) t ↔ Enclosed open_ close (fun a ↦ R (f a)) l t := by
  simp only [Enclosed, items_map]

end maps

theorem valueText_array {l : List Value} {t : ByteString} :
    ValueText (.array l) t ↔ ArrayText ValueText l t := by
  rw [ValueText, Value.fold_array]
  exact enclosed_map

theorem valueText_object {l : List (ByteString × Value)} {t : ByteString} :
    ValueText (.object l) t ↔ ObjectText ValueText l t := by
  rw [ValueText, Value.fold_object]
  exact enclosed_map

variable {v : Value} {n t : ByteString}

theorem numeric_of_isDigit {b : UInt8} (h : isDigit b = true) : numeric b = true := by
  simp [numeric, h]

theorem Digits.numeric {d : ByteString} (h : Digits d) : ∀ b ∈ d, numeric b = true :=
  fun b hb ↦ numeric_of_isDigit (h.2 b hb)

theorem Numeral.numeric (h : Numeral n) : ∀ b ∈ n, numeric b = true := by
  obtain ⟨sign, whole, fraction, exponent, rfl, hsign, hwhole, -, hfraction, hexponent⟩ := h
  have hs : ∀ b ∈ sign, Json.numeric b = true := by
    rcases hsign with rfl | rfl
    · simp
    · simp [Json.numeric]
  have hf : ∀ b ∈ fraction, Json.numeric b = true := by
    rcases hfraction with rfl | ⟨d, hd, rfl⟩
    · simp
    · exact List.forall_mem_cons.mpr ⟨by simp [Json.numeric], hd.numeric⟩
  have he : ∀ b ∈ exponent, Json.numeric b = true := by
    rcases hexponent with rfl | ⟨e, s, d, he, hs, hd, rfl⟩
    · simp
    · refine List.forall_mem_cons.mpr ⟨?_, List.forall_mem_append.mpr ⟨?_, hd.numeric⟩⟩
      · rcases he with rfl | rfl <;> simp [Json.numeric]
      · rcases hs with rfl | rfl | rfl <;> simp [Json.numeric]
  exact List.forall_mem_append.mpr
    ⟨List.forall_mem_append.mpr ⟨List.forall_mem_append.mpr ⟨hs, hwhole.numeric⟩, hf⟩, he⟩

theorem Numeral.head (h : Numeral n) : ∃ b u, n = b :: u ∧ (isDigit b = true ∨ b = 45) := by
  obtain ⟨sign, whole, fraction, exponent, rfl, hsign, hwhole, -, -, -⟩ := h
  rcases hsign with rfl | rfl
  · obtain ⟨b, u, rfl⟩ := List.exists_cons_of_ne_nil hwhole.1
    exact ⟨b, _, rfl, .inl (hwhole.2 b List.mem_cons_self)⟩
  · exact ⟨45, _, rfl, .inr rfl⟩

theorem digits_decimal (n : Nat) : Digits (decimal n) :=
  ⟨digits_ne_nil 10 n, fun _ ↦ isDigit_decimal⟩

theorem head_decimal_zero {n : Nat} (h : (decimal n).head? = some 48) : decimal n = [48] := by
  rcases Nat.eq_zero_or_pos n with rfl | hn
  · decide
  · obtain ⟨b, u, hb, hle⟩ := head_decimal hn
    rw [hb, List.head?_cons, Option.some.injEq] at h
    subst h
    exact absurd hle (by decide)

theorem numeral_signedDecimal (z : Int) : Numeral (signedDecimal z) := by
  cases z with
  | ofNat n =>
    exact ⟨[], decimal n, [], [], by simp [signedDecimal], .inl rfl, digits_decimal n,
      head_decimal_zero, .inl rfl, .inl rfl⟩
  | negSucc n =>
    have hminus : lit "-" = [45] := by decide
    exact ⟨[45], decimal (n + 1), [], [], by simp [signedDecimal, hminus], .inr rfl,
      digits_decimal (n + 1), head_decimal_zero, .inl rfl, .inl rfl⟩

inductive Kind
  | null | yes | no | number | string | array | object

def Value.kind : Value → Kind
  | .null => .null
  | .bool true => .yes
  | .bool false => .no
  | .number _ => .number
  | .string _ => .string
  | .array _ => .array
  | .object _ => .object

def kindOf (b : UInt8) : Option Kind :=
  if isDigit b || b == 45 then some .number
  else if b = 110 then some .null
  else if b = 116 then some .yes
  else if b = 102 then some .no
  else if b = 34 then some .string
  else if b = 91 then some .array
  else if b = 123 then some .object
  else none

def OpensAs (k : Kind) (t : ByteString) : Prop := ∃ b u, t = b :: u ∧ kindOf b = some k

theorem Number.opens (n : Number) : OpensAs .number n.text := by
  obtain ⟨b, u, heq, hb⟩ := n.numeral.head
  refine ⟨b, u, heq, ?_⟩
  rcases hb with hb | rfl
  · simp [kindOf, hb]
  · rfl

theorem ValueText.opens (h : ValueText v t) : OpensAs v.kind t := by
  cases v with
  | null => exact ⟨110, _, h, rfl⟩
  | bool b =>
    cases b with
    | true => exact ⟨116, _, h, rfl⟩
    | false => exact ⟨102, _, h, rfl⟩
  | number n =>
    obtain rfl : t = n.text := h
    exact n.opens
  | string s =>
    obtain ⟨e, s, -, -, rfl⟩ := h
    exact ⟨34, _, rfl, rfl⟩
  | array l =>
    obtain ⟨w, i, w', -, -, -, rfl⟩ := valueText_array.mp h
    exact ⟨91, _, rfl, rfl⟩
  | object l =>
    obtain ⟨w, i, w', -, -, -, rfl⟩ := valueText_object.mp h
    exact ⟨123, _, rfl, rfl⟩

theorem OpensAs.unique {k k' : Kind} {c r r' : ByteString} (h : OpensAs k c) (h' : OpensAs k' t)
    (heq : c ++ r = t ++ r') : k = k' := by
  obtain ⟨b, u, rfl, hb⟩ := h
  obtain ⟨b', u', rfl, hb'⟩ := h'
  obtain ⟨rfl, -⟩ := List.cons.inj heq
  exact Option.some.inj (hb.symm.trans hb')

end Cerberus.Foundation.Json
