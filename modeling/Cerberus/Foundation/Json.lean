import Cerberus.Foundation.Bytes

/-! The texts of JSON values, in UTF-8, and texts that are the only ones at the start of a
string. -/

namespace Cerberus.Foundation.Json

open Bytes

def Unescaped (c : Char) : Prop := 0x20 ≤ c.toNat ∧ c ≠ '"' ∧ c ≠ '\\'

def shortEscape : UInt8 → Option Char
  | 34 => some '"'
  | 92 => some '\\'
  | 47 => some '/'
  | 98 => some (.ofNat 8)
  | 102 => some (.ofNat 12)
  | 110 => some '\n'
  | 114 => some '\r'
  | 116 => some '\t'
  | _ => none

def hexDigit (b : UInt8) : Option Nat :=
  if 48 ≤ b ∧ b ≤ 57 then some (b.toNat - 48)
  else if 65 ≤ b ∧ b ≤ 70 then some (b.toNat - 55)
  else if 97 ≤ b ∧ b ≤ 102 then some (b.toNat - 87)
  else none

inductive Hex4 : ByteString → Nat → Prop
  | mk {a b c d : UInt8} {i j k l : Nat} (ha : hexDigit a = some i) (hb : hexDigit b = some j)
      (hc : hexDigit c = some k) (hd : hexDigit d = some l) :
      Hex4 [a, b, c, d] (((i * 16 + j) * 16 + k) * 16 + l)

inductive Escape : ByteString → Char → Prop
  | short {b : UInt8} {c : Char} (h : shortEscape b = some c) : Escape [92, b] c
  | unicode {x : ByteString} {c : Char} (h : Hex4 x c.toNat) : Escape (92 :: 117 :: x) c
  | pair {x y : ByteString} {m n : Nat} {c : Char} (hx : Hex4 x m) (hm : 0xD800 ≤ m ∧ m < 0xDC00)
      (hy : Hex4 y n) (hn : 0xDC00 ≤ n ∧ n < 0xE000)
      (hc : c.toNat = 0x10000 + (m - 0xD800) * 0x400 + (n - 0xDC00)) :
      Escape (92 :: 117 :: x ++ 92 :: 117 :: y) c

inductive Chars : ByteString → List Char → Prop
  | nil : Chars [] []
  | char {c : Char} {e : ByteString} {s : List Char} (hc : Unescaped c) (h : Chars e s) :
      Chars (String.utf8EncodeChar c ++ e) (c :: s)
  | escape {x : ByteString} {c : Char} {e : ByteString} {s : List Char} (hx : Escape x c)
      (h : Chars e s) : Chars (x ++ e) (c :: s)

def encodeChars (s : List Char) : ByteString := s.flatMap String.utf8EncodeChar

def StringText (v t : ByteString) : Prop :=
  ∃ e s, Chars e s ∧ v = encodeChars s ∧ t = 34 :: e ++ [34]

def IsSpace (b : UInt8) : Prop := b = 32 ∨ b = 9 ∨ b = 10 ∨ b = 13

def Space (w : ByteString) : Prop := ∀ b ∈ w, IsSpace b

section

variable {α : Type}

inductive Items (R : α → ByteString → Prop) : List α → ByteString → Prop
  | nil : Items R [] []
  | one {a : α} {t : ByteString} (h : R a t) : Items R [a] t
  | more {a b : α} {l : List α} {t w w' t' : ByteString} (h : R a t) (hw : Space w) (hw' : Space w')
      (h' : Items R (b :: l) t') : Items R (a :: b :: l) (t ++ w ++ 44 :: (w' ++ t'))

def Enclosed (open_ close : UInt8) (R : α → ByteString → Prop) (l : List α) (t : ByteString) :
    Prop :=
  ∃ w i w', Space w ∧ Items R l i ∧ Space w' ∧ t = open_ :: (w ++ i ++ w') ++ [close]

def ArrayText : (α → ByteString → Prop) → List α → ByteString → Prop := Enclosed 91 93

def MemberText (R : α → ByteString → Prop) (m : ByteString × α) (t : ByteString) : Prop :=
  ∃ k w w' v, StringText m.1 k ∧ Space w ∧ Space w' ∧ R m.2 v ∧ t = k ++ w ++ 58 :: (w' ++ v)

def ObjectText (R : α → ByteString → Prop) : List (ByteString × α) → ByteString → Prop :=
  Enclosed 123 125 (MemberText R)

def Text (R : α → ByteString → Prop) (a : α) (t : ByteString) : Prop :=
  ∃ w b w', Space w ∧ R a b ∧ Space w' ∧ t = w ++ b ++ w'

end

def Plain (v : ByteString) : Prop := ∃ s, v = encodeChars s ∧ ∀ c ∈ s, Unescaped c

variable {p r r' e w w' x : ByteString} {s : List Char} {c : Char} {n : Nat}

theorem quote_not_mem (hc : Unescaped c) : 34 ∉ String.utf8EncodeChar c := by
  have hne : c.val.toNat ≠ 34 := by
    intro h
    exact hc.2.1 (Char.ext (UInt32.toNat_inj.mp h))
  fun_cases String.utf8EncodeChar c <;>
    simp only [List.mem_cons, List.not_mem_nil, or_false, not_or, ← UInt8.toNat_inj,
      UInt8.toNat_ofNat', UInt8.reduceToNat] <;> omega

theorem Hex4.length (h : Hex4 x n) : x.length = 4 := by
  cases h
  rfl

theorem Hex4.quote_not_mem (h : Hex4 x n) : 34 ∉ x := by
  have hno (b : UInt8) {i : Nat} (hb : hexDigit b = some i) : b ≠ 34 := by
    rintro rfl
    cases hb
  cases h with
  | mk ha hb hc hd =>
    simp [(hno _ ha).symm, (hno _ hb).symm, (hno _ hc).symm, (hno _ hd).symm]

theorem Escape.length_lt (h : Escape x c) : (String.utf8EncodeChar c).length < x.length := by
  have hfour := Char.utf8Size_le_four c
  rw [String.length_utf8EncodeChar]
  cases h with
  | short h =>
    have hone : c.utf8Size = 1 := by
      unfold shortEscape at h
      split at h <;> cases h <;> rfl
    simp [hone]
  | unicode h =>
    simp only [List.length_cons, h.length]
    omega
  | pair hx _ hy _ _ =>
    simp only [List.length_append, List.length_cons, hx.length, hy.length]
    omega

theorem Escape.head (h : Escape x c) : ∃ y, x = 92 :: y := by
  cases h <;> exact ⟨_, rfl⟩

theorem Escape.quote (h : Escape x c) : 34 ∉ x ∨ x = [92, 34] ∧ c = '"' := by
  cases h with
  | @short b _ h =>
    by_cases hb : b = 34
    · subst hb
      cases h
      exact .inr ⟨rfl, rfl⟩
    · exact .inl (by simp [Ne.symm hb])
  | unicode h => exact .inl (by simp [h.quote_not_mem])
  | pair hx _ hy _ _ => exact .inl (by simp [hx.quote_not_mem, hy.quote_not_mem])

theorem before_quote {u q : ByteString} (hu : 34 ∉ u) (h : p ++ 34 :: r = u ++ q) :
    ∃ p', p = u ++ p' ∧ p' ++ 34 :: r = q := by
  rcases List.append_eq_append_iff.mp h with ⟨a, hu', ha⟩ | ⟨p', hp', hq⟩
  · cases a with
    | nil => exact ⟨[], by rw [hu', List.append_nil, List.append_nil], by simpa using ha⟩
    | cons b a =>
      obtain ⟨rfl, -⟩ := List.cons.inj ha
      exact absurd (by simp) (hu' ▸ hu)
  · exact ⟨p', hp', hq.symm⟩

/-- The string ends at the first quote, with no more bytes than there are before it, or it has a
quote itself among the first of them. -/
theorem Chars.before (h : Chars e s) (hp : 34 ∉ p) (heq : p ++ 34 :: r = e ++ 34 :: r') :
    (e = p ∧ (encodeChars s).length ≤ p.length ∧ ((encodeChars s).length = p.length →
      encodeChars s = p ∧ ∀ c ∈ s, Unescaped c)) ∨
    ∃ i < p.length, (encodeChars s)[i]? = some 34 := by
  induction h generalizing p with
  | nil =>
    cases p with
    | nil => exact .inl ⟨rfl, le_rfl, fun _ ↦ ⟨rfl, by simp⟩⟩
    | cons b p =>
      obtain ⟨rfl, -⟩ := List.cons.inj heq
      exact absurd List.mem_cons_self hp
  | @char c e s hc _ ih =>
    rw [List.append_assoc] at heq
    obtain ⟨p', rfl, hrest⟩ := before_quote (quote_not_mem hc) heq
    have hs : encodeChars (c :: s) = String.utf8EncodeChar c ++ encodeChars s := rfl
    rw [hs, List.length_append, List.length_append]
    rcases ih (fun h ↦ hp (List.mem_append_right _ h)) hrest with ⟨rfl, hle, hplain⟩ | ⟨i, hi, hget⟩
    · refine .inl ⟨rfl, by omega, fun hlen ↦ ?_⟩
      obtain ⟨hsame, hall⟩ := hplain (by omega)
      exact ⟨by rw [hsame], List.forall_mem_cons.mpr ⟨hc, hall⟩⟩
    · refine .inr ⟨(String.utf8EncodeChar c).length + i, by omega, ?_⟩
      rw [List.getElem?_append_right (by omega), Nat.add_sub_cancel_left, hget]
  | @escape x c e s hx _ ih =>
    have hs : encodeChars (c :: s) = String.utf8EncodeChar c ++ encodeChars s := rfl
    have hlt := hx.length_lt
    rw [List.append_assoc] at heq
    rcases hx.quote with hno | ⟨rfl, rfl⟩
    · obtain ⟨p', rfl, hrest⟩ := before_quote hno heq
      rw [hs, List.length_append, List.length_append]
      rcases ih (fun h ↦ hp (List.mem_append_right _ h)) hrest with ⟨rfl, hle, -⟩ | ⟨i, hi, hget⟩
      · exact .inl ⟨rfl, by omega, fun hlen ↦ by omega⟩
      · refine .inr ⟨(String.utf8EncodeChar c).length + i, by omega, ?_⟩
        rw [List.getElem?_append_right (by omega), Nat.add_sub_cancel_left, hget]
    · cases p with
      | nil => cases (List.cons.inj heq).1
      | cons b p => exact .inr ⟨0, Nat.succ_pos _, rfl⟩

theorem chars_encodeChars (h : ∀ c ∈ s, Unescaped c) : Chars (encodeChars s) s := by
  induction s with
  | nil => exact .nil
  | cons c s ih =>
    obtain ⟨hc, hs⟩ := List.forall_mem_cons.mp h
    exact .char hc (ih hs)

/-- A text at the start of some bytes is the given one, which is a text of the value just on the
condition. -/
structure Prints {α : Type} (R : α → ByteString → Prop) (a : α) (c : ByteString) (P : Prop) :
    Prop where
  text : P → R a c
  only : ∀ t r r', R a t → c ++ r = t ++ r' → t = c ∧ P

def quoted (v : ByteString) : ByteString := 34 :: v ++ [34]

theorem first_quote (v r : ByteString) :
    ∃ p q, 34 ∉ p ∧ p <+: v ∧ v ++ 34 :: r = p ++ 34 :: q := by
  induction v with
  | nil => exact ⟨[], r, List.not_mem_nil, List.prefix_rfl, rfl⟩
  | cons b v ih =>
    by_cases hb : b = 34
    · subst hb
      exact ⟨[], v ++ 34 :: r, List.not_mem_nil, List.nil_prefix, rfl⟩
    · obtain ⟨p, q, hp, hpre, heq⟩ := ih
      refine ⟨b :: p, q, ?_, List.cons_prefix_cons.mpr ⟨rfl, hpre⟩, ?_⟩
      · simp [Ne.symm hb, hp]
      · rw [List.cons_append, heq]
        rfl

/-- A string that is written as it is comes back only if it is plain: the part before its first
quote gives no more bytes than it has, or a quote too early. -/
theorem prints_string (v : ByteString) : Prints StringText v (quoted v) (Plain v) := by
  constructor
  · rintro ⟨s, rfl, hs⟩
    exact ⟨_, s, chars_encodeChars hs, rfl, rfl⟩
  · rintro t r r' ⟨e, s, hchars, rfl, rfl⟩ heq
    have hinner : encodeChars s ++ 34 :: r = e ++ 34 :: r' := by
      simpa [quoted] using heq
    obtain ⟨p, q, hp, ⟨z, hz⟩, hfirst⟩ := first_quote (encodeChars s) r
    rw [hfirst] at hinner
    rcases hchars.before hp hinner with ⟨rfl, hle, hplain⟩ | ⟨i, hi, hget⟩
    · have hnone : z = [] := by
        rw [← hz, List.length_append] at hle
        exact List.eq_nil_of_length_eq_zero (by omega)
      rw [hnone, List.append_nil] at hz
      rw [← hz] at hplain ⊢
      exact ⟨rfl, s, hz, (hplain rfl).2⟩
    · rw [← hz, List.getElem?_append_left hi] at hget
      exact absurd (List.mem_of_getElem? hget) hp

theorem space_unique {b b' : UInt8} (hw : Space w) (hw' : Space w') (hb : ¬IsSpace b)
    (hb' : ¬IsSpace b') (heq : w ++ b :: r = w' ++ b' :: r') : w = w' ∧ b :: r = b' :: r' := by
  induction w generalizing w' with
  | nil =>
    cases w' with
    | nil => exact ⟨rfl, heq⟩
    | cons d w' =>
      obtain ⟨rfl, -⟩ := List.cons.inj heq
      exact absurd (hw' b List.mem_cons_self) hb
  | cons a w ih =>
    cases w' with
    | nil =>
      obtain ⟨rfl, -⟩ := List.cons.inj heq
      exact absurd (hw a List.mem_cons_self) hb'
    | cons d w' =>
      obtain ⟨rfl, hrest⟩ := List.cons.inj heq
      obtain ⟨rfl, hsame⟩ := ih (fun x hx ↦ hw x (List.mem_cons_of_mem _ hx))
        (fun x hx ↦ hw' x (List.mem_cons_of_mem _ hx)) hrest
      exact ⟨rfl, hsame⟩

def Solid (t : ByteString) : Prop := ∃ b r, t = b :: r ∧ ¬IsSpace b

theorem Solid.append (h : Solid x) (r : ByteString) : Solid (x ++ r) := by
  obtain ⟨b, y, rfl, hb⟩ := h
  exact ⟨b, y ++ r, rfl, hb⟩

theorem Solid.unique {y : ByteString} (hw : Space w) (hw' : Space w') (hx : Solid x) (hy : Solid y)
    (heq : w ++ x = w' ++ y) : w = w' ∧ x = y := by
  obtain ⟨b, r, rfl, hb⟩ := hx
  obtain ⟨b', r', rfl, hb'⟩ := hy
  exact space_unique hw hw' hb hb' heq

theorem Solid.break_left {y : ByteString} (hx : Solid x) (hw : Space w) (h : 10 :: y = w ++ x) :
    ∃ v, w = 10 :: v ∧ Space v ∧ y = v ++ x := by
  cases w with
  | nil =>
    obtain ⟨b, r, rfl, hb⟩ := hx
    obtain ⟨rfl, -⟩ := List.cons.inj h
    exact absurd (.inr (.inr (.inl rfl))) hb
  | cons b v =>
    obtain ⟨rfl, hy⟩ := List.cons.inj h
    exact ⟨v, rfl, fun b hb ↦ hw b (List.mem_cons_of_mem _ hb), hy⟩

theorem space_nil : Space [] := by simp [Space]

section lists

variable {α : Type} {R : α → ByteString → Prop} {item : α → ByteString} {P : α → Prop}
  {pre : ByteString} {l : List α} {i t : ByteString}

def block (pre : ByteString) (item : α → ByteString) (l : List α) : ByteString :=
  List.intercalate [44, 10] (l.map (fun a ↦ pre ++ item a))

theorem block_cons (a b : α) (l : List α) : block pre item (a :: b :: l) =
    pre ++ (item a ++ 44 :: 10 :: block pre item (b :: l)) := by
  simp [block, List.intercalate]

theorem block_single (a : α) : block pre item [a] = pre ++ item a := by
  simp [block, List.intercalate]

theorem items_text (hpre : Space pre) (hprints : ∀ a, Prints R a (item a) (P a)) (hne : l ≠ [])
    (h : ∀ a ∈ l, P a) : ∃ i, Items R l i ∧ block pre item l = pre ++ i := by
  induction l with
  | nil => exact absurd rfl hne
  | cons a l ih =>
    have ha := (hprints a).text (h a List.mem_cons_self)
    cases l with
    | nil => exact ⟨item a, .one ha, block_single a⟩
    | cons b l =>
      obtain ⟨i, hi, heq⟩ := ih (by simp) (fun x hx ↦ h x (List.mem_cons_of_mem _ hx))
      have hbreak : Space (10 :: pre) := List.forall_mem_cons.mpr ⟨.inr (.inr (.inl rfl)), hpre⟩
      refine ⟨_, .more ha space_nil hbreak hi, ?_⟩
      rw [block_cons, heq, List.append_nil]
      rfl

theorem Items.solid (hsolid : ∀ a t, R a t → Solid t) (hne : l ≠ []) (h : Items R l i) :
    Solid i := by
  cases h with
  | nil => exact absurd rfl hne
  | one h => exact hsolid _ _ h
  | more h _ _ _ =>
    rw [List.append_assoc]
    exact (hsolid _ _ h).append _

theorem items_only (hpre : Space pre) (hsolid : ∀ a t, R a t → Solid t)
    (hitem : ∀ a, Solid (item a)) (hprints : ∀ a, Prints R a (item a) (P a)) (hne : l ≠ [])
    (h : Items R l i) (hw : Space w) (heq : block pre item l ++ r = w ++ i ++ r') :
    w ++ i = block pre item l ∧ ∀ a ∈ l, P a := by
  induction h generalizing w with
  | nil => exact absurd rfl hne
  | @one a t h =>
    rw [block_single, List.append_assoc, List.append_assoc] at heq
    obtain ⟨rfl, hrest⟩ :=
      Solid.unique hpre hw ((hitem a).append r) ((hsolid a t h).append r') heq
    obtain ⟨rfl, ha⟩ := (hprints a).only t r r' h hrest
    exact ⟨(block_single a).symm, List.forall_mem_singleton.mpr ha⟩
  | @more a b l t v v' t' h hv hv' h' ih =>
    rw [block_cons] at heq ⊢
    simp only [List.append_assoc, List.cons_append] at heq ⊢
    obtain ⟨rfl, hrest⟩ :=
      Solid.unique hpre hw ((hitem a).append _) ((hsolid a t h).append _) heq
    obtain ⟨rfl, ha⟩ := (hprints a).only t _ _ h hrest
    have hcomma := List.append_cancel_left hrest
    obtain ⟨rfl, hcomma⟩ :=
      space_unique space_nil hv (by simp [IsSpace]) (by simp [IsSpace]) hcomma
    obtain ⟨v, rfl, hspace, hnext⟩ :=
      ((h'.solid hsolid (by simp)).append r').break_left hv' (List.cons.inj hcomma).2
    obtain ⟨hrest, hl⟩ := ih (by simp) hspace (by rw [hnext, List.append_assoc])
    refine ⟨?_, List.forall_mem_cons.mpr ⟨ha, hl⟩⟩
    rw [List.nil_append, List.cons_append, hrest]

def printed (open_ close : UInt8) (pre indent : ByteString) (item : α → ByteString) (l : List α) :
    ByteString :=
  open_ :: 10 :: (block pre item l ++ 10 :: (indent ++ [close]))

theorem prints_enclosed {open_ close : UInt8} {indent : ByteString} (hclose : ¬IsSpace close)
    (hpre : Space pre) (hindent : Space indent) (hsolid : ∀ a t, R a t → Solid t)
    (hitem : ∀ a, Solid (item a)) (hprints : ∀ a, Prints R a (item a) (P a)) (l : List α) :
    Prints (Enclosed open_ close R) l (printed open_ close pre indent item l) (∀ a ∈ l, P a) := by
  have hlast : Space (10 :: indent) := List.forall_mem_cons.mpr ⟨.inr (.inr (.inl rfl)), hindent⟩
  constructor
  · intro h
    by_cases hl : l = []
    · subst hl
      refine ⟨[10], [], 10 :: indent, ?_, .nil, hlast, ?_⟩
      · exact List.forall_mem_singleton.mpr (.inr (.inr (.inl rfl)))
      · simp [printed, block, List.intercalate]
    · obtain ⟨i, hi, heq⟩ := items_text hpre hprints hl h
      refine ⟨10 :: pre, i, 10 :: indent, ?_, hi, hlast, ?_⟩
      · exact List.forall_mem_cons.mpr ⟨.inr (.inr (.inl rfl)), hpre⟩
      · simp [printed, heq]
  · rintro t r r' ⟨w, i, w', hw, hi, hw', rfl⟩ heq
    simp only [printed, List.cons_append, List.append_assoc, List.nil_append] at heq
    have hinner := (List.cons.inj heq).2
    by_cases hl : l = []
    · subst hl
      cases hi
      have hfirst : Space (10 :: 10 :: indent) :=
        List.forall_mem_cons.mpr ⟨.inr (.inr (.inl rfl)), hlast⟩
      have hboth : Space (w ++ w') := List.forall_mem_append.mpr ⟨hw, hw'⟩
      have hends : (w ++ w') ++ close :: r' = (10 :: 10 :: indent) ++ close :: r := by
        simpa [block, List.intercalate] using hinner.symm
      have hspaces := (space_unique hboth hfirst hclose hclose hends).1
      refine ⟨?_, by simp⟩
      rw [List.append_nil, hspaces]
      rfl
    · have hi' := hi.solid hsolid hl
      obtain ⟨v, rfl, hv, hrest⟩ := (hi'.append _).break_left hw hinner
      rw [← List.append_assoc v] at hrest
      obtain ⟨hsame, hall⟩ := items_only hpre hsolid hitem hprints hl hi hv hrest
      rw [hsame] at hrest
      have hend := List.append_cancel_left hrest
      obtain ⟨rfl, -⟩ := space_unique hlast hw' hclose hclose hend
      refine ⟨?_, hall⟩
      simp [printed, ← hsame]

theorem solid_enclosed {open_ close : UInt8} (hopen : ¬IsSpace open_)
    (h : Enclosed open_ close R l t) : Solid t := by
  obtain ⟨w, i, w', -, -, -, rfl⟩ := h
  exact ⟨open_, _, rfl, hopen⟩

end lists

theorem solid_string {v t : ByteString} (h : StringText v t) : Solid t := by
  obtain ⟨e, s, -, -, rfl⟩ := h
  exact ⟨34, _, rfl, by simp [IsSpace]⟩

def member (m : ByteString × ByteString) : ByteString := quoted m.1 ++ 58 :: 32 :: quoted m.2

theorem prints_member (m : ByteString × ByteString) :
    Prints (MemberText StringText) m (member m) (Plain m.1 ∧ Plain m.2) := by
  constructor
  · rintro ⟨hname, hvalue⟩
    exact ⟨_, [], [32], _, (prints_string m.1).text hname, space_nil,
      List.forall_mem_singleton.mpr (.inl rfl), (prints_string m.2).text hvalue, by simp [member]⟩
  · rintro t r r' ⟨k, w, w', v, hk, hw, hw', hv, rfl⟩ heq
    simp only [member, List.append_assoc, List.cons_append] at heq
    obtain ⟨rfl, hname⟩ := (prints_string m.1).only k _ _ hk heq
    obtain ⟨rfl, hcolon⟩ := space_unique space_nil hw (by simp [IsSpace]) (by simp [IsSpace])
      (List.append_cancel_left heq)
    have hblank : Space [32] := List.forall_mem_singleton.mpr (.inl rfl)
    have hquoted : Solid (quoted m.2) := ⟨34, _, rfl, by simp [IsSpace]⟩
    obtain ⟨rfl, hrest⟩ := Solid.unique hblank hw' (hquoted.append r) ((solid_string hv).append r')
      (List.cons.inj hcolon).2
    obtain ⟨rfl, hvalue⟩ := (prints_string m.2).only v r r' hv hrest
    exact ⟨by simp [member], hname, hvalue⟩

theorem solid_member {m : ByteString × ByteString} {t : ByteString}
    (h : MemberText StringText m t) : Solid t := by
  obtain ⟨k, w, w', v, hk, -, -, -, rfl⟩ := h
  rw [List.append_assoc]
  exact (solid_string hk).append _

def printedObject : List (ByteString × ByteString) → ByteString :=
  printed 123 125 [32, 32, 32, 32] [32, 32] member

def printedObjects (l : List (List (ByteString × ByteString))) : ByteString :=
  printed 91 93 [32, 32] [] printedObject l ++ [10]

theorem text_printedObjects_iff (l : List (List (ByteString × ByteString))) :
    Text (ArrayText (ObjectText StringText)) l (printedObjects l) ↔
      ∀ o ∈ l, ∀ m ∈ o, Plain m.1 ∧ Plain m.2 := by
  have hblanks (n : Nat) : Space (List.replicate n 32) :=
    fun b hb ↦ .inl (List.eq_of_mem_replicate hb)
  have hobject := @prints_enclosed _ (MemberText StringText) member _ _ 123 125 _
    (by simp [IsSpace]) (hblanks 4) (hblanks 2) (fun _ _ h ↦ solid_member h)
    (fun m ↦ ⟨34, _, rfl, by simp [IsSpace]⟩) prints_member
  have harray := @prints_enclosed _ (ObjectText StringText) printedObject _ _ 91 93 _
    (by simp [IsSpace]) (hblanks 2) space_nil (fun _ _ h ↦ solid_enclosed (by simp [IsSpace]) h)
    (fun o ↦ ⟨123, _, rfl, by simp [IsSpace]⟩) hobject l
  constructor
  · rintro ⟨w, b, w', hw, hb, -, heq⟩
    have hstart : Solid (printedObjects l) := ⟨91, _, rfl, by simp [IsSpace]⟩
    have hb' : Solid (b ++ w') := (solid_enclosed (by simp [IsSpace]) hb).append w'
    rw [List.append_assoc] at heq
    obtain ⟨rfl, hrest⟩ := Solid.unique space_nil hw hstart hb' heq
    exact (harray.only b [10] w' hb hrest).2
  · intro h
    exact ⟨[], _, [10], space_nil, harray.text h,
      List.forall_mem_singleton.mpr (.inr (.inr (.inl rfl))), rfl⟩

end Cerberus.Foundation.Json
