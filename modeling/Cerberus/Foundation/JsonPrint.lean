import Cerberus.Foundation.JsonValue

/-! A printer without white space that escapes some bytes of its strings, and when its text is a
text of the value that was printed, and of no other. -/

namespace Cerberus.Foundation.Json

open Bytes

/-- Some bytes are written as a backslash and another byte, the quote and the backslash among
them. -/
structure Escaper where
  short : UInt8 → Option UInt8
  sound : ∀ b d, short b = some d → ∃ c, shortEscape d = some c ∧ String.utf8EncodeChar c = [b]
  quote : ∃ d, short 34 = some d
  backslash : ∃ d, short 92 = some d

namespace Escaper

variable (E : Escaper)

def piece (b : UInt8) : ByteString :=
  match E.short b with
  | some d => [92, d]
  | none => [b]

def escape (v : ByteString) : ByteString := v.flatMap E.piece

def enquote (v : ByteString) : ByteString := 34 :: E.escape v ++ [34]

/-- The bytes are characters, and what must not stand for itself is escaped. -/
def Covers (v : ByteString) : Prop :=
  (∃ s, v = encodeChars s) ∧ ∀ b ∈ v, E.short b = none → 32 ≤ b

variable {E} {b d : UInt8} {v u e q r r' x : ByteString} {s : List Char} {c : Char}

theorem piece_some (h : E.short b = some d) : E.piece b = [92, d] := by
  rw [piece, h]

theorem piece_none (h : E.short b = none) : E.piece b = [b] := by
  rw [piece, h]

theorem escape_cons (b : UInt8) (v : ByteString) :
    E.escape (b :: v) = E.piece b ++ E.escape v := rfl

theorem escape_append (u v : ByteString) : E.escape (u ++ v) = E.escape u ++ E.escape v :=
  List.flatMap_append

theorem large {k : Nat} (h : 128 ≤ k) (h' : k < 256) : 128 ≤ UInt8.ofNat k := by
  rw [UInt8.le_iff_toNat_le, UInt8.toNat_ofNat_of_lt' h']
  exact h

theorem encode_cases (c : Char) :
    (c.toNat < 128 ∧ String.utf8EncodeChar c = [UInt8.ofNat c.toNat]) ∨
    (128 ≤ c.toNat ∧ 1 < (String.utf8EncodeChar c).length ∧
      ∀ b ∈ String.utf8EncodeChar c, 128 ≤ b) := by
  have hc : c.toNat = c.val.toNat := rfl
  fun_cases String.utf8EncodeChar c with
  | case1 v h => exact .inl ⟨by omega, rfl⟩
  | case2 v h h' =>
    refine .inr ⟨by omega, by simp, ?_⟩
    simp only [List.forall_mem_cons]
    exact ⟨large (by omega) (by omega), large (by omega) (by omega), by simp⟩
  | case3 v h h' =>
    refine .inr ⟨by omega, by simp, ?_⟩
    simp only [List.forall_mem_cons]
    exact ⟨large (by omega) (by omega), large (by omega) (by omega), large (by omega) (by omega),
      by simp⟩
  | case4 v h h' =>
    refine .inr ⟨by omega, by simp, ?_⟩
    simp only [List.forall_mem_cons]
    exact ⟨large (by omega) (by omega), large (by omega) (by omega), large (by omega) (by omega),
      large (by omega) (by omega), by simp⟩

theorem encode_singleton (h : String.utf8EncodeChar c = [b]) : c.toNat = b.toNat ∧ b < 128 := by
  rcases encode_cases c with ⟨hlt, heq⟩ | ⟨-, hlen, -⟩
  · obtain rfl : UInt8.ofNat c.toNat = b := by simpa [heq] using h
    rw [UInt8.lt_iff_toNat_lt, UInt8.toNat_ofNat_of_lt' (Nat.lt_trans hlt (by decide))]
    exact ⟨rfl, hlt⟩
  · rw [h] at hlen
    exact absurd hlen (by simp)

theorem encode_singleton_unique {c' : Char} (h : String.utf8EncodeChar c = [b])
    (h' : String.utf8EncodeChar c' = [b]) : c = c' := by
  have hnat : c.toNat = c'.toNat := (encode_singleton h).1.trans (encode_singleton h').1.symm
  exact Char.ext (UInt32.toNat_inj.mp hnat)

theorem short_large (h : 128 ≤ b) : E.short b = none := by
  cases hb : E.short b with
  | none => rfl
  | some d =>
    obtain ⟨c, -, hc⟩ := E.sound b d hb
    exact absurd h (UInt8.not_le.mpr (encode_singleton hc).2)

theorem escape_plain (h : ∀ b ∈ u, E.short b = none) : E.escape u = u := by
  induction u with
  | nil => rfl
  | cons b u ih =>
    obtain ⟨hb, hu⟩ := List.forall_mem_cons.mp h
    rw [escape_cons, piece_none hb, ih hu]
    rfl

theorem ne_quote (h : E.short b = none) : b ≠ 34 ∧ b ≠ 92 := by
  obtain ⟨d, hd⟩ := E.quote
  obtain ⟨d', hd'⟩ := E.backslash
  constructor
  · rintro rfl
    rw [hd] at h
    cases h
  · rintro rfl
    rw [hd'] at h
    cases h

theorem encode_unescaped (h : Unescaped c) :
    ∀ b ∈ String.utf8EncodeChar c, 32 ≤ b ∧ b ≠ 34 ∧ b ≠ 92 := by
  intro b hb
  rcases encode_cases c with ⟨-, heq⟩ | ⟨-, -, hall⟩
  · obtain rfl : b = UInt8.ofNat c.toNat := by simpa [heq] using hb
    refine ⟨?_, ?_, ?_⟩
    · rw [UInt8.le_iff_toNat_le, ← (encode_singleton heq).1]
      exact h.1
    · intro hquote
      rw [hquote] at heq
      exact h.2.1 (encode_singleton_unique heq (by decide))
    · intro hbackslash
      rw [hbackslash] at heq
      exact h.2.2 (encode_singleton_unique heq (by decide))
  · have hlarge := hall b hb
    refine ⟨UInt8.le_trans (by decide) hlarge, ?_, ?_⟩
    · rintro rfl
      exact absurd hlarge (by decide)
    · rintro rfl
      exact absurd hlarge (by decide)

theorem unescaped_of_singleton (h : String.utf8EncodeChar c = [b]) (hb : 32 ≤ b)
    (hne : b ≠ 34 ∧ b ≠ 92) : Unescaped c := by
  refine ⟨?_, ?_, ?_⟩
  · rw [(encode_singleton h).1]
    exact UInt8.le_iff_toNat_le.mp hb
  · rintro rfl
    exact hne.1 (List.singleton_inj.mp h).symm
  · rintro rfl
    exact hne.2 (List.singleton_inj.mp h).symm

theorem chars_escape (h : ∀ b ∈ encodeChars s, E.short b = none → 32 ≤ b) :
    Chars (E.escape (encodeChars s)) s := by
  induction s with
  | nil => exact .nil
  | cons c s ih =>
    have hs : encodeChars (c :: s) = String.utf8EncodeChar c ++ encodeChars s := rfl
    rw [hs] at h ⊢
    obtain ⟨hc, hrest⟩ := List.forall_mem_append.mp h
    rw [escape_append]
    rcases encode_cases c with ⟨-, heq⟩ | ⟨hlarge, -, hall⟩
    · cases hshort : E.short (UInt8.ofNat c.toNat) with
      | none =>
        have hb := hc _ (by simp [heq]) hshort
        rw [escape_plain (by simpa [heq] using hshort)]
        exact .char (unescaped_of_singleton heq hb (ne_quote hshort)) (ih hrest)
      | some d =>
        obtain ⟨c', hd, hc'⟩ := E.sound _ d hshort
        obtain rfl := encode_singleton_unique hc' heq
        rw [hc', escape_cons, piece_some hshort]
        exact .escape (.short hd) (ih hrest)
    · rw [escape_plain (fun b hb ↦ short_large (hall b hb))]
      refine .char ⟨by omega, ?_, ?_⟩ (ih hrest)
      · rintro rfl
        exact absurd hlarge (by decide)
      · rintro rfl
        exact absurd hlarge (by decide)

theorem plain_front (hu : ∀ b ∈ u, b ≠ 34 ∧ b ≠ 92) (heq : E.escape v ++ 34 :: r = u ++ q) :
    ∃ v', v = u ++ v' ∧ (∀ b ∈ u, E.short b = none) ∧ E.escape v' ++ 34 :: r = q := by
  induction u generalizing v with
  | nil => exact ⟨v, rfl, by simp, heq⟩
  | cons a u ih =>
    obtain ⟨ha, hrest⟩ := List.forall_mem_cons.mp hu
    cases v with
    | nil => exact absurd (List.cons.inj heq).1.symm ha.1
    | cons b v =>
      cases hb : E.short b with
      | none =>
        rw [escape_cons, piece_none hb] at heq
        obtain ⟨rfl, hsame⟩ := List.cons.inj heq
        obtain ⟨v', rfl, hnone, hq⟩ := ih hrest hsame
        exact ⟨v', rfl, List.forall_mem_cons.mpr ⟨hb, hnone⟩, hq⟩
      | some d =>
        rw [escape_cons, piece_some hb] at heq
        exact absurd (List.cons.inj heq).1.symm ha.2

theorem chars_only (h : Chars e s) (heq : E.escape v ++ 34 :: r = e ++ 34 :: r') :
    e = E.escape v ∧ encodeChars s = v ∧ ∀ b ∈ v, E.short b = none → 32 ≤ b := by
  induction h generalizing v with
  | nil =>
    cases v with
    | nil => exact ⟨rfl, rfl, by simp⟩
    | cons b v =>
      cases hb : E.short b with
      | none =>
        rw [escape_cons, piece_none hb] at heq
        exact absurd (List.cons.inj heq).1 (ne_quote hb).1
      | some d =>
        rw [escape_cons, piece_some hb] at heq
        exact absurd (List.cons.inj heq).1 (by decide)
  | @char c e s hc _ ih =>
    have hbytes := encode_unescaped hc
    rw [List.append_assoc] at heq
    obtain ⟨v', rfl, hnone, hrest⟩ := plain_front (fun b hb ↦ (hbytes b hb).2) heq
    obtain ⟨rfl, rfl, hcovers⟩ := ih hrest
    refine ⟨by rw [escape_append, escape_plain hnone], rfl, ?_⟩
    exact List.forall_mem_append.mpr ⟨fun b hb _ ↦ (hbytes b hb).1, hcovers⟩
  | @escape x c e s hx _ ih =>
    obtain ⟨y, rfl⟩ := hx.head
    cases v with
    | nil => exact absurd (List.cons.inj heq).1 (by decide)
    | cons b v =>
      cases hb : E.short b with
      | none =>
        rw [escape_cons, piece_none hb] at heq
        exact absurd (List.cons.inj heq).1 (ne_quote hb).2
      | some d =>
        obtain ⟨c', hd, hc'⟩ := E.sound b d hb
        rw [escape_cons, piece_some hb] at heq ⊢
        have hd117 : d ≠ 117 := by
          rintro rfl
          cases hd
        cases hx with
        | short h =>
          obtain ⟨rfl, hrest⟩ := List.cons.inj (List.cons.inj heq).2
          obtain rfl : c' = c := Option.some.inj (hd.symm.trans h)
          obtain ⟨rfl, rfl, hcovers⟩ := ih hrest
          have hs : encodeChars (c' :: s) = String.utf8EncodeChar c' ++ encodeChars s := rfl
          refine ⟨rfl, by rw [hs, hc']; rfl, List.forall_mem_cons.mpr ⟨?_, hcovers⟩⟩
          intro hnone
          rw [hb] at hnone
          cases hnone
        | unicode h => exact absurd (List.cons.inj (List.cons.inj heq).2).1 hd117
        | pair hx hm hy hn hc => exact absurd (List.cons.inj (List.cons.inj heq).2).1 hd117

theorem string_only {t : ByteString} (h : StringText u t) (heq : E.enquote v ++ r = t ++ r') :
    t = E.enquote v ∧ u = v ∧ E.Covers v := by
  obtain ⟨e, s, hchars, rfl, rfl⟩ := h
  have hinner : E.escape v ++ 34 :: r = e ++ 34 :: r' := by
    simpa [enquote] using heq
  obtain ⟨rfl, rfl, hcovers⟩ := chars_only hchars hinner
  exact ⟨rfl, rfl, ⟨s, rfl⟩, hcovers⟩

theorem string_enquote (h : E.Covers v) : StringText v (E.enquote v) := by
  obtain ⟨⟨s, rfl⟩, hcovers⟩ := h
  exact ⟨_, s, chars_escape hcovers, rfl, rfl⟩

end Escaper

def Ends (r : ByteString) : Prop := ∀ b ∈ r.head?, numeric b = false

/-- A text at the start of some bytes is the given one, of the given value, just on the
condition. -/
structure Renders {α : Type} (R : α → ByteString → Prop) (a : α) (c : ByteString) (P : Prop) :
    Prop where
  text : P → R a c
  only : ∀ b t r r', Ends r → Ends r' → R b t → c ++ r = t ++ r' → t = c ∧ b = a ∧ P

def Begins (t : ByteString) : Prop := ∃ b u, t = b :: u ∧ ¬IsSpace b ∧ b ≠ 44 ∧ b ≠ 93 ∧ b ≠ 125

section lists

variable {α : Type} {R : α → ByteString → Prop} {item : α → ByteString} {P : α → Prop}
  {l l' : List α} {a : α} {b close : UInt8} {i r r' t w w' x : ByteString}

theorem Begins.solid (h : Begins t) : Solid t := by
  obtain ⟨b, u, rfl, hb, -⟩ := h
  exact ⟨b, u, rfl, hb⟩

theorem ends_cons (h : numeric b = false) : Ends (b :: r) := by
  simpa [Ends] using h

theorem numeric_space (h : IsSpace b) : numeric b = false := by
  rcases h with rfl | rfl | rfl | rfl <;> decide

theorem ends_space (hw : Space w) (h : Ends r) : Ends (w ++ r) := by
  cases w with
  | nil => exact h
  | cons b w => exact ends_cons (numeric_space (hw b List.mem_cons_self))

def commas (item : α → ByteString) (l : List α) : ByteString := List.intercalate [44] (l.map item)

theorem commas_single (a : α) : commas item [a] = item a := by
  simp [commas, List.intercalate]

theorem commas_cons (a b : α) (l : List α) :
    commas item (a :: b :: l) = item a ++ 44 :: commas item (b :: l) := by
  simp [commas, List.intercalate]

theorem items_commas (h : ∀ a ∈ l, R a (item a)) : Items R l (commas item l) := by
  induction l with
  | nil => exact .nil
  | cons a l ih =>
    obtain ⟨ha, hl⟩ := List.forall_mem_cons.mp h
    cases l with
    | nil =>
      rw [commas_single]
      exact .one ha
    | cons b l =>
      have hmore := Items.more ha space_nil space_nil (ih hl)
      rw [List.append_nil, List.nil_append] at hmore
      rw [commas_cons]
      exact hmore

theorem Begins.not_closing (h : Begins x) (hw : Space w) (hclose : close = 93 ∨ close = 125)
    (heq : x ++ r = w ++ close :: r') : False := by
  obtain ⟨b, u, rfl, hspace, -, hsquare, hcurly⟩ := h
  cases w with
  | nil =>
    obtain ⟨rfl, -⟩ := List.cons.inj heq
    rcases hclose with h | h
    · exact hsquare h
    · exact hcurly h
  | cons c w =>
    obtain ⟨rfl, -⟩ := List.cons.inj heq
    exact hspace (hw b List.mem_cons_self)

theorem not_space_close (hclose : close = 93 ∨ close = 125) : ¬IsSpace close := by
  rcases hclose with rfl | rfl <;> simp [IsSpace]

theorem numeric_close (hclose : close = 93 ∨ close = 125) : numeric close = false := by
  rcases hclose with rfl | rfl <;> decide

theorem Begins.append (h : Begins t) (r : ByteString) : Begins (t ++ r) := by
  obtain ⟨b, u, rfl, hb⟩ := h
  exact ⟨b, u ++ r, rfl, hb⟩

theorem Items.begins (hbegins : ∀ a t, R a t → Begins t) (h : Items R (a :: l) i) : Begins i := by
  cases h with
  | one h => exact hbegins _ _ h
  | more h _ _ _ =>
    rw [List.append_assoc]
    exact (hbegins _ _ h).append _

theorem begins_commas (h : Begins (item a)) : Begins (commas item (a :: l)) := by
  cases l with
  | nil => rwa [commas_single]
  | cons b l =>
    rw [commas_cons]
    exact h.append _

/-- Items that end with the same bracket as the ones that were written are the same, with no white
space around them. -/
theorem commas_only (hclose : close = 93 ∨ close = 125)
    (hrenders : ∀ a ∈ l, Renders R a (item a) (P a)) (hbegins : ∀ a t, R a t → Begins t)
    (hitem : ∀ a ∈ l, Begins (item a)) (h : Items R l' i) (hw : Space w) (hw' : Space w')
    (heq : commas item l ++ close :: r = w ++ i ++ w' ++ close :: r') :
    w ++ i ++ w' = commas item l ∧ l' = l ∧ ∀ a ∈ l, P a := by
  have hspace := not_space_close hclose
  have hends {q : ByteString} : Ends (close :: q) := ends_cons (numeric_close hclose)
  have hcomma : ¬IsSpace 44 := by simp [IsSpace]
  have hne : close ≠ 44 := by
    rcases hclose with rfl | rfl <;> decide
  induction l generalizing w l' i with
  | nil =>
    cases l' with
    | nil =>
      cases h
      have hboth : Space (w ++ [] ++ w') := by
        rw [List.append_nil]
        exact List.forall_mem_append.mpr ⟨hw, hw'⟩
      obtain ⟨hnil, -⟩ := space_unique space_nil hboth hspace hspace heq
      exact ⟨hnil.symm, rfl, by simp⟩
    | cons b l' =>
      have hi := (h.begins hbegins).append (w' ++ close :: r')
      simp only [List.append_assoc] at heq
      obtain ⟨rfl, hrest⟩ := Solid.unique space_nil hw ⟨close, r, rfl, hspace⟩ hi.solid heq
      exact (((h.begins hbegins)).not_closing space_nil hclose hrest.symm).elim
  | cons a l ih =>
    obtain ⟨ha, hl⟩ := List.forall_mem_cons.mp hrenders
    obtain ⟨hfirst, hothers⟩ := List.forall_mem_cons.mp hitem
    have hstart := begins_commas (l := l) hfirst
    cases h with
    | nil =>
      have hboth : Space (w ++ [] ++ w') := by
        rw [List.append_nil]
        exact List.forall_mem_append.mpr ⟨hw, hw'⟩
      exact (hstart.not_closing hboth hclose heq).elim
    | one h =>
      simp only [List.append_assoc] at heq
      obtain ⟨rfl, hrest⟩ :=
        Solid.unique space_nil hw (hstart.append _).solid ((hbegins _ _ h).append _).solid heq
      cases l with
      | nil =>
        rw [commas_single] at hrest ⊢
        obtain ⟨rfl, rfl, hp⟩ := ha.only _ _ _ _ hends (ends_space hw' hends) h hrest
        obtain ⟨rfl, -⟩ :=
          space_unique space_nil hw' hspace hspace (List.append_cancel_left hrest)
        exact ⟨by simp, rfl, List.forall_mem_singleton.mpr hp⟩
      | cons d l =>
        rw [commas_cons, List.append_assoc] at hrest
        obtain ⟨rfl, -, -⟩ :=
          ha.only _ _ _ _ (ends_cons (by decide)) (ends_space hw' hends) h hrest
        obtain ⟨-, hclash⟩ :=
          space_unique space_nil hw' hcomma hspace (List.append_cancel_left hrest)
        exact absurd (List.cons.inj hclash).1.symm hne
    | @more b b' l' t v v' t' h hv hv' h' =>
      simp only [List.append_assoc, List.cons_append] at heq
      obtain ⟨rfl, hrest⟩ :=
        Solid.unique space_nil hw (hstart.append _).solid ((hbegins b t h).append _).solid heq
      have hnext {q : ByteString} : Ends (v ++ 44 :: q) := ends_space hv (ends_cons (by decide))
      cases l with
      | nil =>
        rw [commas_single] at hrest
        obtain ⟨rfl, -, -⟩ := ha.only b t _ _ hends hnext h hrest
        obtain ⟨-, hclash⟩ :=
          space_unique space_nil hv hspace hcomma (List.append_cancel_left hrest)
        exact absurd (List.cons.inj hclash).1 hne
      | cons d l =>
        rw [commas_cons, List.append_assoc] at hrest
        obtain ⟨rfl, rfl, hp⟩ := ha.only b t _ _ (ends_cons (by decide)) hnext h hrest
        obtain ⟨rfl, hsame⟩ :=
          space_unique space_nil hv hcomma hcomma (List.append_cancel_left hrest)
        have htail : commas item (d :: l) ++ close :: r = v' ++ t' ++ w' ++ close :: r' := by
          simpa using (List.cons.inj hsame).2
        obtain ⟨hitems, hsamel, hall⟩ := ih hl hothers h' hv' htail
        refine ⟨?_, by rw [hsamel], List.forall_mem_cons.mpr ⟨hp, hall⟩⟩
        rw [commas_cons, ← hitems]
        simp

def enclosed (open_ close : UInt8) (item : α → ByteString) (l : List α) : ByteString :=
  open_ :: commas item l ++ [close]

theorem renders_enclosed {open_ : UInt8} (hclose : close = 93 ∨ close = 125)
    (hbegins : ∀ a t, R a t → Begins t) (hitem : ∀ a ∈ l, Begins (item a))
    (hrenders : ∀ a ∈ l, Renders R a (item a) (P a)) :
    Renders (Enclosed open_ close R) l (enclosed open_ close item l) (∀ a ∈ l, P a) := by
  constructor
  · intro h
    have hitems := items_commas (fun a ha ↦ (hrenders a ha).text (h a ha))
    exact ⟨[], _, [], space_nil, hitems, space_nil, by simp [enclosed]⟩
  · rintro l' t r r' - - ⟨w, i, w', hw, hi, hw', rfl⟩ heq
    have hinner : commas item l ++ close :: r = w ++ i ++ w' ++ close :: r' := by
      simpa [enclosed] using heq
    obtain ⟨hsame, hl, hall⟩ := commas_only hclose hrenders hbegins hitem hi hw hw' hinner
    exact ⟨by rw [hsame, enclosed], hl, hall⟩

end lists

section values

variable (E : Escaper)

def Escaper.member (m : ByteString × ByteString) : ByteString := E.enquote m.1 ++ 58 :: m.2

def Escaper.printer : Shape ByteString where
  null := lit "null"
  bool b := if b then lit "true" else lit "false"
  number n := n.text
  string := E.enquote
  array := enclosed 91 93 id
  object := enclosed 123 125 E.member

def Escaper.print (v : Value) : ByteString := v.fold E.printer

def Escaper.coverage : Shape Prop where
  null := True
  bool _ := True
  number _ := True
  string := E.Covers
  array l := ∀ p ∈ l, p
  object l := ∀ m ∈ l, E.Covers m.1 ∧ m.2

def Escaper.CoversAll (v : Value) : Prop := v.fold E.coverage

variable {E} {b : UInt8} {r r' t : ByteString} {v v' : Value}

theorem enclosed_comp {α β : Type} {open_ close : UInt8} {item : β → ByteString} {f : α → β}
    (l : List α) :
    enclosed open_ close item (l.map f) = enclosed open_ close (fun a ↦ item (f a)) l := by
  simp [enclosed, commas, Function.comp_def]

theorem print_array (l : List Value) : E.print (.array l) = enclosed 91 93 E.print l := by
  rw [Escaper.print, Value.fold_array]
  exact enclosed_comp l

theorem print_object (l : List (ByteString × Value)) :
    E.print (.object l) = enclosed 123 125 (fun m ↦ E.member (m.1, E.print m.2)) l := by
  rw [Escaper.print, Value.fold_object]
  exact enclosed_comp l

theorem coversAll_array (l : List Value) : E.CoversAll (.array l) ↔ ∀ v ∈ l, E.CoversAll v := by
  rw [Escaper.CoversAll, Value.fold_array]
  exact List.forall_mem_map

theorem coversAll_object (l : List (ByteString × Value)) :
    E.CoversAll (.object l) ↔ ∀ m ∈ l, E.Covers m.1 ∧ E.CoversAll m.2 := by
  rw [Escaper.CoversAll, Value.fold_object]
  exact List.forall_mem_map

theorem OpensAs.begins {k : Kind} (h : OpensAs k t) : Begins t := by
  obtain ⟨b, u, rfl, hb⟩ := h
  have hno (c : UInt8) (hc : kindOf c = none) : b ≠ c := by
    rintro rfl
    rw [hc] at hb
    cases hb
  refine ⟨b, u, rfl, ?_, hno 44 rfl, hno 93 rfl, hno 125 rfl⟩
  rintro (rfl | rfl | rfl | rfl) <;> cases hb

theorem print_opens (v : Value) : OpensAs v.kind (E.print v) := by
  cases v with
  | null => exact ⟨110, _, rfl, rfl⟩
  | bool b =>
    cases b with
    | true => exact ⟨116, _, rfl, rfl⟩
    | false => exact ⟨102, _, rfl, rfl⟩
  | number n => exact n.opens
  | string s => exact ⟨34, _, rfl, rfl⟩
  | array l => exact ⟨91, _, rfl, rfl⟩
  | object l => exact ⟨123, _, rfl, rfl⟩

theorem memberText_begins {m : ByteString × Value} {t : ByteString}
    (h : MemberText ValueText m t) : Begins t := by
  obtain ⟨k, w, w', v, ⟨e, s, -, -, rfl⟩, -, -, -, rfl⟩ := h
  exact ⟨34, _, rfl, by simp [IsSpace]⟩

theorem renders_member {m : ByteString × Value} {P : Prop}
    (h : Renders ValueText m.2 (E.print m.2) P) :
    Renders (MemberText ValueText) m (E.member (m.1, E.print m.2)) (E.Covers m.1 ∧ P) := by
  constructor
  · rintro ⟨hname, hp⟩
    exact ⟨_, [], [], _, Escaper.string_enquote hname, space_nil, space_nil, h.text hp,
      by simp [Escaper.member]⟩
  · rintro n t r r' hr hr' ⟨k, w, w', x, hk, hw, hw', hx, rfl⟩ heq
    simp only [Escaper.member, List.append_assoc, List.cons_append] at heq
    obtain ⟨rfl, hname, hcovers⟩ := Escaper.string_only hk heq
    obtain ⟨rfl, hcolon⟩ := space_unique space_nil hw (by simp [IsSpace]) (by simp [IsSpace])
      (List.append_cancel_left heq)
    obtain ⟨rfl, hvalue⟩ := Solid.unique space_nil hw' ((print_opens m.2).begins.append r).solid
      (hx.opens.begins.append r').solid (List.cons.inj hcolon).2
    obtain ⟨rfl, hsame, hp⟩ := h.only _ _ r r' hr hr' hx hvalue
    exact ⟨by simp [Escaper.member], Prod.ext hname hsame, hcovers, hp⟩

theorem numeric_unique {n m : ByteString} (hn : ∀ b ∈ n, numeric b = true)
    (hm : ∀ b ∈ m, numeric b = true) (hr : Ends r) (hr' : Ends r') (heq : n ++ r = m ++ r') :
    n = m := by
  have hspan {n r : ByteString} (hn : ∀ b ∈ n, numeric b = true) (hr : Ends r) :
      (n ++ r).takeWhile numeric = n := by
    rw [List.takeWhile_append_of_pos hn]
    cases r with
    | nil => simp
    | cons b r => simp [hr b rfl]
  rw [← hspan hn hr, heq, hspan hm hr']

theorem renders_value (v : Value) : Renders ValueText v (E.print v) (E.CoversAll v) := by
  have hkind {v v' : Value} {t r r' : ByteString} (h : ValueText v' t)
      (heq : E.print v ++ r = t ++ r') : v.kind = v'.kind := (print_opens v).unique h.opens heq
  induction v using Value.induction with
  | null =>
    refine ⟨fun _ ↦ rfl, fun v' t r r' _ _ h heq ↦ ?_⟩
    have hk := hkind h heq
    cases v' with
    | null => exact ⟨h, rfl, trivial⟩
    | bool b => cases b <;> cases hk
    | _ => cases hk
  | bool b =>
    refine ⟨fun _ ↦ rfl, fun v' t r r' _ _ h heq ↦ ?_⟩
    have hk := hkind h heq
    cases v' with
    | bool b' =>
      obtain rfl : b = b' := by cases b <;> cases b' <;> cases hk <;> rfl
      exact ⟨h, rfl, trivial⟩
    | _ => cases b <;> cases hk
  | number n =>
    refine ⟨fun _ ↦ rfl, fun v' t r r' hr hr' h heq ↦ ?_⟩
    have hk := hkind h heq
    cases v' with
    | number m =>
      obtain rfl : t = m.text := h
      have hsame : n.text = m.text :=
        numeric_unique n.numeral.numeric m.numeral.numeric hr hr' heq
      exact ⟨hsame.symm, by rw [Number.ext hsame], trivial⟩
    | bool b => cases b <;> cases hk
    | _ => cases hk
  | string s =>
    refine ⟨Escaper.string_enquote, fun v' t r r' _ _ h heq ↦ ?_⟩
    have hk := hkind h heq
    cases v' with
    | string u =>
      obtain ⟨ht, rfl, hcovers⟩ := Escaper.string_only h heq
      exact ⟨ht, rfl, hcovers⟩
    | bool b => cases b <;> cases hk
    | _ => cases hk
  | array l ih =>
    have hl := @renders_enclosed _ ValueText E.print E.CoversAll l 93 91 (.inl rfl)
      (fun v t h ↦ h.opens.begins) (fun v _ ↦ (print_opens v).begins) ih
    constructor
    · intro h
      rw [valueText_array, print_array]
      exact hl.text ((coversAll_array l).mp h)
    · intro v' t r r' hr hr' h heq
      have hk := hkind h heq
      cases v' with
      | array l' =>
        rw [print_array] at heq ⊢
        obtain ⟨rfl, rfl, hall⟩ := hl.only l' t r r' hr hr' (valueText_array.mp h) heq
        exact ⟨rfl, rfl, (coversAll_array _).mpr hall⟩
      | bool b => cases b <;> cases hk
      | _ => cases hk
  | object l ih =>
    have hl := @renders_enclosed _ (MemberText ValueText) (fun m ↦ E.member (m.1, E.print m.2))
      (fun m ↦ E.Covers m.1 ∧ E.CoversAll m.2) l 125 123 (.inr rfl)
      (fun m t ↦ memberText_begins) (fun m _ ↦ ⟨34, _, rfl, by simp [IsSpace]⟩)
      (fun m hm ↦ renders_member (ih m hm))
    constructor
    · intro h
      rw [valueText_object, print_object]
      exact hl.text ((coversAll_object l).mp h)
    · intro v' t r r' hr hr' h heq
      have hk := hkind h heq
      cases v' with
      | object l' =>
        rw [print_object] at heq ⊢
        obtain ⟨rfl, rfl, hall⟩ := hl.only l' t r r' hr hr' (valueText_object.mp h) heq
        exact ⟨rfl, rfl, (coversAll_object _).mpr hall⟩
      | bool b => cases b <;> cases hk
      | _ => cases hk

/-- What is printed is a text of the value and of nothing else, just if its strings are covered. -/
theorem text_print_iff (v v' : Value) :
    Text ValueText v' (E.print v) ↔ v' = v ∧ E.CoversAll v := by
  constructor
  · rintro ⟨w, b, w', hw, hb, hw', heq⟩
    rw [List.append_assoc] at heq
    obtain ⟨rfl, hrest⟩ := Solid.unique space_nil hw (print_opens v).begins.solid
      (hb.opens.begins.append w').solid heq
    have hends : Ends w' := by
      have hspace := ends_space (r := []) hw' (by simp [Ends])
      rwa [List.append_nil] at hspace
    exact ((renders_value v).only v' b [] w' (by simp [Ends]) hends hb (by simpa using hrest)).2
  · rintro ⟨rfl, h⟩
    exact ⟨[], E.print v', [], space_nil, (renders_value v').text h, space_nil, by simp⟩

end values

end Cerberus.Foundation.Json
