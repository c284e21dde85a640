import Cerberus.Foundation.JsonPrint

/-! The bytes of which JSON texts are made, and texts that are written by hand. -/

namespace Cerberus.Foundation.Json

open Bytes

instance (b : UInt8) : Decidable (IsSpace b) :=
  inferInstanceAs (Decidable (b = 32 ∨ b = 9 ∨ b = 10 ∨ b = 13))

instance (w : ByteString) : Decidable (Space w) := inferInstanceAs (Decidable (∀ b ∈ w, IsSpace b))

/-- UTF-8 without control characters other than white space. -/
structure Clean (t : ByteString) : Prop where
  utf8 : ∃ s, t = encodeChars s
  printable : ∀ b ∈ t, 32 ≤ b ∨ IsSpace b

section clean

variable {p q t u e : ByteString} {s : List Char} {b : UInt8} {v : Value}

theorem encodeChars_append (s s' : List Char) :
    encodeChars (s ++ s') = encodeChars s ++ encodeChars s' := List.flatMap_append

theorem Clean.append (h : Clean t) (h' : Clean u) : Clean (t ++ u) := by
  obtain ⟨⟨s, rfl⟩, hs⟩ := h
  obtain ⟨⟨s', rfl⟩, hs'⟩ := h'
  exact ⟨⟨s ++ s', (encodeChars_append s s').symm⟩, List.forall_mem_append.mpr ⟨hs, hs'⟩⟩

theorem utf8_ascii (h : ∀ b ∈ t, b < 128) : ∃ s, t = encodeChars s := by
  induction t with
  | nil => exact ⟨[], rfl⟩
  | cons b t ih =>
    obtain ⟨hb, ht⟩ := List.forall_mem_cons.mp h
    obtain ⟨s, rfl⟩ := ih ht
    have hsmall : b.toNat < 128 := UInt8.lt_iff_toNat_lt.mp hb
    have hchar : (Char.ofNat b.toNat).toNat = b.toNat := by
      have hvalid : b.toNat.isValidChar := .inl (by omega)
      simp [Char.ofNat, hvalid, Char.ofNatAux, Char.toNat]
    have hone : String.utf8EncodeChar (Char.ofNat b.toNat) = [b] := by
      rcases Escaper.encode_cases (Char.ofNat b.toNat) with ⟨-, heq⟩ | ⟨hlarge, -⟩
      · rw [heq, hchar, UInt8.ofNat_toNat]
      · omega
    have hcons : encodeChars (Char.ofNat b.toNat :: s) =
        String.utf8EncodeChar (Char.ofNat b.toNat) ++ encodeChars s := rfl
    exact ⟨Char.ofNat b.toNat :: s, by rw [hcons, hone]; rfl⟩

theorem clean_ascii (h : ∀ b ∈ t, b < 128 ∧ (32 ≤ b ∨ IsSpace b)) : Clean t :=
  ⟨utf8_ascii (fun b hb ↦ (h b hb).1), fun b hb ↦ (h b hb).2⟩

theorem clean_space (h : Space t) : Clean t := by
  refine clean_ascii (fun b hb ↦ ⟨?_, .inr (h b hb)⟩)
  rcases h b hb with rfl | rfl | rfl | rfl <;> decide

theorem numeric_ascii (h : numeric b = true) : b < 128 ∧ 32 ≤ b := by
  simp only [numeric, isDigit, Bool.or_eq_true, beq_iff_eq, Bool.and_eq_true,
    decide_eq_true_eq] at h
  grind

theorem hexDigit_ascii {i : Nat} (h : hexDigit b = some i) : b < 128 ∧ 32 ≤ b := by
  unfold hexDigit at h
  grind

theorem Hex4.ascii {n : Nat} (h : Hex4 t n) : ∀ b ∈ t, b < 128 ∧ 32 ≤ b := by
  cases h with
  | mk ha hb hc hd =>
    simp only [List.forall_mem_cons]
    exact ⟨hexDigit_ascii ha, hexDigit_ascii hb, hexDigit_ascii hc, hexDigit_ascii hd, by simp⟩

theorem Escape.ascii {c : Char} (h : Escape t c) : ∀ b ∈ t, b < 128 ∧ 32 ≤ b := by
  cases h with
  | @short b c h =>
    have hb : b < 128 ∧ 32 ≤ b := by
      unfold shortEscape at h
      split at h <;> first | decide | cases h
    simpa using hb
  | unicode h => simpa using h.ascii
  | pair hx _ hy _ _ =>
    have hx := hx.ascii
    have hy := hy.ascii
    simp only [List.cons_append, List.forall_mem_cons, List.forall_mem_append]
    exact ⟨by decide, by decide, hx, by decide, by decide, hy⟩

theorem Chars.clean (h : Chars e s) : Clean e := by
  induction h with
  | nil => exact clean_ascii (by simp)
  | @char c e s hc _ ih =>
    refine Clean.append ⟨⟨[c], by simp [encodeChars]⟩, fun b hb ↦ ?_⟩ ih
    exact .inl (Escaper.encode_unescaped hc b hb).1
  | escape hx _ ih =>
    exact (clean_ascii (fun b hb ↦ ⟨(hx.ascii b hb).1, .inl (hx.ascii b hb).2⟩)).append ih

theorem StringText.clean {x : ByteString} (h : StringText x t) : Clean t := by
  obtain ⟨e, s, hchars, -, rfl⟩ := h
  have hquote : Clean [34] := clean_ascii (by decide +kernel)
  exact (hquote.append hchars.clean).append hquote

section items

variable {α : Type} {R : α → ByteString → Prop} {l : List α} {open_ close : UInt8}

theorem Items.clean (h : Items R l t) (hR : ∀ a ∈ l, ∀ t, R a t → Clean t) : Clean t := by
  have hcomma : Clean [44] := clean_ascii (by decide +kernel)
  induction h with
  | nil => exact clean_ascii (by simp)
  | one h => exact hR _ List.mem_cons_self _ h
  | more h hw hw' _ ih =>
    obtain ⟨hfirst, hrest⟩ := List.forall_mem_cons.mp hR
    exact ((hfirst _ h).append (clean_space hw)).append
      (hcomma.append ((clean_space hw').append (ih hrest)))

theorem enclosed_clean (hopen : Clean [open_]) (hclose : Clean [close])
    (h : Enclosed open_ close R l t) (hR : ∀ a ∈ l, ∀ t, R a t → Clean t) : Clean t := by
  obtain ⟨w, i, w', hw, hi, hw', rfl⟩ := h
  exact (hopen.append (((clean_space hw).append (hi.clean hR)).append (clean_space hw'))).append
    hclose

end items

theorem ValueText.clean (h : ValueText v t) : Clean t := by
  induction v using Value.induction generalizing t with
  | null =>
    obtain rfl : t = lit "null" := h
    exact clean_ascii (by decide +kernel)
  | bool b =>
    obtain rfl : t = if b then lit "true" else lit "false" := h
    cases b <;> exact clean_ascii (by decide +kernel)
  | number n =>
    obtain rfl : t = n.text := h
    exact clean_ascii (fun b hb ↦
      have hb := numeric_ascii (n.numeral.numeric b hb)
      ⟨hb.1, .inl hb.2⟩)
  | string s => exact StringText.clean h
  | array l ih =>
    exact enclosed_clean (clean_ascii (by decide +kernel)) (clean_ascii (by decide +kernel))
      (valueText_array.mp h) (fun v hv t ↦ ih v hv)
  | object l ih =>
    refine enclosed_clean (clean_ascii (by decide +kernel)) (clean_ascii (by decide +kernel))
      (valueText_object.mp h) ?_
    rintro m hm t ⟨k, w, w', x, hk, hw, hw', hx, rfl⟩
    have hcolon : Clean [58] := clean_ascii (by decide +kernel)
    exact (hk.clean.append (clean_space hw)).append
      (hcolon.append ((clean_space hw').append (ih m hm hx)))

theorem text_clean (h : Text ValueText v t) : Clean t := by
  obtain ⟨w, b, w', hw, hb, hw', rfl⟩ := h
  exact ((clean_space hw).append hb.clean).append (clean_space hw')

theorem utf8_split (hb : b < 128) (h : encodeChars s = p ++ b :: q) :
    (∃ s, p = encodeChars s) ∧ ∃ s, q = encodeChars s := by
  induction s generalizing p with
  | nil => exact absurd (congrArg List.length h) (by simp [encodeChars])
  | cons c s ih =>
    have hs : encodeChars (c :: s) = String.utf8EncodeChar c ++ encodeChars s := rfl
    rw [hs] at h
    cases hsplit : decide (String.utf8EncodeChar c <+: p) with
    | true =>
      obtain ⟨p', rfl⟩ := of_decide_eq_true hsplit
      rw [List.append_assoc, List.append_cancel_left_eq] at h
      obtain ⟨⟨s', rfl⟩, hq⟩ := ih h
      exact ⟨⟨c :: s', rfl⟩, hq⟩
    | false =>
      have hno := of_decide_eq_false hsplit
      rcases List.append_eq_append_iff.mp h with ⟨a, rfl, ha⟩ | ⟨a, ha, hrest⟩
      · exact absurd (List.prefix_append _ _) hno
      · cases a with
        | nil => exact absurd (by rw [ha, List.append_nil]) hno
        | cons d a =>
          obtain ⟨rfl, rfl⟩ := List.cons.inj hrest
          rcases Escaper.encode_cases c with ⟨-, heq⟩ | ⟨-, -, hall⟩
          · rw [heq] at ha
            cases p with
            | nil =>
              obtain ⟨-, hnil⟩ := List.cons.inj ha
              rw [← hnil]
              exact ⟨⟨[], rfl⟩, s, rfl⟩
            | cons x p => simp at ha
          · exact absurd (hall b (by simp [ha])) (UInt8.not_le.mpr hb)

theorem Clean.split (hb : b < 128) (h : Clean (p ++ b :: q)) : Clean p ∧ Clean q := by
  obtain ⟨⟨s, hs⟩, hall⟩ := h
  obtain ⟨hp, hq⟩ := utf8_split hb hs.symm
  obtain ⟨hallp, hallq⟩ := List.forall_mem_append.mp hall
  exact ⟨⟨hp, hallp⟩, hq, (List.forall_mem_cons.mp hallq).2⟩

end clean

theorem unescaped_iff {c : Char} :
    (32 ≤ c.toNat ∧ c.toNat ≠ 34 ∧ c.toNat ≠ 92) ↔ Unescaped c := by
  have hne (d : Char) : c.toNat ≠ d.toNat ↔ c ≠ d := by
    rw [ne_eq, ne_eq, not_iff_not]
    exact ⟨fun h ↦ Char.ext (UInt32.toNat_inj.mp h), congrArg Char.toNat⟩
  exact and_congr_right' (and_congr (hne '"') (hne '\\'))

instance (c : Char) : Decidable (Unescaped c) := decidable_of_iff _ unescaped_iff

section written

variable {u v : ByteString} {b : UInt8}

theorem Plain.append (h : Plain u) (h' : Plain v) : Plain (u ++ v) := by
  obtain ⟨s, rfl, hs⟩ := h
  obtain ⟨s', rfl, hs'⟩ := h'
  exact ⟨s ++ s', (encodeChars_append s s').symm, List.forall_mem_append.mpr ⟨hs, hs'⟩⟩

theorem plain_of_bytes (hu : ∃ s, v = encodeChars s) (h : ∀ b ∈ v, 32 ≤ b ∧ b ≠ 34 ∧ b ≠ 92) :
    Plain v := by
  obtain ⟨s, rfl⟩ := hu
  refine ⟨s, rfl, fun c hc ↦ ?_⟩
  have hbytes : ∀ b ∈ String.utf8EncodeChar c, 32 ≤ b ∧ b ≠ 34 ∧ b ≠ 92 :=
    fun b hb ↦ h b (List.mem_flatMap_of_mem hc hb)
  rcases Escaper.encode_cases c with ⟨-, heq⟩ | ⟨hlarge, -, -⟩
  · obtain ⟨hle, hne⟩ := hbytes _ (by rw [heq]; exact List.mem_singleton_self _)
    exact Escaper.unescaped_of_singleton heq hle hne
  · refine ⟨by omega, ?_, ?_⟩
    · rintro rfl
      exact absurd hlarge (by decide)
    · rintro rfl
      exact absurd hlarge (by decide)

def plainChars : List Char → Bool
  | [] => true
  | c :: s => (32 : Nat).ble c.toNat && c.toNat != 34 && c.toNat != 92 && plainChars s

theorem plainChars_iff {s : List Char} : plainChars s = true ↔ ∀ c ∈ s, Unescaped c := by
  induction s with
  | nil => simp [plainChars]
  | cons c s ih => simp [plainChars, ih, ← unescaped_iff, and_assoc]

theorem plain_lit {s : List Char} (h : plainChars s = true) : Plain (lit (String.ofList s)) := by
  refine ⟨s, ?_, plainChars_iff.mp h⟩
  rw [lit, ← String.utf8Encode_toList, String.toList_ofList]
  simp [List.utf8Encode, encodeChars]

theorem plain_numeric (h : ∀ b ∈ v, numeric b = true) : Plain v := by
  refine plain_of_bytes (utf8_ascii (fun b hb ↦ (numeric_ascii (h b hb)).1)) (fun b hb ↦ ?_)
  have hnumeric := h b hb
  refine ⟨(numeric_ascii hnumeric).2, ?_, ?_⟩
  · rintro rfl
    exact absurd hnumeric (by decide)
  · rintro rfl
    exact absurd hnumeric (by decide)

theorem Plain.clean (h : Plain v) : Clean v := by
  obtain ⟨s, rfl, hs⟩ := h
  refine ⟨⟨s, rfl⟩, fun b hb ↦ ?_⟩
  obtain ⟨c, hc, hbyte⟩ := List.mem_flatMap.mp hb
  exact .inl (Escaper.encode_unescaped (hs c hc) b hbyte).1

theorem Plain.quoted (h : Plain v) : ValueText (.string v) (quoted v) := (prints_string v).text h

def IsText (t : ByteString) : Prop := ∃ v, Text ValueText v t

structure Written where
  name : ByteString
  value : Value
  text : ByteString
  plain : Plain name
  wellFormed : ValueText value text

def Written.member (m : Written) : ByteString := Json.quoted m.name ++ 58 :: m.text

section kinds

variable (name : String) (h : Plain (lit name))

def Written.string (v : ByteString) (hv : Plain v) : Written :=
  ⟨lit name, .string v, Json.quoted v, h, hv.quoted⟩

def Written.number (n : ByteString) (hn : Numeral n) : Written :=
  ⟨lit name, .number ⟨n, hn⟩, n, h, rfl⟩

def Written.bool (b : Bool) : Written :=
  ⟨lit name, .bool b, if b then lit "true" else lit "false", h, rfl⟩

end kinds

theorem Written.memberText (m : Written) : MemberText ValueText (m.name, m.value) m.member :=
  ⟨_, [], [], _, m.plain.quoted, space_nil, space_nil, m.wellFormed, by simp [member]⟩

theorem valueText_written (l : List Written) :
    ValueText (.object (l.map (fun m ↦ (m.name, m.value))))
      (enclosed 123 125 Written.member l) := by
  rw [valueText_object]
  refine enclosed_map.mpr
    ⟨[], _, [], space_nil, items_commas (fun m _ ↦ m.memberText), space_nil, ?_⟩
  simp [enclosed]

theorem valueText_items {α : Type} {value : α → Value} {item : α → ByteString} {l : List α}
    (h : ∀ a ∈ l, ValueText (value a) (item a)) :
    ValueText (.array (l.map value)) (enclosed 91 93 item l) := by
  rw [valueText_array]
  refine enclosed_map.mpr ⟨[], _, [], space_nil, items_commas h, space_nil, ?_⟩
  simp [enclosed]

theorem Items.imp {α : Type} {R R' : α → ByteString → Prop} {l : List α} {i : ByteString}
    (hR : ∀ a t, R a t → R' a t) (h : Items R l i) : Items R' l i := by
  induction h with
  | nil => exact .nil
  | one h => exact .one (hR _ _ h)
  | more h hw hw' _ ih => exact .more (hR _ _ h) hw hw' ih

theorem items_block {α : Type} {R : α → ByteString → Prop} {item : α → ByteString} {l : List α}
    {pre : ByteString} (hpre : Space pre) (hne : l ≠ []) (h : ∀ a ∈ l, R a (item a)) :
    ∃ i, Items R l i ∧ block pre item l = pre ++ i := by
  have hprints (a : α) : Prints (fun a t ↦ R a t ∧ t = item a) a (item a) (R a (item a)) := by
    refine ⟨fun h ↦ ⟨h, rfl⟩, ?_⟩
    rintro t r r' ⟨hR, rfl⟩ -
    exact ⟨rfl, hR⟩
  obtain ⟨i, hi, heq⟩ := items_text hpre hprints hne h
  exact ⟨i, hi.imp (fun _ _ hR ↦ hR.1), heq⟩

theorem commas_append_single {α : Type} {item : α → ByteString} {l : List α} (hne : l ≠ [])
    (a : α) : commas item (l ++ [a]) = commas item l ++ 44 :: item a := by
  induction l with
  | nil => exact absurd rfl hne
  | cons b l ih =>
    cases l with
    | nil => rw [List.singleton_append, commas_cons, commas_single, commas_single]
    | cons c l =>
      rw [List.cons_append, List.cons_append, commas_cons, ← List.cons_append, ih (by simp),
        commas_cons, List.append_assoc]
      rfl

theorem isText_of_value {t : ByteString} {x : Value} (h : ValueText x t) : IsText t :=
  ⟨x, [], t, [], space_nil, h, space_nil, by simp⟩

theorem isText_written (l : List Written) : IsText (enclosed 123 125 Written.member l) :=
  isText_of_value (valueText_written l)

end written

end Cerberus.Foundation.Json
