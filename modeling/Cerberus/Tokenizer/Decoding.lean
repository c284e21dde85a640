import Cerberus.Foundation.FiniteMap
import Cerberus.Tokenizer.Model

/-! Decoding on a thread, with the table that an earlier call may have left. -/

namespace Cerberus.Tokenizer

open Std Foundation Foundation.Bytes

abbrev Call := CLIPTokenizer × List Int

def tableAfter (calls : List Call) : ReverseMap :=
  calls.foldl (fun m call ↦ (call.1.decode m call.2).2) ∅

namespace CLIPTokenizer

def nameOf (t : CLIPTokenizer) (id : Int) : ByteString :=
  ((t.listing.reverse.find? (fun e ↦ e.2 = id)).map Prod.fst).getD unknown

/-- Two tokenizers that show every id but the special ones in the same way. -/
def Alike (c d : CLIPTokenizer) : Prop := ∀ id, isSpecial id = false → c.nameOf id = d.nameOf id

/-- The tokenizer whose tokens are in the table when `t` decodes after some calls. -/
def filler (calls : List Call) (t : CLIPTokenizer) : CLIPTokenizer :=
  ((calls.map Prod.fst).find? (fun c ↦ !c.vocab.isEmpty)).getD t

end CLIPTokenizer

variable {t c d : CLIPTokenizer} {m m' : ReverseMap} {ids : List Int}

theorem reverseOf_name (t : CLIPTokenizer) (id : Int) :
    ((reverseOf t.listing ∅)[id]?).getD unknown = t.nameOf id := by
  rw [reverseOf, FiniteMap.get_foldl_insert (fun e : ByteString × Int ↦ e.2) Prod.fst]
  simp [CLIPTokenizer.nameOf]

theorem listing_eq_nil : t.listing = [] ↔ t.vocab.isEmpty = true := by
  rw [← List.isEmpty_iff, t.listing_perm.isEmpty_eq, List.isEmpty_iff,
    ExtTreeMap.toList_eq_nil_iff, ExtTreeMap.isEmpty_iff]

/-- The table that `decode` uses and leaves. -/
theorem decode_table : (t.decode m ids).2 = if m.isEmpty then reverseOf t.listing ∅ else m := by
  by_cases hm : m.isEmpty = true
  · have hm' := ExtTreeMap.isEmpty_iff.mp hm
    subst hm'
    by_cases ht : t.vocab.isEmpty = true
    · simp [CLIPTokenizer.decode, ht, listing_eq_nil.mpr ht, reverseOf]
    · simp [CLIPTokenizer.decode, ht]
  · simp [CLIPTokenizer.decode, hm]

theorem decode_text : (t.decode m ids).1 =
    (ids.foldl (decodeStep (t.decode m ids).2) ([], true)).1 := rfl

theorem foldl_decode_filled (calls : List Call) (hm : m.isEmpty = false) :
    calls.foldl (fun m call ↦ (call.1.decode m call.2).2) m = m := by
  induction calls with
  | nil => rfl
  | cons call calls ih =>
    have hstep : (call.1.decode m call.2).2 = m := by
      rw [decode_table, hm]
      rfl
    rw [List.foldl_cons, hstep, ih]

theorem reverseOf_isEmpty (t : CLIPTokenizer) :
    (reverseOf t.listing ∅).isEmpty = t.vocab.isEmpty := by
  have hnil (l : List (ByteString × Int)) : reverseOf l ∅ = ∅ ↔ l = [] := by
    induction l using List.reverseRecOn with
    | nil => simp [reverseOf]
    | append_singleton l e ih => simp [reverseOf, List.foldl_append]
  rw [Bool.eq_iff_iff, ExtTreeMap.isEmpty_iff, hnil, listing_eq_nil]

theorem tableAfter_cons (call : Call) (calls : List Call) : tableAfter (call :: calls) =
    if call.1.vocab.isEmpty then tableAfter calls else reverseOf call.1.listing ∅ := by
  have hfirst : (call.1.decode ∅ call.2).2 = reverseOf call.1.listing ∅ := by
    rw [decode_table, ExtTreeMap.isEmpty_empty, if_pos rfl]
  rw [tableAfter, List.foldl_cons, hfirst]
  by_cases hc : call.1.vocab.isEmpty = true
  · rw [if_pos hc, listing_eq_nil.mpr hc]
    rfl
  · rw [if_neg hc, foldl_decode_filled]
    rw [reverseOf_isEmpty]
    exact Bool.eq_false_iff.mpr hc

theorem decode_after (calls : List Call) (t : CLIPTokenizer) (ids : List Int) :
    (t.decode (tableAfter calls) ids).2 = reverseOf (t.filler calls).listing ∅ := by
  induction calls with
  | nil =>
    rw [decode_table, tableAfter, List.foldl_nil, ExtTreeMap.isEmpty_empty, if_pos rfl]
    rfl
  | cons call calls ih =>
    by_cases hc : call.1.vocab.isEmpty = true
    · have hfiller : t.filler (call :: calls) = t.filler calls := by
        rw [CLIPTokenizer.filler, List.map_cons, List.find?_cons_of_neg (by simpa using hc)]
        rfl
      rw [tableAfter_cons, if_pos hc, ih, hfiller]
    · have hfiller : t.filler (call :: calls) = call.1 := by
        rw [CLIPTokenizer.filler, List.map_cons, List.find?_cons_of_pos (by simpa using hc)]
        rfl
      rw [tableAfter_cons, if_neg hc, decode_table, reverseOf_isEmpty, if_neg hc, hfiller]

theorem foldl_decodeStep_congr (h : ∀ id, isSpecial id = false →
      (m[id]?).getD unknown = (m'[id]?).getD unknown) (ids : List Int) (oss : ByteString × Bool) :
    ids.foldl (decodeStep m) oss = ids.foldl (decodeStep m') oss := by
  induction ids generalizing oss with
  | nil => rfl
  | cons id ids ih =>
    have hstep : decodeStep m oss id = decodeStep m' oss id := by
      unfold decodeStep
      split
      · rfl
      · next hid => rw [h id (Bool.eq_false_iff.mpr hid)]
    rw [List.foldl_cons, List.foldl_cons, hstep, ih]

theorem decode_single (calls : List Call) (t : CLIPTokenizer) {id : Int}
    (hid : isSpecial id = false) :
    (t.decode (tableAfter calls) [id]).1 = (t.filler calls).nameOf id := by
  rw [decode_text, decode_after, ← reverseOf_name]
  simp [decodeStep, hid]

/-- A tokenizer decodes alike after two orders of calls exactly when the tokenizers that filled the
table in the two orders show every id alike. -/
theorem decode_independent_iff (t : CLIPTokenizer) (calls calls' : List Call) :
    (∀ ids, (t.decode (tableAfter calls) ids).1 = (t.decode (tableAfter calls') ids).1) ↔
      (t.filler calls).Alike (t.filler calls') := by
  constructor
  · intro h id hid
    rw [← decode_single calls t hid, ← decode_single calls' t hid, h]
  · intro h ids
    rw [decode_text, decode_text, decode_after, decode_after]
    apply congrArg Prod.fst
    apply foldl_decodeStep_congr
    intro id hid
    rw [reverseOf_name, reverseOf_name, h id hid]

/-- The second tokenizer shows the token of the first one. -/
theorem decode_shows_other :
    ∃ t₁ t₂ : CLIPTokenizer, (t₁.decode (tableAfter []) [1]).1 = lit "cat" ∧
      (t₁.decode (tableAfter [(t₂, [])]) [1]).1 = lit "dog" := by
  refine ⟨.ofVocab (.ofList [(lit "cat", (1 : Int))]),
    .ofVocab (.ofList [(lit "dog", (1 : Int))]), ?_, ?_⟩
  · decide +kernel
  · decide +kernel

end Cerberus.Tokenizer
