import Cerberus.Foundation.Bytes

/-! Words, numbers and lines as the standard library takes them from a text. -/

namespace Cerberus.Foundation.Text

open Bytes

/-- `std::tolower` of the C locale. -/
def tolower (b : UInt8) : UInt8 := if 65 ≤ b && b ≤ 90 then b + 32 else b

/-- `std::ispunct` of the C locale. -/
def ispunct (b : UInt8) : Bool :=
  (33 ≤ b && b ≤ 47) || (58 ≤ b && b ≤ 64) || (91 ≤ b && b ≤ 96) || (123 ≤ b && b ≤ 126)

def isWordByte (b : UInt8) : Bool := !isSpace b

/-- `>>` of a string: the word that follows the white space, and what is left of the text. -/
def extractWord (s : ByteString) : Option (ByteString × ByteString) :=
  let r := s.dropWhile isSpace
  if r = [] then none else some (r.takeWhile isWordByte, r.dropWhile isWordByte)

variable {s w r : ByteString} {b : UInt8}

theorem extractWord_eq_some : extractWord s = some (w, r) ↔ s.dropWhile isSpace ≠ [] ∧
    (s.dropWhile isSpace).takeWhile isWordByte = w ∧
    (s.dropWhile isSpace).dropWhile isWordByte = r := by
  by_cases hs : s.dropWhile isSpace = []
  · simp [extractWord, hs]
  · simp [extractWord, hs]

theorem extractWord_eq_none : extractWord s = none ↔ ∀ b ∈ s, isSpace b = true := by
  rw [← List.dropWhile_eq_nil_iff]
  by_cases hs : s.dropWhile isSpace = []
  · simp [extractWord, hs]
  · simp [extractWord, hs]

theorem extractWord_ne_nil (h : extractWord s = some (w, r)) : w ≠ [] := by
  obtain ⟨hne, rfl, -⟩ := extractWord_eq_some.mp h
  have hhead := List.head_dropWhile_not isSpace hne
  rw [ne_eq, List.takeWhile_eq_nil_iff]
  intro hnone
  apply hnone (List.length_pos_iff.mpr hne)
  simpa [isWordByte, List.head_eq_getElem] using hhead

theorem extractWord_word (h : extractWord s = some (w, r)) : ∀ b ∈ w, isSpace b = false := by
  obtain ⟨-, rfl, -⟩ := extractWord_eq_some.mp h
  intro b hb
  simpa [isWordByte] using List.mem_takeWhile_imp hb

theorem extractWord_eq (h : extractWord s = some (w, r)) :
    s = s.takeWhile isSpace ++ (w ++ r) := by
  obtain ⟨-, rfl, rfl⟩ := extractWord_eq_some.mp h
  rw [List.takeWhile_append_dropWhile, List.takeWhile_append_dropWhile]

theorem extractWord_length (h : extractWord s = some (w, r)) : r.length < s.length := by
  have hw := List.length_pos_iff.mpr (extractWord_ne_nil h)
  have hs := congrArg List.length (extractWord_eq h)
  simp only [List.length_append] at hs
  omega

/-- The words that `>>` takes from a text until it fails. -/
def words (s : ByteString) : List ByteString :=
  match _h : extractWord s with
  | none => []
  | some (w, r) => w :: words r
termination_by s.length
decreasing_by exact extractWord_length _h

theorem words_none (h : extractWord s = none) : words s = [] := by
  rw [words]
  split
  · rfl
  · next h' => simp [h] at h'

theorem words_some (h : extractWord s = some (w, r)) : words s = w :: words r := by
  rw [words]
  split
  · next h' => simp [h] at h'
  · next h' =>
    rw [h] at h'
    cases h'
    rfl

theorem words_induction {motive : ByteString → Prop} (empty : ∀ s, extractWord s = none → motive s)
    (word : ∀ s w r, extractWord s = some (w, r) → motive r → motive s) (s : ByteString) :
    motive s := by
  induction hn : s.length using Nat.strong_induction_on generalizing s with
  | _ n ih =>
    cases hs : extractWord s with
    | none => exact empty s hs
    | some e =>
      have hshort : e.2.length < n := hn ▸ extractWord_length hs
      exact word s e.1 e.2 hs (ih e.2.length hshort e.2 rfl)

theorem mem_words (h : w ∈ words s) : w ≠ [] ∧ ∀ b ∈ w, isSpace b = false := by
  induction s using words_induction with
  | empty s hs => simp [words_none hs] at h
  | word s v r hs ih =>
    rw [words_some hs] at h
    rcases List.mem_cons.mp h with rfl | h
    · exact ⟨extractWord_ne_nil hs, extractWord_word hs⟩
    · exact ih h

theorem words_flatten (s : ByteString) : (words s).flatten = s.filter isWordByte := by
  induction s using words_induction with
  | empty s hs =>
    rw [words_none hs, List.flatten_nil, eq_comm, List.filter_eq_nil_iff]
    intro b hb
    simp [isWordByte, extractWord_eq_none.mp hs b hb]
  | word s w r hs ih =>
    have hspaces : (s.takeWhile isSpace).filter isWordByte = [] := by
      rw [List.filter_eq_nil_iff]
      intro b hb
      simp [isWordByte, List.mem_takeWhile_imp hb]
    have hword : w.filter isWordByte = w := by
      rw [List.filter_eq_self]
      intro b hb
      simp [isWordByte, extractWord_word hs b hb]
    have hsplit := congrArg (List.filter isWordByte) (extractWord_eq hs)
    rw [List.filter_append, List.filter_append, hspaces, hword, List.nil_append] at hsplit
    rw [words_some hs, List.flatten_cons, ih, hsplit]

/-- The lines that `std::getline` delivers until it fails. -/
def lines : ByteString → List ByteString
  | [] => []
  | b :: s =>
    if b = 10 then [] :: lines s
    else match lines s with
      | [] => [[b]]
      | line :: rest => (b :: line) :: rest

end Cerberus.Foundation.Text
