import Cerberus.Foundation.Bytes

namespace Cerberus.Foundation.Base64

open Bytes

def alphabet : ByteString :=
  lit "ABCDEFGHIJKLMNOPQRSTUVWXYZabcdefghijklmnopqrstuvwxyz0123456789-_"

def symbol (n : Nat) : UInt8 := alphabet.getD n 0

def group (a b c : UInt8) : ByteString :=
  [symbol (a.toNat / 4), symbol (a.toNat % 4 * 16 + b.toNat / 16),
    symbol (b.toNat % 16 * 4 + c.toNat / 64), symbol (c.toNat % 64)]

/-- Without padding: a last group of one or two bytes is filled up with zeros, and has one symbol
more than it has bytes. -/
def base64urlEncode : ByteString → ByteString
  | [] => []
  | [a] => (group a 0 0).take 2
  | [a, b] => (group a b 0).take 3
  | a :: b :: c :: r => group a b c ++ base64urlEncode r

/-- The number of a symbol; the plus sign of the other variant is taken as well. -/
def valueOf (c : UInt8) : Option Nat :=
  if c = 43 ∨ c = 45 then some 62
  else if 48 ≤ c ∧ c ≤ 57 then some (c.toNat + 4)
  else if 65 ≤ c ∧ c ≤ 90 then some (c.toNat - 65)
  else if c = 95 then some 63
  else if 97 ≤ c ∧ c ≤ 122 then some (c.toNat - 71)
  else none

/-- The bits read so far, in 32 bits, how many of them are still to be written, less eight,
and the bytes written. -/
structure Decoder where
  val : Nat := 0
  valb : Int := -8
  out : ByteString := []

def Decoder.feed (s : Decoder) (c : UInt8) : Decoder :=
  match valueOf c with
  | none => s
  | some v =>
    let val := (s.val * 64 + v) % 2 ^ 32
    let valb := s.valb + 6
    if 0 ≤ valb then ⟨val, valb - 8, s.out ++ [(val / 2 ^ valb.toNat).toUInt8]⟩
    else ⟨val, valb, s.out⟩

def base64urlDecode (s : ByteString) : ByteString := (s.foldl Decoder.feed {}).out

theorem valueOf_symbol : ∀ n < 64, valueOf (symbol n) = some n := by decide

variable {v n : Nat} {out : ByteString}

theorem feed_first (hn : n < 64) :
    Decoder.feed ⟨v, -8, out⟩ (symbol n) = ⟨(v * 64 + n) % 2 ^ 32, -2, out⟩ := by
  simp [Decoder.feed, valueOf_symbol n hn]

theorem feed_second (hn : n < 64) : Decoder.feed ⟨v, -2, out⟩ (symbol n) =
    ⟨(v * 64 + n) % 2 ^ 32, -4, out ++ [((v * 64 + n) % 2 ^ 32 / 16).toUInt8]⟩ := by
  simp [Decoder.feed, valueOf_symbol n hn]

theorem feed_third (hn : n < 64) : Decoder.feed ⟨v, -4, out⟩ (symbol n) =
    ⟨(v * 64 + n) % 2 ^ 32, -6, out ++ [((v * 64 + n) % 2 ^ 32 / 4).toUInt8]⟩ := by
  simp [Decoder.feed, valueOf_symbol n hn]

theorem feed_fourth (hn : n < 64) : Decoder.feed ⟨v, -6, out⟩ (symbol n) =
    ⟨(v * 64 + n) % 2 ^ 32, -8, out ++ [((v * 64 + n) % 2 ^ 32).toUInt8]⟩ := by
  simp [Decoder.feed, valueOf_symbol n hn]

theorem toUInt8_eq {x : Nat} {a : UInt8} (h : x % 256 = a.toNat) : x.toUInt8 = a := by
  apply UInt8.toNat_inj.mp
  simpa using h

variable (a b c : UInt8)

theorem sextets_lt : a.toNat / 4 < 64 ∧ a.toNat % 4 * 16 + b.toNat / 16 < 64 ∧
    b.toNat % 16 * 4 + c.toNat / 64 < 64 ∧ c.toNat % 64 < 64 := by
  have ha := a.toNat_lt
  have hb := b.toNat_lt
  have hc := c.toNat_lt
  omega

/-- Whatever was read before, the first two symbols of a group give its first byte and keep the
upper half of the second. -/
theorem feed_two (v : Nat) (out : ByteString) :
    ∃ w, ((group a b c).take 2).foldl Decoder.feed ⟨v, -8, out⟩ = ⟨w, -4, out ++ [a]⟩ ∧
      w % 16 = b.toNat / 16 := by
  obtain ⟨h₀, h₁, -, -⟩ := sextets_lt a b c
  have ha := a.toNat_lt
  have hb := b.toNat_lt
  refine ⟨((v * 64 + a.toNat / 4) % 2 ^ 32 * 64 + (a.toNat % 4 * 16 + b.toNat / 16)) % 2 ^ 32,
    ?_, by omega⟩
  simp only [group, List.take_succ_cons, List.take_zero, List.foldl_cons, List.foldl_nil,
    feed_first h₀, feed_second h₁]
  rw [toUInt8_eq (a := a) (by omega)]

theorem feed_three (v : Nat) (out : ByteString) :
    ∃ w, ((group a b c).take 3).foldl Decoder.feed ⟨v, -8, out⟩ = ⟨w, -6, out ++ [a, b]⟩ ∧
      w % 4 = c.toNat / 64 := by
  obtain ⟨-, -, h₂, -⟩ := sextets_lt a b c
  have hb := b.toNat_lt
  have hc := c.toNat_lt
  obtain ⟨w, htwo, hw⟩ := feed_two a b c v out
  have htake : (group a b c).take 3 =
    (group a b c).take 2 ++ [symbol (b.toNat % 16 * 4 + c.toNat / 64)] := rfl
  refine ⟨(w * 64 + (b.toNat % 16 * 4 + c.toNat / 64)) % 2 ^ 32, ?_, by omega⟩
  rw [htake, List.foldl_append, htwo, List.foldl_cons, List.foldl_nil, feed_third h₂,
    toUInt8_eq (a := b) (by omega), List.append_assoc]
  rfl

theorem feed_group (v : Nat) (out : ByteString) :
    ∃ w, (group a b c).foldl Decoder.feed ⟨v, -8, out⟩ = ⟨w, -8, out ++ [a, b, c]⟩ := by
  obtain ⟨-, -, -, h₃⟩ := sextets_lt a b c
  have hc := c.toNat_lt
  obtain ⟨w, hthree, hw⟩ := feed_three a b c v out
  have hgroup : group a b c = (group a b c).take 3 ++ [symbol (c.toNat % 64)] := rfl
  refine ⟨(w * 64 + c.toNat % 64) % 2 ^ 32, ?_⟩
  rw [hgroup, List.foldl_append, hthree, List.foldl_cons, List.foldl_nil, feed_fourth h₃,
    toUInt8_eq (a := c) (by omega), List.append_assoc]
  rfl

theorem feed_encode (s : ByteString) (v : Nat) (out : ByteString) :
    ((base64urlEncode s).foldl Decoder.feed ⟨v, -8, out⟩).out = out ++ s := by
  induction s using base64urlEncode.induct generalizing v out with
  | case1 => simp [base64urlEncode]
  | case2 a =>
    obtain ⟨w, hw, -⟩ := feed_two a 0 0 v out
    rw [base64urlEncode, hw]
  | case3 a b =>
    obtain ⟨w, hw, -⟩ := feed_three a b 0 v out
    rw [base64urlEncode, hw]
  | case4 a b c r ih =>
    obtain ⟨w, hw⟩ := feed_group a b c v out
    rw [base64urlEncode, List.foldl_append, hw, ih, List.append_assoc]
    rfl

theorem decode_encode (s : ByteString) : base64urlDecode (base64urlEncode s) = s :=
  feed_encode s 0 []

example : base64urlEncode (lit "cerberus") = lit "Y2VyYmVydXM" := by decide

theorem length_encode (s : ByteString) :
    (base64urlEncode s).length = (4 * s.length + 2) / 3 := by
  induction s using base64urlEncode.induct with
  | case1 => rfl
  | case2 a => simp [base64urlEncode, group]
  | case3 a b => simp [base64urlEncode, group]
  | case4 a b c r ih =>
    simp only [base64urlEncode, group, List.length_append, List.length_cons, List.length_nil, ih]
    omega

def isBase64urlChar (c : UInt8) : Bool :=
  (48 ≤ c && c ≤ 57) || (65 ≤ c && c ≤ 90) || (97 ≤ c && c ≤ 122) || c == 45 || c == 95

theorem isBase64urlChar_symbol : ∀ n < 64, isBase64urlChar (symbol n) = true := by
  decide +kernel

theorem isBase64urlChar_group {x : UInt8} (h : x ∈ group a b c) : isBase64urlChar x = true := by
  obtain ⟨h₀, h₁, h₂, h₃⟩ := sextets_lt a b c
  simp only [group, List.mem_cons, List.not_mem_nil, or_false] at h
  rcases h with rfl | rfl | rfl | rfl
  · exact isBase64urlChar_symbol _ h₀
  · exact isBase64urlChar_symbol _ h₁
  · exact isBase64urlChar_symbol _ h₂
  · exact isBase64urlChar_symbol _ h₃

theorem isBase64urlChar_encode {s : ByteString} {x : UInt8} (h : x ∈ base64urlEncode s) :
    isBase64urlChar x = true := by
  induction s using base64urlEncode.induct with
  | case1 => cases h
  | case2 a => exact isBase64urlChar_group a 0 0 (List.mem_of_mem_take h)
  | case3 a b => exact isBase64urlChar_group a b 0 (List.mem_of_mem_take h)
  | case4 a b c r ih =>
    rcases List.mem_append.mp h with h | h
    · exact isBase64urlChar_group a b c h
    · exact ih h

end Cerberus.Foundation.Base64
