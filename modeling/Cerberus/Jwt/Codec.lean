import Cerberus.Jwt.Tokens

namespace Cerberus.Jwt.Codec

open Foundation.Bytes Foundation.Base64 Security

def decodeTable : List Int8 := [
  -1, -1, -1, -1, -1, -1, -1, -1, -1, -1, -1, -1, -1, -1, -1, -1,
  -1, -1, -1, -1, -1, -1, -1, -1, -1, -1, -1, -1, -1, -1, -1, -1,
  -1, -1, -1, -1, -1, -1, -1, -1, -1, -1, -1, 62, -1, 62, -1, -1,
  52, 53, 54, 55, 56, 57, 58, 59, 60, 61, -1, -1, -1, -1, -1, -1,
  -1, 0, 1, 2, 3, 4, 5, 6, 7, 8, 9, 10, 11, 12, 13, 14,
  15, 16, 17, 18, 19, 20, 21, 22, 23, 24, 25, -1, -1, -1, -1, 63,
  -1, 26, 27, 28, 29, 30, 31, 32, 33, 34, 35, 36, 37, 38, 39, 40,
  41, 42, 43, 44, 45, 46, 47, 48, 49, 50, 51, -1, -1, -1, -1, -1]

/-- One turn of the loop of `base64url_encode`, on the bytes taken up; those missing from `b` are
zero. -/
def encodeTurn (taken : ByteString) : ByteString :=
  let b (i : Nat) : Nat := (taken.getD i 0).toNat
  let n := taken.length
  [symbol ((b 0 &&& 0xfc) >>> 2), symbol ((b 0 &&& 0x03) <<< 4 ||| (b 1 &&& 0xf0) >>> 4)] ++
    (if 1 < n then [symbol ((b 1 &&& 0x0f) <<< 2 ||| (b 2 &&& 0xc0) >>> 6)] else []) ++
    (if 2 < n then [symbol (b 2 &&& 0x3f)] else [])

/-- `base64url_encode` -/
def base64urlEncodeLoop (data : ByteString) : ByteString :=
  if data = [] then [] else encodeTurn (data.take 3) ++ base64urlEncodeLoop (data.drop 3)
termination_by data.length
decreasing_by
  have := List.length_pos_iff.mpr ‹_›
  simp only [List.length_drop]
  omega

/-- The variables of `base64url_decode`, in their own widths. -/
structure Accumulator where
  val : UInt32 := 0
  valb : Int8 := -8
  out : ByteString := []

def Accumulator.turn (s : Accumulator) (c : UInt8) : Accumulator :=
  if 128 ≤ c then s
  else
    let v := decodeTable.getD c.toNat (-1)
    if v = -1 then s
    else
      let val := (s.val <<< 6) + v.toInt32.toUInt32
      let valb := s.valb + 6
      if 0 ≤ valb then ⟨val, valb - 8, s.out ++ [(val >>> valb.toInt32.toUInt32).toUInt8]⟩
      else ⟨val, valb, s.out⟩

/-- `base64url_decode` -/
def base64urlDecodeLoop (data : ByteString) : ByteString := (data.foldl Accumulator.turn {}).out

theorem masked_symbols (a b : UInt8) :
    (a.toNat &&& 0xfc) >>> 2 = a.toNat / 4 ∧
      (a.toNat &&& 0x03) <<< 4 ||| (b.toNat &&& 0xf0) >>> 4 = a.toNat % 4 * 16 + b.toNat / 16 ∧
      (a.toNat &&& 0x0f) <<< 2 ||| (b.toNat &&& 0xc0) >>> 6 = a.toNat % 16 * 4 + b.toNat / 64 ∧
      a.toNat &&& 0x3f = a.toNat % 64 := by
  have hhigh : ∀ x : UInt8, (x.toNat &&& 0xfc) >>> 2 = x.toNat / 4 ∧
      (x.toNat &&& 0xf0) >>> 4 = x.toNat / 16 ∧ (x.toNat &&& 0xc0) >>> 6 = x.toNat / 64 := by
    intro x
    have hx := x.toNat_lt
    refine ⟨?_, ?_, ?_⟩
    · rw [Nat.shiftRight_and_distrib, Nat.shiftRight_eq_div_pow]
      exact (Nat.and_two_pow_sub_one_eq_mod _ 6).trans (Nat.mod_eq_of_lt (by omega))
    · rw [Nat.shiftRight_and_distrib, Nat.shiftRight_eq_div_pow]
      exact (Nat.and_two_pow_sub_one_eq_mod _ 4).trans (Nat.mod_eq_of_lt (by omega))
    · rw [Nat.shiftRight_and_distrib, Nat.shiftRight_eq_div_pow]
      exact (Nat.and_two_pow_sub_one_eq_mod _ 2).trans (Nat.mod_eq_of_lt (by omega))
  have hb := b.toNat_lt
  refine ⟨(hhigh a).1, ?_, ?_, Nat.and_two_pow_sub_one_eq_mod _ 6⟩
  · rw [(hhigh b).2.1, ← Nat.shiftLeft_add_eq_or_of_lt (by omega), Nat.shiftLeft_eq]
    exact congrArg (· * 16 + _) (Nat.and_two_pow_sub_one_eq_mod _ 2)
  · rw [(hhigh b).2.2, ← Nat.shiftLeft_add_eq_or_of_lt (by omega), Nat.shiftLeft_eq]
    exact congrArg (· * 4 + _) (Nat.and_two_pow_sub_one_eq_mod _ 4)

theorem encodeTurn_eq {taken : ByteString} (h₁ : 1 ≤ taken.length) (h₃ : taken.length ≤ 3) :
    encodeTurn taken = (group (taken.getD 0 0) (taken.getD 1 0) (taken.getD 2 0)).take
      (taken.length + 1) := by
  obtain ⟨hfirst, hsecond, -, -⟩ := masked_symbols (taken.getD 0 0) (taken.getD 1 0)
  obtain ⟨-, -, hthird, -⟩ := masked_symbols (taken.getD 1 0) (taken.getD 2 0)
  obtain ⟨-, -, -, hfourth⟩ := masked_symbols (taken.getD 2 0) 0
  simp only [encodeTurn, group, hfirst, hsecond, hthird, hfourth]
  obtain hn | hn | hn : taken.length = 1 ∨ taken.length = 2 ∨ taken.length = 3 := by omega
  · simp [hn]
  · simp [hn]
  · simp [hn]

theorem encode_eq (data : ByteString) : base64urlEncodeLoop data = base64urlEncode data := by
  induction data using base64urlEncode.induct with
  | case1 => simp [base64urlEncodeLoop, base64urlEncode]
  | case2 a => simp [base64urlEncodeLoop, base64urlEncode, encodeTurn_eq]
  | case3 a b => simp [base64urlEncodeLoop, base64urlEncode, encodeTurn_eq]
  | case4 a b c r ih =>
    rw [base64urlEncodeLoop]
    simp [base64urlEncode, encodeTurn_eq, group, ih]

/-- The registers of the decoder stand for the numbers of the library's, and the position never
comes near the ends of its eight bits. -/
structure Accumulator.Holds (s : Accumulator) (d : Decoder) : Prop where
  val : s.val.toNat = d.val
  valb : s.valb.toInt = d.valb
  out : s.out = d.out
  low : -8 ≤ d.valb
  high : d.valb < 0

theorem decodeTable_valueOf : ∀ c : UInt8, c < 128 →
    decodeTable.getD c.toNat (-1) =
      (match valueOf c with | some v => Int8.ofNat v | none => -1) := by
  decide +kernel

theorem valueOf_high : ∀ c : UInt8, 128 ≤ c → valueOf c = none := by
  decide +kernel

theorem valueOf_lt : ∀ c : UInt8, ∀ v ∈ valueOf c, v < 64 := by
  decide +kernel

theorem ofNat_sextet : ∀ v < 64,
    Int8.ofNat v ≠ -1 ∧ (Int8.ofNat v).toInt32.toUInt32.toNat = v := by
  decide +kernel

theorem toNat_shift {x : Int8} (h : 0 ≤ x.toInt) :
    x.toInt32.toUInt32.toNat = x.toInt.toNat := by
  have hle : 0 ≤ x.toInt32 := Int32.le_iff_toInt_le.mpr (by simpa using h)
  rw [Int32.toNat_toUInt32_of_le hle, Int32.toNatClampNeg, Int8.toInt_toInt32]

theorem Accumulator.turn_holds {s : Accumulator} {d : Decoder} (h : s.Holds d) (c : UInt8) :
    (s.turn c).Holds (d.feed c) := by
  by_cases hc : 128 ≤ c
  · rw [Accumulator.turn, if_pos hc, Decoder.feed, valueOf_high c hc]
    exact h
  have htable := decodeTable_valueOf c (UInt8.not_le.mp hc)
  rw [Accumulator.turn, if_neg hc, Decoder.feed, htable]
  cases hv : valueOf c with
  | none => exact h
  | some v =>
    obtain ⟨hne, hword⟩ := ofNat_sextet v (valueOf_lt c v hv)
    obtain ⟨hval, hvalb, hout, hlow, hhigh⟩ := h
    have hsum : (s.valb + 6).toInt = d.valb + 6 := by
      have hsix : (6 : Int8).toInt = 6 := rfl
      rw [Int8.toInt_add, hvalb, hsix]
      exact Int.bmod_eq_of_le (by norm_num; omega) (by norm_num; omega)
    have hnext : ((s.val <<< 6) + (Int8.ofNat v).toInt32.toUInt32).toNat =
        (d.val * 64 + v) % 2 ^ 32 := by
      rw [UInt32.toNat_add, hword, UInt32.toNat_shiftLeft, hval, Nat.shiftLeft_eq]
      simp
    have hle : 0 ≤ s.valb + 6 ↔ 0 ≤ d.valb + 6 := by
      rw [Int8.le_iff_toInt_le, hsum]
      rfl
    simp only [if_neg hne, hle]
    split_ifs with hpos
    · have hshift : (s.valb + 6).toInt32.toUInt32.toNat = (d.valb + 6).toNat := by
        rw [toNat_shift (hsum ▸ hpos), hsum]
      have hback : (s.valb + 6 - 8).toInt = d.valb + 6 - 8 := by
        have height : (8 : Int8).toInt = 8 := rfl
        rw [Int8.toInt_sub, hsum, height]
        exact Int.bmod_eq_of_le (by norm_num; omega) (by norm_num; omega)
      refine ⟨hnext, hback, ?_, ?_, ?_⟩
      · have hsmall : (d.valb + 6).toNat % 32 = (d.valb + 6).toNat :=
          Nat.mod_eq_of_lt (by omega)
        change s.out ++ [_] = d.out ++ [_]
        rw [hout]
        refine congrArg (d.out ++ [·]) (UInt8.toNat_inj.mp ?_)
        rw [UInt32.toNat_toUInt8, UInt32.toNat_shiftRight, hnext, hshift, hsmall,
          Nat.shiftRight_eq_div_pow]
        exact UInt8.toNat_ofNat'.symm
      · change -8 ≤ d.valb + 6 - 8
        omega
      · change d.valb + 6 - 8 < 0
        omega
    · refine ⟨hnext, hsum, hout, ?_, ?_⟩
      · change -8 ≤ d.valb + 6
        omega
      · change d.valb + 6 < 0
        omega

theorem Accumulator.run_holds {s : Accumulator} {d : Decoder} (h : s.Holds d)
    (data : ByteString) : (data.foldl Accumulator.turn s).Holds (data.foldl Decoder.feed d) := by
  induction data generalizing s d with
  | nil => exact h
  | cons c data ih => exact ih (Accumulator.turn_holds h c)

theorem decode_eq (data : ByteString) : base64urlDecodeLoop data = base64urlDecode data :=
  (Accumulator.run_holds ⟨rfl, rfl, rfl, le_rfl, by decide⟩ data).out

/-- The codec loses nothing and writes only letters that a token may have, so that a token built
of segments with something in them can be refused for its length alone. -/
theorem codec_faithful (b : ByteString) :
    base64urlDecodeLoop (base64urlEncodeLoop b) = b ∧
      (∀ c ∈ base64urlEncodeLoop b, isBase64urlChar c = true) ∧
      Function.Injective base64urlEncodeLoop ∧
      ∀ h p g : ByteString, h ≠ [] → p ≠ [] → g ≠ [] →
        (validateJwtStructure (base64urlEncodeLoop h ++
            dot :: (base64urlEncodeLoop p ++ dot :: base64urlEncodeLoop g)) = true ↔
          (base64urlEncodeLoop h ++
            dot :: (base64urlEncodeLoop p ++ dot :: base64urlEncodeLoop g)).length ≤ 8192) := by
  have hround (t : ByteString) : base64urlDecodeLoop (base64urlEncodeLoop t) = t := by
    rw [decode_eq, encode_eq, decode_encode]
  refine ⟨hround b, ?_, Function.LeftInverse.injective hround, ?_⟩
  · intro c hc
    rw [encode_eq] at hc
    exact isBase64urlChar_encode hc
  · intro h p g hh hp hg
    rw [encode_eq, encode_eq, encode_eq, validateJwtStructure_segments hh hp hg,
      decide_eq_true_iff]

end Cerberus.Jwt.Codec
