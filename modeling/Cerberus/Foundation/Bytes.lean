import Mathlib

namespace Cerberus.Foundation.Bytes

abbrev ByteString := List UInt8

instance : LawfulBEq ByteString := inferInstance

def lit (s : String) : ByteString := s.toByteArray.data.toList

theorem lit_injective : Function.Injective lit := by
  intro a b h
  have hdata : a.toByteArray.data = b.toByteArray.data := Array.toList_inj.mp h
  exact String.toByteArray_inj.mp (ByteArray.ext hdata)

def digits (base n : Nat) : ByteString :=
  (Nat.toDigits base n).map (fun c ↦ c.toNat.toUInt8)

/-- Lower-case hexadecimal without leading zeros, as `std::to_chars` writes it. -/
def hexadecimal (n : Nat) : ByteString := digits 16 n

/-- `std::to_string` of an unsigned value. -/
def decimal (n : Nat) : ByteString := digits 10 n

/-- `std::to_string` of a signed value. -/
def signedDecimal : Int → ByteString
  | .ofNat n => decimal n
  | .negSucc n => lit "-" ++ decimal (n + 1)

def isSpace (b : UInt8) : Bool := b == 32 || (9 ≤ b && b ≤ 13)

def isDigit (b : UInt8) : Bool := 48 ≤ b && b ≤ 57

def leadingDigits (s : ByteString) : Option Nat :=
  let ds := s.takeWhile isDigit
  if ds.isEmpty then none else some (ds.foldl (fun n b ↦ 10 * n + (b.toNat - 48)) 0)

/-- The integer a string starts with, after white space and with an optional sign. -/
def leadingInteger (s : ByteString) : Option Int :=
  match s.dropWhile isSpace with
  | 45 :: r => (leadingDigits r).map (fun n ↦ -(n : Int))
  | 43 :: r => (leadingDigits r).map (fun n ↦ (n : Int))
  | r => (leadingDigits r).map (fun n ↦ (n : Int))

def fits (width : Nat) (n : Int) : Bool := -2 ^ (width - 1) ≤ n && n < 2 ^ (width - 1)

/-- `std::stoi`; `none` is an exception. -/
def stoi (s : ByteString) : Option Int := (leadingInteger s).filter (fits 32)

/-- `std::stoll`; `none` is an exception. -/
def stoll (s : ByteString) : Option Int := (leadingInteger s).filter (fits 64)

theorem digits_eq (base n : Nat) (hb : 1 < base) :
    digits base n = if n < base then [(Nat.digitChar n).toNat.toUInt8]
      else digits base (n / base) ++ [(Nat.digitChar (n % base)).toNat.toUInt8] := by
  unfold digits
  rw [Nat.toDigits_eq_if hb]
  split <;> simp

theorem digits_ne_nil (base n : Nat) : digits base n ≠ [] := by
  simp [digits, Nat.toDigits_ne_nil]

theorem digitByte_injective : ∀ a < 16, ∀ b < 16,
    (Nat.digitChar a).toNat.toUInt8 = (Nat.digitChar b).toNat.toUInt8 → a = b := by
  decide

theorem digits_injective {base : Nat} (hb : 1 < base) (hb' : base ≤ 16) :
    Function.Injective (digits base) := by
  intro n
  induction n using Nat.strong_induction_on with
  | _ n ih =>
    intro k h
    rw [digits_eq base n hb, digits_eq base k hb] at h
    have hlast (x : Nat) : x % base < 16 := (Nat.mod_lt x (by omega)).trans_le hb'
    split at h <;> split at h
    · exact digitByte_injective n (by omega) k (by omega) (by simpa using h)
    · have hl := congrArg List.length h
      have hne := List.length_pos_iff.mpr (digits_ne_nil base (k / base))
      simp only [List.length_cons, List.length_nil, List.length_append] at hl
      omega
    · have hl := congrArg List.length h
      have hne := List.length_pos_iff.mpr (digits_ne_nil base (n / base))
      simp only [List.length_cons, List.length_nil, List.length_append] at hl
      omega
    · obtain ⟨hhead, htail⟩ := List.append_inj' h rfl
      have hq := ih (n / base) (Nat.div_lt_self (by omega) hb) hhead
      have hr := digitByte_injective _ (hlast n) _ (hlast k) (by simpa using htail)
      rw [← Nat.div_add_mod n base, ← Nat.div_add_mod k base, hq, hr]

theorem hexadecimal_injective : Function.Injective hexadecimal :=
  digits_injective (by decide) (by decide)

theorem decimal_injective : Function.Injective decimal := digits_injective (by decide) (by decide)

theorem digitByte_decimal : ∀ d < 10, isDigit (Nat.digitChar d).toNat.toUInt8 = true ∧
    (Nat.digitChar d).toNat.toUInt8.toNat - 48 = d := by
  decide

theorem isDigit_decimal {n : Nat} {b : UInt8} (h : b ∈ decimal n) : isDigit b = true := by
  induction n using Nat.strong_induction_on with
  | _ n ih =>
    rw [decimal, digits_eq 10 n (by decide)] at h
    split at h
    · rw [List.mem_singleton.mp h]
      exact (digitByte_decimal n (by omega)).1
    · rcases List.mem_append.mp h with h | h
      · exact ih (n / 10) (by omega) h
      · rw [List.mem_singleton.mp h]
        exact (digitByte_decimal (n % 10) (by omega)).1

theorem value_decimal (n : Nat) :
    (decimal n).foldl (fun n b ↦ 10 * n + (b.toNat - 48)) 0 = n := by
  induction n using Nat.strong_induction_on with
  | _ n ih =>
    rw [decimal, digits_eq 10 n (by decide)]
    split
    · simp only [List.foldl_cons, List.foldl_nil, (digitByte_decimal n (by omega)).2]
      omega
    · have hvalue := ih (n / 10) (by omega)
      rw [decimal] at hvalue
      rw [List.foldl_append, hvalue]
      simp only [List.foldl_cons, List.foldl_nil, (digitByte_decimal (n % 10) (by omega)).2]
      omega

theorem leadingDigits_decimal (n : Nat) : leadingDigits (decimal n) = some n := by
  have hall : (decimal n).takeWhile isDigit = decimal n :=
    List.takeWhile_eq_self_iff.mpr (fun _ hb ↦ isDigit_decimal hb)
  rw [leadingDigits, hall, value_decimal]
  simp [decimal, digits_ne_nil]

theorem head_decimal {n : Nat} (h : 0 < n) : ∃ b rest, decimal n = b :: rest ∧ 49 ≤ b := by
  induction n using Nat.strong_induction_on with
  | _ n ih =>
    rw [decimal, digits_eq 10 n (by decide)]
    split
    · next hlt =>
      refine ⟨_, [], rfl, ?_⟩
      have hdigit : ∀ d < 10, 0 < d → 49 ≤ (Nat.digitChar d).toNat.toUInt8 := by decide
      exact hdigit n hlt h
    · next hge =>
      obtain ⟨b, rest, heq, hb⟩ := ih (n / 10) (by omega) (by omega)
      rw [decimal] at heq
      rw [heq]
      exact ⟨b, _, rfl, hb⟩

theorem plain_of_isDigit {b : UInt8} (h : isDigit b = true) :
    isSpace b = false ∧ b ≠ 45 ∧ b ≠ 43 := by
  simp only [isDigit, isSpace, Bool.and_eq_true, decide_eq_true_eq] at h ⊢
  grind

theorem leadingInteger_signedDecimal (n : Int) : leadingInteger (signedDecimal n) = some n := by
  cases n with
  | ofNat n =>
    have hvalue := leadingDigits_decimal n
    obtain ⟨b, r, hb⟩ := List.exists_cons_of_ne_nil (digits_ne_nil 10 n)
    rw [← decimal] at hb
    have hdigit : isDigit b = true := isDigit_decimal (n := n) (by simp [hb])
    obtain ⟨hspace, hminus, hplus⟩ := plain_of_isDigit hdigit
    have hl : signedDecimal (.ofNat n) = b :: r := hb
    rw [hl, leadingInteger, List.dropWhile_cons_of_neg (by simp [hspace])]
    rw [hb] at hvalue
    simp [hminus, hplus, hvalue]
  | negSucc n =>
    have hl : signedDecimal (.negSucc n) = 45 :: decimal (n + 1) := rfl
    rw [hl, leadingInteger]
    simp [isSpace, leadingDigits_decimal]
    omega

theorem stoi_signedDecimal {n : Int} (h : fits 32 n = true) : stoi (signedDecimal n) = some n := by
  simp [stoi, leadingInteger_signedDecimal, h]

end Cerberus.Foundation.Bytes
