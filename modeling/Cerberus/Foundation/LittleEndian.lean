import Cerberus.Foundation.Bytes

namespace Cerberus.Foundation.LittleEndian

open Bytes

def littleEndian : Nat → Nat → ByteString
  | 0, _ => []
  | width + 1, n => n.toUInt8 :: littleEndian width (n / 256)

def fromLittleEndian : ByteString → Nat
  | [] => 0
  | b :: s => b.toNat + 256 * fromLittleEndian s

def readAt (offset width : Nat) (s : ByteString) : Nat :=
  fromLittleEndian ((s.drop offset).take width)

variable {width n offset : Nat} {s r : ByteString}

@[simp] theorem length_littleEndian : (littleEndian width n).length = width := by
  induction width generalizing n with
  | zero => rfl
  | succ width ih => simp [littleEndian, ih]

theorem fromLittleEndian_littleEndian (h : n < 256 ^ width) :
    fromLittleEndian (littleEndian width n) = n := by
  induction width generalizing n with
  | zero =>
    obtain rfl : n = 0 := by simpa using h
    rfl
  | succ width ih =>
    have hsmall : n / 256 < 256 ^ width := by
      rw [Nat.div_lt_iff_lt_mul (by decide)]
      simpa [Nat.pow_succ] using h
    have hbyte : n.toUInt8.toNat = n % 256 := by simp
    rw [littleEndian, fromLittleEndian, ih hsmall, hbyte]
    exact Nat.mod_add_div n 256

theorem littleEndian_fromLittleEndian (s : ByteString) :
    littleEndian s.length (fromLittleEndian s) = s := by
  induction s with
  | nil => rfl
  | cons b s ih =>
    have hbyte : (b.toNat + 256 * fromLittleEndian s).toUInt8 = b := by
      rw [← UInt8.toNat_inj]
      simp
    have hrest : (b.toNat + 256 * fromLittleEndian s) / 256 = fromLittleEndian s := by
      have hlt := b.toNat_lt
      omega
    rw [List.length_cons, fromLittleEndian, littleEndian, hbyte, hrest, ih]

theorem fromLittleEndian_lt (s : ByteString) : fromLittleEndian s < 256 ^ s.length := by
  induction s with
  | nil => decide
  | cons b s ih =>
    have hlt := b.toNat_lt
    rw [fromLittleEndian, List.length_cons, Nat.pow_succ]
    omega

theorem readAt_skip {skipped : Nat} (h : skipped ≤ offset) :
    readAt offset width (littleEndian skipped n ++ r) = readAt (offset - skipped) width r := by
  have hlen : (littleEndian skipped n).length = skipped := length_littleEndian
  rw [readAt, List.drop_append, List.drop_eq_nil_of_le (hlen.trans_le h), List.nil_append, hlen,
    readAt]

theorem readAt_here (h : n < 256 ^ width) : readAt 0 width (littleEndian width n ++ r) = n := by
  have hlen : (littleEndian width n).length = width := length_littleEndian
  rw [readAt, List.drop_zero, List.take_append_of_le_length hlen.ge, List.take_of_length_le hlen.le,
    fromLittleEndian_littleEndian h]

def Holds (s : ByteString) (offset : Nat) (part : ByteString) : Prop :=
  ∃ before rest, s = before ++ part ++ rest ∧ before.length = offset

section

variable {part part' : ByteString}

theorem Holds.left (h : Holds s offset (part ++ part')) : Holds s offset part := by
  obtain ⟨before, rest, rfl, rfl⟩ := h
  exact ⟨before, part' ++ rest, by simp, rfl⟩

theorem Holds.right (h : Holds s offset (part ++ part')) :
    Holds s (offset + part.length) part' := by
  obtain ⟨before, rest, rfl, rfl⟩ := h
  exact ⟨before ++ part, rest, by simp, by simp⟩

theorem Holds.bound (h : Holds s offset part) : offset + part.length ≤ s.length := by
  obtain ⟨before, rest, rfl, rfl⟩ := h
  simp

theorem Holds.take (h : Holds s offset part) : (s.drop offset).take part.length = part := by
  obtain ⟨before, rest, rfl, rfl⟩ := h
  simp

theorem holds_take (h : offset + n ≤ s.length) : Holds s offset ((s.drop offset).take n) := by
  refine ⟨s.take offset, (s.drop offset).drop n, ?_, by simp; omega⟩
  rw [List.append_assoc, List.take_append_drop, List.take_append_drop]

theorem Holds.append (h : Holds s offset part) (h' : Holds s (offset + part.length) part') :
    Holds s offset (part ++ part') := by
  have hbound := h'.bound
  have heq : (s.drop offset).take (part.length + part'.length) = part ++ part' := by
    rw [List.take_add, h.take, List.drop_drop, h'.take]
  rw [← heq]
  exact holds_take (by omega)

theorem Holds.readAt_eq (h : Holds s offset (littleEndian width n)) (hn : n < 256 ^ width) :
    readAt offset width s = n := by
  have htake := h.take
  rw [length_littleEndian] at htake
  rw [readAt, htake, fromLittleEndian_littleEndian hn]

theorem length_drop_take (h : offset + width ≤ s.length) :
    ((s.drop offset).take width).length = width := by
  rw [List.length_take, List.length_drop]
  omega

theorem readAt_lt (h : offset + width ≤ s.length) : readAt offset width s < 256 ^ width := by
  have hlt := fromLittleEndian_lt ((s.drop offset).take width)
  rwa [length_drop_take h] at hlt

theorem holds_readAt (h : offset + width ≤ s.length) :
    Holds s offset (littleEndian width (readAt offset width s)) := by
  have heq := littleEndian_fromLittleEndian ((s.drop offset).take width)
  rw [length_drop_take h] at heq
  rw [readAt, heq]
  exact holds_take h

theorem Holds.after_number (h : Holds s (offset + width) part) :
    Holds s offset (littleEndian width (readAt offset width s) ++ part) := by
  have hbound := h.bound
  refine (holds_readAt (by omega)).append ?_
  rwa [length_littleEndian]

end

end Cerberus.Foundation.LittleEndian
