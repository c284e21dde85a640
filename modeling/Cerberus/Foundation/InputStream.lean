import Cerberus.Foundation.LittleEndian

/-! The standard input streams over bytes, in a file or in memory. -/

namespace Cerberus.Foundation

open Bytes LittleEndian

inductive StreamKind
  | file
  | memory
  deriving DecidableEq

/-- A stream is good until an operation fails. -/
structure InputStream where
  kind : StreamKind
  bytes : ByteString
  pos : Nat := 0
  good : Bool := true
  deriving DecidableEq

/-- A file may be positioned behind its end, a string may not. -/
def StreamKind.admits (kind : StreamKind) (size : Nat) (target : Int) : Prop :=
  match kind with
  | .memory => 0 ≤ target ∧ target ≤ size
  | .file => 0 ≤ target ∧ target < 2 ^ 63

instance (kind : StreamKind) (size : Nat) (target : Int) : Decidable (kind.admits size target) :=
  match kind with
  | .memory => inferInstanceAs (Decidable (0 ≤ target ∧ target ≤ size))
  | .file => inferInstanceAs (Decidable (0 ≤ target ∧ target < 2 ^ 63))

def signed64 (n : Nat) : Int := if n < 2 ^ 63 then n else n - 2 ^ 64

namespace InputStream

/-- A read that comes to the end of the bytes delivers those that are left, and fails. -/
def read (n : Nat) (s : InputStream) : ByteString × InputStream :=
  if s.good then
    let got := (s.bytes.drop s.pos).take n
    (got, { s with pos := s.pos + got.length, good := got.length = n })
  else ([], s)

/-- A read into a number that was zero before. -/
def readNat (width : Nat) (s : InputStream) : Nat × InputStream :=
  (fromLittleEndian (s.read width).1, (s.read width).2)

def seekCur (off : Int) (s : InputStream) : InputStream :=
  if s.good then
    if s.kind.admits s.bytes.length (s.pos + off) then { s with pos := (s.pos + off).toNat }
    else { s with good := false }
  else s

variable {s : InputStream} {n i : Nat} {kind : StreamKind} {b : ByteString}

theorem read_bad (h : s.good = false) (n : Nat) : s.read n = ([], s) := by
  simp [read, h]

theorem readNat_bad (h : s.good = false) (n : Nat) : s.readNat n = (0, s) := by
  rw [readNat, read_bad h]
  rfl

theorem seekCur_bad (h : s.good = false) (off : Int) : s.seekCur off = s := by
  simp [seekCur, h]

def atPos (kind : StreamKind) (b : ByteString) (i : Nat) : InputStream where
  kind := kind
  bytes := b
  pos := i

theorem read_full (h : i + n ≤ b.length) :
    (atPos kind b i).read n = ((b.drop i).take n, atPos kind b (i + n)) := by
  have hlen : ((b.drop i).take n).length = n := by
    rw [List.length_take, List.length_drop]
    omega
  simp [read, atPos, hlen]

theorem read_short (hn : 0 < n) (h : b.length < i + n) :
    ((atPos kind b i).read n).2.good = false := by
  have hlen : ((b.drop i).take n).length ≠ n := by
    rw [List.length_take, List.length_drop]
    omega
  simpa [read, atPos] using hlen

theorem readNat_full (h : i + n ≤ b.length) :
    (atPos kind b i).readNat n = (readAt i n b, atPos kind b (i + n)) := by
  rw [readNat, read_full h]
  rfl

theorem readNat_short (hn : 0 < n) (h : b.length < i + n) :
    ((atPos kind b i).readNat n).2.good = false := read_short hn h

theorem readNat_fst (kind : StreamKind) (b : ByteString) (i n : Nat) :
    ((atPos kind b i).readNat n).1 = readAt i n b := by
  simp [readNat, read, atPos, readAt]

/-- The stream after reading up to an offset, whether or not the bytes were enough. -/
def Passed (kind : StreamKind) (b : ByteString) (i : Nat) (s : InputStream) : Prop :=
  i ≤ b.length ∧ s = atPos kind b i ∨ b.length < i ∧ s.good = false

theorem Passed.readNat (h : Passed kind b i s) (hn : 0 < n) :
    (s.readNat n).1 = readAt i n b ∧ Passed kind b (i + n) (s.readNat n).2 := by
  rcases h with ⟨hi, rfl⟩ | ⟨hi, hs⟩
  · refine ⟨readNat_fst kind b i n, ?_⟩
    by_cases hfull : i + n ≤ b.length
    · rw [readNat_full hfull]
      exact .inl ⟨hfull, rfl⟩
    · exact .inr ⟨by omega, readNat_short hn (by omega)⟩
  · rw [readNat_bad hs]
    refine ⟨?_, .inr ⟨by omega, hs⟩⟩
    rw [readAt, List.drop_eq_nil_of_le (by omega), List.take_nil]
    rfl

theorem readNat_lt (s : InputStream) (n : Nat) : (s.readNat n).1 < 256 ^ n := by
  have hlen : (s.read n).1.length ≤ n := by
    rw [read]
    split
    · exact List.length_take_le _ _
    · exact Nat.zero_le n
  exact (fromLittleEndian_lt _).trans_le (Nat.pow_le_pow_right (by decide) hlen)

theorem seekCur_ok {off : Int} {j : Nat} (hj : (j : Int) = i + off)
    (h : kind.admits b.length j) : (atPos kind b i).seekCur off = atPos kind b j := by
  simp [seekCur, atPos, ← hj, h]

theorem seekCur_fail {off : Int} (h : ¬kind.admits b.length (i + off)) :
    ((atPos kind b i).seekCur off).good = false := by
  simp [seekCur, atPos, h]

end InputStream

end Cerberus.Foundation
