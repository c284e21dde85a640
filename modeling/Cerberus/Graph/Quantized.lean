import Cerberus.Graph.Kernels
import Cerberus.Graph.BlockedKernels
import Cerberus.Foundation.Rounding
import Cerberus.Foundation.Int32

namespace Cerberus.Graph

open Foundation.Bytes Foundation.Accumulate Foundation.Rounding Foundation.Int32

structure QuantParams (K : Type) where
  scaleA : K
  scaleB : K
  scaleC : K
  zeroPointA : Int := 0
  zeroPointB : Int := 0

section

variable {K : Type} [Field K] [LinearOrder K] [FloorRing K]

def computeMinmax (src : List K) : Option (K × K) :=
  match src with
  | [] => none
  | x :: xs => some (xs.foldl min x, xs.foldl max x)

def computeScale (minVal maxVal : K) : K := if minVal = maxVal then 1 else (maxVal - minVal) / 255

def computeZeroPoint (minVal scale : K) : Option Int := int32 (roundAway (-minVal / scale))

def quantizeU8 (scale : K) (zeroPoint : Int) (v : K) : UInt8 :=
  let q : K := roundAway (v / scale) + zeroPoint
  let q := if q < 0 then 0 else q
  let q := if 255 < q then 255 else q
  UInt8.ofInt ⌊q⌋

def quantizeTensorU8 (src : List K) (scale : K) (zeroPoint : Int) : List UInt8 :=
  src.map (quantizeU8 scale zeroPoint)

/-- One accumulator of `kernel_matmul_int8`, in `int32_t`. -/
def accumulate (a b : List UInt8) (n k : Nat) (zeroPointA zeroPointB : Int) (i j : Nat) :
    Option Int :=
  runningSum k (fun l ↦ do
    let x ← a[i * k + l]?
    let y ← b[l * n + j]?
    let x ← int32 (x.toNat - zeroPointA)
    let y ← int32 (y.toNat - zeroPointB)
    int32 (x * y))

def kernelMatmulInt8 (a b : Pointer UInt8) (c : Pointer K) (m n k : Nat) (q : QuantParams K) :
    Written K :=
  match a, b, c with
  | .block a, .block b, .block c =>
    if m = 0 ∨ n = 0 ∨ k = 0 then .failed (lit "empty dimension")
    else
      let acc := (List.range (m * n)).mapM (fun i ↦
        accumulate a b n k q.zeroPointA q.zeroPointB (i / n) (i % n))
      let dequantScale := q.scaleA * q.scaleB
      .ofAccess (acc.bind (fun acc ↦
        if m * n ≤ c.length then some (store (acc.map (fun v : Int ↦ (v : K) * dequantScale)) c)
        else none))
  | _, _, _ => .failed (lit "null pointer")

/-- What `kernel_matmul_dynamic_quant` makes of its two matrices. -/
def quantizeOperands (a b : List K) : Option (QuantParams K × List UInt8 × List UInt8) := do
  let (minA, maxA) ← computeMinmax a
  let (minB, maxB) ← computeMinmax b
  let scaleA := computeScale minA maxA
  let scaleB := computeScale minB maxB
  let scaleA := if scaleA = 0 then 1 else scaleA
  let scaleB := if scaleB = 0 then 1 else scaleB
  let zpA ← computeZeroPoint minA scaleA
  let zpB ← computeZeroPoint minB scaleB
  pure ({ scaleA, scaleB, scaleC := 1, zeroPointA := zpA, zeroPointB := zpB },
    quantizeTensorU8 a scaleA zpA, quantizeTensorU8 b scaleB zpB)

def kernelMatmulDynamicQuant (a b c : Pointer K) (m n k : Nat) : Written K :=
  onBlocks a b c (fun a b c ↦
    if m * k ≤ a.length ∧ k * n ≤ b.length then
      match quantizeOperands (a.take (m * k)) (b.take (k * n)) with
      | none => .undefined
      | some (q, aq, bq) => kernelMatmulInt8 (.block aq) (.block bq) (.block c) m n k q
    else .undefined)

end

section

variable {K : Type} [Field K] [LinearOrder K] [FloorRing K] {xs : List K} {x : K}

def minOf (xs : List K) : K := xs.tail.foldl min (xs.headD 0)

def maxOf (xs : List K) : K := xs.tail.foldl max (xs.headD 0)

def scaleOf (xs : List K) : K := computeScale (minOf xs) (maxOf xs)

def levelOf (xs : List K) (x : K) : Int := level 255 (minOf xs / scaleOf xs) (x / scaleOf xs)

def lowestOf (xs : List K) : Int := roundAway (minOf xs / scaleOf xs)

omit [FloorRing K] in
theorem computeMinmax_eq (h : xs ≠ []) : computeMinmax xs = some (minOf xs, maxOf xs) := by
  cases xs with
  | nil => contradiction
  | cons x xs => rfl

omit [Field K] [FloorRing K] in
theorem foldl_min_le (xs : List K) (y : K) : xs.foldl min y ≤ y ∧ ∀ x ∈ xs, xs.foldl min y ≤ x := by
  induction xs generalizing y with
  | nil => simp
  | cons z xs ih =>
    obtain ⟨hy, hxs⟩ := ih (min y z)
    refine ⟨hy.trans (min_le_left y z), fun x hx ↦ ?_⟩
    rcases List.mem_cons.mp hx with rfl | hx
    · exact hy.trans (min_le_right y x)
    · exact hxs x hx

omit [Field K] [FloorRing K] in
theorem le_foldl_max (xs : List K) (y : K) : y ≤ xs.foldl max y ∧ ∀ x ∈ xs, x ≤ xs.foldl max y := by
  induction xs generalizing y with
  | nil => simp
  | cons z xs ih =>
    obtain ⟨hy, hxs⟩ := ih (max y z)
    refine ⟨(le_max_left y z).trans hy, fun x hx ↦ ?_⟩
    rcases List.mem_cons.mp hx with rfl | hx
    · exact (le_max_right y x).trans hy
    · exact hxs x hx

omit [FloorRing K] in
theorem minOf_le (hx : x ∈ xs) : minOf xs ≤ x := by
  cases xs with
  | nil => simp at hx
  | cons y xs =>
    rcases List.mem_cons.mp hx with rfl | hx
    · exact (foldl_min_le xs x).1
    · exact (foldl_min_le xs y).2 x hx

omit [FloorRing K] in
theorem le_maxOf (hx : x ∈ xs) : x ≤ maxOf xs := by
  cases xs with
  | nil => simp at hx
  | cons y xs =>
    rcases List.mem_cons.mp hx with rfl | hx
    · exact (le_foldl_max xs x).1
    · exact (le_foldl_max xs y).2 x hx

variable [IsStrictOrderedRing K]

omit [FloorRing K] in
theorem scaleOf_pos (h : xs ≠ []) : 0 < scaleOf xs := by
  obtain ⟨x, hx⟩ := List.exists_mem_of_ne_nil xs h
  have hle : minOf xs ≤ maxOf xs := (minOf_le hx).trans (le_maxOf hx)
  unfold scaleOf computeScale
  split
  · exact one_pos
  · rename_i hne
    exact div_pos (sub_pos.mpr (lt_of_le_of_ne hle hne)) (by norm_num)

omit [FloorRing K] in
theorem maxOf_le (xs : List K) : maxOf xs ≤ minOf xs + 255 * scaleOf xs := by
  by_cases h : minOf xs = maxOf xs
  · rw [scaleOf, computeScale, if_pos h, h]
    linarith
  · rw [scaleOf, computeScale, if_neg h]
    linarith

omit [FloorRing K] in
theorem div_scaleOf_le (hx : x ∈ xs) : x / scaleOf xs ≤ minOf xs / scaleOf xs + (255 : Nat) := by
  have hpos : 0 < scaleOf xs := scaleOf_pos (List.ne_nil_of_mem hx)
  have hmax := le_maxOf hx
  have hwidth := maxOf_le xs
  rw [div_le_iff₀ hpos, add_mul, div_mul_cancel₀ _ hpos.ne']
  push_cast
  linarith

omit [FloorRing K] in
theorem minOf_div_le (hx : x ∈ xs) : minOf xs / scaleOf xs ≤ x / scaleOf xs :=
  div_le_div_of_nonneg_right (minOf_le hx) (scaleOf_pos (List.ne_nil_of_mem hx)).le

theorem levelOf_mem (hx : x ∈ xs) : lowestOf xs ≤ levelOf xs x ∧ levelOf xs x ≤ lowestOf xs + 255 :=
  ⟨roundAway_le_level (minOf_div_le hx), level_le _ _⟩

theorem toNat_ofInt_byte {z : Int} (h0 : 0 ≤ z) (h : z ≤ 255) : ((UInt8.ofInt z).toNat : Int) = z := by
  rw [UInt8.ofInt, UInt8.toNat_ofNat']
  omega

theorem quantizeU8_eq (hx : x ∈ xs) :
    ((quantizeU8 (scaleOf xs) (-lowestOf xs) x).toNat : Int) = levelOf xs x - lowestOf xs := by
  have hlow : lowestOf xs ≤ roundAway (x / scaleOf xs) := roundAway_mono (minOf_div_le hx)
  have hcast : ((roundAway (x / scaleOf xs) : K) + ((-lowestOf xs : Int) : K)) =
      ((roundAway (x / scaleOf xs) - lowestOf xs : Int) : K) := by
    push_cast
    ring
  have hnonneg : ¬((roundAway (x / scaleOf xs) - lowestOf xs : Int) : K) < 0 := by
    rw [Int.cast_lt_zero]
    omega
  have hlevel : levelOf xs x = min (roundAway (x / scaleOf xs)) (lowestOf xs + 255) := rfl
  unfold quantizeU8
  dsimp only
  rw [hcast, if_neg hnonneg]
  by_cases hbig : (255 : K) < ((roundAway (x / scaleOf xs) - lowestOf xs : Int) : K)
  · have hbig' : 255 < roundAway (x / scaleOf xs) - lowestOf xs := by exact_mod_cast hbig
    have hfloor : ⌊(255 : K)⌋ = 255 := by exact_mod_cast Int.floor_intCast (R := K) 255
    rw [if_pos hbig, hfloor, toNat_ofInt_byte (by decide) (by decide)]
    omega
  · have hsmall : roundAway (x / scaleOf xs) - lowestOf xs ≤ 255 := by
      exact_mod_cast not_lt.mp hbig
    rw [if_neg hbig, Int.floor_intCast, toNat_ofInt_byte (by omega) hsmall]
    omega

theorem computeZeroPoint_eq (xs : List K) :
    computeZeroPoint (minOf xs) (scaleOf xs) = int32 (-lowestOf xs) := by
  rw [computeZeroPoint, neg_div, roundAway_neg, lowestOf]

end

end Cerberus.Graph
