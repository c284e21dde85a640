import Cerberus.Graph.Quantized
import Mathlib.Algebra.Order.BigOperators.Group.Finset
import Mathlib.Data.Rat.Floor

namespace Cerberus.Graph

open Foundation.Bytes Foundation.Accumulate Foundation.Rounding Foundation.Int32

variable {K : Type} [Field K] [LinearOrder K] [FloorRing K] {a b : List K} {m n k i j : Nat}

/-- Both matrices are quantized, and every accumulator is the exact sum over the stored values. -/
def AccumulatesExactly (a b : List K) (m n k : Nat) : Prop :=
  ∃ q aq bq, quantizeOperands a b = some (q, aq, bq) ∧ ∀ i < m, ∀ j < n,
    accumulate aq bq n k q.zeroPointA q.zeroPointB i j = some (∑ l ∈ Finset.range k,
      (((aq.getD (i * k + l) 0).toNat : Int) - q.zeroPointA) *
        (((bq.getD (l * n + j) 0).toNat : Int) - q.zeroPointB))

def levelAt (xs : List K) (i : Nat) : Int := levelOf xs (xs.getD i 0)

/-- The least levels, the levels, their products and the sums of these along a row and a column are
all in `int32_t`. -/
structure FitsAccumulators (a b : List K) (m n k : Nat) : Prop where
  zeroPoints : Fits (-lowestOf a) ∧ Fits (-lowestOf b)
  levels : ∀ i < m, ∀ j < n, ∀ l < k,
    Fits (levelAt a (i * k + l)) ∧ Fits (levelAt b (l * n + j))
  products : ∀ i < m, ∀ j < n, ∀ l < k, Fits (levelAt a (i * k + l) * levelAt b (l * n + j))
  sums : ∀ i < m, ∀ j < n, ∀ r ≤ k,
    Fits (∑ l ∈ Finset.range r, levelAt a (i * k + l) * levelAt b (l * n + j))

variable [IsStrictOrderedRing K]

omit [FloorRing K] in
theorem scaleOf_ne_zero (h : a ≠ []) : ¬computeScale (minOf a) (maxOf a) = 0 := (scaleOf_pos h).ne'

theorem quantizeOperands_eq (ha : a ≠ []) (hb : b ≠ []) :
    quantizeOperands a b = if Fits (-lowestOf a) ∧ Fits (-lowestOf b) then
      some ({
        scaleA := scaleOf a
        scaleB := scaleOf b
        scaleC := 1
        zeroPointA := -lowestOf a
        zeroPointB := -lowestOf b },
        quantizeTensorU8 a (scaleOf a) (-lowestOf a), quantizeTensorU8 b (scaleOf b) (-lowestOf b))
    else none := by
  rw [quantizeOperands, computeMinmax_eq ha, computeMinmax_eq hb]
  simp only [Option.bind_eq_bind, Option.bind_some, if_neg (scaleOf_ne_zero ha),
    if_neg (scaleOf_ne_zero hb)]
  rw [← scaleOf, ← scaleOf, computeZeroPoint_eq, computeZeroPoint_eq, int32, int32]
  by_cases hza : Fits (-lowestOf a)
  · by_cases hzb : Fits (-lowestOf b)
    · simp [hza, hzb]
    · simp [hza, hzb]
  · simp [hza]

theorem stored_level (hi : i < a.length) :
    ∃ v, (quantizeTensorU8 a (scaleOf a) (-lowestOf a))[i]? = some v ∧
      (v.toNat : Int) - -lowestOf a = levelAt a i := by
  have hread : (quantizeTensorU8 a (scaleOf a) (-lowestOf a))[i]? =
      some (quantizeU8 (scaleOf a) (-lowestOf a) (a[i])) := by
    simp [quantizeTensorU8, hi]
  refine ⟨_, hread, ?_⟩
  rw [quantizeU8_eq (List.getElem_mem hi), levelAt, List.getD_eq_getElem _ _ hi]
  omega

theorem accumulate_quantized (ha : a.length = m * k) (hb : b.length = k * n) (hi : i < m)
    (hj : j < n) {s : Int} :
    accumulate (quantizeTensorU8 a (scaleOf a) (-lowestOf a))
        (quantizeTensorU8 b (scaleOf b) (-lowestOf b)) n k (-lowestOf a) (-lowestOf b) i j =
        some s ↔
      (∀ l < k, (Fits (levelAt a (i * k + l)) ∧ Fits (levelAt b (l * n + j))) ∧
        Fits (levelAt a (i * k + l) * levelAt b (l * n + j))) ∧
      (∀ r ≤ k, Fits (∑ l ∈ Finset.range r, levelAt a (i * k + l) * levelAt b (l * n + j))) ∧
      ∑ l ∈ Finset.range k, levelAt a (i * k + l) * levelAt b (l * n + j) = s := by
  refine runningSum_eq_some (fun l hl p ↦ ?_)
  obtain ⟨x, hx, hxl⟩ := stored_level (a := a) (i := i * k + l) (by rw [ha]; exact cell_lt hi hl)
  obtain ⟨y, hy, hyl⟩ := stored_level (a := b) (i := l * n + j) (by rw [hb]; exact cell_lt hl hj)
  simp only [hx, hy, Option.bind_eq_bind, Option.bind_some, Option.bind_eq_some_iff, int32_eq_some,
    hxl, hyl]
  constructor
  · rintro ⟨_, ⟨hxf, rfl⟩, _, ⟨hyf, rfl⟩, hp, he⟩
    exact ⟨⟨⟨hxf, hyf⟩, hp⟩, he⟩
  · rintro ⟨⟨⟨hxf, hyf⟩, hp⟩, he⟩
    exact ⟨_, ⟨hxf, rfl⟩, _, ⟨hyf, rfl⟩, hp, he⟩

theorem stored_sum (ha : a.length = m * k) (hb : b.length = k * n) (hi : i < m) (hj : j < n) :
    ∑ l ∈ Finset.range k,
        ((((quantizeTensorU8 a (scaleOf a) (-lowestOf a)).getD (i * k + l) 0).toNat : Int) -
            -lowestOf a) *
          ((((quantizeTensorU8 b (scaleOf b) (-lowestOf b)).getD (l * n + j) 0).toNat : Int) -
            -lowestOf b) =
      ∑ l ∈ Finset.range k, levelAt a (i * k + l) * levelAt b (l * n + j) := by
  refine Finset.sum_congr rfl (fun l hl ↦ ?_)
  have hl := Finset.mem_range.mp hl
  obtain ⟨x, hx, hxl⟩ := stored_level (a := a) (i := i * k + l) (by rw [ha]; exact cell_lt hi hl)
  obtain ⟨y, hy, hyl⟩ := stored_level (a := b) (i := l * n + j) (by rw [hb]; exact cell_lt hl hj)
  rw [List.getD_eq_getElem?_getD, List.getD_eq_getElem?_getD, hx, hy]
  exact congrArg₂ _ hxl hyl

theorem fits_of_exact (hm : 1 ≤ m) (hn : 1 ≤ n) (hk : 1 ≤ k) (ha : a.length = m * k)
    (hb : b.length = k * n) (h : AccumulatesExactly a b m n k) : FitsAccumulators a b m n k := by
  have hane : a ≠ [] := List.ne_nil_of_length_pos (by rw [ha]; exact Nat.mul_pos hm hk)
  have hbne : b ≠ [] := List.ne_nil_of_length_pos (by rw [hb]; exact Nat.mul_pos hk hn)
  obtain ⟨q, aq, bq, hq, hall⟩ := h
  rw [quantizeOperands_eq hane hbne] at hq
  by_cases hz : Fits (-lowestOf a) ∧ Fits (-lowestOf b)
  · rw [if_pos hz] at hq
    simp only [Option.some.injEq, Prod.mk.injEq] at hq
    obtain ⟨rfl, rfl, rfl⟩ := hq
    have hacc (i : Nat) (hi : i < m) (j : Nat) (hj : j < n) :=
      (accumulate_quantized ha hb hi hj).mp (hall i hi j hj)
    exact {
      zeroPoints := hz
      levels := fun i hi j hj l hl ↦ ((hacc i hi j hj).1 l hl).1
      products := fun i hi j hj l hl ↦ ((hacc i hi j hj).1 l hl).2
      sums := fun i hi j hj ↦ (hacc i hi j hj).2.1 }
  · rw [if_neg hz] at hq
    contradiction

theorem FitsAccumulators.accumulate_eq (h : FitsAccumulators a b m n k) (ha : a.length = m * k)
    (hb : b.length = k * n) (hi : i < m) (hj : j < n) :
    accumulate (quantizeTensorU8 a (scaleOf a) (-lowestOf a))
        (quantizeTensorU8 b (scaleOf b) (-lowestOf b)) n k (-lowestOf a) (-lowestOf b) i j =
      some (∑ l ∈ Finset.range k, levelAt a (i * k + l) * levelAt b (l * n + j)) :=
  (accumulate_quantized ha hb hi hj).mpr
    ⟨fun l hl ↦ ⟨h.levels i hi j hj l hl, h.products i hi j hj l hl⟩, h.sums i hi j hj, rfl⟩

/-- The accumulators are exact as far as the levels of the data let them fit. -/
theorem accumulatesExactly_iff (hm : 1 ≤ m) (hn : 1 ≤ n) (hk : 1 ≤ k) (ha : a.length = m * k)
    (hb : b.length = k * n) : AccumulatesExactly a b m n k ↔ FitsAccumulators a b m n k := by
  refine ⟨fits_of_exact hm hn hk ha hb, fun h ↦ ?_⟩
  have hane : a ≠ [] := List.ne_nil_of_length_pos (by rw [ha]; exact Nat.mul_pos hm hk)
  have hbne : b ≠ [] := List.ne_nil_of_length_pos (by rw [hb]; exact Nat.mul_pos hk hn)
  refine ⟨_, _, _, (quantizeOperands_eq hane hbne).trans (if_pos h.zeroPoints),
    fun i hi j hj ↦ ?_⟩
  dsimp only
  rw [stored_sum ha hb hi hj]
  exact h.accumulate_eq ha hb hi hj

theorem kernelMatmulDynamicQuant_eq {c : List K} (hm : 1 ≤ m) (hn : 1 ≤ n) (hk : 1 ≤ k)
    (ha : a.length = m * k) (hb : b.length = k * n) (hc : m * n ≤ c.length)
    (h : FitsAccumulators a b m n k) :
    kernelMatmulDynamicQuant (.block a) (.block b) (.block c) m n k =
      .ok (store ((List.range (m * n)).map (fun x ↦ ((∑ l ∈ Finset.range k,
        levelAt a (x / n * k + l) * levelAt b (l * n + x % n) : Int) : K) *
          (scaleOf a * scaleOf b))) c) := by
  have hane : a ≠ [] := List.ne_nil_of_length_pos (by rw [ha]; exact Nat.mul_pos hm hk)
  have hbne : b ≠ [] := List.ne_nil_of_length_pos (by rw [hb]; exact Nat.mul_pos hk hn)
  have hne : ¬(m = 0 ∨ n = 0 ∨ k = 0) := by omega
  have hacc := mapM_range (n := m * n) (g := fun x ↦ accumulate
    (quantizeTensorU8 a (scaleOf a) (-lowestOf a)) (quantizeTensorU8 b (scaleOf b) (-lowestOf b))
    n k (-lowestOf a) (-lowestOf b) (x / n) (x % n))
    (v := fun x ↦ ∑ l ∈ Finset.range k, levelAt a (x / n * k + l) * levelAt b (l * n + x % n))
    (fun x hx ↦ h.accumulate_eq ha hb (Nat.div_lt_of_lt_mul (by rwa [Nat.mul_comm]))
      (Nat.mod_lt x hn))
  rw [kernelMatmulDynamicQuant, onBlocks, if_pos ⟨ha.ge, hb.ge⟩, ← ha, ← hb, List.take_length,
    List.take_length, quantizeOperands_eq hane hbne, if_pos h.zeroPoints]
  dsimp only
  rw [kernelMatmulInt8]
  dsimp only
  rw [if_neg hne, hacc, Option.bind_some, if_pos hc, Outcome.ofAccess, List.map_map]
  rfl

/-- Where zero is within the range of a matrix, its levels take nine bits. -/
theorem lowestOf_of_zero_within (h : a ≠ []) (hz : minOf a ≤ 0 ∧ 0 ≤ maxOf a) :
    -255 ≤ lowestOf a ∧ lowestOf a ≤ 0 := by
  have hpos := scaleOf_pos h
  constructor
  · have hge := le_roundAway (minOf a / scaleOf a)
    have hmin : -255 ≤ minOf a / scaleOf a := by
      have hwidth := maxOf_le a
      rw [le_div_iff₀ hpos]
      linarith
    have hcast : ((-256 : Int) : K) < (roundAway (minOf a / scaleOf a) : K) := by
      push_cast
      linarith
    have hlt := Int.cast_lt.mp hcast
    rw [lowestOf]
    omega
  · have hle : minOf a / scaleOf a ≤ 0 := div_nonpos_of_nonpos_of_nonneg hz.1 hpos.le
    exact (roundAway_mono hle).trans_eq roundAway_zero

theorem abs_levelAt_le (hz : minOf a ≤ 0 ∧ 0 ≤ maxOf a) (hi : i < a.length) :
    |levelAt a i| ≤ 255 := by
  have hlow := lowestOf_of_zero_within (List.ne_nil_of_length_pos (by omega)) hz
  have hlevel := levelOf_mem (List.getElem_mem hi)
  rw [levelAt, List.getD_eq_getElem _ _ hi, abs_le]
  omega

theorem fits_of_zero_within (ha : a.length = m * k) (hb : b.length = k * n) (hane : a ≠ [])
    (hbne : b ≠ []) (hza : minOf a ≤ 0 ∧ 0 ≤ maxOf a) (hzb : minOf b ≤ 0 ∧ 0 ≤ maxOf b)
    (hk : k ≤ 33025) : FitsAccumulators a b m n k := by
  have hlowA := lowestOf_of_zero_within hane hza
  have hlowB := lowestOf_of_zero_within hbne hzb
  have hlevelA (i : Nat) (hi : i < m) (l : Nat) (hl : l < k) : |levelAt a (i * k + l)| ≤ 255 :=
    abs_levelAt_le hza (by rw [ha]; exact cell_lt hi hl)
  have hlevelB (l : Nat) (hl : l < k) (j : Nat) (hj : j < n) : |levelAt b (l * n + j)| ≤ 255 :=
    abs_levelAt_le hzb (by rw [hb]; exact cell_lt hl hj)
  have hproduct (i : Nat) (hi : i < m) (j : Nat) (hj : j < n) (l : Nat) (hl : l < k) :
      |levelAt a (i * k + l) * levelAt b (l * n + j)| ≤ 65025 := by
    rw [abs_mul]
    exact mul_le_mul (hlevelA i hi l hl) (hlevelB l hl j hj) (abs_nonneg _) (by decide)
  refine ⟨⟨fits_of_abs_le ?_, fits_of_abs_le ?_⟩, fun i hi j hj l hl ↦ ⟨fits_of_abs_le ?_,
    fits_of_abs_le ?_⟩, fun i hi j hj l hl ↦ fits_of_abs_le ?_,
    fun i hi j hj r hr ↦ fits_of_abs_le ?_⟩
  · rw [abs_le]
    omega
  · rw [abs_le]
    omega
  · exact (hlevelA i hi l hl).trans (by decide)
  · exact (hlevelB l hl j hj).trans (by decide)
  · exact (hproduct i hi j hj l hl).trans (by decide)
  · calc |∑ l ∈ Finset.range r, levelAt a (i * k + l) * levelAt b (l * n + j)|
        ≤ ∑ l ∈ Finset.range r, |levelAt a (i * k + l) * levelAt b (l * n + j)| :=
          Finset.abs_sum_le_sum_abs _ _
      _ ≤ ∑ _l ∈ Finset.range r, (65025 : Int) := Finset.sum_le_sum (fun l hl ↦
          hproduct i hi j hj l ((Finset.mem_range.mp hl).trans_le hr))
      _ = r * 65025 := by rw [Finset.sum_const, Finset.card_range, nsmul_eq_mul]
      _ ≤ 2 ^ 31 - 1 := by omega

theorem accumulatesExactly_iff_signs : AccumulatesExactly [(-1 : ℚ), 1] [1, -1] 1 1 2 := by
  refine (accumulatesExactly_iff (by decide) (by decide) (by decide) rfl rfl).mpr ?_
  exact fits_of_zero_within rfl rfl (by decide) (by decide) (by decide) (by decide) (by decide)

/-- A single product of levels that are far from zero is out of range. -/
theorem far_levels_overflow : ¬AccumulatesExactly [(46341 : ℚ)] [46341] 1 1 1 := by
  intro h
  have hproduct := (fits_of_exact le_rfl le_rfl le_rfl rfl rfl h).products 0 (by decide) 0
    (by decide) 0 (by decide)
  have hlevel : levelAt [(46341 : ℚ)] 0 = 46341 := by decide +kernel
  rw [hlevel] at hproduct
  revert hproduct
  decide

end Cerberus.Graph
