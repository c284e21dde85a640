import Cerberus.Graph.Quantized
import Mathlib.Algebra.Order.Group.Abs
import Mathlib.Data.Rat.Floor

namespace Cerberus.Graph

open Foundation.Bytes Foundation.Accumulate Foundation.Rounding Foundation.Int32

def fnv1aBytes (data : List UInt8) : UInt64 :=
  data.foldl (fun hash b ↦ (hash ^^^ b.toUInt64) * 0x100000001b3) 0xcbf29ce484222325

structure ShadowSnapshot (K : Type) where
  scale : K
  zeroPoint : Int := 0
  hash : UInt64 := 0
  compressed : List UInt8 := []
  originalElems : Nat := 0

section

variable {K : Type} [Field K] [LinearOrder K]

def ShadowSnapshot.valid (snap : ShadowSnapshot K) : Bool :=
  !snap.compressed.isEmpty && snap.hash ≠ 0 && 0 < snap.scale

variable [FloorRing K]

/-- A snapshot of the first elements of a buffer, unless the zero point has no representation. -/
def compressToShadow (src : Pointer K) (n : Nat) : Option (ShadowSnapshot K) :=
  match src with
  | .null => some { scale := 1 }
  | .block src =>
    if n = 0 then some { scale := 1 }
    else if src.length < n then none
    else do
      let (minVal, maxVal) ← computeMinmax (src.take n)
      if minVal = maxVal then
        let compressed := List.replicate n 128
        pure { scale := 1, compressed, hash := fnv1aBytes compressed, originalElems := n }
      else
        let scale := computeScale minVal maxVal
        let zeroPoint ← computeZeroPoint minVal scale
        let compressed := (src.take n).map (quantizeU8 scale zeroPoint)
        pure { scale, zeroPoint, compressed, hash := fnv1aBytes compressed, originalElems := n }

def restoreFromShadow (snap : ShadowSnapshot K) (dst : Pointer K) (n : Nat) :
    Option (Bool × Pointer K) :=
  match dst with
  | .null => some (false, .null)
  | .block out =>
    if !snap.valid || n ≠ snap.originalElems || n ≠ snap.compressed.length then
      some (false, .block out)
    else if fnv1aBytes snap.compressed ≠ snap.hash then some (false, .block out)
    else if n ≤ out.length then
      some (true, .block (store (snap.compressed.map (fun v ↦
        ((v.toNat : K) - snap.zeroPoint) * snap.scale)) out))
    else none

end

variable {K : Type} [Field K] [LinearOrder K] [FloorRing K] {xs out : List K}

/-- The vector is restored from its snapshot, with no element further away than half a step. -/
def RestoredClosely (xs : List K) : Prop :=
  ∃ snap, compressToShadow (.block xs) xs.length = some snap ∧
    ∀ out, xs.length ≤ out.length → ∃ ys, ys.length = xs.length ∧
      restoreFromShadow snap (.block out) xs.length = some (true, .block (store ys out)) ∧
      ∀ i < xs.length, |ys.getD i 0 - xs.getD i 0| ≤ (maxOf xs - minOf xs) / (255 : Nat) / (2 : Nat)

def shadowBytes (xs : List K) : List UInt8 :=
  xs.map (fun x ↦ if minOf xs = maxOf xs then 128 else UInt8.ofInt (levelOf xs x - lowestOf xs))

def restored (xs : List K) (x : K) : K :=
  if minOf xs = maxOf xs then 128 else levelOf xs x * scaleOf xs

def shadowOf (xs : List K) : ShadowSnapshot K where
  scale := scaleOf xs
  zeroPoint := if minOf xs = maxOf xs then 0 else -lowestOf xs
  hash := fnv1aBytes (shadowBytes xs)
  compressed := shadowBytes xs
  originalElems := xs.length

variable [IsStrictOrderedRing K]

theorem quantized_shadowBytes (h : minOf xs ≠ maxOf xs) :
    xs.map (quantizeU8 (scaleOf xs) (-lowestOf xs)) = shadowBytes xs := by
  refine List.map_congr_left (fun x hx ↦ ?_)
  obtain ⟨hlow, hhigh⟩ := levelOf_mem hx
  rw [if_neg h]
  refine UInt8.toNat_inj.mp (Int.natCast_inj.mp ?_)
  rw [quantizeU8_eq hx, toNat_ofInt_byte (by omega) (by omega)]

theorem compressToShadow_eq (hne : xs ≠ []) (hz : minOf xs ≠ maxOf xs → Fits (-lowestOf xs)) :
    compressToShadow (.block xs) xs.length = some (shadowOf xs) := by
  have hlen : ¬xs.length = 0 := fun h ↦ hne (List.eq_nil_of_length_eq_zero h)
  rw [compressToShadow]
  dsimp only
  rw [if_neg hlen, if_neg (lt_irrefl _), List.take_length, computeMinmax_eq hne]
  simp only [Option.bind_eq_bind, Option.bind_some]
  by_cases h : minOf xs = maxOf xs
  · have hbytes : List.replicate xs.length 128 = shadowBytes xs := by
      simp [shadowBytes, h, List.map_const']
    have hscale : scaleOf xs = 1 := if_pos h
    rw [if_pos h, hbytes, shadowOf, hscale, if_pos h]
    rfl
  · rw [if_neg h, ← scaleOf, computeZeroPoint_eq, int32_of_fits (hz h), Option.bind_some,
      quantized_shadowBytes h, shadowOf, if_neg h]
    rfl

omit [IsStrictOrderedRing K] in
theorem length_shadowBytes (xs : List K) : (shadowBytes xs).length = xs.length :=
  List.length_map _

theorem shadowOf_valid (hne : xs ≠ []) :
    (shadowOf xs).valid = decide (fnv1aBytes (shadowBytes xs) ≠ 0) := by
  have hbytes : (shadowBytes xs).isEmpty = false := by simpa [shadowBytes] using hne
  have hscale : decide (0 < scaleOf xs) = true := decide_eq_true (scaleOf_pos hne)
  rw [ShadowSnapshot.valid, shadowOf]
  dsimp only
  rw [hbytes, hscale]
  simp

theorem restoreFromShadow_refused (hne : xs ≠ []) (hhash : fnv1aBytes (shadowBytes xs) = 0) :
    restoreFromShadow (shadowOf xs) (.block out) xs.length = some (false, .block out) := by
  rw [restoreFromShadow, shadowOf_valid hne, hhash]
  rfl

theorem restoreFromShadow_eq (hne : xs ≠ []) (hhash : fnv1aBytes (shadowBytes xs) ≠ 0)
    (hout : xs.length ≤ out.length) :
    restoreFromShadow (shadowOf xs) (.block out) xs.length =
      some (true, .block (store (xs.map (restored xs)) out)) := by
  have haccepts : ¬(!(shadowOf xs).valid || xs.length ≠ (shadowOf xs).originalElems ||
      xs.length ≠ (shadowOf xs).compressed.length) = true := by
    rw [shadowOf_valid hne, shadowOf, length_shadowBytes]
    simp [hhash]
  rw [restoreFromShadow, if_neg haccepts, if_neg (fun h ↦ h rfl), if_pos hout]
  congr 4
  rw [shadowOf, shadowBytes, List.map_map]
  refine List.map_congr_left (fun x hx ↦ ?_)
  obtain ⟨hlow, hhigh⟩ := levelOf_mem hx
  by_cases h : minOf xs = maxOf xs
  · have hscale : scaleOf xs = 1 := if_pos h
    simp [restored, h, hscale]
  · have hbyte := toNat_ofInt_byte (z := levelOf xs x - lowestOf xs) (by omega) (by omega)
    have hcast : (((UInt8.ofInt (levelOf xs x - lowestOf xs)).toNat : Nat) : K) =
        ((levelOf xs x - lowestOf xs : Int) : K) :=
      (Int.cast_natCast _).symm.trans (congrArg Int.cast hbyte)
    simp only [Function.comp_apply, if_neg h, restored]
    rw [hcast]
    push_cast
    ring

theorem abs_restored_sub_le (h : minOf xs ≠ maxOf xs) {x : K} (hx : x ∈ xs) :
    |restored xs x - x| ≤ (maxOf xs - minOf xs) / (255 : Nat) / (2 : Nat) := by
  have hpos : 0 < scaleOf xs := scaleOf_pos (List.ne_nil_of_mem hx)
  have herror := level_error (div_scaleOf_le hx)
  have hscale : scaleOf xs = (maxOf xs - minOf xs) / 255 := if_neg h
  have hsplit : restored xs x - x =
      ((level 255 (minOf xs / scaleOf xs) (x / scaleOf xs) : K) - x / scaleOf xs) * scaleOf xs := by
    rw [restored, if_neg h, sub_mul, div_mul_cancel₀ _ hpos.ne']
    rfl
  calc |restored xs x - x|
      = |(level 255 (minOf xs / scaleOf xs) (x / scaleOf xs) : K) - x / scaleOf xs| * scaleOf xs := by
        rw [hsplit, abs_mul, abs_of_pos hpos]
    _ ≤ 1 / 2 * scaleOf xs := mul_le_mul_of_nonneg_right herror hpos.le
    _ = (maxOf xs - minOf xs) / (255 : Nat) / (2 : Nat) := by rw [hscale]; push_cast; ring

omit [FloorRing K] [IsStrictOrderedRing K] in
theorem eq_minOf_of_constant (h : minOf xs = maxOf xs) {x : K} (hx : x ∈ xs) : x = minOf xs :=
  le_antisymm ((le_maxOf hx).trans_eq h.symm) (minOf_le hx)

theorem restored_close_iff (hne : xs ≠ []) :
    (∀ x ∈ xs, |restored xs x - x| ≤ (maxOf xs - minOf xs) / (255 : Nat) / (2 : Nat)) ↔
      (minOf xs = maxOf xs → minOf xs = 128) := by
  by_cases h : minOf xs = maxOf xs
  · have hzero : (maxOf xs - minOf xs) / (255 : Nat) / (2 : Nat) = 0 := by
      rw [h, sub_self, zero_div, zero_div]
    have hrestored (x : K) : restored xs x = 128 := if_pos h
    simp only [hzero, hrestored]
    refine Iff.trans ?_ ⟨fun h128 _ ↦ h128, fun h128 ↦ h128 h⟩
    constructor
    · intro hclose
      obtain ⟨x, hx⟩ := List.exists_mem_of_ne_nil xs hne
      have he := abs_eq_zero.mp (le_antisymm (hclose x hx) (abs_nonneg _))
      rw [← eq_minOf_of_constant h hx]
      exact (sub_eq_zero.mp he).symm
    · intro h128 x hx
      rw [eq_minOf_of_constant h hx, h128, sub_self, abs_zero]
  · exact iff_of_true (fun x hx ↦ abs_restored_sub_le h hx) (fun he ↦ absurd he h)

theorem RestoredClosely.limits (h : RestoredClosely xs) (hne : xs ≠ [])
    (hz : minOf xs ≠ maxOf xs → Fits (-lowestOf xs)) :
    fnv1aBytes (shadowBytes xs) ≠ 0 ∧ (minOf xs = maxOf xs → minOf xs = 128) := by
  obtain ⟨snap, hsnap, hrestore⟩ := h
  obtain rfl := Option.some.inj ((compressToShadow_eq hne hz).symm.trans hsnap)
  obtain ⟨ys, hlen, hys, hclose⟩ := hrestore xs le_rfl
  have hhash : fnv1aBytes (shadowBytes xs) ≠ 0 := by
    intro hzero
    rw [restoreFromShadow_refused hne hzero] at hys
    simp at hys
  rw [restoreFromShadow_eq hne hhash le_rfl] at hys
  simp only [Option.some.injEq, Prod.mk.injEq, Pointer.block.injEq, true_and] at hys
  have hsame : xs.map (restored xs) = ys :=
    List.append_inj_left hys (by rw [List.length_map, hlen])
  refine ⟨hhash, (restored_close_iff hne).mp (fun x hx ↦ ?_)⟩
  obtain ⟨i, hi, rfl⟩ := List.mem_iff_getElem.mp hx
  have hi' := hclose i hi
  rw [← hsame] at hi'
  simpa [hi] using hi'

/-- A vector is restored exactly when its snapshot has a hash, and it is no constant but 128. -/
theorem restoredClosely_iff (hne : xs ≠ [])
    (hz : minOf xs ≠ maxOf xs → Fits (-lowestOf xs)) :
    RestoredClosely xs ↔
      fnv1aBytes (shadowBytes xs) ≠ 0 ∧ (minOf xs = maxOf xs → minOf xs = 128) := by
  refine ⟨fun h ↦ h.limits hne hz, ?_⟩
  rintro ⟨hhash, h128⟩
  refine ⟨shadowOf xs, compressToShadow_eq hne hz, fun out hout ↦ ⟨xs.map (restored xs),
    List.length_map _, restoreFromShadow_eq hne hhash hout, fun i hi ↦ ?_⟩⟩
  have hclose := (restored_close_iff hne).mpr h128 xs[i] (List.getElem_mem hi)
  simpa [hi] using hclose

theorem restoredClosely_iff_pair : RestoredClosely [(0 : ℚ), 51] :=
  (restoredClosely_iff (by decide) (fun _ ↦ by decide +kernel)).mpr
    ⟨by decide +kernel, by decide⟩

/-- A zero comes back as 128. -/
theorem constant_lost : ¬RestoredClosely [(0 : ℚ)] := by
  intro h
  have h128 := (h.limits (by decide) (fun hne ↦ absurd rfl hne)).2 rfl
  revert h128
  decide

end Cerberus.Graph
