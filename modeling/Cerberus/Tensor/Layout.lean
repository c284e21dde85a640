import Cerberus.Tensor.View
import Mathlib.Data.Set.Function

namespace Cerberus.Tensor

open Foundation RowMajor

def extents (shape : List UInt64) : List ℕ := shape.map UInt64.toNat

theorem extents_prod_cons (d : UInt64) (shape : List UInt64) :
    (extents (d :: shape)).prod = d.toNat * (extents shape).prod := List.prod_cons

abbrev Inside (shape is : List UInt64) : Prop := List.Forall₂ (· < ·) is shape

namespace TensorView

variable {rank : ℕ} {v u : TensorView rank}

def Fits (v : TensorView rank) : Prop := (extents v.shape).prod < 2 ^ 64

def elements (v : TensorView rank) : Set ℕ := v.element '' { is | Inside v.shape is }

theorem packed_iff (shape strides : List UInt64) (h : strides.length = shape.length) :
    packed shape strides = true ↔ strides = computeStrides shape := by
  induction shape generalizing strides with
  | nil =>
    obtain rfl := List.eq_nil_of_length_eq_zero h
    simp [packed, computeStrides]
  | cons d shape ih =>
    cases shape with
    | nil =>
      obtain ⟨s, rfl⟩ := List.length_eq_one_iff.mp h
      simp [packed, computeStrides]
    | cons d' shape =>
      obtain ⟨s, s', strides, rfl⟩ : ∃ s s' rest, strides = s :: s' :: rest := by
        rcases strides with _ | ⟨s, _ | ⟨s', rest⟩⟩
        · simp at h
        · simp at h
        · exact ⟨s, s', rest, rfl⟩
      rw [packed, Bool.and_eq_true, decide_eq_true_eq, ih _ (Nat.succ.inj h), computeStrides]
      have hlength := computeStrides_length (d' :: shape)
      cases hs : computeStrides (d' :: shape) with
      | nil => simp [hs] at hlength
      | cons t ts =>
        constructor
        · rintro ⟨rfl, htail⟩
          obtain ⟨rfl, rfl⟩ := List.cons.inj htail
          rfl
        · intro heq
          obtain ⟨rfl, htail⟩ := List.cons.inj heq
          obtain ⟨rfl, rfl⟩ := List.cons.inj htail
          exact ⟨rfl, rfl⟩

theorem isContiguous_iff : v.isContiguous = true ↔ v.strides = computeStrides v.shape :=
  packed_iff v.shape v.strides (v.strides_length.trans v.shape_length.symm)

theorem foldl_add (offset : UInt64) (xs : List UInt64) :
    xs.foldl (fun offset x ↦ offset + x) offset =
      offset + xs.foldl (fun offset x ↦ offset + x) 0 := by
  induction xs generalizing offset with
  | nil => simp
  | cons x xs ih =>
    rw [List.foldl_cons, List.foldl_cons, ih (offset + x), ih (0 + x), UInt64.zero_add,
      UInt64.add_assoc]

theorem computeStrides_cons (d : UInt64) (shape : List UInt64) :
    ∃ s, computeStrides (d :: shape) = s :: computeStrides shape ∧
      s.toNat = (extents shape).prod % 2 ^ 64 := by
  induction shape generalizing d with
  | nil => exact ⟨1, rfl, rfl⟩
  | cons d' shape ih =>
    obtain ⟨s, hs, hvalue⟩ := ih d'
    refine ⟨s * d', by rw [computeStrides, hs], ?_⟩
    rw [UInt64.toNat_mul, hvalue, extents_prod_cons, Nat.mod_mul_mod, Nat.mul_comm]

theorem inRange_extents {shape is : List UInt64} :
    InRange (extents shape) (extents is) ↔ Inside shape is := by
  rw [InRange, extents, extents, List.forall₂_map_left_iff, List.forall₂_map_right_iff]
  exact ⟨fun h ↦ h.imp fun _ _ ↦ UInt64.lt_iff_toNat_lt.mpr,
    fun h ↦ h.imp fun _ _ ↦ UInt64.lt_iff_toNat_lt.mp⟩

theorem offset_computeStrides {shape is : List UInt64} (h : Inside shape is)
    (hfits : (extents shape).prod < 2 ^ 64) :
    ((List.zipWith (fun i stride ↦ i * stride) is (computeStrides shape)).foldl
        (fun offset x ↦ offset + x) 0).toNat =
      position (extents shape) (extents is) := by
  induction h with
  | nil => rfl
  | @cons i d is shape hi hrest ih =>
    have hi : i.toNat < d.toNat := UInt64.lt_iff_toNat_lt.mp hi
    rw [extents_prod_cons] at hfits
    have hrow : (extents shape).prod ≤ d.toNat * (extents shape).prod :=
      Nat.le_mul_of_pos_left _ (Nat.zero_lt_of_lt hi)
    obtain ⟨s, hs, hvalue⟩ := computeStrides_cons d shape
    rw [Nat.mod_eq_of_lt (hrow.trans_lt hfits)] at hvalue
    have hposition := position_lt (inRange_extents.mpr hrest)
    have hle : i.toNat * (extents shape).prod + (extents shape).prod ≤
        d.toNat * (extents shape).prod := by
      rw [← Nat.succ_mul]
      exact Nat.mul_le_mul_right _ hi
    rw [hs, List.zipWith_cons_cons, List.foldl_cons, foldl_add, UInt64.zero_add, UInt64.toNat_add,
      UInt64.toNat_mul, ih (hrow.trans_lt hfits), hvalue, Nat.mod_eq_of_lt (by omega),
      Nat.mod_eq_of_lt (by omega)]
    rfl

theorem element_of_contiguous (hv : v.isContiguous = true) (hfits : v.Fits) {is : List UInt64}
    (h : Inside v.shape is) :
    v.element is = v.ptr + position (extents v.shape) (extents is) := by
  rw [element, isContiguous_iff.mp hv, offset_computeStrides h hfits]

theorem extents_injective : Function.Injective extents :=
  List.map_injective_iff.mpr fun _ _ ↦ UInt64.toNat_inj.mp

theorem element_injOn (hv : v.isContiguous = true) (hfits : v.Fits) :
    Set.InjOn v.element { is | Inside v.shape is } := by
  intro is h js h' heq
  rw [element_of_contiguous hv hfits h, element_of_contiguous hv hfits h'] at heq
  exact extents_injective (position_injective (inRange_extents.mpr h) (inRange_extents.mpr h')
    (Nat.add_left_cancel heq))

theorem exists_extents {shape : List UInt64} {is : List ℕ} (h : InRange (extents shape) is) :
    ∃ js, Inside shape js ∧ extents js = is := by
  induction shape generalizing is with
  | nil =>
    obtain rfl := List.forall₂_nil_right_iff.mp h
    exact ⟨[], .nil, rfl⟩
  | cons d shape ih =>
    cases h with
    | @cons i _ is _ hi hrest =>
      obtain ⟨js, hjs, rfl⟩ := ih hrest
      have hvalue : (UInt64.ofNat i).toNat = i :=
        UInt64.toNat_ofNat_of_lt' (hi.trans d.toNat_lt)
      refine ⟨UInt64.ofNat i :: js, .cons ?_ hjs, ?_⟩
      · rw [UInt64.lt_iff_toNat_lt, hvalue]
        exact hi
      · rw [extents, List.map_cons, hvalue]
        rfl

theorem elements_of_contiguous (hv : v.isContiguous = true) (hfits : v.Fits) :
    v.elements = Set.Ico v.ptr (v.ptr + (extents v.shape).prod) := by
  ext a
  constructor
  · rintro ⟨is, h, rfl⟩
    rw [element_of_contiguous hv hfits h]
    have hlt := position_lt (inRange_extents.mpr h)
    exact ⟨Nat.le_add_right _ _, Nat.add_lt_add_left hlt _⟩
  · rintro ⟨hle, hlt⟩
    obtain ⟨is, his, hposition⟩ := @position_surjective (extents v.shape) (a - v.ptr) (by omega)
    obtain ⟨js, hjs, rfl⟩ := exists_extents his
    refine ⟨js, hjs, ?_⟩
    rw [element_of_contiguous hv hfits hjs, hposition]
    omega

end TensorView

open TensorView

/-- In which shapes the order of the channels does not matter: no elements, one channel, or one
pixel. -/
def OrderFree (n c h w : UInt64) : Prop :=
  n = 0 ∨ c = 0 ∨ h = 0 ∨ w = 0 ∨ c = 1 ∨ h = 1 ∧ w = 1

theorem positions_agree_iff (n c h w : UInt64) :
    (∀ i x y k : UInt64, i < n → x < h → y < w → k < c →
      position (extents [n, h, w, c]) (extents [i, x, y, k]) =
        position (extents [n, c, h, w]) (extents [i, k, x, y])) ↔ OrderFree n c h w := by
  have hposition (i x y k : UInt64) :
      position (extents [n, h, w, c]) (extents [i, x, y, k]) =
          i.toNat * (h.toNat * (w.toNat * c.toNat)) + (x.toNat * (w.toNat * c.toNat) +
            (y.toNat * c.toNat + k.toNat)) ∧
        position (extents [n, c, h, w]) (extents [i, k, x, y]) =
          i.toNat * (c.toNat * (h.toNat * w.toNat)) + (k.toNat * (h.toNat * w.toNat) +
            (x.toNat * w.toNat + y.toNat)) := by
    simp [position, extents]
  simp only [hposition]
  constructor
  · intro hall
    by_contra hfree
    simp only [OrderFree, not_or, not_and] at hfree
    obtain ⟨hn, hc, hh, hw, hc', hpixel⟩ := hfree
    have hpos {x : UInt64} (hx : x ≠ 0) : 0 < x := UInt64.pos_iff_ne_zero.mpr hx
    have hone {x : UInt64} (hx : x ≠ 0) (hx' : x ≠ 1) : 1 < x := by
      rw [UInt64.lt_iff_toNat_lt]
      have hzero : x.toNat ≠ 0 := fun h ↦ hx (UInt64.toNat_inj.mp h)
      have hne : x.toNat ≠ 1 := fun h ↦ hx' (UInt64.toNat_inj.mp h)
      have hvalue : (1 : UInt64).toNat = 1 := rfl
      omega
    have hchannels : c.toNat ≠ 1 := fun h ↦ hc' (UInt64.toNat_inj.mp h)
    by_cases hwide : w = 1
    · have htall := hall 0 1 0 0 (hpos hn) (hone hh fun h ↦ hpixel h hwide) (hpos hw) (hpos hc)
      subst hwide
      simp at htall
      omega
    · have hsecond := hall 0 0 1 0 (hpos hn) (hpos hh) (hone hw hwide) (hpos hc)
      simp at hsecond
      omega
  · rintro hfree i x y k hi hx hy hk
    rw [UInt64.lt_iff_toNat_lt] at hi hx hy hk
    rcases hfree with rfl | rfl | rfl | rfl | rfl | ⟨rfl, rfl⟩
    · simp at hi
    · simp at hk
    · simp at hx
    · simp at hy
    · have hk : k.toNat = 0 := Nat.lt_one_iff.mp hk
      simp [hk]
    · have hx : x.toNat = 0 := Nat.lt_one_iff.mp hx
      have hy : y.toNat = 0 := Nat.lt_one_iff.mp hy
      simp [hx, hy]

/-- The element of a view at an index is that of the tensor at the index with its coordinates in
the tensor's order, and every element of the tensor has one index. -/
structure Lays {rank : ℕ} (view t : TensorView rank) (order : List UInt64 → List UInt64) : Prop where
  same : ∀ is, Inside view.shape is → view.element is = t.element (order is)
  bijective : Set.BijOn view.element { is | Inside view.shape is } t.elements

def hwcToChw : List UInt64 → List UInt64
  | [n, h, w, c] => [n, c, h, w]
  | is => is

def chwToHwc : List UInt64 → List UInt64
  | [n, c, h, w] => [n, h, w, c]
  | is => is

theorem toHwcView_contiguous (t : TensorView 4) : (toHwcView t).isContiguous = true := by
  have hswap (c h w : UInt64) : c * h * w = c * w * h := by
    rw [UInt64.mul_assoc, UInt64.mul_comm h w, ← UInt64.mul_assoc]
  simp only [isContiguous, toHwcView, packed, Bool.and_eq_true, decide_eq_true_eq]
  exact ⟨hswap _ _ _, trivial, (UInt64.one_mul _).symm, trivial⟩

theorem toChwView_contiguous (t : TensorView 4) : (toChwView t).isContiguous = true := by
  have hlast (c h w : UInt64) : c * h * w = h * w * c := by
    rw [UInt64.mul_assoc, UInt64.mul_comm]
  simp only [isContiguous, toChwView, packed, Bool.and_eq_true, decide_eq_true_eq]
  exact ⟨hlast _ _ _, UInt64.mul_comm _ _, (UInt64.one_mul _).symm, trivial⟩

theorem exists_four {shape : List UInt64} (h : shape.length = 4) :
    ∃ a b c d, shape = [a, b, c, d] := by
  rcases shape with _ | ⟨a, _ | ⟨b, _ | ⟨c, _ | ⟨d, _ | ⟨e, rest⟩⟩⟩⟩⟩
  · simp at h
  · simp at h
  · simp at h
  · simp at h
  · exact ⟨a, b, c, d, rfl⟩
  · simp at h

theorem inside_four {a b c d : UInt64} {is : List UInt64} :
    Inside [a, b, c, d] is ↔ ∃ i j k l, is = [i, j, k, l] ∧ i < a ∧ j < b ∧ k < c ∧ l < d := by
  constructor
  · intro h
    obtain ⟨i, j, k, l, rfl⟩ := exists_four h.length_eq
    simp only [List.forall₂_cons, List.forall₂_nil_left_iff] at h
    exact ⟨i, j, k, l, rfl, h.1, h.2.1, h.2.2.1, h.2.2.2.1⟩
  · rintro ⟨i, j, k, l, rfl, hi, hj, hk, hl⟩
    exact .cons hi (.cons hj (.cons hk (.cons hl .nil)))

theorem bijOn_elements {view t : TensorView 4} (hview : view.isContiguous = true)
    (ht : t.isContiguous = true) (hptr : view.ptr = t.ptr) (hfits : t.Fits)
    (hprod : (extents view.shape).prod = (extents t.shape).prod) :
    Set.BijOn view.element { is | Inside view.shape is } t.elements := by
  have hfits' : view.Fits := by
    rw [Fits, hprod]
    exact hfits
  have helements : t.elements = view.elements := by
    rw [elements_of_contiguous ht hfits, elements_of_contiguous hview hfits', hptr, hprod]
  rw [helements]
  exact (element_injOn hview hfits').bijOn_image

/-- A contiguous view lays out a contiguous tensor when the positions agree. -/
theorem lays_iff {view t : TensorView 4} (hview : view.isContiguous = true)
    (ht : t.isContiguous = true) (hptr : view.ptr = t.ptr) (hfits : t.Fits)
    (hprod : (extents view.shape).prod = (extents t.shape).prod)
    {order : List UInt64 → List UInt64}
    (horder : ∀ is, Inside view.shape is → Inside t.shape (order is)) :
    Lays view t order ↔ ∀ is, Inside view.shape is →
      position (extents view.shape) (extents is) =
        position (extents t.shape) (extents (order is)) := by
  have hfits' : view.Fits := by
    rw [Fits, hprod]
    exact hfits
  have hsame (is : List UInt64) (his : Inside view.shape is) :
      view.element is = t.element (order is) ↔ position (extents view.shape) (extents is) =
        position (extents t.shape) (extents (order is)) := by
    rw [element_of_contiguous hview hfits' his, element_of_contiguous ht hfits (horder is his), hptr]
    exact Nat.add_left_cancel_iff
  constructor
  · intro h is his
    exact (hsame is his).mp (h.same is his)
  · intro h
    exact ⟨fun is his ↦ (hsame is his).mpr (h is his), bijOn_elements hview ht hptr hfits hprod⟩

/-- The layout views address the elements of a contiguous tensor as they should in exactly those
shapes in which the order of the channels does not matter. -/
theorem layout_views_iff {t : TensorView 4} (ht : t.isContiguous = true) (hfits : t.Fits) :
    (Lays (toHwcView t) t hwcToChw ↔
      OrderFree (t.extent 0) (t.extent 1) (t.extent 2) (t.extent 3)) ∧
    (Lays (toChwView t) t chwToHwc ↔
      OrderFree (t.extent 0) (t.extent 3) (t.extent 1) (t.extent 2)) := by
  obtain ⟨a, b, c, d, hshape⟩ := exists_four t.shape_length
  obtain ⟨h0, h1, h2, h3⟩ : t.extent 0 = a ∧ t.extent 1 = b ∧ t.extent 2 = c ∧ t.extent 3 = d := by
    simp [extent, hshape]
  rw [h0, h1, h2, h3, ← positions_agree_iff, ← positions_agree_iff]
  constructor
  · have hview : (toHwcView t).shape = [a, c, d, b] := by simp [toHwcView, h0, h1, h2, h3]
    have hprod : (extents (toHwcView t).shape).prod = (extents t.shape).prod := by
      rw [hview, hshape]
      simp only [extents, List.map_cons, List.map_nil, List.prod_cons, List.prod_nil]
      ring
    rw [lays_iff (toHwcView_contiguous t) ht rfl hfits hprod, hview, hshape]
    · constructor
      · intro h i x y k hi hx hy hk
        exact h [i, x, y, k] (inside_four.mpr ⟨i, x, y, k, rfl, hi, hx, hy, hk⟩)
      · intro h is his
        obtain ⟨i, x, y, k, rfl, hi, hx, hy, hk⟩ := inside_four.mp his
        exact h i x y k hi hx hy hk
    · rw [hview, hshape]
      intro is his
      obtain ⟨i, x, y, k, rfl, hi, hx, hy, hk⟩ := inside_four.mp his
      exact inside_four.mpr ⟨i, k, x, y, rfl, hi, hk, hx, hy⟩
  · have hview : (toChwView t).shape = [a, d, b, c] := by simp [toChwView, h0, h1, h2, h3]
    have hprod : (extents (toChwView t).shape).prod = (extents t.shape).prod := by
      rw [hview, hshape]
      simp only [extents, List.map_cons, List.map_nil, List.prod_cons, List.prod_nil]
      ring
    rw [lays_iff (toChwView_contiguous t) ht rfl hfits hprod, hview, hshape]
    · constructor
      · intro h i x y k hi hx hy hk
        exact (h [i, k, x, y] (inside_four.mpr ⟨i, k, x, y, rfl, hi, hk, hx, hy⟩)).symm
      · intro h is his
        obtain ⟨i, k, x, y, rfl, hi, hk, hx, hy⟩ := inside_four.mp his
        exact (h i x y k hi hx hy hk).symm
    · rw [hview, hshape]
      intro is his
      obtain ⟨i, k, x, y, rfl, hi, hk, hx, hy⟩ := inside_four.mp his
      exact inside_four.mpr ⟨i, x, y, k, rfl, hi, hx, hy, hk⟩

section

def grey : TensorView 4 := .construct 0 [1, 1, 2, 3] rfl

theorem layout_views_iff_grey : Lays (toHwcView grey) grey hwcToChw :=
  (layout_views_iff (t := grey) (by decide) (by unfold Fits; decide)).1.mpr
    (by unfold OrderFree; decide)

def pair : TensorView 4 := .construct 0 [1, 2, 1, 2] rfl

/-- At the second pixel of the first channel the view has the first pixel of the second one. -/
theorem hwc_view_mixes_channels :
    pair.isContiguous = true ∧ pair.Fits ∧
      (toHwcView pair).element [0, 0, 1, 0] = pair.element [0, 1, 0, 0] ∧
      (toHwcView pair).element [0, 0, 1, 0] ≠ pair.element [0, 0, 0, 1] ∧
      ¬ Lays (toHwcView pair) pair hwcToChw := by
  have hmixed : (toHwcView pair).element [0, 0, 1, 0] ≠ pair.element [0, 0, 0, 1] := by decide
  refine ⟨by decide, by unfold Fits; decide, by decide, hmixed, fun h ↦ hmixed (h.same [0, 0, 1, 0] ?_)⟩
  exact inside_four.mpr ⟨0, 0, 1, 0, rfl, by decide, by decide, by decide, by decide⟩

end

end Cerberus.Tensor
