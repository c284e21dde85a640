import Cerberus.Foundation.RowMajor

namespace Cerberus.Tensor

open Foundation

/-- `compute_strides_`, from the last dimension to the first. -/
def computeStrides : List UInt64 → List UInt64
  | [] => []
  | [_] => [1]
  | _ :: d :: shape =>
    match computeStrides (d :: shape) with
    | [] => []
    | s :: strides => s * d :: s :: strides

theorem computeStrides_length (shape : List UInt64) :
    (computeStrides shape).length = shape.length := by
  induction shape with
  | nil => rfl
  | cons d shape ih =>
    cases shape with
    | nil => rfl
    | cons d' shape =>
      rw [computeStrides]
      split
      · next h => simp [h] at ih
      · next h => simpa [h] using ih

/-- A view that does not own its elements; the pointer counts them. -/
structure TensorView (rank : ℕ) where
  ptr : ℕ
  shape : List UInt64
  strides : List UInt64
  shape_length : shape.length = rank
  strides_length : strides.length = rank

namespace TensorView

variable {rank : ℕ}

def construct (ptr : ℕ) (shape : List UInt64) (h : shape.length = rank) : TensorView rank where
  ptr := ptr
  shape := shape
  strides := computeStrides shape
  shape_length := h
  strides_length := (computeStrides_length shape).trans h

variable (v : TensorView rank)

def extent (dim : ℕ) : UInt64 := v.shape.getD dim 0

/-- The loop of `is_contiguous` over the dimensions. -/
def packed : List UInt64 → List UInt64 → Bool
  | [], [] => true
  | [_], [s] => s = 1
  | _ :: d :: shape, s :: s' :: strides => s = s' * d && packed (d :: shape) (s' :: strides)
  | _, _ => false

def isContiguous : Bool := packed v.shape v.strides

/-- `operator()`: the element at an index, by its address. -/
def element (is : List UInt64) : ℕ :=
  v.ptr + ((List.zipWith (fun i stride ↦ i * stride) is v.strides).foldl (fun offset x ↦ offset + x)
    0).toNat

end TensorView

def toHwcView (chw : TensorView 4) : TensorView 4 :=
  let n := chw.extent 0
  let c := chw.extent 1
  let h := chw.extent 2
  let w := chw.extent 3
  { ptr := chw.ptr
    shape := [n, h, w, c]
    strides := [c * h * w, c * w, c, 1]
    shape_length := rfl
    strides_length := rfl }

def toChwView (hwc : TensorView 4) : TensorView 4 :=
  let n := hwc.extent 0
  let h := hwc.extent 1
  let w := hwc.extent 2
  let c := hwc.extent 3
  { ptr := hwc.ptr
    shape := [n, c, h, w]
    strides := [c * h * w, h * w, w, 1]
    shape_length := rfl
    strides_length := rfl }

end Cerberus.Tensor
