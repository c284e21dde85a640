import Cerberus.Graph.Kernels

namespace Cerberus.Graph

open Foundation.Bytes

variable {F : Type}

def Op.value : Op → Nat
  | .unknown => 0
  | .matMul => 1
  | .add => 2
  | .mul => 3
  | .conv => 4
  | .relu => 5
  | .sigmoid => 6
  | .reshape => 7
  | .transpose => 8
  | .softmax => 9
  | .layerNorm => 10
  | .gelu => 11
  | .constant => 12
  | .fusedMatMulBiasRelu => 13

/-- An attribute as a `size_t`, or a default where it is missing. -/
def KernelNode.attr (n : KernelNode F) (i fallback : Nat) : Nat :=
  match n.intAttrs[i]? with
  | some d => (d % 2 ^ 64).toNat
  | none => fallback

/-- `in_ptrs[i]` is not defined where there is no such input. -/
def operand (inputs : List (Pointer F)) (i : Nat) : Outcome ByteString (Pointer F) :=
  match inputs[i]? with
  | some p => .ok p
  | none => .undefined

namespace Floats

variable (f : Floats F)

/-- An elementwise operation with its second operand in the attributes, or in an input. -/
def dispatchZip (kernel : Pointer F → Pointer F → Pointer F → Nat → Written F)
    (n : KernelNode F) (inputs : List (Pointer F)) (out : Pointer F) : Written F :=
  if inputs.length = 1 ∧ n.floatAttrs ≠ [] then
    (operand inputs 0).bind (fun a ↦ kernel a (.block n.floatAttrs) out (n.attr 0 4))
  else
    (operand inputs 0).bind (fun a ↦ (operand inputs 1).bind (fun b ↦ kernel a b out (n.attr 0 4)))

def dispatchFused (n : KernelNode F) (a b out : Pointer F) : Written F :=
  let rows := n.attr 0 1
  let cols := n.attr 1 1
  (f.kernelMatmul a b out rows cols (n.attr 2 1)).bind (fun c ↦
    let biased := if n.floatAttrs.isEmpty then .ok c
      else f.kernelAdd (.block c) (.block n.floatAttrs) (.block c) cols
    biased.bind (fun c ↦ f.kernelRelu (.block c) (.block c) (rows * cols)))

def dispatch (n : KernelNode F) (inputs : List (Pointer F)) (out : Pointer F) : Written F :=
  match n.op with
  | .matMul =>
    (operand inputs 0).bind (fun a ↦ (operand inputs 1).bind (fun b ↦
      if n.quantProfile.weightBits = 4 ∨ n.quantProfile.weightGranularity = .perBlock then
        f.kernelMatmulIq4NlBlock a b out (n.attr 0 1) (n.attr 1 1) (n.attr 2 1)
      else f.kernelMatmul a b out (n.attr 0 1) (n.attr 1 1) (n.attr 2 1)))
  | .add => dispatchZip f.kernelAdd n inputs out
  | .mul => dispatchZip f.kernelMul n inputs out
  | .relu => (operand inputs 0).bind (fun a ↦ f.kernelRelu a out (n.attr 0 4))
  | .sigmoid => (operand inputs 0).bind (fun a ↦ f.kernelSigmoid a out (n.attr 0 4))
  | .softmax =>
    (operand inputs 0).bind (fun a ↦ f.kernelSoftmax a out (n.attr 0 1) (n.attr 1 1))
  | .gelu => (operand inputs 0).bind (fun a ↦ f.kernelGelu a out (n.attr 0 4))
  | .layerNorm =>
    (operand inputs 0).bind (fun a ↦ f.kernelLayernorm a out (n.attr 0 1) (n.attr 1 1))
  | .conv =>
    (operand inputs 0).bind (fun a ↦ (operand inputs 1).bind (fun b ↦
      f.kernelConv2d a b (inputs.getD 2 .null) out (n.attr 0 1) (n.attr 1 1) (n.attr 2 1)
        (n.attr 3 1) (n.attr 4 1) (n.attr 5 1)))
  | .fusedMatMulBiasRelu =>
    (operand inputs 0).bind (fun a ↦ (operand inputs 1).bind (fun b ↦ f.dispatchFused n a b out))
  | op => .failed (lit "unsupported op in native backend: " ++ decimal op.value)

end Floats

end Cerberus.Graph
