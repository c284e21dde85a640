import Cerberus.Graph.Model

namespace Cerberus.Graph

open Foundation.Bytes

/-- The operations on `float`, with the bytes of a value in memory; and whether the block kernel can
have a vector of so many of them. -/
structure Floats (F : Type) where
  zero : F
  one : F
  half : F
  geluScale : F
  geluCoef : F
  eps : F
  add : F → F → F
  sub : F → F → F
  mul : F → F → F
  div : F → F → F
  neg : F → F
  exp : F → F
  tanh : F → F
  sqrt : F → F
  less : F → F → Bool
  ofNat : Nat → F
  ofInt : Int → F
  blockScale : F
  byte : F → Nat → UInt8
  vector : Nat → Bool

inductive Outcome (ε α : Type)
  | ok (value : α)
  | failed (error : ε)
  | undefined
  | threw
  deriving DecidableEq

def Outcome.bind {ε α β : Type} (x : Outcome ε α) (f : α → Outcome ε β) : Outcome ε β :=
  match x with
  | .ok a => f a
  | .failed error => .failed error
  | .undefined => .undefined
  | .threw => .threw

def Outcome.succeeds {ε α : Type} : Outcome ε α → Bool
  | .ok _ => true
  | _ => false

abbrev Written (F : Type) := Outcome ByteString (List F)

inductive Pointer (F : Type)
  | null
  | block (cells : List F)
  deriving DecidableEq

variable {F : Type}

def onBlocks (a b out : Pointer F) (kernel : List F → List F → List F → Written F) :
    Written F :=
  match a, b, out with
  | .block a, .block b, .block out => kernel a b out
  | _, _, _ => .failed (lit "null pointer")

def store (values out : List F) : List F := values ++ out.drop values.length

namespace Floats

variable (f : Floats F)

def cell (a : List F) (i : Nat) : F := a.getD i f.zero

def max (a b : F) : F := if f.less a b then b else a

def dot (a b : List F) (n k m j : Nat) : F :=
  (List.range k).foldl (fun acc i ↦ f.add acc (f.mul (f.cell a (m * k + i)) (f.cell b (i * n + j))))
    f.zero

def kernelMatmul (a b c : Pointer F) (m n k : Nat) : Written F :=
  onBlocks a b c (fun a b c ↦
    if m = 0 ∨ n = 0 ∨ k = 0 then .failed (lit "empty dimension")
    else if m * k ≤ a.length ∧ k * n ≤ b.length ∧ m * n ≤ c.length then
      .ok (store ((List.range (m * n)).map (fun i ↦ f.dot a b n k (i / n) (i % n))) c)
    else .undefined)

def blockWeight (b : List F) (i : Nat) : F :=
  let byte := (f.byte (f.cell b (i / 4)) (i % 4)).toNat
  let v : Int := if i % 2 = 1 then byte / 16 - 8 else byte % 16 - 8
  f.mul (f.ofInt v) f.blockScale

/-- The weights are bytes; the vector that they are unpacked to is null when it is empty. -/
def kernelMatmulIq4NlBlock (a b c : Pointer F) (m n k : Nat) : Written F :=
  onBlocks a b c (fun a b c ↦
    if m = 0 ∨ n = 0 ∨ k = 0 then .failed (lit "empty dimension")
    else
      let count := k * n % 2 ^ 64
      if !f.vector count then .threw
      else if 4 * b.length < count then .undefined
      else
        let bf := if count = 0 then .null else .block ((List.range count).map (f.blockWeight b))
        f.kernelMatmul (.block a) bf (.block c) m n k)

def kernelZip (g : F → F → F) (a b out : Pointer F) (n : Nat) : Written F :=
  onBlocks a b out (fun a b out ↦
    if n ≤ a.length ∧ n ≤ b.length ∧ n ≤ out.length then
      .ok (store (List.zipWith g (a.take n) (b.take n)) out)
    else .undefined)

def kernelAdd : Pointer F → Pointer F → Pointer F → Nat → Written F := kernelZip f.add

def kernelMul : Pointer F → Pointer F → Pointer F → Nat → Written F := kernelZip f.mul

def kernelMap (g : F → F) (a out : Pointer F) (n : Nat) : Written F :=
  onBlocks a a out (fun a _ out ↦
    if n ≤ a.length ∧ n ≤ out.length then .ok (store ((a.take n).map g) out) else .undefined)

def relu (x : F) : F := if f.less f.zero x then x else f.zero

def kernelRelu : Pointer F → Pointer F → Nat → Written F := kernelMap f.relu

def kernelSigmoid : Pointer F → Pointer F → Nat → Written F :=
  kernelMap (fun x ↦ f.div f.one (f.add f.one (f.exp (f.neg x))))

def kernelGelu : Pointer F → Pointer F → Nat → Written F :=
  kernelMap (fun x ↦
    let x3 := f.mul (f.mul x x) x
    let t := f.mul f.geluScale (f.add x (f.mul f.geluCoef x3))
    f.mul (f.mul f.half x) (f.add f.one (f.tanh t)))

def sum (row : List F) : F := row.foldl f.add f.zero

/-- `max_element` keeps the first of the largest. -/
def softmaxRow (row : List F) : List F :=
  let mx := row.tail.foldl f.max (f.cell row 0)
  let e := row.map (fun x ↦ f.exp (f.sub x mx))
  e.map (fun x ↦ f.div x (f.sum e))

def layernormRow (row : List F) : List F :=
  let mean := f.div (f.sum row) (f.ofNat row.length)
  let squares := row.map (fun x ↦ f.mul (f.sub x mean) (f.sub x mean))
  let var := f.div (f.sum squares) (f.ofNat row.length)
  let invStd := f.div f.one (f.sqrt (f.add var f.eps))
  row.map (fun x ↦ f.mul (f.sub x mean) invStd)

def kernelRows (g : List F → List F) (a out : Pointer F) (rows cols : Nat) : Written F :=
  onBlocks a a out (fun a _ out ↦
    if rows * cols ≤ a.length ∧ rows * cols ≤ out.length then
      .ok (store ((List.range rows).flatMap (fun r ↦ g ((a.drop (r * cols)).take cols))) out)
    else .undefined)

/-- The largest element of an empty row is not defined. -/
def kernelSoftmax (a out : Pointer F) (rows cols : Nat) : Written F :=
  if rows ≠ 0 ∧ cols = 0 then onBlocks a a out (fun _ _ _ ↦ .undefined)
  else kernelRows f.softmaxRow a out rows cols

def kernelLayernorm : Pointer F → Pointer F → Nat → Nat → Written F :=
  kernelRows f.layernormRow

def convolve (input weight : List F) (w c kh kw oc oh' ow' oc' : Nat) : F :=
  ((List.range kh).flatMap (fun i ↦ (List.range kw).flatMap (fun j ↦
    (List.range c).map (fun l ↦ (i, j, l))))).foldl (fun acc e ↦
      f.add acc (f.mul (f.cell input ((oh' + e.1) * w * c + (ow' + e.2.1) * c + e.2.2))
        (f.cell weight (e.1 * kw * c * oc + e.2.1 * c * oc + e.2.2 * oc + oc')))) f.zero

/-- The bias may be null: then there is none. The sizes of the output are `size_t`; where nothing is
added to the zeros of the output, only so many cells are written as their product says. -/
def kernelConv2d (input weight bias output : Pointer F) (h w c kh kw oc : Nat) :
    Written F :=
  onBlocks input weight output (fun input weight output ↦
    if h < kh ∨ w < kw then .failed (lit "input smaller than kernel")
    else if kh * kw * c * oc ≠ 0 ∧
        (input.length < h * w * c ∨ weight.length < kh * kw * c * oc) then .undefined
    else
      let oh := (h - kh + 1) % 2 ^ 64
      let ow := (w - kw + 1) % 2 ^ 64
      let sum := fun i ↦ f.convolve input weight w c kh kw oc (i / oc / ow) (i / oc % ow) (i % oc)
      match bias with
      | .null =>
        let count := if kh * kw * c = 0 then oh * ow * oc % 2 ^ 64 else oh * ow * oc
        if count ≤ output.length then .ok (store ((List.range count).map sum) output)
        else .undefined
      | .block bias =>
        if (oh * ow = 0 ∨ oc ≤ bias.length) ∧ oh * ow * oc ≤ output.length then
          .ok (store ((List.range (oh * ow * oc)).map (fun i ↦
            f.add (sum i) (f.cell bias (i % oc)))) output)
        else .undefined)

end Floats

end Cerberus.Graph
