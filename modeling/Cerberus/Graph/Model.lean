import Cerberus.Foundation.Bytes
import Cerberus.Foundation.Precedence

namespace Cerberus.Graph

open Foundation.Bytes Foundation.Precedence

inductive Op
  | unknown
  | matMul
  | add
  | mul
  | conv
  | relu
  | sigmoid
  | reshape
  | transpose
  | softmax
  | layerNorm
  | gelu
  | constant
  | fusedMatMulBiasRelu
  deriving DecidableEq

inductive QuantGranularity
  | perTensor
  | perChannel
  | perToken
  | perBlock
  deriving DecidableEq

structure QuantProfile where
  weightBits : UInt8 := 8
  weightGranularity : QuantGranularity := .perChannel
  deriving DecidableEq

inductive DataType
  | f32
  | f16
  | i64
  | i32
  | i8
  | u8
  | iq4NlBlock
  | q4KBlock
  deriving DecidableEq

structure TensorDesc where
  name : ByteString := []
  shape : List Int := []
  dtype : DataType := .f32
  deriving DecidableEq

/-- The scalars are those of `float`. -/
structure KernelNode (F : Type) where
  op : Op := .unknown
  name : ByteString := []
  inputs : List ByteString := []
  outputs : List ByteString := []
  floatAttrs : List F := []
  intAttrs : List Int := []
  quantProfile : QuantProfile := {}
  deriving DecidableEq

structure KernelGraph (F : Type) where
  nodes : List (KernelNode F)
  graphInputs : List TensorDesc := []
  graphOutputs : List TensorDesc := []

structure GraphTensor where
  name : ByteString
  shape : List Int := []
  dtype : DataType := .f32
  deriving DecidableEq

structure GraphNode (F : Type) where
  id : Int := -1
  name : ByteString := []
  op : Op := .unknown
  inputs : List ByteString := []
  outputs : List ByteString := []
  executionBackend : ByteString := lit "auto"
  constantData : List F := []
  quantProfile : QuantProfile := {}
  deriving DecidableEq

structure CerberusGraph (F : Type) where
  nodes : List (GraphNode F)
  tensors : List GraphTensor := []

variable {F : Type}

namespace CerberusGraph

variable (g : CerberusGraph F)

def nodeIndex (id : Int) : Option Nat := g.nodes.findIdx? (fun n ↦ n.id = id)

def node (id : Int) : Option (GraphNode F) := (g.nodeIndex id).bind (fun i ↦ g.nodes[i]?)

def consumers (nodeId : Int) : List Int :=
  match g.node nodeId with
  | none => []
  | some self =>
    match self.outputs with
    | [] => []
    | out :: _ =>
      (g.nodes.filter (fun n ↦ n.id ≠ nodeId && out ∈ n.inputs)).map (fun n ↦ n.id)

/-- `in_degree` before the first node is taken from the queue. -/
def inDegree (id : Int) : Int :=
  (g.nodes.map (fun n ↦
    match n.outputs with
    | [] => 0
    | out :: _ => g.nodes.countP (fun later ↦ later.id = id && out ∈ later.inputs))).sum

def relax (s : (Int → Int) × List Int) (id : Int) : (Int → Int) × List Int :=
  let degree := Function.update s.1 id (s.1 id - 1)
  (degree, if degree id = 0 then s.2 ++ [id] else s.2)

def drain : Nat → (Int → Int) → List Int → List (GraphNode F) → Option (List (GraphNode F))
  | 0, _, _, sorted => some sorted
  | _ + 1, _, [], sorted => some sorted
  | fuel + 1, degree, id :: queue, sorted =>
    match g.node id with
    | none => none
    | some n =>
      let (degree, queue) := (g.consumers id).foldl relax (degree, queue)
      drain fuel degree queue (sorted ++ [n])

/-- The sorted graph; the queue gets no more entries than there are nodes. -/
def topoSort : Option (CerberusGraph F) :=
  let queue := (g.nodes.filter (fun n ↦ g.inDegree n.id = 0)).map (fun n ↦ n.id)
  match g.drain g.nodes.length g.inDegree queue [] with
  | none => none
  | some sorted =>
    if sorted.length ≠ g.nodes.length then none else some { g with nodes := sorted }

end CerberusGraph

/-- A description of the same name gives a tensor its shape and type. -/
def describe (tensors : List GraphTensor) (d : TensorDesc) : List GraphTensor :=
  match tensors.findIdx? (fun t ↦ t.name = d.name) with
  | none => tensors
  | some i => tensors.modify i (fun t ↦
      { t with shape := if d.shape.isEmpty then t.shape else d.shape, dtype := d.dtype })

/-- The tensors come out of an unordered map, in the given order of their names. -/
def CerberusGraph.fromKernelGraph (order : List ByteString → List ByteString) (kg : KernelGraph F) :
    CerberusGraph F :=
  let nodes := kg.nodes.zipIdx.map (fun e ↦
    { id := e.2, name := e.1.name, op := e.1.op, inputs := e.1.inputs, outputs := e.1.outputs,
      constantData := e.1.floatAttrs, quantProfile := e.1.quantProfile : GraphNode F })
  let names := (kg.nodes.flatMap (fun n ↦ n.inputs ++ n.outputs)).dedup
  let tensors := (order names).map (fun name ↦ ({ name := name } : GraphTensor))
  let g : CerberusGraph F := { nodes, tensors := kg.graphInputs.foldl describe tensors }
  g.topoSort.getD g

/-- Every tensor that a node reads and some node produces is produced by an earlier node. -/
def Topological (nodes : List (GraphNode F)) : Prop :=
  ∀ pre n post, nodes = pre ++ n :: post → ∀ t ∈ n.inputs, (∃ p ∈ nodes, t ∈ p.outputs) →
    ∃ p ∈ pre, t ∈ p.outputs

theorem topological_iff {nodes : List (GraphNode F)} (hn : nodes.Nodup) : Topological nodes ↔
    ∀ n ∈ nodes, ∀ t ∈ n.inputs, (∃ p ∈ nodes, t ∈ p.outputs) →
      ∃ p ∈ nodes, t ∈ p.outputs ∧ [p, n].Sublist nodes := by
  constructor
  · intro ht n hmem t hin hp
    obtain ⟨pre, post, rfl⟩ := List.append_of_mem hmem
    obtain ⟨p, hpre, hout⟩ := ht pre n post rfl t hin hp
    exact ⟨p, by simp [hpre], hout, (mem_before_iff hn).mp hpre⟩
  · intro h pre n post he t hin hp
    obtain ⟨p, -, hout, hbefore⟩ := h n (by simp [he]) t hin hp
    rw [he] at hn hbefore
    exact ⟨p, (mem_before_iff hn).mpr hbefore, hout⟩

end Cerberus.Graph
