import Cerberus.Graph.Model
import Cerberus.TieredMemory.Types

namespace Cerberus.Graph

open Foundation.Bytes TieredMemory

inductive CerberusError
  | invalidArgument
  | outOfMemory
  | runtimeError
  | backendExecuteFailed
  | emptyExecutionPlan
  | graphEmpty
  | executionError
  | unsupportedOperation
  deriving DecidableEq

structure DecisionConfig where
  matmulNativeMaxMnk : Nat := 64
  warmTierPressureLimit : Float32 := 0.75
  fuseElementwise : Bool := true
  powerBudgetWatts : Float32 := 10.0

inductive Backend
  | native
  | openVINO
  | cuda
  | fusedNative
  deriving DecidableEq

structure ExecutionStep where
  nodeIds : List Int
  backend : Backend := .native
  preferredTier : MemoryTier := .cool
  debugLabel : ByteString := []
  deriving DecidableEq

structure WarmStats where
  available : Bool
  fillPct : Float32

/-- What the engine finds when it analyses a graph: whether there is a real NPU, and the state of
the warm tier when it looks at a node. -/
structure Surroundings where
  npuAvailable : Bool
  warm : Int → WarmStats

variable {F : Type}

def reevaluateTier (cfg : DecisionConfig) (warm : WarmStats) (step : ExecutionStep) :
    ExecutionStep :=
  if warm.available ∧ cfg.warmTierPressureLimit * 100.0 < warm.fillPct then
    if step.preferredTier = .warm then { step with preferredTier := .cool } else step
  else step

def isSmallEnoughForNative (cfg : DecisionConfig) (n : GraphNode F) (tensors : List GraphTensor) :
    Bool :=
  if n.op = .matMul then
    let shapes := n.inputs.filterMap (fun name ↦ tensors.find? (fun t ↦ t.name = name))
    -- A negative dimension becomes a large `size_t`.
    let dims := shapes.flatMap (fun t ↦ t.shape.map (fun d ↦ (d % 2 ^ 64).toNat))
    dims.foldl max 0 ≤ cfg.matmulNativeMaxMnk
  else true

def pickBackend (cfg : DecisionConfig) (env : Surroundings) (g : CerberusGraph F) (nodeId : Int) :
    Backend :=
  match g.node nodeId with
  | none => .native
  | some n =>
    if n.quantProfile.weightBits ≤ 4 ∧ n.quantProfile.weightGranularity = .perBlock then .native
    else if n.op = .matMul ∨ n.op = .conv then
      if env.npuAvailable then .openVINO
      else if !isSmallEnoughForNative cfg n g.tensors then .openVINO
      else .native
    else .native

def CerberusGraph.tensorToConsumers (g : CerberusGraph F) (tensor : ByteString) : List Int :=
  g.nodes.flatMap (fun n ↦ (n.inputs.filter (fun i ↦ i = tensor)).map (fun _ ↦ n.id))

/-- The `Mul` of a step and the `Add` that it is fused with. -/
def fusion (g : CerberusGraph F) (step : ExecutionStep) :
    Option (GraphNode F × GraphNode F) :=
  if step.backend ≠ .native then none
  else
    match step.nodeIds with
    | [nodeId] => do
      let n ← g.node nodeId
      guard (n.op = .mul)
      let mulOut ← n.outputs.head?
      match g.tensorToConsumers mulOut with
      | [addId] =>
        let addNode ← g.node addId
        guard (addNode.op = .add)
        return (n, addNode)
      | _ => none
    | _ => none

def fuseStep (g : CerberusGraph F) (step : ExecutionStep) : ExecutionStep :=
  match fusion g step with
  | none => step
  | some (mul, add) =>
    { nodeIds := [mul.id, add.id]
      backend := .fusedNative
      preferredTier := step.preferredTier
      debugLabel := lit "fuse: Mul(" ++ mul.name ++ lit ") + Add(" ++ add.name ++ lit ")" }

def survives (consumed : List Int) (step : ExecutionStep) : Bool :=
  match step.nodeIds with
  | [id] => id ∉ consumed
  | _ => true

def fuseElementwiseChain (cfg : DecisionConfig) (g : CerberusGraph F) (plan : List ExecutionStep) :
    List ExecutionStep :=
  if !cfg.fuseElementwise then plan
  else
    let consumed := (plan.filterMap (fusion g)).map (fun e ↦ e.2.id)
    (plan.map (fuseStep g)).filter (survives consumed)

/-- The step of one node. The routing label of a node is written, and read by none of this. -/
def planStep (cfg : DecisionConfig) (env : Surroundings) (g : CerberusGraph F)
    (targetName : ByteString) (n : GraphNode F) : ExecutionStep :=
  let backend := pickBackend cfg env g n.id
  reevaluateTier cfg (env.warm n.id)
    { nodeIds := [n.id]
      backend := backend
      preferredTier := if n.op = .matMul ∨ n.op = .conv then .cool else .warm
      debugLabel :=
        match backend with
        | .native => lit "native:" ++ targetName
        | .openVINO => lit "openvino:" ++ targetName
        | .cuda => lit "cuda:" ++ targetName
        | .fusedNative => [] }

def powerOverride (cfg : DecisionConfig) (step : ExecutionStep) : ExecutionStep :=
  if cfg.powerBudgetWatts < 5.0 ∧ (step.backend = .cuda ∨ step.backend = .openVINO) then
    { step with
      backend := .native
      debugLabel := step.debugLabel ++ lit " (power-override)"
      preferredTier := .cool }
  else step

def routingLabel : Backend → ByteString
  | .native => lit "native"
  | .openVINO => lit "openvino"
  | .cuda => lit "cuda"
  | .fusedNative => lit "fused"

def CerberusGraph.routed (cfg : DecisionConfig) (env : Surroundings) (g : CerberusGraph F) :
    CerberusGraph F :=
  { g with nodes := g.nodes.foldl (fun nodes n ↦
      match g.nodeIndex n.id with
      | none => nodes
      | some i => nodes.modify i (fun m ↦
          { m with executionBackend := routingLabel (pickBackend cfg env g n.id) })) g.nodes }

/-- The graph, which is changed also where the analysis fails, and the plan. -/
def analyse (cfg : DecisionConfig) (env : Surroundings) (g : CerberusGraph F)
    (targetName : ByteString) : CerberusGraph F × Except CerberusError (List ExecutionStep) :=
  if g.nodes.isEmpty then (g, .error .graphEmpty)
  else
    let plan := g.nodes.map (planStep cfg env g targetName)
    let plan := (fuseElementwiseChain cfg g plan).map (powerOverride cfg)
    (g.routed cfg env, if plan.isEmpty then .error .emptyExecutionPlan else .ok plan)

def planIds (plan : List ExecutionStep) : List Int := plan.flatMap (fun s ↦ s.nodeIds)

end Cerberus.Graph
