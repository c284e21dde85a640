import Cerberus.Graph.Decision
import Cerberus.Graph.NativeBackend
import Cerberus.TieredMemory.Model

namespace Cerberus.Graph

open Foundation.Bytes TieredMemory

variable {F : Type}

def DataType.bytes : DataType → Nat
  | .f32 => 4
  | .f16 => 2
  | .i64 => 8
  | .i32 => 4
  | .i8 => 1
  | .u8 => 1
  | .iq4NlBlock => 1
  | .q4KBlock => 1

def TensorDesc.sizeBytes (d : TensorDesc) : UInt64 :=
  d.shape.foldl (fun elems dim ↦ elems * UInt64.ofInt dim) 1 * UInt64.ofNat d.dtype.bytes

def TensorDesc.cells (d : TensorDesc) : Nat := (d.sizeBytes.toNat + 3) / 4

structure CompiledKernel (F : Type) where
  inputs : List TensorDesc
  outputs : List TensorDesc
  inputNames : List ByteString
  outputNames : List ByteString
  highReuseTensors : List ByteString
  graphNodes : List (KernelNode F)
  compiled : Bool

def firstMentions (names : List ByteString) : List ByteString :=
  names.foldl (fun seen name ↦ if name ∈ seen then seen else seen ++ [name]) []

def padded (descs : List TensorDesc) (names : List ByteString) : List TensorDesc :=
  descs ++ List.replicate (names.length - descs.length) { name := [], shape := [4], dtype := .f32 }

def KernelGraph.inputNames (kg : KernelGraph F) : List ByteString :=
  let produced := kg.nodes.flatMap (fun n ↦ n.outputs)
  firstMentions ((kg.nodes.flatMap (fun n ↦ n.inputs)).filter (fun t ↦ t ∉ produced))

def KernelGraph.outputNames (kg : KernelGraph F) : List ByteString :=
  let consumed := kg.nodes.flatMap (fun n ↦ n.inputs)
  firstMentions ((kg.nodes.flatMap (fun n ↦ n.outputs)).filter (fun t ↦ t ∉ consumed))

/-- The native backend compiles every graph; its target is not read. -/
def compile (kg : KernelGraph F) : CompiledKernel F where
  inputs := padded kg.graphInputs kg.inputNames
  outputs := padded kg.graphOutputs kg.outputNames
  inputNames := kg.inputNames
  outputNames := kg.outputNames
  highReuseTensors := (kg.nodes.flatMap (fun n ↦ n.outputs)).filter (fun t ↦
    kg.nodes.any (fun later ↦ t ∈ later.inputs))
  graphNodes := kg.nodes
  compiled := true

/-- What the machine decides: the answers of the system to the memory manager, what the decision
engine sees, the contents of new blocks, the float that comes of writing the first bytes of one over
another, and whether a vector of so many floats can be had. -/
structure Host (F : Type) where
  platform : Platform
  surroundings : Surroundings
  fresh : TierAllocation → Nat → F
  splice : Nat → F → F → F
  scratch : Nat → Bool

abbrev Tensors (F : Type) := ByteString → Option (Pointer F)

section

variable (f : Floats F) (host : Host F) (kernel : CompiledKernel F) (outputs : List (Pointer F))

def bindInputs (inputs : List (Pointer F)) : Tensors F :=
  ((kernel.inputNames.take kernel.inputs.length).zip inputs).foldl
    (fun tensors e ↦ Function.update tensors e.1 (some e.2)) (fun _ ↦ none)

def resolve (tensors : Tensors F) : List ByteString → Outcome ByteString (List (Pointer F))
  | [] => .ok []
  | name :: names =>
    match tensors name with
    | none => .failed (lit "missing tensor: " ++ name)
    | some p => (resolve tensors names).bind (fun ps ↦ .ok (p :: ps))

def outputIndex (name : ByteString) : Option Nat :=
  (kernel.outputNames.take kernel.outputs.length).findIdx? (fun n ↦ n = name)

/-- The buffer that a node writes: that of a graph output, or a new vector of zeros, whose data is
null when it is empty. No node reads a graph output, so its buffer holds what was last written
under its name. -/
def outputBuffer (tensors : Tensors F) (n : KernelNode F) (name : ByteString) :
    Outcome ByteString (Pointer F) :=
  match outputIndex kernel name with
  | some i =>
    match tensors name, outputs[i]? with
    | some p, _ => .ok p
    | none, some p => .ok p
    | none, none => .undefined
  | none =>
    let count := n.attr 0 4
    if !host.scratch count then .threw
    else if count = 0 then .ok .null
    else .ok (.block (List.replicate count f.zero))

def executeNode (tensors : Tensors F) (n : KernelNode F) : Outcome ByteString (Tensors F) :=
  (resolve tensors n.inputs).bind (fun ins ↦
    match n.outputs with
    | [] => .failed (lit "node has no outputs")
    | name :: _ =>
      (outputBuffer f host kernel outputs tensors n name).bind (fun out ↦
        (f.dispatch n ins out).bind (fun cells ↦
          .ok (Function.update tensors name (some (.block cells))))))

def executeNodes : Tensors F → List (KernelNode F) → Outcome ByteString (Tensors F)
  | tensors, [] => .ok tensors
  | tensors, n :: rest =>
    (executeNode f host kernel outputs tensors n).bind (fun tensors ↦ executeNodes tensors rest)

def collect (tensors : Tensors F) : List (Pointer F) :=
  outputs.mapIdx (fun i p ↦
    match (kernel.outputNames.take kernel.outputs.length)[i]? with
    | none => p
    | some name => (tensors name).getD p)

def execute (inputs : List (Pointer F)) : Outcome ByteString (List (Pointer F)) :=
  if !kernel.compiled ∨ kernel.graphNodes = [] then .failed (lit "not compiled or empty graph")
  else
    (executeNodes f host kernel outputs (bindInputs kernel inputs) kernel.graphNodes).bind
      (fun tensors ↦ .ok (collect kernel outputs tensors))

end

def Outcome.mapError {ε ε' α : Type} (g : ε → ε') : Outcome ε α → Outcome ε' α
  | .ok a => .ok a
  | .failed error => .failed (g error)
  | .undefined => .undefined
  | .threw => .threw

def mapTierError : TierError → CerberusError
  | .outOfMemory => .outOfMemory
  | .invalidHandle => .invalidArgument
  | .migrationFailed => .runtimeError
  | .tierUnavailable => .unsupportedOperation
  | .alignmentError => .invalidArgument
  | .invalidSize => .invalidArgument

def CompiledKernel.pickTier (kernel : CompiledKernel F) (names : List ByteString) (i : Nat) :
    MemoryTier :=
  match names[i]? with
  | none => .cool
  | some name => if name ∈ kernel.highReuseTensors then .warm else .cool

def CompiledKernel.pickInputTier (kernel : CompiledKernel F) : Nat → MemoryTier :=
  kernel.pickTier kernel.inputNames

def CompiledKernel.pickOutputTier (kernel : CompiledKernel F) : Nat → MemoryTier :=
  kernel.pickTier kernel.outputNames

section

variable (host : Host F) (tier : Nat → MemoryTier)

/-- A copy of so many bytes. It may end inside a float. -/
def copyBytes (bytes : Nat) (source target : List F) : List F :=
  let torn := if bytes % 4 = 0 then [] else
    (List.zipWith (host.splice (bytes % 4)) (source.drop (bytes / 4)) (target.drop (bytes / 4))).take 1
  store (source.take (bytes / 4) ++ torn) target

/-- The caller's inputs are copied into blocks of their own; a block in a file has no address. -/
def stageInputs : Nat → List (TensorDesc × Pointer F) → Impl →
    Outcome CerberusError (List (Pointer F)) × Impl
  | _, [], m => (.ok [], m)
  | i, (desc, user) :: rest, m =>
    match m.allocate host.platform desc.sizeBytes (tier i) 0 with
    | (.error e, m) => (.failed (mapTierError e), m)
    | (.ok a, m) =>
      if a.handle = kInvalidTierHandle then (.failed .outOfMemory, m)
      else
        match a.ptr, user with
        | some _, .block cells =>
          if desc.cells ≤ cells.length then
            let (staged, m) := stageInputs (i + 1) rest m
            let block := (List.range desc.cells).map (host.fresh a)
            (staged.bind (fun ps ↦
              .ok (.block (copyBytes host desc.sizeBytes.toNat cells block) :: ps)), m)
          else (.undefined, m)
        | _, _ => (.undefined, m)

def stageOutputs : Nat → List TensorDesc → Impl → Outcome CerberusError (List (Pointer F)) × Impl
  | _, [], m => (.ok [], m)
  | i, desc :: rest, m =>
    match m.allocate host.platform desc.sizeBytes (tier i) 0 with
    | (.error e, m) => (.failed (mapTierError e), m)
    | (.ok a, m) =>
      if a.handle = kInvalidTierHandle then (.failed .outOfMemory, m)
      else
        let p := match a.ptr with
          | some _ => .block ((List.range desc.cells).map (host.fresh a))
          | none => .null
        let (staged, m) := stageOutputs (i + 1) rest m
        (staged.bind (fun ps ↦ .ok (p :: ps)), m)

def copyBack (desc : TensorDesc) (staged user : Pointer F) : Outcome CerberusError (Pointer F) :=
  match staged, user with
  | .block cells, .block user =>
    if desc.cells ≤ cells.length ∧ desc.cells ≤ user.length then
      .ok (.block (copyBytes host desc.sizeBytes.toNat cells user))
    else .undefined
  | _, _ => .undefined

def copyAllBack : List TensorDesc → List (Pointer F) → List (Pointer F) →
    Outcome CerberusError (List (Pointer F))
  | desc :: descs, staged :: rest, user :: users =>
    (copyBack host desc staged user).bind (fun p ↦
      (copyAllBack descs rest users).bind (fun ps ↦ .ok (p :: ps)))
  | _, _, _ => .ok []

end

def Pointer.isNull : Pointer F → Bool
  | .null => true
  | .block _ => false

section

variable (host : Host F) (manager : Impl) (kernel : CompiledKernel F)

def prepare (userInputs userOutputs : List (Pointer F)) :
    Outcome CerberusError (List (Pointer F) × List (Pointer F)) :=
  if userInputs.length ≠ kernel.inputs.length then .failed .invalidArgument
  else if userOutputs.length ≠ kernel.outputs.length then .failed .invalidArgument
  else if userInputs.any Pointer.isNull ∨ userOutputs.any Pointer.isNull then
    .failed .invalidArgument
  else
    let (inputs, m) := stageInputs host kernel.pickInputTier 0 (kernel.inputs.zip userInputs) manager
    inputs.bind (fun inputs ↦
      (stageOutputs host kernel.pickOutputTier 0 kernel.outputs m).1.bind (fun outputs ↦
        .ok (inputs, outputs)))

variable (f : Floats F)

def coordinate (userInputs userOutputs : List (Pointer F)) :
    Outcome CerberusError (List (Pointer F)) :=
  (prepare host manager kernel userInputs userOutputs).bind (fun buffers ↦
    ((execute f host kernel buffers.2 buffers.1).mapError (fun _ ↦ .backendExecuteFailed)).bind
      (fun outputs ↦ copyAllBack host kernel.outputs outputs userOutputs))

end

structure RuntimeConfig where
  preferredBackend : ByteString := lit "native"
  decision : DecisionConfig := {}

/-- The whole stack. The plan is made for the sorted graph; the backend gets the graph of the
caller. -/
def runGraph (cfg : RuntimeConfig) (f : Floats F) (host : Host F) (manager : Impl)
    (order : List ByteString → List ByteString) (kg : KernelGraph F)
    (outputBuffers inputBuffers : List (Pointer F)) : Outcome CerberusError (List (Pointer F)) :=
  match (CerberusGraph.fromKernelGraph order kg).topoSort with
  | none => .failed .invalidArgument
  | some cgraph =>
    match (analyse cfg.decision host.surroundings cgraph cfg.preferredBackend).2 with
    | .error e => .failed e
    | .ok plan =>
      if plan.isEmpty then .failed .emptyExecutionPlan
      else
        (coordinate host manager (compile kg) f inputBuffers outputBuffers).mapError
          (fun _ ↦ .executionError)

end Cerberus.Graph
