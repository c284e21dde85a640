import Cerberus.Foundation.Trace
import Cerberus.Generation.Model
import Cerberus.Inference.Server

namespace Cerberus.Capi

open Function Foundation Foundation.Bytes Foundation.Trace
open Generation (PipelineError)
open Inference (GenerationRequest)

inductive Status
  | ok
  | error
  | notInitialized
  | invalidHandle
  | invalidArgument
  | deviceNotFound
  | outOfMemory
  | sessionLimitReached
  | threadError
  | timeout
  | alreadyShutdown
  | inferenceFailed
  deriving DecidableEq

inductive DeviceType
  | cpu
  | gpu
  | npu
  | any
  deriving DecidableEq

def errorName : PipelineError → String
  | .ok => "Ok"
  | .invalidRequest => "InvalidRequest"
  | .watchdogRecoveryFailed => "WatchdogRecoveryFailed"
  | .hailoNotAvailable => "HailoNotAvailable"
  | .hailoTimeout => "HailoTimeout"
  | .hailoThermal => "HailoThermal"
  | .gpuOutOfMemory => "GPUOutOfMemory"
  | .onnxSessionLoadFailed => "ONNXSessionLoadFailed"
  | .onnxRunFailed => "ONNXRunFailed"
  | .stagingPoolExhausted => "StagingPoolExhausted"
  | .latencyBudgetExceeded => "LatencyBudgetExceeded"
  | .recoveryTooManyAttempts => "RecoveryTooManyAttempts"
  | .invalidModelPath => "InvalidModelPath"
  | .shutdownInProgress => "ShutdownInProgress"
  | .schedulerNotInitialized => "SchedulerNotInitialized"
  | .unknown => "Unknown"

structure SessionConfig (F : Type) where
  modelPath : Option ByteString := none
  width : Int32 := 0
  height : Int32 := 0
  numSteps : Int32 := 0
  guidanceScale : F

structure PipelineConfig where
  enableWatchdog : Bool := true
  textEncoderOnnx : ByteString := []
  unetOnnx : ByteString := []
  vaeDecoderOnnx : ByteString := []

def buildPipelineConfig (modelPath : ByteString) : PipelineConfig :=
  let pcfg : PipelineConfig := { enableWatchdog := false }
  if modelPath.isEmpty then pcfg
  else { pcfg with
    textEncoderOnnx := modelPath ++ lit "/text_encoder.onnx"
    unetOnnx := modelPath ++ lit "/unet.onnx"
    vaeDecoderOnnx := modelPath ++ lit "/vae_decoder.onnx" }

/-- Handles are numbered in the order in which they are allocated; none is freed, and zero is the
null pointer. -/
structure SessionState (F : Type) where
  handle : Nat
  config : SessionConfig F
  pipeline : PipelineConfig
  outputBuffer : List F := []
  active : Bool := true

/-- What `find_session` looks for. -/
def SessionState.holds {F : Type} (h : Nat) (s : SessionState F) : Bool :=
  s.active && s.handle == h

structure GlobalState (F : Type) where
  initialized : Bool := false
  lastError : ByteString := []
  sessions : List (SessionState F) := []
  threadPool : Bool := false
  hailoMonitor : Bool := false
  gpuMonitor : Bool := false
  sharedNpu : Bool := false
  hailoAvailable : Bool := false
  gpuAvailable : Bool := false
  maxSessions : Nat := 16
  handles : Nat := 0

structure DeviceInfo (F : Type) where
  index : Nat
  deviceType : DeviceType
  name : ByteString
  utilizationPercent : F
  temperatureCelsius : F

/-- What `generate` of a pipeline comes to. -/
inductive Generated
  | pixels (l : List UInt8)
  | error (e : PipelineError)
  | throws (what : ByteString)

/-- The values of type `float` in the source; the weights are those of the devices in the hint. -/
structure Host (F : Type) where
  zero : F
  hundred : F
  defaultGuidance : F
  pixel : UInt8 → F
  npuWeight : F
  gpuWeight : F
  cpuWeight : F

/-- What a call meets while it has the mutex: the text of an exception of a constructor, the
probes, the devices, and the pipelines. -/
structure Moment (F : Type) where
  poolFails : Option ByteString := none
  npuFails : Option ByteString := none
  pipelineFails : Option ByteString := none
  hailo : Bool := false
  hailoOpens : Bool := false
  gpu : Bool := false
  gpuInitializes : Bool := false
  gpuTelemetry : Option (F × F) := none
  hailoSample : Option (F × F) := none
  cpuLoad : Option F := none
  gpuUtilization : Option F := none
  npuUtilization : F
  generate : PipelineConfig → GenerationRequest F → Generated

/-- A null pointer is `false` or `none`; a callback is told by its user data. What the allocator
gives stands among the arguments of `allocPinned`. -/
inductive Call (F : Type)
  | init
  | shutdown
  | getVersion
  | getLastError
  | getDeviceCount (count : Bool)
  | getDeviceInfo (index : Int32) (info : Bool)
  | getUtilization (device : DeviceType) (utilizationPercent : Bool)
  | getLoadBalanceHint (recommendedDevice : Bool)
  | createSession (config : Option (SessionConfig F)) (session : Bool)
  | destroySession (session : Nat)
  | run (session : Nat) (input : ByteString) (output outputSize : Bool)
  | runAsync (session : Nat) (input : ByteString) (callback : Option Nat)
  | allocPinned (bytes : Nat) (ptr : Bool) (memory : Option Nat)
  | freePinned (ptr : Bool)

inductive Answer (F : Type)
  | nothing
  | text (message : ByteString)
  | count (n : Nat)
  | info (i : DeviceInfo F)
  | utilization (percent : F)
  | device (d : DeviceType)
  | session (h : Nat)
  | output (l : List F)
  | memory (p : Nat)

structure Reply (F : Type) where
  status : Status
  answer : Answer F := .nothing

/-- How the part of a call ends for which it has the mutex: with a reply, with a message that
`set_error` is to store, with the workers that it has to wait for, or with the mutex given back. -/
inductive Section (F : Type)
  | returns (gs : GlobalState F) (r : Reply F)
  | fails (gs : GlobalState F) (msg : ByteString)
  | joins (gs : GlobalState F)
  | found

namespace GlobalState

variable {F : Type} [Mul F] [LT F] [DecidableLT F] [LE F] [DecidableLE F] (host : Host F)
  (gs : GlobalState F) (m : Moment F)

def init : Section F :=
  if gs.initialized then .fails gs (lit "cerberus_init: already initialized")
  else
    match m.poolFails with
    | some what => .fails gs (lit "cerberus_init: thread pool creation failed: " ++ what)
    | none =>
      let hailo := m.hailo && m.hailoOpens
      let gpu := m.gpu && m.gpuInitializes
      let gs := { gs with
        threadPool := true
        hailoAvailable := hailo
        hailoMonitor := hailo
        gpuAvailable := gpu
        gpuMonitor := gpu }
      match m.npuFails with
      | some what => .fails gs (lit "cerberus_init: NPU pipeline creation failed: " ++ what)
      | none =>
        .returns { gs with sharedNpu := true, sessions := [], initialized := true } ⟨.ok, .nothing⟩

/-- `thread_pool.reset()` clears the pointer before it waits for the workers. -/
def shutdown : Section F :=
  if !gs.initialized then .fails gs (lit "cerberus_shutdown: not initialized")
  else .joins { gs with sessions := [], threadPool := false }

def reset : GlobalState F :=
  { gs with
    hailoMonitor := false
    gpuMonitor := false
    sharedNpu := false
    initialized := false
    hailoAvailable := false
    gpuAvailable := false }

def getDeviceCount : Section F :=
  if !gs.initialized then .fails gs (lit "cerberus_get_device_count: not initialized")
  else .returns gs ⟨.ok, .count (1 + gs.gpuAvailable.toNat + gs.hailoAvailable.toNat)⟩

def devices : List (DeviceInfo F) :=
  let gpu := (if gs.gpuMonitor then m.gpuTelemetry else none).getD (host.zero, host.zero)
  let hailo := (if gs.hailoMonitor then m.hailoSample else none).getD (host.zero, host.zero)
  [⟨0, .cpu, lit "CPU (always available)", host.zero, host.zero⟩] ++
    (if gs.gpuAvailable then [⟨1, .gpu, lit "AMD GPU (ROCm)", gpu.1, gpu.2⟩] else []) ++
    (if gs.hailoAvailable then [⟨2, .npu, lit "Hailo-8L NPU", hailo.1, hailo.2⟩] else [])

def getDeviceInfo (index : Int32) : Section F :=
  if !gs.initialized then .fails gs (lit "cerberus_get_device_info: not initialized")
  else
    match if index < 0 then none else (gs.devices host m)[index.toInt.toNat]? with
    | some info => .returns gs ⟨.ok, .info info⟩
    | none => .fails gs (lit "cerberus_get_device_info: index out of range")

def clampUtil (v : F) : F := Inference.InferenceServer.clamp v host.zero host.hundred

def utilization : DeviceType → Except Status F
  | .cpu =>
    match m.cpuLoad with
    | some load => .ok (clampUtil host load)
    | none => .error .notInitialized
  | .gpu =>
    if gs.gpuMonitor then
      match m.gpuUtilization with
      | some util => .ok (clampUtil host util)
      | none => .error .deviceNotFound
    else .error .notInitialized
  | .npu =>
    if gs.sharedNpu ∧ host.zero ≤ m.npuUtilization then .ok (clampUtil host m.npuUtilization)
    else .error .notInitialized
  | .any =>
    match (if gs.gpuMonitor then m.gpuUtilization else none).map (clampUtil host) with
    | some util =>
      if host.zero ≤ util then .ok util
      else if gs.sharedNpu ∧ host.zero ≤ m.npuUtilization then .ok m.npuUtilization
      else .error .notInitialized
    | none =>
      if gs.sharedNpu ∧ host.zero ≤ m.npuUtilization then .ok m.npuUtilization
      else .error .notInitialized

def getUtilization (device : DeviceType) : Section F :=
  if !gs.initialized then .fails gs (lit "cerberus_get_utilization: not initialized")
  else
    match gs.utilization host m device with
    | .ok percent => .returns gs ⟨.ok, .utilization percent⟩
    | .error status => .returns gs ⟨status, .nothing⟩

def least (best : DeviceType × F) : List (DeviceType × F) → DeviceType × F
  | [] => best
  | c :: candidates => least (if c.2 < best.2 then c else best) candidates

def candidates : List (DeviceType × F) :=
  let npuUtil := if gs.sharedNpu then clampUtil host m.npuUtilization else host.zero
  let gpuUtil :=
    ((if gs.gpuMonitor then m.gpuUtilization else none).map (clampUtil host)).getD host.zero
  let cpuUtil := (m.cpuLoad.map (clampUtil host)).getD host.zero
  (if gs.hailoAvailable then [(.npu, npuUtil * host.npuWeight)] else []) ++
    (if gs.gpuAvailable then [(.gpu, gpuUtil * host.gpuWeight)] else []) ++
    [(.cpu, cpuUtil * host.cpuWeight)]

/-- The source reads the other devices before and after its section; here they belong to it. -/
def getLoadBalanceHint : Section F :=
  match gs.candidates host m with
  | [] => .returns gs ⟨.ok, .device .cpu⟩
  | c :: candidates => .returns gs ⟨.ok, .device (least c candidates).1⟩

def createSession (config : SessionConfig F) : Section F :=
  if !gs.initialized then .fails gs (lit "cerberus_create_session: not initialized")
  else if gs.maxSessions ≤ gs.sessions.countP (·.active) then
    .fails gs (lit "cerberus_create_session: session limit reached")
  else
    match m.pipelineFails.or m.npuFails with
    | some what => .fails gs (lit "cerberus_create_session: " ++ what)
    | none =>
      let ss : SessionState F :=
        { handle := gs.handles + 1
          config
          pipeline := buildPipelineConfig (config.modelPath.getD []) }
      .returns { gs with sessions := gs.sessions ++ [ss], handles := gs.handles + 1 }
        ⟨.ok, .session ss.handle⟩

def destroySession (h : Nat) : Section F :=
  if gs.sessions.any (·.holds h) then
    .returns { gs with sessions := gs.sessions.eraseP (·.holds h) } ⟨.ok, .nothing⟩
  else .fails gs (lit "cerberus_destroy_session: session not found")

/-- The text up to a zero or to the length that is given, and not more than 1024 bytes of it. -/
def promptOf (input : ByteString) : ByteString :=
  let prompt := (input.take 1024).takeWhile (· ≠ 0)
  if prompt.isEmpty then lit "inference from C API" else prompt

def request (config : SessionConfig F) (input : ByteString) : GenerationRequest F where
  prompt := promptOf input
  width := if 0 < config.width then config.width.toUInt32 else 512
  height := if 0 < config.height then config.height.toUInt32 else 512
  numSteps := if 0 < config.numSteps then config.numSteps.toUInt32 else 20
  guidanceScale :=
    if host.zero < config.guidanceScale then config.guidanceScale else host.defaultGuidance

def rgb : List UInt8 → List F
  | r :: g :: b :: _ :: pixels => host.pixel r :: host.pixel g :: host.pixel b :: rgb pixels
  | _ => []

def run (h : Nat) (input : ByteString) : Section F :=
  match gs.sessions.find? (·.holds h) with
  | none => .fails gs (lit "cerberus_run: session not found")
  | some ss =>
    match m.generate ss.pipeline (request host ss.config input) with
    | .throws what => .fails gs (lit "cerberus_run: exception: " ++ what)
    | .error e => .fails gs (lit "cerberus_run: inference failed: " ++ lit (errorName e))
    | .pixels l =>
      .returns { gs with
        sessions := gs.sessions.modify (gs.sessions.findIdx (·.holds h))
          (fun s ↦ { s with outputBuffer := rgb host l }) } ⟨.ok, .output (rgb host l)⟩

def runAsync (h : Nat) : Section F :=
  if gs.sessions.any (·.holds h) then .found
  else .fails gs (lit "cerberus_run_async: session not found")

end GlobalState

/-- How a call begins: it is answered at once, it has a message stored first, or it locks. -/
inductive Start (F : Type)
  | answers (r : Reply F)
  | reports (msg : ByteString) (r : Reply F)
  | locks

def kVersion : ByteString := lit "1.0.0"

section

variable {F : Type} [Mul F] [LT F] [DecidableLT F] [LE F] [DecidableLE F] (host : Host F)
  (m : Moment F) (gs : GlobalState F)

def refuse (msg : String) (status : Status) : Start F := .reports (lit msg) ⟨status, .nothing⟩

def allocPinned (bytes : Nat) (ptr : Bool) (memory : Option Nat) : Start F :=
  if !ptr || bytes = 0 then refuse "cerberus_alloc_pinned: invalid arguments" .invalidArgument
  else
    match memory with
    | some p => .answers ⟨.ok, .memory p⟩
    | none => refuse "cerberus_alloc_pinned: allocation failed" .outOfMemory

def begins : Call F → Start F
  | .init => .locks
  | .shutdown => .locks
  | .getVersion => .answers ⟨.ok, .text kVersion⟩
  | .getLastError => .answers ⟨.ok, .text gs.lastError⟩
  | .getDeviceCount count =>
    if count then .locks else refuse "cerberus_get_device_count: null pointer" .invalidArgument
  | .getDeviceInfo _ info =>
    if info then .locks else refuse "cerberus_get_device_info: null pointer" .invalidArgument
  | .getUtilization _ percent =>
    if percent then .locks else refuse "cerberus_get_utilization: null pointer" .invalidArgument
  | .getLoadBalanceHint device =>
    if !device then refuse "cerberus_get_load_balance_hint: null pointer" .invalidArgument
    else if !gs.initialized then
      .reports (lit "cerberus_get_load_balance_hint: not initialized")
        ⟨.notInitialized, .device .cpu⟩
    else .locks
  | .createSession config session =>
    if config.isSome && session then .locks
    else refuse "cerberus_create_session: null pointer" .invalidArgument
  | .destroySession session =>
    if session = 0 then refuse "cerberus_destroy_session: invalid handle" .invalidHandle
    else .locks
  | .run session _ output outputSize =>
    if session ≠ 0 && output && outputSize then .locks
    else refuse "cerberus_run: invalid arguments" .invalidArgument
  | .runAsync session _ callback =>
    if session ≠ 0 && callback.isSome then .locks
    else refuse "cerberus_run_async: invalid arguments" .invalidArgument
  | .allocPinned bytes ptr memory => allocPinned bytes ptr memory
  | .freePinned ptr =>
    if ptr then .answers ⟨.ok, .nothing⟩
    else refuse "cerberus_free_pinned: null pointer" .invalidArgument

def inside : Call F → Section F
  | .init => gs.init m
  | .shutdown => gs.shutdown
  | .getVersion => .returns gs ⟨.ok, .text kVersion⟩
  | .getLastError => .returns gs ⟨.ok, .text gs.lastError⟩
  | .getDeviceCount _ => gs.getDeviceCount
  | .getDeviceInfo index _ => gs.getDeviceInfo host m index
  | .getUtilization device _ => gs.getUtilization host m device
  | .getLoadBalanceHint _ => gs.getLoadBalanceHint host m
  | .createSession config _ =>
    match config with
    | some config => gs.createSession m config
    | none => .returns gs ⟨.invalidArgument, .nothing⟩
  | .destroySession session => gs.destroySession session
  | .run session input _ _ => gs.run host m session input
  | .runAsync session _ _ => gs.runAsync session
  | .allocPinned _ _ _ => .returns gs ⟨.ok, .nothing⟩
  | .freePinned _ => .returns gs ⟨.ok, .nothing⟩

end

inductive Thread (T : Type)
  | client (t : T)
  | worker (i : Fin 4)
  deriving DecidableEq

/-- A call, and the callback that is to be told its reply if a worker makes it. -/
structure Job (F : Type) where
  call : Call F
  callback : Option Nat := none

inductive Point (F : Type)
  /-- Not in a call; a worker is about to look for a task. -/
  | outside
  /-- A worker has found nothing to do. Until it sleeps it has the mutex of the queue. -/
  | dozing
  | asleep
  | gone
  /-- About to lock the mutex. -/
  | calling (j : Job F)
  /-- In `set_error`, without the mutex. -/
  | reporting (msg : ByteString) (j : Job F) (r : Reply F)
  /-- In `set_error`, with the mutex, for which it waits. -/
  | stuck (msg : ByteString) (j : Job F)
  /-- In the destructor of the pool, with the mutex: `stop` is yet to be set. -/
  | stopping (j : Job F)
  /-- `stop` is set, and the workers are yet to be notified. -/
  | waking (j : Job F)
  /-- Waiting for the workers. -/
  | joining (j : Job F)
  /-- In `cerberus_run_async`, past the mutex, about to look whether there is a pool. -/
  | looking (j : Job F)
  /-- About to read the pointer to the pool once more. -/
  | sending (j : Job F)
  /-- About to put the task into the queue of the pool of this number. -/
  | pushing (j : Job F) (pool : Nat)
  /-- The task is in the queue, and a worker is yet to be notified. -/
  | notifying (j : Job F) (pool : Nat)
  /-- It has used a pool that is not there; `sent` says whether the task was in the queue. What the
  program does from then on is undefined. -/
  | faulted (j : Job F) (sent : Bool)

/-- The pools are numbered in the order in which they are made, and there is one at a time: the last
one, until it is destroyed. Its queue is then lost. The replies are kept in the order in which they
come. -/
structure State (F T : Type) where
  gs : GlobalState F := {}
  owner : Option (Thread T) := none
  point : Thread T → Point F := fun
    | .client _ => .outside
    | .worker _ => .gone
  pool : Nat := 0
  alive : Bool := false
  queue : List (Job F) := []
  stop : Bool := false
  lost : List (Job F) := []
  returned : List (Job F × Reply F) := []

inductive Event (F T : Type)
  | call (t : T) (c : Call F)
  | lock (x : Thread T) (m : Moment F)
  | report (x : Thread T)
  | look (x : Thread T)
  | send (x : Thread T)
  | push (x : Thread T)
  | notifyOne (x : Thread T) (woken : Option (Fin 4))
  | doze (i : Fin 4)
  | sleep (i : Fin 4)
  /-- The worker wakes without having been notified, as it may. -/
  | wake (i : Fin 4)
  | take (i : Fin 4)
  | leave (i : Fin 4)
  | stop (x : Thread T)
  | notifyAll (x : Thread T)
  | join (x : Thread T)

def Point.roused {F : Type} : Point F → Point F
  | .asleep => .outside
  | p => p

namespace State

variable {F T : Type} [DecidableEq T] (s : State F T)

def moves (x : Thread T) (p : Point F) : State F T := { s with point := update s.point x p }

def replies (x : Thread T) (j : Job F) (r : Reply F) : State F T :=
  { s with point := update s.point x .outside, returned := s.returned ++ [(j, r)] }

def begin (x : Thread T) (j : Job F) : State F T :=
  match begins s.gs j.call with
  | .answers r => s.replies x j r
  | .reports msg r => s.moves x (.reporting msg j r)
  | .locks => s.moves x (.calling j)

def becomes (gs : GlobalState F) : State F T :=
  if gs.threadPool && !s.gs.threadPool then
    { s with
      gs
      pool := s.pool + 1
      alive := true
      point := fun
        | .client t => s.point (.client t)
        | .worker _ => .outside }
  else { s with gs }

def Has (pool : Nat) : Prop := s.alive = true ∧ pool = s.pool

def Unlocked : Prop := ∀ i, s.point (.worker i) ≠ .dozing

def rouse (woken : List (Fin 4)) : State F T :=
  { s with
    point := fun
      | .client t => s.point (.client t)
      | .worker i => if i ∈ woken then (s.point (.worker i)).roused else s.point (.worker i) }

def Picks : Option (Fin 4) → Prop
  | some i => s.point (.worker i) = .asleep
  | none => ∀ i, s.point (.worker i) ≠ .asleep

def destroyed : State F T :=
  { s with
    gs := s.gs.reset
    owner := none
    alive := false
    queue := []
    stop := false
    lost := s.lost ++ s.queue }

end State

def Job.task {F : Type} (j : Job F) : Job F :=
  match j.call with
  | .runAsync session input callback => ⟨.run session input true true, callback⟩
  | _ => j

section

variable {F T : Type} [Mul F] [LT F] [DecidableLT F] [LE F] [DecidableLE F] [DecidableEq T]

/-- The steps of the threads. A section of a call that has the mutex is one step, but for the end of
the pool, and so is what is done with the mutex of the queue, except that a worker which has found
nothing to do goes to sleep by a step of its own. A thread that locks the mutex again while it has
it waits for itself. -/
inductive Steps (host : Host F) (s : State F T) : Event F T → State F T → Prop
  | call {t : T} (c : Call F) : s.point (.client t) = .outside →
      Steps host s (.call t c) (s.begin (.client t) ⟨c, none⟩)
  | returns {x : Thread T} {j : Job F} {m : Moment F} {gs : GlobalState F} {r : Reply F} :
      s.point x = .calling j → s.owner = none → inside host m s.gs j.call = .returns gs r →
      Steps host s (.lock x m) ((s.becomes gs).replies x j r)
  | fails {x : Thread T} {j : Job F} {m : Moment F} {gs : GlobalState F} {msg : ByteString} :
      s.point x = .calling j → s.owner = none → inside host m s.gs j.call = .fails gs msg →
      Steps host s (.lock x m) ({ s.becomes gs with owner := some x }.moves x (.stuck msg j))
  | joins {x : Thread T} {j : Job F} {m : Moment F} {gs : GlobalState F} :
      s.point x = .calling j → s.owner = none → inside host m s.gs j.call = .joins gs →
      Steps host s (.lock x m) ({ s with gs, owner := some x }.moves x (.stopping j))
  | found {x : Thread T} {j : Job F} {m : Moment F} :
      s.point x = .calling j → s.owner = none → inside host m s.gs j.call = .found →
      Steps host s (.lock x m) (s.moves x (.looking j))
  | report {x : Thread T} {msg : ByteString} {j : Job F} {r : Reply F} :
      s.point x = .reporting msg j r → s.owner = none →
      Steps host s (.report x) ({ s with gs := { s.gs with lastError := msg } }.replies x j r)
  | available {x : Thread T} {j : Job F} : s.point x = .looking j → s.gs.threadPool = true →
      Steps host s (.look x) (s.moves x (.sending j))
  | unavailable {x : Thread T} {j : Job F} : s.point x = .looking j → s.gs.threadPool = false →
      Steps host s (.look x) (s.moves x
        (.reporting (lit "cerberus_run_async: thread pool not available") j
          ⟨.threadError, .nothing⟩))
  | sends {x : Thread T} {j : Job F} : s.point x = .sending j → s.gs.threadPool = true →
      Steps host s (.send x) (s.moves x (.pushing j s.pool))
  | sendsNull {x : Thread T} {j : Job F} : s.point x = .sending j → s.gs.threadPool = false →
      Steps host s (.send x) (s.moves x (.faulted j false))
  | pushes {x : Thread T} {j : Job F} {pool : Nat} : s.point x = .pushing j pool → s.Has pool →
      s.Unlocked →
      Steps host s (.push x) ({ s with queue := s.queue ++ [j.task] }.moves x (.notifying j pool))
  | pushesFreed {x : Thread T} {j : Job F} {pool : Nat} : s.point x = .pushing j pool →
      ¬s.Has pool → Steps host s (.push x) (s.moves x (.faulted j false))
  | notifiesOne {x : Thread T} {j : Job F} {pool : Nat} {woken : Option (Fin 4)} :
      s.point x = .notifying j pool → s.Has pool → s.Picks woken →
      Steps host s (.notifyOne x woken) ((s.rouse woken.toList).replies x j ⟨.ok, .nothing⟩)
  | notifiesFreed {x : Thread T} {j : Job F} {pool : Nat} {woken : Option (Fin 4)} :
      s.point x = .notifying j pool → ¬s.Has pool →
      Steps host s (.notifyOne x woken) (s.moves x (.faulted j true))
  | dozes {i : Fin 4} : s.point (.worker i) = .outside → s.Unlocked → s.stop = false →
      s.queue = [] → Steps host s (.doze i) (s.moves (.worker i) .dozing)
  | sleeps {i : Fin 4} : s.point (.worker i) = .dozing →
      Steps host s (.sleep i) (s.moves (.worker i) .asleep)
  | wakes {i : Fin 4} : s.point (.worker i) = .asleep →
      Steps host s (.wake i) (s.moves (.worker i) .outside)
  | takes {i : Fin 4} {j : Job F} {queue : List (Job F)} :
      s.point (.worker i) = .outside → s.Unlocked → s.queue = j :: queue →
      Steps host s (.take i) ({ s with queue }.begin (.worker i) j)
  | leaves {i : Fin 4} : s.point (.worker i) = .outside → s.Unlocked → s.stop = true →
      s.queue = [] → Steps host s (.leave i) (s.moves (.worker i) .gone)
  | stops {x : Thread T} {j : Job F} : s.point x = .stopping j →
      Steps host s (.stop x) ({ s with stop := true }.moves x (.waking j))
  | notifiesAll {x : Thread T} {j : Job F} : s.point x = .waking j →
      Steps host s (.notifyAll x) ((s.rouse (List.finRange 4)).moves x (.joining j))
  | join {x : Thread T} {j : Job F} : s.point x = .joining j →
      (∀ i, s.point (.worker i) = .gone) →
      Steps host s (.join x) (s.destroyed.replies x j ⟨.ok, .nothing⟩)

end

section points

variable {F T : Type}

def Point.job : Point F → Option (Job F)
  | .calling j => some j
  | .reporting _ j _ => some j
  | .stuck _ j => some j
  | .stopping j => some j
  | .waking j => some j
  | .joining j => some j
  | .looking j => some j
  | .sending j => some j
  | .pushing j _ => some j
  | .notifying j _ => some j
  | .faulted j _ => some j
  | _ => none

/-- How far the thread is with the end of the pool: whether `stop` is set. -/
def Point.stage : Point F → Option Bool
  | .stopping _ => some false
  | .waking _ => some true
  | .joining _ => some true
  | _ => none

def Point.isStuck : Point F → Bool
  | .stuck _ _ => true
  | _ => false

def Point.holds (p : Point F) : Bool := p.isStuck || p.stage.isSome

def Call.valid : Call F → Bool
  | .init => true
  | .shutdown => true
  | .getVersion => true
  | .getLastError => true
  | .getDeviceCount count => count
  | .getDeviceInfo _ info => info
  | .getUtilization _ percent => percent
  | .getLoadBalanceHint device => device
  | .createSession config session => config.isSome && session
  | .destroySession session => session ≠ 0
  | .run session _ output outputSize => session ≠ 0 && output && outputSize
  | .runAsync session _ callback => session ≠ 0 && callback.isSome
  | .allocPinned bytes ptr _ => ptr && bytes ≠ 0
  | .freePinned ptr => ptr

def Call.statuses (c : Call F) : List Status :=
  if c.valid then
    match c with
    | .getUtilization _ _ => [.ok, .notInitialized, .deviceNotFound]
    | .getLoadBalanceHint _ => [.ok, .notInitialized]
    | .runAsync _ _ _ => [.ok, .threadError]
    | .allocPinned _ _ _ => [.ok, .outOfMemory]
    | _ => [.ok]
  else
    match c with
    | .destroySession _ => [.invalidHandle]
    | _ => [.invalidArgument]

end points

section sections

variable {F : Type} [Mul F] [LT F] [DecidableLT F] [LE F] [DecidableLE F] {host : Host F}
  {m : Moment F} {gs gs' : GlobalState F} {c : Call F} {r : Reply F} {msg : ByteString}

def Reply.handle (r : Reply F) : Option Nat :=
  match r.answer with
  | .session h => some h
  | _ => none

structure GlobalState.Ordered (gs : GlobalState F) : Prop where
  limit : gs.maxSessions = 16
  short : gs.sessions.length ≤ 16
  active : ∀ s ∈ gs.sessions, s.active = true
  nodup : (gs.sessions.map (·.handle)).Nodup
  range : ∀ s ∈ gs.sessions, 0 < s.handle ∧ s.handle ≤ gs.handles

structure Returns (c : Call F) (gs gs' : GlobalState F) (r : Reply F) : Prop where
  status : r.status ∈ c.statuses
  handle : r.handle = none ∧ gs'.handles = gs.handles ∨
    r.handle = some (gs.handles + 1) ∧ gs'.handles = gs.handles + 1
  pool : gs'.threadPool = gs.threadPool ∧ gs'.initialized = gs.initialized ∨
    gs'.threadPool = true ∧ gs'.initialized = true
  ordered : gs.Ordered → gs'.Ordered

omit [Mul F] [LT F] [DecidableLT F] [LE F] [DecidableLE F] in
theorem Returns.same (hstatus : r.status ∈ c.statuses) (hr : r.handle = none) :
    Returns c gs gs r :=
  ⟨hstatus, .inl ⟨hr, rfl⟩, .inl ⟨rfl, rfl⟩, id⟩

omit [Mul F] [LT F] [DecidableLT F] [LE F] [DecidableLE F] in
theorem ok_mem_statuses (hc : c.valid = true) : .ok ∈ c.statuses := by
  unfold Call.statuses
  rw [if_pos hc]
  cases c <;> exact List.mem_cons_self

omit [Mul F] in
theorem utilization_error {device : DeviceType} {status : Status}
    (h : gs.utilization host m device = .error status) :
    status = .notInitialized ∨ status = .deviceNotFound := by
  have hno {status' : Status} (h : (.error status' : Except Status F) = .error status) :
      status' = status := Except.error.inj h
  unfold GlobalState.utilization at h
  cases device with
  | cpu =>
    dsimp only at h
    split at h
    · cases h
    · exact .inl (hno h).symm
  | gpu =>
    dsimp only at h
    split_ifs at h
    · split at h
      · cases h
      · exact .inr (hno h).symm
    · exact .inl (hno h).symm
  | npu =>
    dsimp only at h
    split_ifs at h
    exact .inl (hno h).symm
  | any =>
    dsimp only at h
    split at h
    · split_ifs at h
      exact .inl (hno h).symm
    · split_ifs at h
      exact .inl (hno h).symm

omit [Mul F] [LT F] [DecidableLT F] [LE F] [DecidableLE F] in
theorem GlobalState.Ordered.add (ho : gs.Ordered) {s : SessionState F}
    (hcount : ¬gs.maxSessions ≤ gs.sessions.countP (·.active)) (ha : s.active = true)
    (hs : s.handle = gs.handles + 1) :
    ({ gs with sessions := gs.sessions ++ [s], handles := gs.handles + 1 } : GlobalState F).Ordered
    where
  limit := ho.limit
  short := by
    rw [List.countP_eq_length.mpr ho.active, ho.limit] at hcount
    simp
    omega
  active := by simpa [or_imp, forall_and, ha] using ho.active
  nodup := by
    have hfresh (t : SessionState F) (ht : t ∈ gs.sessions) : t.handle ≠ s.handle := by
      have hrange := ho.range t ht
      omega
    simp only [List.map_append, List.map_cons, List.map_nil]
    refine ho.nodup.append (List.nodup_singleton _) ?_
    simpa [List.disjoint_singleton] using hfresh
  range := by
    simp only [List.forall_mem_append, List.forall_mem_singleton]
    refine ⟨fun t ht ↦ ?_, by omega, by omega⟩
    have hrange := ho.range t ht
    exact ⟨hrange.1, by omega⟩

omit [Mul F] [LT F] [DecidableLT F] [LE F] [DecidableLE F] in
theorem GlobalState.Ordered.sublist (ho : gs.Ordered) {sessions : List (SessionState F)}
    (h : sessions.Sublist gs.sessions) : ({ gs with sessions } : GlobalState F).Ordered where
  limit := ho.limit
  short := h.length_le.trans ho.short
  active := fun s hs ↦ ho.active s (h.subset hs)
  nodup := (h.map _).nodup ho.nodup
  range := fun s hs ↦ ho.range s (h.subset hs)

omit [Mul F] [LT F] [DecidableLT F] [LE F] [DecidableLE F] in
theorem GlobalState.Ordered.congr (ho : gs.Ordered) (hsessions : gs'.sessions = gs.sessions)
    (hhandles : gs'.handles = gs.handles) (hlimit : gs'.maxSessions = gs.maxSessions) :
    gs'.Ordered where
  limit := hlimit.trans ho.limit
  short := hsessions ▸ ho.short
  active := hsessions ▸ ho.active
  nodup := hsessions ▸ ho.nodup
  range := by
    rw [hsessions, hhandles]
    exact ho.range

omit [Mul F] [LT F] [DecidableLT F] [LE F] [DecidableLE F] in
theorem GlobalState.Ordered.modify (ho : gs.Ordered) (n : Nat) (l : List F) :
    ({ gs with sessions := gs.sessions.modify n (fun s ↦ { s with outputBuffer := l }) } :
      GlobalState F).Ordered := by
  have hmap : (gs.sessions.modify n (fun s ↦ { s with outputBuffer := l })).map
      (fun s ↦ (s.handle, s.active)) = gs.sessions.map (fun s ↦ (s.handle, s.active)) := by
    generalize gs.sessions = sessions
    induction sessions generalizing n with
    | nil => simp
    | cons s sessions ih =>
      cases n with
      | zero => simp
      | succ n => simp [ih]
  have hmem {P : Nat × Bool → Prop} (h : ∀ s ∈ gs.sessions, P (s.handle, s.active)) :
      ∀ s ∈ gs.sessions.modify n (fun s ↦ { s with outputBuffer := l }),
        P (s.handle, s.active) := by
    rw [← List.forall_mem_map (f := fun s : SessionState F ↦ (s.handle, s.active))] at h ⊢
    rwa [hmap]
  have hhandles := congrArg (List.map Prod.fst) hmap
  rw [List.map_map, List.map_map] at hhandles
  exact
    { limit := ho.limit
      short := by
        rw [List.length_modify]
        exact ho.short
      active := hmem (P := fun e ↦ e.2 = true) ho.active
      nodup := by
        rw [show (gs.sessions.modify n _).map (·.handle) = _ from hhandles]
        exact ho.nodup
      range := hmem (P := fun e ↦ 0 < e.1 ∧ e.1 ≤ gs.handles) ho.range }

def Call.isAsync : Call F → Bool
  | .runAsync _ _ _ => true
  | _ => false

/-- The call does without the mutex, unless it fails. -/
def Call.unlocked : Call F → Bool
  | .getVersion => true
  | .getLastError => true
  | .allocPinned _ _ _ => true
  | .freePinned _ => true
  | _ => false

/-- What the section of a call can come to: only the first `cerberus_init` leaves something behind
when it fails. -/
inductive Ends (c : Call F) (gs : GlobalState F) : Section F → Prop
  | returns {gs' : GlobalState F} {r : Reply F} : c.isAsync = false → Returns c gs gs' r →
      Ends c gs (.returns gs' r)
  | fails (msg : ByteString) : Ends c gs (.fails gs msg)
  | incomplete {gs' : GlobalState F} (msg : ByteString) : gs.initialized = false →
      gs'.threadPool = true → gs'.initialized = false → gs'.sessions = gs.sessions →
      gs'.handles = gs.handles → gs'.maxSessions = gs.maxSessions → Ends c gs (.fails gs' msg)
  | joins : c = .shutdown → gs.initialized = true →
      Ends c gs (.joins { gs with sessions := [], threadPool := false })
  | found {session : Nat} {input : ByteString} {callback : Option Nat} :
      c = .runAsync session input callback → Ends c gs .found

omit [Mul F] [LT F] [DecidableLT F] [LE F] [DecidableLE F] in
theorem Ends.same (hc : c.valid = true) (ha : c.isAsync = false) (a : Answer F)
    (hr : (⟨.ok, a⟩ : Reply F).handle = none) :
    Ends c gs (.returns gs ⟨.ok, a⟩) :=
  .returns ha (.same (ok_mem_statuses hc) hr)

theorem inside_ends (hc : c.valid = true) : Ends c gs (inside host m gs c) := by
  cases c with
  | init =>
    rw [inside, GlobalState.init]
    split
    · exact .fails _
    · next hinit =>
      have hinit := Bool.eq_false_of_not_eq_true hinit
      split
      · exact .fails _
      · dsimp only
        split
        · exact .incomplete _ hinit rfl hinit rfl rfl rfl
        · refine .returns rfl ⟨ok_mem_statuses hc, .inl ⟨rfl, rfl⟩, .inr ⟨rfl, rfl⟩, fun ho ↦ ?_⟩
          exact ⟨ho.limit, by simp, by simp, by simp, by simp⟩
  | shutdown =>
    rw [inside, GlobalState.shutdown]
    split
    · exact .fails _
    · next hinit => exact .joins rfl (by simpa using hinit)
  | getVersion => exact .same hc rfl _ rfl
  | getLastError => exact .same hc rfl _ rfl
  | getDeviceCount count =>
    rw [inside, GlobalState.getDeviceCount]
    split
    · exact .fails _
    · exact .same hc rfl _ rfl
  | getDeviceInfo index info =>
    rw [inside, GlobalState.getDeviceInfo]
    split
    · exact .fails _
    · split
      · exact .same hc rfl _ rfl
      · exact .fails _
  | getUtilization device percent =>
    rw [inside, GlobalState.getUtilization]
    split
    · exact .fails _
    · split
      · exact .same hc rfl _ rfl
      · next status hutil =>
        refine .returns rfl (.same ?_ rfl)
        unfold Call.statuses
        rw [if_pos hc]
        rcases utilization_error hutil with rfl | rfl <;> simp
  | getLoadBalanceHint device =>
    rw [inside, GlobalState.getLoadBalanceHint]
    split
    · exact .same hc rfl _ rfl
    · exact .same hc rfl _ rfl
  | createSession config session =>
    cases config with
    | none => cases hc
    | some config =>
      rw [inside, GlobalState.createSession]
      split
      · exact .fails _
      · split
        · exact .fails _
        · next hcount =>
          split
          · exact .fails _
          · exact .returns rfl ⟨ok_mem_statuses hc, .inr ⟨rfl, rfl⟩, .inl ⟨rfl, rfl⟩,
              fun ho ↦ ho.add hcount rfl rfl⟩
  | destroySession session =>
    rw [inside, GlobalState.destroySession]
    split
    · exact .returns rfl ⟨ok_mem_statuses hc, .inl ⟨rfl, rfl⟩, .inl ⟨rfl, rfl⟩,
        fun ho ↦ ho.sublist List.eraseP_sublist⟩
    · exact .fails _
  | run session input output outputSize =>
    rw [inside, GlobalState.run]
    split
    · exact .fails _
    · split
      · exact .fails _
      · exact .fails _
      · exact .returns rfl ⟨ok_mem_statuses hc, .inl ⟨rfl, rfl⟩, .inl ⟨rfl, rfl⟩,
          fun ho ↦ ho.modify _ _⟩
  | runAsync session input callback =>
    rw [inside, GlobalState.runAsync]
    split
    · exact .found rfl
    · exact .fails _
  | allocPinned bytes ptr memory => exact .same hc rfl _ rfl
  | freePinned ptr => exact .same hc rfl _ rfl

end sections

section starts

variable {F : Type} {gs : GlobalState F} {c : Call F}

structure Refused (c : Call F) (r : Reply F) : Prop where
  status : r.status ∈ c.statuses
  failed : r.status ≠ .ok
  handle : r.handle = none

inductive Begun (c : Call F) (gs : GlobalState F) : Start F → Prop
  | answers {r : Reply F} : c.unlocked = true → r.status ∈ c.statuses → r.handle = none →
      Begun c gs (.answers r)
  | reports (msg : ByteString) {r : Reply F} : Refused c r → Begun c gs (.reports msg r)
  | locks : c.valid = true → Begun c gs .locks

theorem Begun.argument (hc : ¬c.valid = true) (msg : String)
    (h : ∀ session, c ≠ .destroySession session) : Begun c gs (refuse msg .invalidArgument) := by
  refine .reports _ ⟨?_, by simp, rfl⟩
  unfold Call.statuses
  rw [if_neg hc]
  cases c with
  | destroySession session => exact absurd rfl (h session)
  | _ => exact List.mem_singleton_self _

theorem begins_begun (gs : GlobalState F) (c : Call F) : Begun c gs (begins gs c) := by
  cases c with
  | init => exact .locks rfl
  | shutdown => exact .locks rfl
  | getVersion => exact .answers rfl (ok_mem_statuses rfl) rfl
  | getLastError => exact .answers rfl (ok_mem_statuses rfl) rfl
  | getDeviceCount count =>
    cases count with
    | true => exact .locks rfl
    | false => exact .argument (by simp [Call.valid]) _ (by simp)
  | getDeviceInfo index info =>
    cases info with
    | true => exact .locks rfl
    | false => exact .argument (by simp [Call.valid]) _ (by simp)
  | getUtilization device percent =>
    cases percent with
    | true => exact .locks rfl
    | false => exact .argument (by simp [Call.valid]) _ (by simp)
  | getLoadBalanceHint device =>
    cases device with
    | true =>
      rw [begins, if_neg (by simp)]
      split
      · exact .reports _ ⟨by simp [Call.statuses, Call.valid], by simp, rfl⟩
      · exact .locks rfl
    | false => exact .argument (by simp [Call.valid]) _ (by simp)
  | createSession config session =>
    rw [begins]
    split
    · next hc => exact .locks hc
    · next hc =>
      refine .argument ?_ _ (by simp)
      exact hc
  | destroySession session =>
    rw [begins]
    split
    · next hc => exact .reports _ ⟨by simp [Call.statuses, Call.valid, hc], by simp, rfl⟩
    · next hc => exact .locks (by simpa [Call.valid] using hc)
  | run session input output outputSize =>
    rw [begins]
    split
    · next hc => exact .locks hc
    · next hc =>
      refine .argument ?_ _ (by simp)
      exact hc
  | runAsync session input callback =>
    rw [begins]
    split
    · next hc => exact .locks hc
    · next hc =>
      refine .argument ?_ _ (by simp)
      exact hc
  | allocPinned bytes ptr memory =>
    rw [begins]
    unfold allocPinned
    split
    · next hc => exact .argument (by simpa [Call.valid, imp_iff_not_or] using hc) _ (by simp)
    · next hc =>
      have hvalid : (Call.allocPinned bytes ptr memory : Call F).valid = true := by
        simpa [Call.valid] using hc
      split
      · exact .answers rfl (ok_mem_statuses hvalid) rfl
      · refine .reports _ ⟨?_, by simp, rfl⟩
        unfold Call.statuses
        rw [if_pos hvalid]
        simp
  | freePinned ptr =>
    rw [begins]
    split
    · next hc => exact .answers rfl (ok_mem_statuses hc) rfl
    · next hc =>
      refine .argument ?_ _ (by simp)
      exact hc

end starts

end Cerberus.Capi
