import Cerberus.Foundation.Trace
import Cerberus.Gateway.Model
import Cerberus.Http.KeepAlive
import Cerberus.Inference.Requests
import Cerberus.MaintenanceDb.Effects
import Cerberus.Rbpc.Streaks

namespace Cerberus.Inference

open Std Foundation Foundation.Bytes Foundation.Wire Foundation.Trace Http MaintenanceDb

inductive DeviceType
  | cpu
  | gpu
  | npu
  | auto
  deriving DecidableEq

structure ModelEntry where
  id : ByteString
  preferredDevice : DeviceType := .auto
  filePath : ByteString

structure DirectoryEntry where
  filename : ByteString
  isRegularFile : Bool

/-- The last dot of a file name and what follows it, unless the name begins with that dot. -/
def extension (filename : ByteString) : ByteString :=
  let tail := filename.rtakeWhile (· ≠ 46)
  if filename.length ≤ tail.length + 1 ∨ filename = lit ".." then [] else 46 :: tail

def stem (filename : ByteString) : ByteString :=
  filename.take (filename.length - (extension filename).length)

def detectDeviceFromModel (filename : ByteString) : DeviceType :=
  if extension filename = lit ".hef" then .npu
  else if mentions (stem filename) (lit "npu") then .npu
  else if mentions (stem filename) (lit "gpu") then .gpu
  else .cpu

/-- `ModelRegistry::scan_`: a directory that is not set has no models. -/
def scan (modelDir : ByteString) (listing : List DirectoryEntry) : List ModelEntry :=
  if modelDir.isEmpty then []
  else
    (listing.filter (fun e ↦ e.isRegularFile &&
      (extension e.filename == lit ".onnx" || extension e.filename == lit ".hef"))).map (fun e ↦
        { id := stem e.filename
          preferredDevice := detectDeviceFromModel e.filename
          filePath := Gateway.joinPath modelDir e.filename })

def ModelEntry.toJson (m : ModelEntry) : ByteString :=
  lit "\x7b\"id\":\"" ++ escape m.id ++ lit "\",\"object\":\"model\",\"owned_by\":\"cerberus\"\x7d"

def listModelsJson (models : List ModelEntry) : ByteString :=
  lit "\x7b\"object\":\"list\",\"data\":[" ++ (lit ",").intercalate (models.map (·.toJson)) ++
    (if models.isEmpty then
      lit "\x7b\"id\":\"cerberus-v1\",\"object\":\"model\",\"owned_by\":\"cerberus\"\x7d"
    else []) ++ lit "]\x7d"

structure HttpResponse where
  statusCode : UInt16 := 200
  contentType : ByteString := lit "application/json"
  body : ByteString
  closeConnection : Bool := true

def reason (statusCode : UInt16) : String :=
  if statusCode = 200 then "OK"
  else if statusCode = 400 then "Bad Request"
  else if statusCode = 404 then "Not Found"
  else if statusCode = 405 then "Method Not Allowed"
  else if statusCode = 429 then "Too Many Requests"
  else if statusCode = 500 then "Internal Server Error"
  else if statusCode = 503 then "Service Unavailable"
  else "Unknown"

def HttpResponse.render (r : HttpResponse) : ByteString :=
  lit "HTTP/1.1 " ++ decimal r.statusCode.toNat ++ lit " " ++ lit (reason r.statusCode) ++ crlf ++
  lit "Content-Type: " ++ r.contentType ++ crlf ++
  lit "Content-Length: " ++ decimal r.body.length ++ crlf ++
  lit "Connection: " ++ (if r.closeConnection then lit "close" else lit "keep-alive") ++ crlf ++
  lit "Server: Cerberus/1.0.0" ++ crlf ++
  lit "Access-Control-Allow-Origin: *" ++ crlf ++
  lit "Access-Control-Allow-Methods: GET, POST, OPTIONS" ++ crlf ++
  lit "Access-Control-Allow-Headers: Content-Type, Authorization" ++ crlf ++
  crlf ++ r.body

structure ServerStats where
  requestsServed : UInt64 := 0
  chatCompletions : UInt64 := 0
  healthChecks : UInt64 := 0
  modelLists : UInt64 := 0
  errors : UInt64 := 0
  inferenceHistoryRequests : UInt64 := 0
  inferenceExportRequests : UInt64 := 0
  inferenceClearRequests : UInt64 := 0
  inferenceStatsRequests : UInt64 := 0

structure GenerationRequest (F : Type) where
  prompt : ByteString
  width : UInt32 := 512
  height : UInt32 := 512
  numSteps : UInt32 := 20
  guidanceScale : F
  seed : Int64 := -1

/-- What the server runs on, and the `float` values of its source. -/
structure Host (F : Type) extends Gateway.Host where
  lfssl : Lfssl
  strtof : ByteString → F
  tenth : F
  two : F

/-- What one request meets: the clocks, in seconds, the file of an export, the utilisations as
they are written, and what the pipeline answers: the milliseconds as they are written, or the text
of an error. -/
structure Moment (F : Type) where
  uptime : Int := 0
  steady : Int := 0
  time : Int := 0
  rbpc : Rbpc.Moment := {}
  opens : Bool := true
  cutAt : Option Nat := none
  gpuUtil : ByteString := lit "-1.0"
  npuUtil : ByteString := lit "-1.0"
  generate : GenerationRequest F → Except ByteString ByteString

/-- The object, with the files that it has written. The database and the `UserSecurity` belong to
others as well. -/
structure InferenceServer where
  modelDir : ByteString := []
  models : List ModelEntry := []
  lcmd : Option World := none
  userSecurity : Option Rbpc.UserSecurity := none
  rbpcNodeId : ByteString := lit "local"
  stats : ServerStats := {}
  written : List (ByteString × ByteString) := []

inductive Route
  | health
  | listModels
  | chatCompletions
  | inferenceHistory
  | inferenceExport
  | inferenceClear
  | inferenceStats
  | options
  | notFound
  deriving DecidableEq

def route (req : HttpRequest) : Route :=
  if req.method = .get ∧ req.path = lit "/health" then .health
  else if req.method = .get ∧ req.path = lit "/v1/models" then .listModels
  else if req.method = .post ∧ req.path = lit "/v1/chat/completions" then .chatCompletions
  else if req.method = .post ∧ req.path = lit "/v1/inference/history" then .inferenceHistory
  else if req.method = .post ∧ req.path = lit "/v1/inference/export" then .inferenceExport
  else if req.method = .post ∧ req.path = lit "/v1/inference/clear" then .inferenceClear
  else if req.method = .get ∧ req.path = lit "/v1/inference/stats" then .inferenceStats
  else if req.method = .options then .options
  else .notFound

def respond (statusCode : UInt16) (body : ByteString) : HttpResponse := { statusCode, body }

/-- `{"error":"inference_audit_unavailable"}`, with a reason in two of the four places. -/
def auditUnavailable (reason : ByteString) : HttpResponse :=
  respond 503 (lit "\x7b\"error\":\"inference_audit_unavailable\"" ++
    (if reason.isEmpty then [] else lit ",\"reason\":\"" ++ reason ++ lit "\"") ++ lit "\x7d")

def historyLine (r : InferenceRecord) : ByteString :=
  lit "  \x7b\"inference_id\":\"" ++ r.inferenceId ++
  lit "\",\"timestamp\":\"" ++ r.timestamp ++
  lit "\",\"status\":\"" ++ r.status ++
  lit "\",\"generation_time_ms\":\"" ++ r.generationTimeMs ++
  lit "\",\"prompt\":\"" ++ r.prompt.take 120 ++ lit "\"\x7d"

def historyJson (records : List InferenceRecord) : ByteString :=
  lit "[\n" ++ (lit ",\n").intercalate (records.map historyLine) ++ lit "\n]"

def statsBody (stats : Fields) (configured : Bool) : ByteString :=
  lit "\x7b" ++ (lit ",").intercalate (stats.toList.map (fun e ↦
    lit "\"" ++ e.1 ++ lit "\":\"" ++ e.2 ++ lit "\"")) ++
  lit ",\"rbpc_configured\":" ++ (if configured then lit "true" else lit "false") ++ lit "\x7d"

def saysBurned (result : ByteString) : Bool :=
  mentions result (lit "burned") || mentions result (lit "LOCKED")

def rbpcFailed (result : ByteString) : HttpResponse :=
  respond 403 (lit "\x7b\"error\":\"rbpc_failed\",\"detail\":\"" ++ result ++ lit "\"" ++
    (if saysBurned result then lit ",\"burned\":true" else []) ++ lit "\x7d")

def rbpcRequired (detail : ByteString) : HttpResponse :=
  respond 400 (lit "\x7b\"error\":\"rbpc_required\",\"detail\":\"" ++ detail ++ lit "\"\x7d")

/-- The PIN and the word of a body, if neither is empty. -/
def credentials (body : ByteString) : Option (ByteString × ByteString) :=
  let pin := jsonGetStr body "pin"
  let word := jsonGetStr body "word"
  if pin.isEmpty || word.isEmpty then none else some (pin, word)

namespace InferenceServer

variable {F : Type} [One F] [LT F] [DecidableLT F] (host : Host F) (s : InferenceServer)
  (m : Moment F)

def count (f : ServerStats → ServerStats) : InferenceServer := { s with stats := f s.stats }

/-- The RBPC gate of the destructive requests: the answer of a request that does not pass it. -/
def confirm (detail body : ByteString) : InferenceServer × Option HttpResponse :=
  match s.userSecurity with
  | none => (s, none)
  | some us =>
    match credentials body with
    | none => (s, some (rbpcRequired detail))
    | some (pin, word) =>
      let (us, result) := us.verifyConfirmation host.bridge m.rbpc s.rbpcNodeId pin word
      ({ s with userSecurity := some us },
        if result.text.isEmpty then none else some (rbpcFailed result.text))

def handleInferenceHistory : InferenceServer × HttpResponse :=
  let s := s.count (fun c ↦ { c with inferenceHistoryRequests := c.inferenceHistoryRequests + 1 })
  match s.lcmd with
  | none => (s, auditUnavailable (lit "no LocalMaintenanceDB configured on this server instance"))
  | some w =>
    (s, respond 200 (historyJson (w.db.tables.queryInferenceRecords 0 (m.time + 86400) 100)))

def exportPath : ByteString :=
  Gateway.joinPath host.tempDirectory
    (lit "cerberus_inference_export_" ++ signedDecimal m.steady ++ lit ".json")

/-- `export_inference_json` of the database and its result. -/
def exportInferenceJson (w : World) : InferenceServer × Bool :=
  let text := Gateway.inferenceJson w.db.tables.inferenceRecords.values
  if !m.opens then (s, false)
  else
    match m.cutAt with
    | none => ({ s with written := s.written ++ [(exportPath host m, text)] }, true)
    | some n => ({ s with written := s.written ++ [(exportPath host m, text.take n)] }, false)

def exported (configured : Bool) : HttpResponse :=
  respond 200 (lit "\x7b\"exported\":true,\"format\":\"json\",\"path\":\"" ++ exportPath host m ++
    lit "\",\"rbpc_enforced\":" ++ (if configured then lit "true" else lit "false") ++ lit "\x7d")

def handleInferenceExport (body : ByteString) : InferenceServer × HttpResponse :=
  let s := s.count (fun c ↦ { c with inferenceExportRequests := c.inferenceExportRequests + 1 })
  match s.lcmd with
  | none => (s, auditUnavailable (lit "no LocalMaintenanceDB configured"))
  | some w =>
    match s.confirm host m (lit ("POST JSON body must contain \\\"pin\\\" and \\\"word\\\" " ++
      "for destructive export")) body with
    | (s, some answer) => (s, answer)
    | (s, none) =>
      match s.exportInferenceJson host m w with
      | (s, false) =>
        (s, respond 500
          (lit "\x7b\"error\":\"export_failed\",\"reason\":\"filesystem write error\"\x7d"))
      | (s, true) => (s, exported host m s.userSecurity.isSome)

def handleInferenceClear (body : ByteString) : InferenceServer × HttpResponse :=
  let s := s.count (fun c ↦ { c with inferenceClearRequests := c.inferenceClearRequests + 1 })
  match s.lcmd with
  | none => (s, auditUnavailable [])
  | some w =>
    match s.confirm host m (lit "both pin and word required for clear") body with
    | (s, some answer) => (s, answer)
    | (s, none) =>
      let before :=
        ((Gateway.inferenceStats host.toHost w.db)[lit "count"]?.bind leadingDigits).getD 0
      let (db, cleared) := w.db.clearInferenceRecords
      ({ s with lcmd := some { w with db } },
        respond 200 (lit "\x7b\"cleared\":" ++ (if cleared then lit "true" else lit "false") ++
          lit ",\"records_before\":" ++ decimal before ++ lit "\x7d"))

def handleInferenceStats : InferenceServer × HttpResponse :=
  let s := s.count (fun c ↦ { c with inferenceStatsRequests := c.inferenceStatsRequests + 1 })
  match s.lcmd with
  | none => (s, auditUnavailable [])
  | some w =>
    (s, respond 200 (statsBody (Gateway.inferenceStats host.toHost w.db) s.userSecurity.isSome))

def handleHealth : InferenceServer × HttpResponse :=
  let s := s.count (fun c ↦ { c with healthChecks := c.healthChecks + 1 })
  (s, respond 200 (lit "\x7b\"status\":\"ok\",\"uptime_seconds\":" ++ signedDecimal m.uptime ++
    lit ",\"requests_served\":" ++ decimal s.stats.requestsServed.toNat ++
    lit ",\"gpu_util\":" ++ m.gpuUtil ++ lit ",\"npu_util\":" ++ m.npuUtil ++ lit "\x7d"))

def handleListModels : InferenceServer × HttpResponse :=
  let s := s.count (fun c ↦ { c with modelLists := c.modelLists + 1 })
  (s, respond 200 (listModelsJson s.models))

/-- The last message of the user, and the last of all where there is none. -/
def promptOf (messages : List OpenAIMessage) : ByteString :=
  let prompt :=
    messages.foldl (fun prompt m ↦ if m.role = lit "user" then m.content else prompt) []
  if prompt.isEmpty then (messages.getLast?.map (·.content)).getD [] else prompt

/-- `std::clamp` -/
def clamp (v lo hi : F) : F := if v < lo then lo else if hi < v then hi else v

def generationRequest (req : OpenAIChatCompletionRequest F) : GenerationRequest F where
  prompt := promptOf req.messages
  numSteps := min req.maxTokens 128
  guidanceScale := clamp req.temperature host.tenth host.two
  seed := req.seed

def runInference (req : OpenAIChatCompletionRequest F) : Except ByteString ByteString :=
  let gen := generationRequest host req
  (m.generate gen).map (fun ms ↦
    lit "[Cerberus: " ++ gen.prompt.take 80 ++ lit " (" ++ ms ++ lit "ms)]")

def contentOf : Except ByteString ByteString → ByteString
  | .ok result => result
  | .error e => lit "[error: " ++ e ++ lit "]"

def promptTokens (messages : List OpenAIMessage) : UInt32 :=
  match messages.getLast? with
  | none => 0
  | some last => UInt32.ofNat (last.content.length / 4 + 1)

def chatResponse (req : OpenAIChatCompletionRequest F) : OpenAIChatCompletionResponse where
  id := lit "chatcmpl-" ++ decimal s.stats.chatCompletions.toNat
  created := Int64.ofInt m.time
  model := if req.model.isEmpty then lit "cerberus-v1" else req.model
  choices := [{
    index := 0
    message := ⟨lit "assistant", contentOf (runInference host m req)⟩
    finishReason := lit "stop" }]
  usage := ⟨promptTokens req.messages, 64, promptTokens req.messages + 64⟩

def handleChatCompletions (body : ByteString) : InferenceServer × HttpResponse :=
  let s := s.count (fun c ↦ { c with chatCompletions := c.chatCompletions + 1 })
  match OpenAIChatCompletionRequest.fromJson host.strtof body with
  | none =>
    (s.count (fun c ↦ { c with errors := c.errors + 1 }),
      respond 400 (lit "\x7b\"error\":\x7b\"message\":\"invalid_request\"\x7d\x7d"))
  | some req => (s, respond 200 (s.chatResponse host m req).toJson)

def dispatch (req : HttpRequest) : InferenceServer × HttpResponse :=
  match route req with
  | .health => s.handleHealth m
  | .listModels => s.handleListModels
  | .chatCompletions => s.handleChatCompletions host m req.body
  | .inferenceHistory => s.handleInferenceHistory m
  | .inferenceExport => s.handleInferenceExport host m req.body
  | .inferenceClear => s.handleInferenceClear host m req.body
  | .inferenceStats => s.handleInferenceStats host
  | .options => (s, respond 200 (lit "\x7b\x7d"))
  | .notFound => (s, respond 404 (lit "\x7b\"error\":\"not_found\"\x7d"))

/-- The request in what `recv` delivered; more is not waited for. -/
def received (data : ByteString) : Option HttpRequest := (SimpleHttpParser.feed {} data).1

def badRequest : HttpResponse := respond 400 (lit "\x7b\"error\":\"bad_request\"\x7d")

/-- A round of the loop in `start`: what is sent to a client from whom something came. -/
def accept (data : ByteString) : InferenceServer × Option HttpResponse :=
  let s := s.count (fun c ↦ { c with requestsServed := c.requestsServed + 1 })
  if data.isEmpty then (s, none)
  else
    match received data with
    | some req => ((s.dispatch host m req).1, some (s.dispatch host m req).2)
    | none => (s.count (fun c ↦ { c with errors := c.errors + 1 }), some badRequest)

def setModelDir (dir : ByteString) (listing : List DirectoryEntry) : InferenceServer :=
  { s with modelDir := dir, models := scan dir listing }

end InferenceServer

def gated (req : HttpRequest) : Bool :=
  route req = .inferenceExport || route req = .inferenceClear

namespace InferenceServer

variable {F : Type} (host : Host F) (s : InferenceServer) (m : Moment F)

/-- The body has what a destructive request needs: where there is a `UserSecurity`, a PIN and a
word that it confirms. -/
def Granted (body : ByteString) : Prop :=
  ∀ us, s.userSecurity = some us → ∃ pin word, credentials body = some (pin, word) ∧
    (us.verifyConfirmation host.bridge m.rbpc s.rbpcNodeId pin word).2 = .ok

/-- What the gate asks the `UserSecurity` for a body. -/
def question (body : ByteString) : Option Rbpc.Request :=
  (credentials body).map (fun c ↦ ⟨.verifyConfirmation s.rbpcNodeId c.1 c.2, m.rbpc⟩)

end InferenceServer

section effects

variable {F : Type} {host : Host F} {s : InferenceServer} {m : Moment F} {body data : ByteString}
  {req : HttpRequest}

def InferenceServer.asked (host : Host F) (s : InferenceServer) (m : Moment F) (body : ByteString) :
    InferenceServer :=
  { s with userSecurity := s.userSecurity.map (fun us ↦
      (s.question m body).elim us (us.serve host.bridge)) }

def InferenceServer.Refuses (host : Host F) (s : InferenceServer) (m : Moment F) (body : ByteString)
    (answer : HttpResponse) : Prop :=
  ∃ us, s.userSecurity = some us ∧
    ((credentials body = none ∧ ∃ detail, answer = rbpcRequired detail) ∨
      ∃ pin word, credentials body = some (pin, word) ∧
        (us.verifyConfirmation host.bridge m.rbpc s.rbpcNodeId pin word).2 ≠ .ok ∧
        answer = rbpcFailed (us.verifyConfirmation host.bridge m.rbpc s.rbpcNodeId pin word).2.text)

inductive GateEnd (host : Host F) (s : InferenceServer) (m : Moment F) (body : ByteString) :
    InferenceServer × Option HttpResponse → Prop
  | refused (answer : HttpResponse) : s.Refuses host m body answer →
      GateEnd host s m body (s.asked host m body, some answer)
  | passed : s.Granted host m body → GateEnd host s m body (s.asked host m body, none)

theorem InferenceServer.Refuses.not_granted {answer : HttpResponse}
    (h : s.Refuses host m body answer) : ¬s.Granted host m body := by
  intro hg
  obtain ⟨us, hus, hends⟩ := h
  obtain ⟨pin, word, hcred, hok⟩ := hg us hus
  rcases hends with ⟨hnone, -⟩ | ⟨pin', word', hcred', hne, -⟩
  · rw [hcred] at hnone
    cases hnone
  · cases hcred.symm.trans hcred'
    exact hne hok

theorem confirm_end (host : Host F) (s : InferenceServer) (m : Moment F)
    (detail body : ByteString) :
    GateEnd host s m body (s.confirm host m detail body) := by
  unfold InferenceServer.confirm
  cases hus : s.userSecurity with
  | none =>
    have hsame : s.asked host m body = s := by
      simp only [InferenceServer.asked, hus, Option.map_none]
      rw [← hus]
    have hpassed := @GateEnd.passed F host s m body (by
      simp [InferenceServer.Granted, hus])
    rwa [hsame] at hpassed
  | some us =>
    dsimp only
    cases hcred : credentials body with
    | none =>
      have hsame : s.asked host m body = s := by
        simp only [InferenceServer.asked, InferenceServer.question, hus, hcred, Option.map_none,
          Option.map_some, Option.elim_none]
        rw [← hus]
      have hrefused := @GateEnd.refused F host s m body (rbpcRequired detail)
         ⟨us, hus, .inl ⟨hcred, detail, rfl⟩⟩
      rwa [hsame] at hrefused
    | some c =>
      obtain ⟨pin, word⟩ := c
      dsimp only
      have hasked : s.asked host m body = { s with
          userSecurity := some
            (us.verifyConfirmation host.bridge m.rbpc s.rbpcNodeId pin word).1 } := by
        simp only [InferenceServer.asked, InferenceServer.question, hus, hcred, Option.map_some,
          Option.elim_some]
        rfl
      rw [← hasked]
      by_cases hok : (us.verifyConfirmation host.bridge m.rbpc s.rbpcNodeId pin word).2 = .ok
      · rw [if_pos (by rw [List.isEmpty_iff, Rbpc.Answer.text_eq_nil, hok])]
        refine .passed (fun us' hus' ↦ ?_)
        obtain rfl := Option.some.inj (hus.symm.trans hus')
        exact ⟨pin, word, hcred, hok⟩
      · rw [if_neg (by rwa [List.isEmpty_iff, Rbpc.Answer.text_eq_nil])]
        exact .refused _ ⟨us, hus, .inr ⟨pin, word, hcred, hok, rfl⟩⟩

inductive RequestEnd (host : Host F) (s : InferenceServer) (m : Moment F) (req : HttpRequest) :
    InferenceServer × HttpResponse → Prop
  | plain (st : ServerStats) (answer : HttpResponse) : gated req = false ∨ s.lcmd = none →
      answer.statusCode ≠ 403 → RequestEnd host s m req ({ s with stats := st }, answer)
  | refused (st : ServerStats) (answer : HttpResponse) {w : World} : gated req = true →
      s.lcmd = some w → s.Refuses host m req.body answer →
      RequestEnd host s m req ({ s.asked host m req.body with stats := st }, answer)
  | cleared (st : ServerStats) (answer : HttpResponse) {w : World} : route req = .inferenceClear →
      s.lcmd = some w → s.Granted host m req.body → answer.statusCode ≠ 403 →
      RequestEnd host s m req
        ({ s.asked host m req.body with
            stats := st, lcmd := some { w with db := w.db.clearInferenceRecords.1 } }, answer)
  | exported (st : ServerStats) (answer : HttpResponse) {w : World}
      (file : ByteString × ByteString) :
      route req = .inferenceExport → s.lcmd = some w → s.Granted host m req.body → m.opens = true →
      answer.statusCode ≠ 403 → RequestEnd host s m req
        ({ s.asked host m req.body with stats := st, written := s.written ++ [file] }, answer)
  | unopened (st : ServerStats) (answer : HttpResponse) {w : World} :
      route req = .inferenceExport → s.lcmd = some w → s.Granted host m req.body →
      m.opens = false → answer.statusCode ≠ 403 →
      RequestEnd host s m req ({ s.asked host m req.body with stats := st }, answer)

theorem RequestEnd.of_count {f : ServerStats → ServerStats} {p : InferenceServer × HttpResponse}
    (h : RequestEnd host (s.count f) m req p) : RequestEnd host s m req p := by
  cases h with
  | plain st a h hne => exact .plain st a h hne
  | refused st a hgated hw hno => exact .refused st a hgated hw hno
  | cleared st a hr hw hg hne => exact .cleared st a hr hw hg hne
  | exported st a file hr hw hg ho hne => exact .exported st a file hr hw hg ho hne
  | unopened st a hr hw hg ho hne => exact .unopened st a hr hw hg ho hne

theorem respond_ne {code : UInt16} (h : code ≠ 403) (body : ByteString) :
    (respond code body).statusCode ≠ 403 := h

theorem clear_end (h : route req = .inferenceClear) :
    RequestEnd host s m req (s.handleInferenceClear host m req.body) := by
  have hgated : gated req = true := by simp [gated, h]
  apply RequestEnd.of_count
  unfold InferenceServer.handleInferenceClear
  dsimp only
  generalize s.count _ = s
  split
  · next hw => exact .plain _ _ (.inr hw) (respond_ne (by decide) _)
  · next w hw =>
    have hend := confirm_end host s m (lit "both pin and word required for clear") req.body
    generalize s.confirm host m _ req.body = p at hend ⊢
    cases hend with
    | refused answer hno => exact .refused _ _ hgated hw hno
    | passed hg => exact .cleared _ _ h hw hg (respond_ne (by decide) _)

theorem export_end (h : route req = .inferenceExport) :
    RequestEnd host s m req (s.handleInferenceExport host m req.body) := by
  have hgated : gated req = true := by simp [gated, h]
  apply RequestEnd.of_count
  unfold InferenceServer.handleInferenceExport
  dsimp only
  generalize s.count _ = s
  split
  · next hw => exact .plain _ _ (.inr hw) (respond_ne (by decide) _)
  · next w hw =>
    generalize hgate : s.confirm host m _ req.body = p
    have hend : GateEnd host s m req.body p := hgate ▸ confirm_end host s m _ req.body
    cases hend with
    | refused answer hno => exact .refused _ _ hgated hw hno
    | passed hg =>
      dsimp only
      unfold InferenceServer.exportInferenceJson
      cases ho : m.opens with
      | false => exact .unopened _ _ h hw hg ho (respond_ne (by decide) _)
      | true =>
        cases m.cutAt with
        | none => exact .exported _ _ _ h hw hg ho (respond_ne (by decide) _)
        | some n => exact .exported _ _ _ h hw hg ho (respond_ne (by decide) _)

variable [One F] [LT F] [DecidableLT F]

theorem dispatch_end (host : Host F) (s : InferenceServer) (m : Moment F) (req : HttpRequest) :
    RequestEnd host s m req (s.dispatch host m req) := by
  unfold InferenceServer.dispatch
  cases h : route req with
  | inferenceClear => exact clear_end h
  | inferenceExport => exact export_end h
  | chatCompletions =>
    dsimp only
    rw [InferenceServer.handleChatCompletions, fromJson_eq]
    exact .plain _ _ (.inl (by simp [gated, h])) (respond_ne (by decide) _)
  | inferenceHistory =>
    dsimp only
    have hgated : gated req = false := by simp [gated, h]
    apply RequestEnd.of_count
    unfold InferenceServer.handleInferenceHistory
    dsimp only
    generalize s.count _ = s
    split
    · exact .plain _ _ (.inl hgated) (respond_ne (by decide) _)
    · exact .plain _ _ (.inl hgated) (respond_ne (by decide) _)
  | inferenceStats =>
    dsimp only
    have hgated : gated req = false := by simp [gated, h]
    apply RequestEnd.of_count
    unfold InferenceServer.handleInferenceStats
    dsimp only
    generalize s.count _ = s
    split
    · exact .plain _ _ (.inl hgated) (respond_ne (by decide) _)
    · exact .plain _ _ (.inl hgated) (respond_ne (by decide) _)
  | _ => exact .plain _ _ (.inl (by simp [gated, h])) (respond_ne (by decide) _)

theorem received_nil : InferenceServer.received [] = none := by
  rw [InferenceServer.received, SimpleHttpParser.feed_nil]

theorem accept_end (host : Host F) (s : InferenceServer) (m : Moment F) (data : ByteString) :
    (∃ st, (s.accept host m data).1 = { s with stats := st } ∧
      InferenceServer.received data = none) ∨
    ∃ req answer, InferenceServer.received data = some req ∧
      RequestEnd host s m req ((s.accept host m data).1, answer) := by
  unfold InferenceServer.accept
  dsimp only
  split
  · next hnil =>
    rw [List.isEmpty_iff] at hnil
    exact .inl ⟨_, rfl, by rw [hnil, received_nil]⟩
  · cases InferenceServer.received data with
    | none => exact .inl ⟨_, rfl, rfl⟩
    | some req => exact .inr ⟨req, _, rfl, (dispatch_end host _ m req).of_count⟩

end effects

inductive Event (F : Type)
  | connection (m : Moment F) (data : ByteString)
  | security (r : Rbpc.Request)
  | database (m : MaintenanceDb.Moment) (c : MaintenanceDb.Call)
  | setModelDir (dir : ByteString) (listing : List DirectoryEntry)

variable {F : Type} [One F] [LT F] [DecidableLT F]

def InferenceServer.serve (host : Host F) (s : InferenceServer) : Event F → InferenceServer
  | .connection m data => (s.accept host m data).1
  | .security r => { s with userSecurity := s.userSecurity.map (·.serve host.bridge r) }
  | .database m c => { s with lcmd := s.lcmd.map (fun w ↦ w.serve host.lfssl m c) }
  | .setModelDir dir listing => s.setModelDir dir listing

def Serves (host : Host F) (s : InferenceServer) (e : Event F) (s' : InferenceServer) : Prop :=
  s' = s.serve host e

end Cerberus.Inference
