import Cerberus.Foundation.Trace
import Cerberus.Gateway.Protocol
import Cerberus.MaintenanceDb.Sessions
import Cerberus.Rbpc.Model

namespace Cerberus.Gateway

open Foundation.Bytes Foundation.LittleEndian MaintenanceDb Rbpc Security

/-- Times of the steady clock are in nanoseconds. -/
structure GatewaySession where
  sharedSecret : SharedSecret := fun _ ↦ 0
  lastActivity : Int
  mode : PermissionMode := .none
  authenticated : Bool := false
  deriving DecidableEq

/-- More than five minutes, in whole seconds, without activity. -/
def GatewaySession.isExpired (s : GatewaySession) (now : Int) : Bool :=
  300 < (now - s.lastActivity).tdiv 1000000000

/-- What the gateway runs on: the crypto library, the directory for temporary files, and how
the sum and the average of the milliseconds of some records are written. -/
structure Host where
  bridge : CryptoBridge
  tempDirectory : ByteString
  totalMs : List ByteString → ByteString
  averageMs : List ByteString → Nat → ByteString

/-- What one call meets. The sweep reads the steady clock for each session it looks at; the other
readings are numbered. A file that is cut short keeps the given number of bytes. -/
structure Moment where
  sweep : UInt16 → Int := fun _ ↦ 0
  now : Nat → Int := fun _ ↦ 0
  systemUs : Nat → UInt64 := fun _ ↦ 0
  time : Int := 0
  generatedTokens : List UInt16 := []
  rbpc : Rbpc.Moment := {}
  opens : Bool := true
  cutAt : Option Nat := none

structure CerberusApiGateway where
  initialized : Bool := false
  nextSessionToken : UInt16 := 1
  sessions : UInt16 → Option GatewaySession := fun _ ↦ none
  lcmd : Option LocalMaintenanceDB := none
  userSecurity : Option UserSecurity := none
  rbpcNodeId : ByteString := lit "local"
  written : List (ByteString × ByteString) := []

/-- An answer before it is encoded. -/
structure Reply where
  opcode : CerberusOpcode
  sessionToken : UInt16
  sequenceId : UInt32
  payload : ByteString
  deriving DecidableEq

def Reply.encode (r : Reply) (nowUs : UInt64) : ByteString :=
  buildMessage r.opcode r.sessionToken r.sequenceId r.payload false none nowUs

/-- `encodeError`: a status, the length of the message, and the message. -/
def Reply.error (opcode : CerberusOpcode) (sequenceId : UInt32) (sessionToken : UInt16)
    (message : ByteString) : Reply where
  opcode := opcode
  sessionToken := sessionToken
  sequenceId := sequenceId
  payload := littleEndian 4 1 ++ littleEndian 4 message.length ++ message

def ANBPHeader.error (h : ANBPHeader) (message : ByteString) : Reply :=
  .error h.opcode h.sequenceId h.sessionToken message

def ANBPHeader.reply (h : ANBPHeader) (payload : ByteString) : Reply :=
  ⟨h.opcode, h.sessionToken, h.sequenceId, payload⟩

namespace CerberusApiGateway

variable (g : CerberusApiGateway)

def initializeGateway : CerberusApiGateway :=
  if g.initialized then g
  else { g with nextSessionToken := max g.nextSessionToken 1, initialized := true }

def shutdown : CerberusApiGateway := { g with sessions := fun _ ↦ none, initialized := false }

def cleanupExpiredSessions (m : Moment) : CerberusApiGateway :=
  { g with sessions := fun k ↦ (g.sessions k).filter (fun s ↦ !s.isExpired (m.sweep k)) }

/-- The loop draws tokens until one is free; where none of them is, it does not return. -/
def createSession (m : Moment) : Option (CerberusApiGateway × UInt16) :=
  ((g.nextSessionToken :: m.generatedTokens).find? (fun t ↦ t ≠ 0 ∧ g.sessions t = none)).map
    (fun token ↦
      ({ g with
          sessions := Function.update g.sessions token (some { lastActivity := m.now 0 })
          nextSessionToken := if token + 1 = 0 then 1 else token + 1 }, token))

def closeSession (token : UInt16) : CerberusApiGateway × Bool :=
  ({ g with sessions := Function.update g.sessions token none }, (g.sessions token).isSome)

/-- The session, if it has not expired at the first reading; the second is its activity. -/
def getSession (token : UInt16) (now now' : Int) : CerberusApiGateway × Option GatewaySession :=
  match g.sessions token with
  | none => (g, none)
  | some s =>
    if s.isExpired now then (g, none)
    else
      let s := { s with lastActivity := now' }
      ({ g with sessions := Function.update g.sessions token (some s) }, some s)

def setPermissionMode (token : UInt16) (mode : PermissionMode) : CerberusApiGateway × Bool :=
  match g.sessions token with
  | none => (g, false)
  | some s =>
    ({ g with sessions := Function.update g.sessions token (some { s with mode := mode }) }, true)

def setPrivacyContext (lcmd : Option LocalMaintenanceDB) (us : Option UserSecurity)
    (nodeId : ByteString) : CerberusApiGateway :=
  { g with
    lcmd := lcmd
    userSecurity := us
    rbpcNodeId := if nodeId.isEmpty then lit "local" else nodeId }

end CerberusApiGateway

/-- The secret of the answer to `HANDSHAKE_INIT`. It is not stored. -/
def announcedSecret : SharedSecret := fun i ↦ i.val.toUInt8

/-- The packed `HandshakeInitResponse`. -/
def handshakeInitResponse (token : UInt16) : ByteString :=
  littleEndian 4 cerberusAnbpVersion.toNat ++ List.replicate 16 0 ++ List.ofFn announcedSecret ++
    littleEndian 2 token.toNat ++ littleEndian 4 300 ++ List.replicate 32 0 ++ littleEndian 8 0

/-- The packed `HandshakeCompleteResponse`, with all four capabilities. -/
def handshakeCompleteResponse (token : UInt16) (authUs : UInt64) : ByteString :=
  littleEndian 2 token.toNat ++ littleEndian 4 0xF ++ littleEndian 8 authUs.toNat

def inferenceStats (host : Host) (db : LocalMaintenanceDB) : Fields :=
  let records := db.tables.inferenceRecords.values
  let times := records.filterMap (fun r ↦ r[lit "generation_time_ms"]?)
  let stats := assign ∅ [
    ("count", decimal records.length),
    ("total_ms", host.totalMs times),
    ("success_count", decimal (records.countP (·.holds "status" (lit "success")))),
    ("fail_count", decimal (records.countP (·.holds "status" (lit "failed"))))]
  if records.isEmpty then stats
  else assign stats [("avg_ms", host.averageMs times records.length)]

def statsJson (stats : Fields) : ByteString :=
  lit "\x7b" ++ (lit ",").intercalate (stats.toList.map (fun e ↦
    lit "\"" ++ e.1 ++ lit "\":\"" ++ e.2 ++ lit "\"")) ++ lit "\x7d"

def recordsJson (records : List InferenceRecord) : ByteString :=
  lit "[" ++ (lit ",").intercalate (records.map (fun r ↦
    lit "\x7b\"id\":\"" ++ r.inferenceId ++ lit "\",\"status\":\"" ++ r.status ++
      lit "\"\x7d")) ++ lit "]"

/-- The file that `export_inference_json` writes. -/
def inferenceJson (records : List Fields) : ByteString :=
  lit "[\n" ++ (lit ",\n").intercalate (records.map (fun r ↦
    lit "  \x7b\n" ++ (lit ",\n").intercalate (r.toList.map (fun e ↦
      lit "    \"" ++ e.1 ++ lit "\": \"" ++ e.2 ++ lit "\"")) ++ lit "\n  \x7d")) ++ lit "\n]\n"

/-- A length of two bytes and that many bytes, from an offset on; the offset moves past what was
read, also where the second check fails. -/
def parseLenStr (payload : ByteString) (off : Nat) : Option ByteString × Nat :=
  if payload.length < off + 2 then (none, off)
  else
    let len := readAt off 2 payload
    let off := off + 2
    if payload.length < off + len then (none, off)
    else (some ((payload.drop off).take len), off + len)

def credentials (payload : ByteString) : Option (ByteString × ByteString) :=
  let (pin, off) := parseLenStr payload 0
  let (word, _) := parseLenStr payload off
  match pin, word with
  | some pin, some word => if pin.isEmpty || word.isEmpty then none else some (pin, word)
  | _, _ => none

def refusal (a : Rbpc.Answer) : ByteString :=
  a.text ++
    (if mentions a.text (lit "burned") || mentions a.text (lit "LOCKED") then lit " [BURNED]"
    else [])

/-- `temp_directory_path() / name` -/
def joinPath (directory name : ByteString) : ByteString :=
  if directory.getLast? = some 47 then directory ++ name else directory ++ lit "/" ++ name

namespace CerberusApiGateway

variable (host : Host) (g : CerberusApiGateway) (m : Moment) (h : ANBPHeader)

def validateSession : CerberusApiGateway × Option ByteString :=
  if h.opcode ≠ .handshakeInit ∧ h.opcode ≠ .sessionAuth ∧ h.sessionToken ≠ 0 then
    match g.getSession h.sessionToken (m.now 0) (m.now 1) with
    | (g, none) => (g, some (lit "Session unknown or expired"))
    | (g, some s) => (g, if s.authenticated then none else some (lit "Authentication required"))
  else (g, none)

/-- `HANDSHAKE_COMP` and `SESSION_AUTH`. -/
def completeHandshake : CerberusApiGateway × Reply :=
  match g.getSession h.sessionToken (m.now 2) (m.now 3) with
  | (g, none) => (g, h.error (lit "Session unknown"))
  | (g, some s) =>
    let s := { s with authenticated := true, mode := .act }
    ({ g with sessions := Function.update g.sessions h.sessionToken (some s) },
      ⟨.handshakeComp, h.sessionToken, h.sequenceId,
        handshakeCompleteResponse h.sessionToken (m.systemUs 0)⟩)

def permit : CerberusApiGateway × Option ByteString :=
  let required := requiredMode h.opcode
  let denied (mode : Int) : ByteString :=
    lit "Permission denied: requires mode " ++ decimal required.level ++
      lit " but session has mode " ++ signedDecimal mode
  match g.getSession h.sessionToken (m.now 2) (m.now 3) with
  | (g, none) => (g, some (denied (-1)))
  | (g, some s) =>
    (g, if s.mode.level < required.level then some (denied s.mode.level) else none)

/-- All that happens before the payload is looked at: the answer, if there is one, or none if
the request does not return; else the gateway with which the request is dispatched. -/
def vet : Option (CerberusApiGateway × Reply) ⊕ CerberusApiGateway :=
  let g := g.cleanupExpiredSessions m
  if h.opcode = .handshakeInit then
    .inl ((g.createSession m).map (fun e ↦
      (e.1, ⟨.handshakeInit, e.2, h.sequenceId, handshakeInitResponse e.2⟩)))
  else
    match g.validateSession m h with
    | (g, some message) => .inl (some (g, h.error message))
    | (g, none) =>
      if h.opcode = .handshakeComp ∨ h.opcode = .sessionAuth then
        .inl (some (g.completeHandshake m h))
      else if h.opcode = .sessionClose then
        let (g, closed) := g.closeSession h.sessionToken
        .inl (some (g, h.reply (littleEndian 4 (if closed then 0 else 1))))
      else
        match g.permit m h with
        | (g, some message) => .inl (some (g, h.error message))
        | (g, none) => .inr g

/-- The RBPC check of the destructive requests: nothing to check without a `UserSecurity`. -/
def confirm (payload : ByteString) : CerberusApiGateway × Option ByteString :=
  match g.userSecurity with
  | none => (g, none)
  | some us =>
    match credentials payload with
    | none => (g, some (lit "RBPC pin+word required (binary len+data)"))
    | some (pin, word) =>
      match us.verifyConfirmation host.bridge m.rbpc g.rbpcNodeId pin word with
      | (us, .ok) => ({ g with userSecurity := some us }, none)
      | (us, a) => ({ g with userSecurity := some us }, some (refusal a))

def exportPath : ByteString :=
  joinPath host.tempDirectory (lit "cerberus_anbp_export_" ++
    signedDecimal ((m.now 4).tdiv 1000000000) ++ lit ".json")

/-- `INFERENCE_EXPORT`, after the check. -/
def exportInference (db : LocalMaintenanceDB) : CerberusApiGateway × Reply :=
  let path := exportPath host m
  let text := inferenceJson db.tables.inferenceRecords.values
  if !m.opens then (g, h.reply (lit "\x7b\"exported\":false\x7d"))
  else
    match m.cutAt with
    | none => ({ g with written := g.written ++ [(path, text)] },
        h.reply (lit "\x7b\"exported\":true,\"path\":\"" ++ path ++ lit "\"\x7d"))
    | some n => ({ g with written := g.written ++ [(path, text.take n)] },
        h.reply (lit "\x7b\"exported\":false\x7d"))

/-- `INFERENCE_CLEAR`, after the check. -/
def clearInference (db : LocalMaintenanceDB) : CerberusApiGateway × Reply :=
  let before := ((inferenceStats host db)[lit "count"]?.bind leadingDigits).getD 0
  let (db, cleared) := db.clearInferenceRecords
  ({ g with lcmd := some db }, h.reply (lit "\x7b\"cleared\":" ++
    (if cleared then lit "true" else lit "false") ++ lit ",\"before\":" ++ decimal before ++
      lit "\x7d"))

def dispatch (payload : ByteString) : CerberusApiGateway × Reply :=
  if h.opcode = .inferenceQuery ∨ h.opcode = .inferenceStats then
    match g.lcmd with
    | none => (g, h.error (lit "inference audit not configured"))
    | some db =>
      if h.opcode = .inferenceStats then (g, h.reply (statsJson (inferenceStats host db)))
      else (g, h.reply (recordsJson (db.tables.queryInferenceRecords 0 (m.time + 86400) 5)))
  else if h.opcode = .inferenceExport ∨ h.opcode = .inferenceClear then
    match g.lcmd with
    | none => (g, h.error (lit "inference audit not configured"))
    | some db =>
      match g.confirm host m payload with
      | (g, some message) => (g, h.error message)
      | (g, none) =>
        if h.opcode = .inferenceExport then g.exportInference host m h db
        else g.clearInference host h db
  else (g, h.reply payload)

def respond (payload : ByteString) : Option (CerberusApiGateway × Reply) :=
  match g.vet m h with
  | .inl answer => answer
  | .inr g => some (g.dispatch host m h payload)

/-- The gateway and the message after a request, or nothing if it does not return. -/
def handleRequest (data : ByteString) : Option (CerberusApiGateway × ByteString) :=
  let answer :=
    if !g.initialized then some (g, .error .errGeneral 0 0 (lit "Gateway not initialized"))
    else
      match deserializeHeader data with
      | none => some (g, .error .errGeneral 0 0 (lit "Invalid ANBP header"))
      | some h => g.respond host m h ((data.drop headerSize).take h.payloadLength.toNat)
  answer.map (fun e ↦ (e.1, e.2.encode (m.systemUs 1)))

end CerberusApiGateway

inductive Call
  | request (m : Moment) (data : ByteString)
  | setPermissionMode (token : UInt16) (mode : PermissionMode)
  | initializeGateway
  | shutdown
  | createSession (m : Moment)
  | closeSession (token : UInt16)
  | getSession (token : UInt16) (now now' : Int)
  | cleanupExpiredSessions (m : Moment)
  | setPrivacyContext (lcmd : Option LocalMaintenanceDB) (us : Option UserSecurity)
      (nodeId : ByteString)

def CerberusApiGateway.serve (host : Host) (g : CerberusApiGateway) :
    Call → Option CerberusApiGateway
  | .request m data => (g.handleRequest host m data).map Prod.fst
  | .setPermissionMode token mode => some (g.setPermissionMode token mode).1
  | .initializeGateway => some g.initializeGateway
  | .shutdown => some g.shutdown
  | .createSession m => (g.createSession m).map Prod.fst
  | .closeSession token => some (g.closeSession token).1
  | .getSession token now now' => some (g.getSession token now now').1
  | .cleanupExpiredSessions m => some (g.cleanupExpiredSessions m)
  | .setPrivacyContext lcmd us nodeId => some (g.setPrivacyContext lcmd us nodeId)

def Serves (host : Host) (g : CerberusApiGateway) (c : Call) (g' : CerberusApiGateway) : Prop :=
  g.serve host c = some g'

end Cerberus.Gateway
