import Cerberus.Foundation.LittleEndian

namespace Cerberus.Gateway

open Foundation.Bytes Foundation.LittleEndian

def cerberusAnbpMagic : UInt32 := 0x414E4250

def cerberusAnbpVersion : UInt16 := 0x0001

def maxPayloadSize : Nat := 64 * 1024 * 1024

abbrev SharedSecret := Fin 32 → UInt8

/-- The underlying value of the enumeration: a request may carry any. -/
structure CerberusOpcode where
  value : UInt16
  deriving DecidableEq

namespace CerberusOpcode

def runGraph : CerberusOpcode := ⟨0x1000⟩
def compileGraph : CerberusOpcode := ⟨0x1001⟩
def getStatus : CerberusOpcode := ⟨0x1002⟩
def listBackends : CerberusOpcode := ⟨0x1003⟩
def setBackend : CerberusOpcode := ⟨0x1004⟩
def promoteTensor : CerberusOpcode := ⟨0x1005⟩
def demoteTensor : CerberusOpcode := ⟨0x1006⟩
def benchmark : CerberusOpcode := ⟨0x1007⟩
def slipstreamWrite : CerberusOpcode := ⟨0x2000⟩
def slipstreamFlush : CerberusOpcode := ⟨0x2001⟩
def inferenceQuery : CerberusOpcode := ⟨0x3000⟩
def inferenceExport : CerberusOpcode := ⟨0x3001⟩
def inferenceClear : CerberusOpcode := ⟨0x3002⟩
def inferenceStats : CerberusOpcode := ⟨0x3003⟩
def handshakeInit : CerberusOpcode := ⟨0xF000⟩
def handshakeComp : CerberusOpcode := ⟨0xF001⟩
def sessionAuth : CerberusOpcode := ⟨0xF002⟩
def sessionClose : CerberusOpcode := ⟨0xF003⟩
def errGeneral : CerberusOpcode := ⟨0xFF00⟩
def sysShutdown : CerberusOpcode := ⟨0xFF06⟩

end CerberusOpcode

structure ANBPHeader where
  magic : UInt32 := cerberusAnbpMagic
  version : UInt16 := cerberusAnbpVersion
  opcode : CerberusOpcode := ⟨0⟩
  payloadLength : UInt32 := 0
  sequenceId : UInt32 := 0
  sessionToken : UInt16 := 0
  flags : UInt16 := 0
  timestampUs : UInt64 := 0
  deriving DecidableEq

def flagEncrypted : UInt16 := 0x0001

/-- `sizeof(ANBPHeader)` -/
def headerSize : Nat := 28

def serializeHeader (h : ANBPHeader) : ByteString :=
  littleEndian 4 h.magic.toNat ++ (littleEndian 2 h.version.toNat ++
    (littleEndian 2 h.opcode.value.toNat ++ (littleEndian 4 h.payloadLength.toNat ++
      (littleEndian 4 h.sequenceId.toNat ++ (littleEndian 2 h.sessionToken.toNat ++
        (littleEndian 2 h.flags.toNat ++ littleEndian 8 h.timestampUs.toNat))))))

def readHeader (data : ByteString) : ANBPHeader where
  magic := .ofNat (readAt 0 4 data)
  version := .ofNat (readAt 4 2 data)
  opcode := ⟨.ofNat (readAt 6 2 data)⟩
  payloadLength := .ofNat (readAt 8 4 data)
  sequenceId := .ofNat (readAt 12 4 data)
  sessionToken := .ofNat (readAt 16 2 data)
  flags := .ofNat (readAt 18 2 data)
  timestampUs := .ofNat (readAt 20 8 data)

def deserializeHeader (data : ByteString) : Option ANBPHeader :=
  if data.length < headerSize then none
  else
    let candidate := readHeader data
    let magicValid := candidate.magic == cerberusAnbpMagic
    let versionValid := candidate.version == cerberusAnbpVersion
    let payloadOk := candidate.payloadLength.toNat ≤ maxPayloadSize &&
      headerSize + candidate.payloadLength.toNat ≤ data.length
    if magicValid && versionValid && payloadOk then some candidate else none

/-- The payload, with the key over it as often as it fits. -/
def mask (key : SharedSecret) (payload : ByteString) : ByteString :=
  payload.mapIdx (fun i b ↦ b ^^^ key (Fin.ofNat 32 i))

/-- The message is empty if the payload is too long or the key is missing. -/
def buildMessage (opcode : CerberusOpcode) (sessionToken : UInt16) (sequence : UInt32)
    (payload : ByteString) (encrypt : Bool) (key : Option SharedSecret) (nowUs : UInt64) :
    ByteString :=
  if maxPayloadSize < payload.length || (encrypt && key.isNone) then []
  else
    let header : ANBPHeader :=
      { opcode, payloadLength := .ofNat payload.length, sequenceId := sequence, sessionToken
        flags := if encrypt then flagEncrypted else 0, timestampUs := nowUs }
    serializeHeader header ++
      match encrypt, key with
      | true, some key => mask key payload
      | _, _ => payload

def fnvRound (state : UInt64) (b : UInt8) : UInt64 := (state ^^^ b.toUInt64) * 1099511628211

def mixRound (state : UInt64) : UInt64 :=
  let state := (state ^^^ (state >>> 33)) * 0xff51afd7ed558ccd
  state ^^^ (state >>> 33)

def proofBytes : Nat → Nat → UInt64 → ByteString
  | 0, _, _ => []
  | n + 1, i, state =>
    let state := mixRound state
    (state >>> (i % 8 * 8).toUInt64).toUInt8 :: proofBytes n (i + 1) state

def computeAuthProof (sharedSecret : SharedSecret) (context : ByteString) : ByteString :=
  let state := (List.ofFn sharedSecret).foldl fnvRound 1469598103934665603
  proofBytes 32 0 (context.foldl fnvRound state)

inductive PermissionMode
  | none
  | act
  | plan
  | execute
  | agentic
  deriving DecidableEq

def PermissionMode.level : PermissionMode → Nat
  | .none => 0
  | .act => 1
  | .plan => 2
  | .execute => 3
  | .agentic => 4

/-- The table of `handleRequest`. -/
def requiredMode (opcode : CerberusOpcode) : PermissionMode :=
  if opcode ∈ [.getStatus, .listBackends, .benchmark] then .act
  else if opcode ∈ [.compileGraph, .setBackend] then .plan
  else if opcode ∈ [.runGraph, .promoteTensor, .demoteTensor, .slipstreamWrite,
      .slipstreamFlush] then .execute
  else if opcode ∈ [.inferenceQuery, .inferenceStats] then .act
  else if opcode ∈ [.inferenceExport, .inferenceClear] then .execute
  else if opcode ∈ [.sysShutdown] then .agentic
  else .act

variable {h : ANBPHeader} {key : SharedSecret} {payload data : ByteString}
  {opcode : CerberusOpcode} {token : UInt16} {seq : UInt32} {nowUs : UInt64}

@[simp] theorem length_serializeHeader : (serializeHeader h).length = headerSize := by
  simp [serializeHeader, headerSize]

@[simp] theorem length_mask : (mask key payload).length = payload.length := by
  simp [mask]

theorem readHeader_serializeHeader (payload : ByteString) :
    readHeader (serializeHeader h ++ payload) = h := by
  have hmagic : h.magic.toNat < 256 ^ 4 := h.magic.toNat_lt
  have hversion : h.version.toNat < 256 ^ 2 := h.version.toNat_lt
  have hopcode : h.opcode.value.toNat < 256 ^ 2 := h.opcode.value.toNat_lt
  have hlength : h.payloadLength.toNat < 256 ^ 4 := h.payloadLength.toNat_lt
  have hseq : h.sequenceId.toNat < 256 ^ 4 := h.sequenceId.toNat_lt
  have htoken : h.sessionToken.toNat < 256 ^ 2 := h.sessionToken.toNat_lt
  have hflags : h.flags.toNat < 256 ^ 2 := h.flags.toNat_lt
  have htime : h.timestampUs.toNat < 256 ^ 8 := h.timestampUs.toNat_lt
  simp only [serializeHeader, List.append_assoc, readHeader]
  simp (disch := decide) only [readAt_skip, Nat.reduceSub, readAt_here hmagic, readAt_here hversion,
    readAt_here hopcode, readAt_here hlength, readAt_here hseq, readAt_here htoken,
    readAt_here hflags, readAt_here htime, UInt32.ofNat_toNat, UInt16.ofNat_toNat,
    UInt64.ofNat_toNat]

theorem deserializeHeader_serializeHeader (hm : h.magic = cerberusAnbpMagic)
    (hv : h.version = cerberusAnbpVersion) (hp : h.payloadLength.toNat = payload.length)
    (hlen : payload.length ≤ maxPayloadSize) :
    deserializeHeader (serializeHeader h ++ payload) = some h := by
  simp [deserializeHeader, readHeader_serializeHeader, hm, hv, hp, hlen]

end Cerberus.Gateway
