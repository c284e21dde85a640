import Cerberus.Foundation.LittleEndian
import Cerberus.Foundation.Trace

namespace Cerberus.Cluster

open Foundation.Bytes Foundation.LittleEndian

/-- A message type is any byte; these are the ones with a meaning. -/
structure MsgType where
  value : UInt8
  deriving DecidableEq

namespace MsgType

def generateRequest : MsgType := ⟨0x01⟩
def heartbeat : MsgType := ⟨0x02⟩
def generateResult : MsgType := ⟨0x10⟩
def heartbeatAck : MsgType := ⟨0x11⟩
def workerReady : MsgType := ⟨0x12⟩

end MsgType

inductive ClusterError
  | notConnected
  | sendFailed
  | recvFailed
  | timeout
  | invalidMessage
  | noWorkers
  | workerBusy
  | protocolError
  deriving DecidableEq

inductive LinkType
  | thunderbolt5
  | ethernet10G
  | loopbackUnix
  deriving DecidableEq

def kMagic : UInt32 := 0xCEBE5721

structure MessageHeader where
  magic : UInt32 := kMagic
  type : MsgType := .heartbeat
  payloadLen : UInt32 := 0
  deriving DecidableEq

/-- The header in memory, with the three bytes of padding behind the type. -/
def MessageHeader.bytes (h : MessageHeader) : ByteString :=
  littleEndian 4 h.magic.toNat ++ ([h.type.value, 0, 0, 0] ++ littleEndian 4 h.payloadLen.toNat)

def MessageHeader.ofBytes (b : ByteString) : MessageHeader where
  magic := UInt32.ofNat (readAt 0 4 b)
  type := ⟨b.getD 4 0⟩
  payloadLen := UInt32.ofNat (readAt 8 4 b)

structure ReceivedMsg where
  fromNodeId : UInt32 := 0
  type : MsgType
  payload : ByteString
  deriving DecidableEq

/-- The header that goes before a payload, whose length is cut to 32 bits. -/
def headerOf (type : MsgType) (body : ByteString) : MessageHeader where
  type := type
  payloadLen := UInt32.ofNat body.length

def frame (type : MsgType) (body : ByteString) : ByteString := (headerOf type body).bytes ++ body

/-! A call of `send_msg`, one `write` at a time. -/

/-- Where the call stands: in one of its two `write_all`, or back with its result. -/
inductive Writer
  | header (todo body : ByteString)
  | payload (todo : ByteString)
  | done (ok : Bool)
  deriving DecidableEq

namespace Writer

def sendMsg (type : MsgType) (body : ByteString) : Writer :=
  .header (headerOf type body).bytes body

def afterHeader (todo body : ByteString) : Writer :=
  if todo ≠ [] then .header todo body
  else if body ≠ [] then .payload body
  else .done true

def afterPayload (todo : ByteString) : Writer :=
  if todo ≠ [] then .payload todo else .done true

/-- The bytes that one `write` with the result `n` puts into the stream, and where the call stands
then. A `write` takes no more than it was offered. -/
def write (n : Int) : Writer → ByteString × Writer
  | .header todo body =>
    if n ≤ 0 then ([], .done false)
    else (todo.take n.toNat, afterHeader (todo.drop n.toNat) body)
  | .payload todo =>
    if n ≤ 0 then ([], .done false)
    else (todo.take n.toNat, afterPayload (todo.drop n.toNat))
  | .done ok => ([], .done ok)

def perform : Writer → List Int → ByteString × Writer
  | w, [] => ([], w)
  | w, n :: results =>
    ((w.write n).1 ++ ((w.write n).2.perform results).1, ((w.write n).2.perform results).2)

def remaining : Writer → ByteString
  | .header todo body => todo ++ body
  | .payload todo => todo
  | .done _ => []

end Writer

/-! A call of `recv_msg`, one `read` at a time. -/

/-- Where the call stands: in one of its two `read_all`. -/
inductive Reader
  | header (got : ByteString)
  | payload (type : MsgType) (len : Nat) (got : ByteString)
  deriving DecidableEq

/-- What a `read` leads to: another one, a message, or the end of the connection. -/
inductive Received
  | more (r : Reader)
  | message (msg : ReceivedMsg)
  | nothing
  deriving DecidableEq

def maxPayload : Nat := 256 * 1024 * 1024

namespace Reader

def recvMsg : Reader := .header []

def wants : Reader → Nat
  | .header got => 12 - got.length
  | .payload _ len got => len - got.length

def afterHeader (h : MessageHeader) : Received :=
  if h.magic ≠ kMagic then .nothing
  else if maxPayload < h.payloadLen.toNat then .nothing
  else if 0 < h.payloadLen.toNat then .more (.payload h.type h.payloadLen.toNat [])
  else .message { type := h.type, payload := [] }

def accept (bytes : ByteString) : Reader → Received
  | .header got =>
    if (got ++ bytes).length < 12 then .more (.header (got ++ bytes))
    else afterHeader (.ofBytes (got ++ bytes))
  | .payload type len got =>
    if (got ++ bytes).length < len then .more (.payload type len (got ++ bytes))
    else .message { type := type, payload := got ++ bytes }

end Reader

section

variable {n k : Nat} {type : MsgType} {body : ByteString}

@[simp] theorem MessageHeader.length_bytes (h : MessageHeader) : h.bytes.length = 12 := by
  simp [MessageHeader.bytes]

@[simp] theorem MessageHeader.ofBytes_bytes (h : MessageHeader) : ofBytes h.bytes = h := by
  have hmagic : readAt 0 4 h.bytes = h.magic.toNat := readAt_here h.magic.toNat_lt
  have hlen : readAt 8 4 h.bytes = h.payloadLen.toNat := by
    have hholds : Holds h.bytes 8 (littleEndian 4 h.payloadLen.toNat) :=
      ⟨littleEndian 4 h.magic.toNat ++ [h.type.value, 0, 0, 0], [], by simp [bytes], by simp⟩
    exact hholds.readAt_eq h.payloadLen.toNat_lt
  have htype : h.bytes.getD 4 0 = h.type.value := by
    simp [bytes]
  rw [ofBytes, hmagic, hlen, htype]
  simp

@[simp] theorem length_frame : (frame type body).length = 12 + body.length := by
  simp [frame]

/-! What a call of `send_msg` writes. -/

namespace Writer

theorem remaining_afterHeader (todo body : ByteString) :
    (afterHeader todo body).remaining = todo ++ body := by
  by_cases htodo : todo = []
  · by_cases hbody : body = []
    · simp [afterHeader, htodo, hbody, remaining]
    · simp [afterHeader, htodo, hbody, remaining]
  · simp [afterHeader, htodo, remaining]

theorem remaining_afterPayload (todo : ByteString) : (afterPayload todo).remaining = todo := by
  by_cases htodo : todo = []
  · simp [afterPayload, htodo, remaining]
  · simp [afterPayload, htodo, remaining]

theorem write_remaining (w : Writer) (n : Int) :
    (w.write n).2 = .done false ∨ (w.write n).1 ++ (w.write n).2.remaining = w.remaining := by
  by_cases hn : n ≤ 0
  · cases w with
    | header todo body => exact .inl (by simp [write, hn])
    | payload todo => exact .inl (by simp [write, hn])
    | done ok => exact .inr (by simp [write])
  · refine .inr ?_
    cases w with
    | header todo body =>
      rw [write, if_neg hn]
      change todo.take n.toNat ++ (afterHeader _ body).remaining = todo ++ body
      rw [remaining_afterHeader, ← List.append_assoc, List.take_append_drop]
    | payload todo =>
      rw [write, if_neg hn]
      change todo.take n.toNat ++ (afterPayload _).remaining = todo
      rw [remaining_afterPayload, List.take_append_drop]
    | done ok => simp [write]

@[simp] theorem perform_done (ok : Bool) (results : List Int) :
    (done ok).perform results = ([], .done ok) := by
  induction results with
  | nil => rfl
  | cons n results ih => simp [perform, write, ih]

theorem perform_ok {w : Writer} {results : List Int} (h : (w.perform results).2 = .done true) :
    (w.perform results).1 = w.remaining := by
  induction results generalizing w with
  | nil =>
    obtain rfl : w = .done true := h
    rfl
  | cons n results ih =>
    rw [perform] at h ⊢
    rcases write_remaining w n with hfail | hmoved
    · rw [hfail, perform_done] at h
      exact absurd h (by simp)
    · rw [ih h, hmoved]

end Writer

/-! What a call of `recv_msg` makes of a frame. -/

namespace ReceivedMsg

variable (m : ReceivedMsg)

def announced : Nat := m.payload.length % 2 ^ 32

def cut : ReceivedMsg := { type := m.type, payload := m.payload.take m.announced }

def bytes : ByteString := frame m.type m.payload

end ReceivedMsg

namespace Reader

variable {m : ReceivedMsg}

def upTo (m : ReceivedMsg) (n : Nat) : Reader :=
  if n < 12 then .header (m.bytes.take n)
  else .payload m.type m.announced (m.payload.take (n - 12))

theorem announced_le (m : ReceivedMsg) : m.announced ≤ m.payload.length := Nat.mod_le _ _

theorem wants_upTo (hn : n < 12 + m.announced) :
    (upTo m n).wants = if n < 12 then 12 - n else 12 + m.announced - n := by
  have hle := announced_le m
  by_cases h : n < 12
  · simp only [upTo, if_pos h, wants, ReceivedMsg.bytes, length_frame, List.length_take]
    omega
  · simp only [upTo, if_neg h, wants, List.length_take]
    omega

theorem wants_upTo_le (hn : n < 12 + m.announced) : (upTo m n).wants ≤ m.bytes.length - n := by
  have hle := announced_le m
  have hlen : m.bytes.length = 12 + m.payload.length := length_frame
  rw [wants_upTo hn, hlen]
  split
  · omega
  · omega

theorem accept_upTo_header (hk : n + k < 12) :
    (upTo m n).accept ((m.bytes.drop n).take k) = .more (upTo m (n + k)) := by
  have hlen : (m.bytes.take (n + k)).length < 12 := by
    rw [List.length_take]
    omega
  rw [upTo, if_pos (by omega), accept, ← List.take_add, if_pos hlen, upTo, if_pos hk]

theorem accept_upTo_twelve (hn : n < 12) (hk : n + k = 12) :
    (upTo m n).accept ((m.bytes.drop n).take k) = afterHeader (headerOf m.type m.payload) := by
  have htake : m.bytes.take (n + k) = (headerOf m.type m.payload).bytes := by
    rw [hk, ReceivedMsg.bytes, frame, List.take_left']
    exact MessageHeader.length_bytes _
  rw [upTo, if_pos hn, accept, ← List.take_add, htake, MessageHeader.length_bytes,
    if_neg (by decide), MessageHeader.ofBytes_bytes]

@[simp] theorem payloadLen_headerOf (m : ReceivedMsg) :
    (headerOf m.type m.payload).payloadLen.toNat = m.announced := by
  simp [headerOf, ReceivedMsg.announced]

theorem afterHeader_large (h : maxPayload < m.announced) :
    afterHeader (headerOf m.type m.payload) = .nothing := by
  simp [afterHeader, h]

theorem afterHeader_fit (h : m.announced ≤ maxPayload) :
    afterHeader (headerOf m.type m.payload) =
      if 0 < m.announced then .more (upTo m 12) else .message m.cut := by
  have hmagic : (headerOf m.type m.payload).magic = kMagic := rfl
  have htype : (headerOf m.type m.payload).type = m.type := rfl
  rw [afterHeader, payloadLen_headerOf, if_neg (not_not.mpr hmagic), if_neg (by omega), htype]
  by_cases hzero : 0 < m.announced
  · simp [hzero, upTo]
  · simp [ReceivedMsg.cut, Nat.eq_zero_of_not_pos hzero]

theorem accept_upTo_payload (hn : 12 ≤ n) (hk : n + k ≤ 12 + m.announced) :
    (upTo m n).accept ((m.bytes.drop n).take k) =
      if n + k < 12 + m.announced then .more (upTo m (n + k)) else .message m.cut := by
  have hle := announced_le m
  have hdrop : m.bytes.drop n = m.payload.drop (n - 12) := by
    have hlen : (headerOf m.type m.payload).bytes.length ≤ n := by simpa using hn
    rw [ReceivedMsg.bytes, frame, List.drop_append, List.drop_eq_nil_of_le hlen]
    simp
  have hshift : n - 12 + k = n + k - 12 := by omega
  have hlen : (m.payload.take (n + k - 12)).length = n + k - 12 := by
    rw [List.length_take]
    omega
  rw [upTo, if_neg (by omega), accept, hdrop, ← List.take_add, hshift, hlen]
  by_cases hlt : n + k < 12 + m.announced
  · rw [if_pos (by omega), if_pos hlt, upTo, if_neg (by omega)]
  · have heq : n + k - 12 = m.announced := by omega
    rw [if_neg (by omega), if_neg hlt, heq, ReceivedMsg.cut]

theorem accept_upTo (hfit : m.announced ≤ maxPayload) (hn : n < 12 + m.announced)
    (hk : k ≤ (upTo m n).wants) :
    (upTo m n).accept ((m.bytes.drop n).take k) =
      if n + k < 12 + m.announced then .more (upTo m (n + k)) else .message m.cut := by
  rw [wants_upTo hn] at hk
  by_cases h : n < 12
  · rw [if_pos h] at hk
    by_cases hhead : n + k < 12
    · rw [accept_upTo_header hhead, if_pos (by omega)]
    · have heq : n + k = 12 := by omega
      rw [accept_upTo_twelve h heq, afterHeader_fit hfit, heq]
      simp
  · rw [if_neg h] at hk
    exact accept_upTo_payload (by omega) (by omega)

theorem accept_upTo_large (hlarge : maxPayload < m.announced) (hn : n < 12)
    (hk : k ≤ (upTo m n).wants) :
    (upTo m n).accept ((m.bytes.drop n).take k) =
      if n + k < 12 then .more (upTo m (n + k)) else .nothing := by
  rw [wants_upTo (by omega), if_pos hn] at hk
  by_cases hhead : n + k < 12
  · rw [accept_upTo_header hhead, if_pos hhead]
  · rw [accept_upTo_twelve hn (by omega), afterHeader_large hlarge, if_neg hhead]

end Reader

end

end Cerberus.Cluster
