import Cerberus.Cluster.Framing

namespace Cerberus.Cluster

open Foundation.Bytes Foundation.Trace

/-- Where the receive pump of a worker stands: in `recv_msg`, with a message, on its way to close
the socket, or at its end. -/
inductive PumpPc
  | reading (r : Reader)
  | handling (msg : ReceivedMsg)
  | closing
  | ended
  deriving DecidableEq

def telemetrySize : Nat := 32

def ReceivedMsg.IsTelemetry (msg : ReceivedMsg) : Prop :=
  msg.type = .heartbeatAck ∧ telemetrySize ≤ msg.payload.length

instance (msg : ReceivedMsg) : Decidable msg.IsTelemetry := inferInstanceAs (Decidable (_ ∧ _))

/-- A worker's connection at the coordinator: the bytes that were not read, the pump, a call of
`collect_telemetry` that is in `recv_msg` (it has the lock of the workers), what has been pushed to
the inbound queue, and the telemetry. -/
structure Inbound where
  stream : ByteString
  pump : PumpPc := .reading .recvMsg
  collector : Option Reader := none
  delivered : List ReceivedMsg := []
  telemetry : Option ByteString := none

inductive InboundAction
  | pumpRead (k : Nat)
  | pumpFails
  | pumpHandles
  | pumpCloses
  | collect
  | collectRead (k : Nat)
  | collectFails
  deriving DecidableEq

def PumpPc.after : Received → PumpPc
  | .more r => .reading r
  | .message msg => .handling msg
  | .nothing => .closing

namespace Inbound

variable (s : Inbound)

def handle (nodeId : UInt32) (msg : ReceivedMsg) : Inbound :=
  if msg.IsTelemetry then
    { s with pump := .reading .recvMsg, telemetry := some (msg.payload.take telemetrySize) }
  else { s with pump := .reading .recvMsg, delivered := pushRecv msg nodeId s.delivered }

/-- The rest of `collect_telemetry` after a read. Every message but telemetry is dropped. -/
def collected (s : Inbound) : Received → Inbound
  | .more r => { s with collector := some r }
  | .message msg =>
    if msg.IsTelemetry then
      { s with collector := none, telemetry := some (msg.payload.take telemetrySize) }
    else { s with collector := none }
  | .nothing => { s with collector := none }

end Inbound

inductive InboundStep (nodeId : UInt32) : Inbound → InboundAction → Inbound → Prop
  | pumpRead {s : Inbound} {r : Reader} {k : Nat} :
      s.pump = .reading r → 0 < k → k ≤ r.wants → k ≤ s.stream.length →
      InboundStep nodeId s (.pumpRead k)
        { s with stream := s.stream.drop k, pump := .after (r.accept (s.stream.take k)) }
  | pumpFails {s : Inbound} {r : Reader} : s.pump = .reading r →
      InboundStep nodeId s .pumpFails { s with pump := .closing }
  | pumpHandles {s : Inbound} {msg : ReceivedMsg} :
      s.pump = .handling msg → (msg.IsTelemetry → s.collector = none) →
      InboundStep nodeId s .pumpHandles (s.handle nodeId msg)
  | pumpCloses {s : Inbound} : s.pump = .closing → s.collector = none →
      InboundStep nodeId s .pumpCloses { s with pump := .ended }
  | collect {s : Inbound} : s.collector = none → s.pump ≠ .ended →
      InboundStep nodeId s .collect { s with collector := some .recvMsg }
  | collectRead {s : Inbound} {r : Reader} {k : Nat} :
      s.collector = some r → 0 < k → k ≤ r.wants → k ≤ s.stream.length →
      InboundStep nodeId s (.collectRead k)
        ({ s with stream := s.stream.drop k }.collected (r.accept (s.stream.take k)))
  | collectFails {s : Inbound} {r : Reader} : s.collector = some r →
      InboundStep nodeId s .collectFails { s with collector := none }

namespace Inbound

variable (s : Inbound)

def PumpFresh : Prop := ∀ r, s.pump = .reading r → r = .recvMsg

def CollectorFresh : Prop := ∀ r, s.collector = some r → r = .recvMsg

/-- If a frame stands at the front of the stream, it is the answer to a heartbeat. -/
def AckNext : Prop :=
  ∀ (m : ReceivedMsg) (rest : ByteString), s.stream = m.bytes ++ rest → m.type = .heartbeatAck

end Inbound

/-- The two readers read frames one at a time, a call of `collect_telemetry` starts with the answer
to a heartbeat, and a read fails only after everything was read. -/
def InboundAction.Orderly (s : Inbound) : InboundAction → Prop
  | .pumpRead _ => s.CollectorFresh
  | .collectRead _ => s.PumpFresh ∧ (s.collector = some .recvMsg → s.AckNext)
  | .pumpFails | .collectFails => s.stream = []
  | _ => True

def others (l : List ReceivedMsg) : List ReceivedMsg := l.filter (fun m ↦ m.type ≠ .heartbeatAck)

def inQueue (nodeId : UInt32) (sent : List ReceivedMsg) : List ReceivedMsg :=
  (others sent).map (fun m ↦ { m with fromNodeId := nodeId })

/-- The messages come in order, and all of them when everything was read and handled. -/
def Inbound.Delivers (s : Inbound) (nodeId : UInt32) (sent : List ReceivedMsg) : Prop :=
  others s.delivered <+: inQueue nodeId sent ∧
    (s.stream = [] → (∀ msg, s.pump ≠ .handling msg) → others s.delivered = inQueue nodeId sent)

def Inbound.start (sent : List ReceivedMsg) (last : ReceivedMsg) (n : Nat) : Inbound where
  stream := frames sent ++ last.bytes.take n

def PumpPc.pending (nodeId : UInt32) : PumpPc → List ReceivedMsg
  | .handling msg => inQueue nodeId [msg]
  | _ => []

inductive Holder (s : Inbound) (m : ReceivedMsg) (rest : List ReceivedMsg) (j : Nat) : Prop
  | nobody : j = 0 → s.PumpFresh → s.CollectorFresh → Holder s m rest j
  | pump : s.pump = .reading (.upTo m j) → s.CollectorFresh → Holder s m rest j
  | collector : s.collector = some (.upTo m j) → s.PumpFresh →
      (rest = [] ∨ m.type = .heartbeatAck) → Holder s m rest j

/-- What has become of the frames; `missing` is what the worker did not send of the last one. -/
inductive Tracked (nodeId : UInt32) (sent : List ReceivedMsg) (last : ReceivedMsg)
    (missing : ByteString) (s : Inbound) : Prop
  | reading {pre rest : List ReceivedMsg} {m : ReceivedMsg} {j : Nat} :
      sent ++ [last] = pre ++ m :: rest → j < m.bytes.length →
      s.stream ++ missing = m.bytes.drop j ++ frames rest → Holder s m rest j →
      others s.delivered ++ s.pump.pending nodeId = inQueue nodeId pre →
      Tracked nodeId sent last missing s
  | spent : s.stream = [] → others s.delivered ++ s.pump.pending nodeId = inQueue nodeId sent →
      Tracked nodeId sent last missing s

section

variable {nodeId : UInt32} {sent pre rest : List ReceivedMsg} {last m : ReceivedMsg}
  {missing stream : ByteString} {s s' : Inbound} {a : InboundAction} {j k n : Nat}
  {tr : List (Inbound × InboundAction)}

@[simp] theorem inQueue_append (l l' : List ReceivedMsg) :
    inQueue nodeId (l ++ l') = inQueue nodeId l ++ inQueue nodeId l' := by
  simp [inQueue, others]

theorem inQueue_ack (h : m.type = .heartbeatAck) : inQueue nodeId [m] = [] := by
  simp [inQueue, others, h]

theorem inQueue_cut (h : m.payload.length ≤ maxPayload) :
    inQueue nodeId [m.cut] = inQueue nodeId [m] := by
  have htake : m.payload.take m.announced = m.payload := by
    rw [announced_of_small h, List.take_length]
  by_cases hack : m.type = .heartbeatAck
  · rw [inQueue_ack hack]
    exact inQueue_ack hack
  · simp [inQueue, others, ReceivedMsg.cut, hack, htake]

theorem last_or_complete (h : sent ++ [last] = pre ++ m :: rest) :
    rest = [] ∧ m = last ∧ pre = sent ∨
      ∃ mid, rest = mid ++ [last] ∧ sent = pre ++ m :: mid := by
  rcases List.eq_nil_or_concat rest with rfl | ⟨mid, x, rfl⟩
  · obtain ⟨hsent, hlast⟩ := List.append_inj' h rfl
    exact .inl ⟨rfl, (List.cons.inj hlast).1.symm, hsent.symm⟩
  · rw [List.concat_eq_append, ← List.cons_append, ← List.append_assoc] at h
    obtain ⟨hsent, hlast⟩ := List.append_inj' h rfl
    refine .inr ⟨mid, ?_, hsent⟩
    rw [List.concat_eq_append, (List.cons.inj hlast).1]

theorem upTo_eq_recvMsg (hj : j < m.bytes.length) (h : Reader.upTo m j = .recvMsg) : j = 0 := by
  by_cases hlt : j < 12
  · rw [Reader.upTo, if_pos hlt, Reader.recvMsg, Reader.header.injEq, List.take_eq_nil_iff] at h
    rcases h with h | h
    · exact h
    · rw [h, List.length_nil] at hj
      omega
  · rw [Reader.upTo, if_neg hlt, Reader.recvMsg] at h
    cases h

theorem read_frame (hsmall : m.payload.length ≤ maxPayload) (hj : j < m.bytes.length)
    (hstream : stream ++ missing = m.bytes.drop j ++ frames rest)
    (hk : k ≤ (Reader.upTo m j).wants) (hle : k ≤ stream.length) :
    (j + k < m.bytes.length ∧
      (Reader.upTo m j).accept (stream.take k) = .more (.upTo m (j + k)) ∧
      stream.drop k ++ missing = m.bytes.drop (j + k) ++ frames rest) ∨
    ((Reader.upTo m j).accept (stream.take k) = .message m.cut ∧
      stream.drop k ++ missing = frames rest) := by
  have hlen : 12 + m.announced = m.bytes.length := by
    rw [ReceivedMsg.bytes, length_frame, announced_of_small hsmall]
  have hj' : j < 12 + m.announced := by omega
  have htake : stream.take k = (m.bytes.drop j).take k := by
    rw [← take_stream hj' hk, ← hstream, List.take_append_of_le_length hle]
  have hdrop : stream.drop k ++ missing = m.bytes.drop (j + k) ++ frames rest := by
    rw [← drop_stream hj' hk, ← hstream, List.drop_append_of_le_length hle]
  have haccept := Reader.accept_upTo (by rwa [announced_of_small hsmall]) hj' hk
  rw [← htake, hlen] at haccept
  by_cases hmore : j + k < m.bytes.length
  · rw [if_pos hmore] at haccept
    exact .inl ⟨hmore, haccept, hdrop⟩
  · rw [if_neg hmore] at haccept
    have hnil : m.bytes.drop (j + k) = [] := List.drop_eq_nil_of_le (by omega)
    rw [hnil, List.nil_append] at hdrop
    exact .inr ⟨haccept, hdrop⟩

theorem Tracked.next (pre : List ReceivedMsg) (hmissing : missing ≠ [])
    (hall : sent ++ [last] = pre ++ rest)
    (hstream : s.stream ++ missing = frames rest) (hpump : s.PumpFresh)
    (hcollector : s.CollectorFresh)
    (hdelivered : others s.delivered ++ s.pump.pending nodeId = inQueue nodeId pre) :
    Tracked nodeId sent last missing s := by
  cases rest with
  | nil => exact (hmissing (List.append_eq_nil_iff.mp hstream).2).elim
  | cons m rest =>
    refine .reading (j := 0) hall ?_ hstream (.nobody rfl hpump hcollector) hdelivered
    rw [ReceivedMsg.bytes, length_frame]
    omega

/-- The pump reads where no call of `collect_telemetry` is in the middle of a frame. -/
theorem Holder.pump_eq {r : Reader} (h : Holder s m rest j) (hj : j < m.bytes.length)
    (hpump : s.pump = .reading r) (hfresh : s.CollectorFresh) : r = .upTo m j := by
  cases h with
  | nobody hzero hp hc =>
    subst hzero
    exact hp r hpump
  | pump hp hc => exact (PumpPc.reading.inj (hp.symm.trans hpump)).symm
  | collector hc hp hack =>
    have hzero := upTo_eq_recvMsg hj (hfresh _ hc)
    subst hzero
    exact hp r hpump

theorem Holder.collector_eq {r : Reader} (h : Holder s m rest j) (hj : j < m.bytes.length)
    (hcollector : s.collector = some r) (hfresh : s.PumpFresh) : r = .upTo m j := by
  cases h with
  | nobody hzero hp hc =>
    subst hzero
    exact hc r hcollector
  | pump hp hc =>
    have hzero := upTo_eq_recvMsg hj (hfresh _ hp)
    subst hzero
    exact hc r hcollector
  | collector hc hp hack => exact (Option.some.inj (hc.symm.trans hcollector)).symm

theorem all_read (hall : sent ++ [last] = pre ++ m :: rest) (hj : j < m.bytes.length)
    (hlast : missing.length ≤ last.bytes.length)
    (hstream : [] ++ missing = m.bytes.drop j ++ frames rest) : pre = sent := by
  rcases last_or_complete hall with ⟨-, -, hpre⟩ | ⟨mid, rfl, -⟩
  · exact hpre
  · have hlen := congrArg List.length hstream
    simp only [List.nil_append, List.length_append, List.length_drop, frames, List.flatMap_append,
      List.flatMap_singleton] at hlen
    omega

theorem Tracked.spent_of_nil (hall : sent ++ [last] = pre ++ m :: rest) (hj : j < m.bytes.length)
    (hlast : missing.length ≤ last.bytes.length)
    (hstream : s.stream ++ missing = m.bytes.drop j ++ frames rest) (hnil : s.stream = [])
    (hsame : s'.stream = s.stream)
    (hdelivered : others s'.delivered ++ s'.pump.pending nodeId = inQueue nodeId pre) :
    Tracked nodeId sent last missing s' := by
  rw [hnil] at hstream
  rw [all_read hall hj hlast hstream] at hdelivered
  exact .spent (hsame.trans hnil) hdelivered

theorem delivered_handle {msg : ReceivedMsg} (hpump : s.pump = .handling msg) :
    others (s.handle nodeId msg).delivered ++ (s.handle nodeId msg).pump.pending nodeId =
      others s.delivered ++ s.pump.pending nodeId := by
  rw [hpump]
  by_cases htelemetry : msg.IsTelemetry
  · simp [Inbound.handle, htelemetry, PumpPc.pending, inQueue_ack htelemetry.1]
  · by_cases hack : msg.type = .heartbeatAck
    · simp [Inbound.handle, htelemetry, PumpPc.pending, pushRecv, others, inQueue, hack]
    · simp [Inbound.handle, htelemetry, PumpPc.pending, pushRecv, others, inQueue, hack]

theorem handle_same (s : Inbound) (nodeId : UInt32) (msg : ReceivedMsg) :
    (s.handle nodeId msg).stream = s.stream ∧ (s.handle nodeId msg).collector = s.collector ∧
      (s.handle nodeId msg).pump = .reading .recvMsg := by
  by_cases htelemetry : msg.IsTelemetry
  · simp [Inbound.handle, htelemetry]
  · simp [Inbound.handle, htelemetry]

theorem collected_message (s : Inbound) (msg : ReceivedMsg) :
    (s.collected (.message msg)).stream = s.stream ∧ (s.collected (.message msg)).pump = s.pump ∧
      (s.collected (.message msg)).delivered = s.delivered ∧
      (s.collected (.message msg)).collector = none := by
  by_cases htelemetry : msg.IsTelemetry
  · simp [Inbound.collected, htelemetry]
  · simp [Inbound.collected, htelemetry]

/-- A call of `collect_telemetry` that starts with the answer to a heartbeat reads such an answer,
or the frame that does not come to its end. -/
theorem Holder.ack (h : Holder s m rest j) (hall : sent ++ [last] = pre ++ m :: rest)
    (hj : j < m.bytes.length) (hlast : missing.length ≤ last.bytes.length)
    (hstream : s.stream ++ missing = m.bytes.drop j ++ frames rest) (hfresh : s.PumpFresh)
    (hcollector : s.collector = some (.upTo m j))
    (hnext : s.collector = some .recvMsg → s.AckNext) : rest = [] ∨ m.type = .heartbeatAck := by
  by_cases hzero : j = 0
  · subst hzero
    rcases last_or_complete hall with ⟨hrest, -, -⟩ | ⟨mid, rfl, -⟩
    · exact .inl hrest
    · have hlen := congrArg List.length hstream
      simp only [List.length_append, List.length_drop, frames, List.flatMap_append,
        List.flatMap_singleton] at hlen
      have hbegins : m.bytes <+: s.stream :=
        List.prefix_of_prefix_length_le (hstream ▸ List.prefix_append _ _)
          (List.prefix_append s.stream missing) (by omega)
      obtain ⟨tail, htail⟩ := hbegins
      exact .inr (hnext hcollector m tail htail.symm)
  · cases h with
    | nobody hz hp hc => exact (hzero hz).elim
    | pump hp hc => exact (hzero (upTo_eq_recvMsg hj (hfresh _ hp))).elim
    | collector hc hp hack => exact hack

theorem InboundStep.tracked_spent (hnil : s.stream = [])
    (hdelivered : others s.delivered ++ s.pump.pending nodeId = inQueue nodeId sent)
    (h : InboundStep nodeId s a s') : Tracked nodeId sent last missing s' := by
  cases h with
  | pumpRead hpump hpos hk hle =>
    rw [hnil, List.length_nil] at hle
    omega
  | pumpFails hpump => exact .spent hnil (by simpa [hpump, PumpPc.pending] using hdelivered)
  | @pumpHandles msg hpump hlock =>
    refine .spent ?_ ((delivered_handle hpump).trans hdelivered)
    exact (handle_same s nodeId msg).1.trans hnil
  | pumpCloses hpump hlock =>
    exact .spent hnil (by simpa [hpump, PumpPc.pending] using hdelivered)
  | collect hlock hpump => exact .spent hnil hdelivered
  | collectRead hcollector hpos hk hle =>
    rw [hnil, List.length_nil] at hle
    omega
  | collectFails hcollector => exact .spent hnil hdelivered

theorem InboundStep.tracked (hsmall : ∀ m ∈ sent ++ [last], m.payload.length ≤ maxPayload)
    (hmissing : missing ≠ []) (hlast : missing.length ≤ last.bytes.length)
    (hi : Tracked nodeId sent last missing s) (hok : a.Orderly s)
    (h : InboundStep nodeId s a s') : Tracked nodeId sent last missing s' := by
  cases hi with
  | spent hnil hdelivered => exact h.tracked_spent hnil hdelivered
  | @reading pre rest m j hall hj hstream holder hdelivered =>
    have hm : m.payload.length ≤ maxPayload := hsmall m (by rw [hall]; simp)
    cases h with
    | @pumpRead r k hpump hpos hk hle =>
      obtain rfl := holder.pump_eq hj hpump hok
      rcases read_frame hm hj hstream hk hle with ⟨hmore, haccept, hdrop⟩ | ⟨haccept, hdrop⟩
      · rw [haccept]
        refine .reading hall hmore hdrop (.pump rfl hok) ?_
        simpa [hpump, PumpPc.pending, PumpPc.after] using hdelivered
      · rw [haccept]
        refine .next (pre ++ [m]) hmissing (by simpa using hall) hdrop ?_ hok ?_
        · rintro r ⟨⟩
        · simp only [hpump, PumpPc.pending, List.append_nil] at hdelivered
          simp [PumpPc.after, PumpPc.pending, hdelivered, inQueue_cut hm]
    | pumpFails hpump =>
      refine .spent_of_nil hall hj hlast hstream hok rfl ?_
      simpa [hpump, PumpPc.pending] using hdelivered
    | @pumpHandles msg hpump hlock =>
      obtain ⟨hsame, hcollector, hreading⟩ := handle_same s nodeId msg
      have hpumpFresh : (s.handle nodeId msg).PumpFresh := by
        intro r hr
        exact (PumpPc.reading.inj (hreading.symm.trans hr)).symm
      refine .reading hall hj (hsame ▸ hstream) ?_ ((delivered_handle hpump).trans hdelivered)
      cases holder with
      | nobody hzero hp hc => exact .nobody hzero hpumpFresh (fun r hr ↦ hc r (hcollector ▸ hr))
      | pump hp hc => simp [hpump] at hp
      | collector hc hp hack => exact .collector (hcollector.trans hc) hpumpFresh hack
    | pumpCloses hpump hlock =>
      refine .reading hall hj hstream ?_ (by simpa [hpump, PumpPc.pending] using hdelivered)
      cases holder with
      | nobody hzero hp hc => exact .nobody hzero (by rintro r ⟨⟩) hc
      | pump hp hc => simp [hpump] at hp
      | collector hc hp hack => simp [hlock] at hc
    | collect hlock hpump =>
      have hfresh : Inbound.CollectorFresh { s with collector := some .recvMsg } :=
        fun r hr ↦ (Option.some.inj hr).symm
      refine .reading hall hj hstream ?_ hdelivered
      cases holder with
      | nobody hzero hp hc => exact .nobody hzero hp hfresh
      | pump hp hc => exact .pump hp hfresh
      | collector hc hp hack => simp [hlock] at hc
    | @collectRead r k hcollector hpos hk hle =>
      obtain rfl := holder.collector_eq hj hcollector hok.1
      have hack := holder.ack hall hj hlast hstream hok.1 hcollector hok.2
      rcases read_frame hm hj hstream hk hle with ⟨hmore, haccept, hdrop⟩ | ⟨haccept, hdrop⟩
      · rw [haccept]
        exact .reading hall hmore hdrop (.collector rfl hok.1 hack) hdelivered
      · rw [haccept]
        obtain ⟨hs, hp, hd, hc⟩ := collected_message { s with stream := s.stream.drop k } m.cut
        have htype : m.type = .heartbeatAck := by
          refine hack.resolve_left (fun hrest ↦ hmissing ?_)
          rw [hrest] at hdrop
          exact (List.append_eq_nil_iff.mp hdrop).2
        refine .next (pre ++ [m]) hmissing (by simpa using hall) ?_ ?_ ?_ ?_
        · rw [hs]
          exact hdrop
        · exact fun r hr ↦ hok.1 r (hp ▸ hr)
        · intro r hr
          simp [hc] at hr
        · rw [hd, hp, inQueue_append, inQueue_ack htype, List.append_nil]
          exact hdelivered
    | collectFails hcollector => exact .spent_of_nil hall hj hlast hstream hok rfl hdelivered

theorem pending_of_not_handling (h : ∀ msg, s.pump ≠ .handling msg) :
    s.pump.pending nodeId = [] := by
  cases hpump : s.pump with
  | handling msg => exact (h msg hpump).elim
  | reading r => rfl
  | closing => rfl
  | ended => rfl

theorem Tracked.delivers (hlast : missing.length ≤ last.bytes.length)
    (h : Tracked nodeId sent last missing s) : s.Delivers nodeId sent := by
  cases h with
  | spent hnil hdelivered =>
    refine ⟨⟨_, hdelivered⟩, fun _ hpump ↦ ?_⟩
    rwa [pending_of_not_handling hpump, List.append_nil] at hdelivered
  | @reading pre rest m j hall hj hstream holder hdelivered =>
    have hpre : inQueue nodeId pre <+: inQueue nodeId sent := by
      rcases last_or_complete hall with ⟨-, -, rfl⟩ | ⟨mid, -, rfl⟩
      · exact List.prefix_refl _
      · exact ⟨_, (inQueue_append pre (m :: mid)).symm⟩
    refine ⟨List.IsPrefix.trans ⟨_, hdelivered⟩ hpre, fun hnil hpump ↦ ?_⟩
    rw [hnil] at hstream
    rwa [pending_of_not_handling hpump, List.append_nil, all_read hall hj hlast hstream]
      at hdelivered

/-- Along a run in which the two readers do not mix, every message but the answers to heartbeats
comes to the inbound queue, in order and once. -/
theorem inbound_delivers (hsmall : ∀ m ∈ sent ++ [last], m.payload.length ≤ maxPayload)
    (hn : n < last.bytes.length) (h : Run (InboundStep nodeId) (.start sent last n) tr s)
    (hok : ∀ x ∈ tr, x.2.Orderly x.1) : s.Delivers nodeId sent := by
  have hmissing : last.bytes.drop n ≠ [] := by
    rw [Ne, List.drop_eq_nil_iff]
    omega
  have hlast : (last.bytes.drop n).length ≤ last.bytes.length := by
    rw [List.length_drop]
    omega
  have hstart : Tracked nodeId sent last (last.bytes.drop n) (.start sent last n) := by
    refine .next [] hmissing rfl ?_ ?_ ?_ rfl
    · simp [Inbound.start, frames]
    · exact fun r hr ↦ (PumpPc.reading.inj hr).symm
    · rintro r ⟨⟩
  have hrun := h.guarded (fun _ _ _ hi ha hstep ↦ hstep.tracked hsmall hmissing hlast hi ha)
    hstart hok
  exact hrun.2.delivers hlast

end

def ack : ReceivedMsg := { type := .heartbeatAck, payload := List.replicate 32 0 }

def result : ReceivedMsg := { type := .generateResult, payload := [1] }

theorem bytes_type (m : ReceivedMsg) (rest : ByteString) :
    (m.bytes ++ rest).getD 4 0 = m.type.value := by
  simp [ReceivedMsg.bytes, frame, MessageHeader.bytes, headerOf]

theorem inbound_delivers_result :
    ∃ tr s, Run (InboundStep 3) (.start [ack, result] result 0) tr s ∧
      tr.map Prod.snd = [.collect, .collectRead 12, .collectRead 32, .pumpRead 12, .pumpRead 1,
        .pumpHandles] ∧ s.stream = [] ∧ others s.delivered = [{ result with fromNodeId := 3 }] := by
  have hrun : ∃ tr s, Run (InboundStep 3) (.start [ack, result] result 0) tr s ∧
      tr.map Prod.snd = [.collect, .collectRead 12, .collectRead 32, .pumpRead 12, .pumpRead 1,
        .pumpHandles] ∧ s.stream = [] ∧ (∀ msg, s.pump ≠ .handling msg) ∧
      ∀ x ∈ tr, x.2.Orderly x.1 := by
    refine ⟨_, _, .cons (.collect rfl (by decide)) (.cons (.collectRead rfl (by decide) (by decide)
      (by decide)) (.cons (.collectRead rfl (by decide) (by decide) (by decide))
        (.cons (.pumpRead rfl (by decide) (by decide) (by decide)) (.cons (.pumpRead rfl (by decide)
          (by decide) (by decide)) (.cons (.pumpHandles rfl (by decide)) (.nil _)))))),
            rfl, rfl, ?_, ?_⟩
    · rintro msg ⟨⟩
    · simp only [List.forall_mem_cons]
      refine ⟨trivial, ⟨?_, fun _ ↦ ?_⟩, ⟨?_, fun h ↦ ?_⟩, ?_, ?_, trivial, by simp⟩
      · exact fun r hr ↦ (PumpPc.reading.inj hr).symm
      · intro m rest hm
        have htype := bytes_type m rest
        rw [← hm] at htype
        exact congrArg MsgType.mk htype.symm
      · exact fun r hr ↦ (PumpPc.reading.inj hr).symm
      · exact absurd h (by decide)
      · rintro r ⟨⟩
      · rintro r ⟨⟩
  obtain ⟨tr, s, hrun, hactions, hnil, hpump, hok⟩ := hrun
  refine ⟨tr, s, hrun, hactions, hnil, ?_⟩
  exact (inbound_delivers (by decide) (by decide) hrun hok).2 hnil hpump

/-- A call of `collect_telemetry` that reads a result drops it. -/
theorem result_swallowed :
    ∃ tr s, Run (InboundStep 3) (.start [result] result 0) tr s ∧
      tr.map Prod.snd = [.collect, .collectRead 12, .collectRead 1] ∧
      s.stream = [] ∧ s.pump = .reading .recvMsg ∧ s.collector = none ∧
      ¬ s.Delivers 3 [result] := by
  refine ⟨_, _, .cons (.collect rfl (by decide)) (.cons (.collectRead rfl (by decide) (by decide)
    (by decide)) (.cons (.collectRead rfl (by decide) (by decide) (by decide)) (.nil _))), rfl, rfl,
      rfl, rfl, ?_⟩
  rintro ⟨-, hall⟩
  exact absurd (hall rfl (by rintro msg ⟨⟩)) (by decide)

end Cerberus.Cluster
