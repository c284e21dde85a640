import Cerberus.Cluster.Wire

namespace Cerberus.Cluster

open Foundation.Bytes Foundation.Trace

abbrev SockFd := Int

structure ClusterTransport where
  preferredLink : LinkType := .ethernet10G
  workerSockets : UInt32 → Option SockFd := fun _ ↦ none

/-- The arguments of a call of `send`, and the results of its writes. -/
structure SendCall where
  type : MsgType
  payload : ByteString
  results : List Int

def SendCall.message (c : SendCall) : ReceivedMsg := { type := c.type, payload := c.payload }

/-- The result of `send`, and the bytes that it writes to the socket of the worker. -/
def ClusterTransport.send (t : ClusterTransport) (target : UInt32) (c : SendCall) :
    Except ClusterError Unit × ByteString :=
  match t.workerSockets target with
  | none =>
    -- the loopback transmits nothing
    if t.preferredLink = .loopbackUnix then (.ok (), []) else (.error .notConnected, [])
  | some _ =>
    let (written, w) := (Writer.sendMsg c.type c.payload).perform c.results
    if w = .done true then (.ok (), written) else (.error .sendFailed, written)

def pushRecv (msg : ReceivedMsg) (fromNodeId : UInt32) (queue : List ReceivedMsg) :
    List ReceivedMsg :=
  queue ++ [{ msg with fromNodeId }]

/-- A worker that receives: the bytes it has not read, its call of `recv_msg` unless the loop has
ended, and its inbound queue. -/
structure Receiver where
  stream : ByteString
  reader : Option Reader := some .recvMsg
  delivered : List ReceivedMsg := []

def Receiver.after (r : Receiver) (k : Nat) : Received → Receiver
  | .more reader => { r with stream := r.stream.drop k, reader := some reader }
  | .message msg =>
    { stream := r.stream.drop k, reader := some .recvMsg, delivered := pushRecv msg 0 r.delivered }
  | .nothing => { r with stream := r.stream.drop k, reader := none }

inductive ReceiverStep : Receiver → Nat → Receiver → Prop
  | read {r : Receiver} {reader : Reader} {k : Nat} :
      r.reader = some reader → 0 < k → k ≤ reader.wants → k ≤ r.stream.length →
      ReceiverStep r k (r.after k (reader.accept (r.stream.take k)))

def Receiver.Finished (r : Receiver) : Prop := r.reader = none ∨ r.stream = []

def Receiver.Returned (r : Receiver) (sent : List ReceivedMsg) : Prop :=
  r.delivered = sent ∧ r.reader.isSome

section

variable {n k : Nat} {r r' : Receiver} {m : ReceivedMsg} {sent : List ReceivedMsg}
  {tr : List (Receiver × Nat)}

def frames (sent : List ReceivedMsg) : ByteString := sent.flatMap ReceivedMsg.bytes

inductive Receiving (sent : List ReceivedMsg) (r : Receiver) : Prop
  | all : r.delivered = sent → (∀ m ∈ sent, m.payload.length ≤ maxPayload) →
      r.reader = some .recvMsg → r.stream = [] → Receiving sent r
  | within {n : Nat} {m : ReceivedMsg} {rest : List ReceivedMsg} :
      sent = r.delivered ++ m :: rest → (∀ m ∈ r.delivered, m.payload.length ≤ maxPayload) →
      n < 12 + m.announced → (maxPayload < m.announced → n < 12) →
      r.reader = some (.upTo m n) → r.stream = m.bytes.drop n ++ frames rest → Receiving sent r
  | spoiled : (∃ m ∈ sent, maxPayload < m.payload.length) →
      (r.reader = none ∨ ¬ r.delivered <+: sent) → Receiving sent r

theorem announced_of_small (h : m.payload.length ≤ maxPayload) :
    m.announced = m.payload.length :=
  Nat.mod_eq_of_lt (lt_of_le_of_lt h (by decide))

theorem cut_of_small (hnode : m.fromNodeId = 0) (h : m.payload.length ≤ maxPayload) :
    m.cut = m := by
  rw [ReceivedMsg.cut, announced_of_small h, List.take_length, ← hnode]

/-- A payload that is too large and passes the check of the header is cut. -/
theorem payload_cut_ne (hlarge : maxPayload < m.payload.length) (hfit : m.announced ≤ maxPayload) :
    m.cut.payload ≠ m.payload := by
  intro heq
  have hlen := congrArg List.length heq
  rw [ReceivedMsg.cut, List.length_take] at hlen
  omega

theorem Receiving.next (rest : List ReceivedMsg)
    (hsmall : ∀ m ∈ r.delivered, m.payload.length ≤ maxPayload)
    (hreader : r.reader = some .recvMsg)
    (hsent : sent = r.delivered ++ rest) (hstream : r.stream = frames rest) : Receiving sent r := by
  cases rest with
  | nil =>
    rw [List.append_nil] at hsent
    exact .all hsent.symm (hsent ▸ hsmall) hreader hstream
  | cons m rest =>
    refine .within (n := 0) hsent hsmall (by omega) (by omega) hreader ?_
    rw [hstream, frames, List.flatMap_cons, List.drop_zero, frames]

theorem not_prefix_snoc {d rest : List ReceivedMsg} {m m' : ReceivedMsg} (h : m' ≠ m) :
    ¬ d ++ [m'] <+: d ++ m :: rest := by
  rw [List.prefix_append_right_inj, List.cons_prefix_cons]
  exact fun hp ↦ h hp.1

theorem take_stream {rest : ByteString} (hn : n < 12 + m.announced)
    (hk : k ≤ (Reader.upTo m n).wants) :
    (m.bytes.drop n ++ rest).take k = (m.bytes.drop n).take k := by
  have hle := Reader.wants_upTo_le hn
  exact List.take_append_of_le_length (by rw [List.length_drop]; omega)

theorem drop_stream {rest : ByteString} (hn : n < 12 + m.announced)
    (hk : k ≤ (Reader.upTo m n).wants) :
    (m.bytes.drop n ++ rest).drop k = m.bytes.drop (n + k) ++ rest := by
  have hle := Reader.wants_upTo_le hn
  rw [List.drop_append_of_le_length (by rw [List.length_drop]; omega), List.drop_drop]

theorem ReceiverStep.spoiled (h : ReceiverStep r k r') (hd : ¬ r.delivered <+: sent) :
    ¬ r'.delivered <+: sent := by
  cases h with
  | read hreader hpos hwants hle =>
    unfold Receiver.after
    split
    · exact hd
    · exact fun hp ↦ hd ((List.prefix_append _ _).trans hp)
    · exact hd

theorem Receiving.message {rest : List ReceivedMsg} (hnode : ∀ m ∈ sent, m.fromNodeId = 0)
    (hsent : sent = r.delivered ++ m :: rest)
    (hsmall : ∀ m ∈ r.delivered, m.payload.length ≤ maxPayload)
    (hlen : m.payload.length ≤ maxPayload) (hend : 12 + m.payload.length ≤ n)
    (hdrop : r.stream.drop k = m.bytes.drop n ++ frames rest) :
    Receiving sent (r.after k (.message m.cut)) := by
  have hzero : m.fromNodeId = 0 := hnode m (by simp [hsent])
  have hcut : { m.cut with fromNodeId := 0 } = m := by
    rw [cut_of_small hzero hlen, ← hzero]
  have hdelivered : (r.after k (.message m.cut)).delivered = r.delivered ++ [m] :=
    congrArg (fun m' ↦ r.delivered ++ [m']) hcut
  refine .next rest ?_ rfl ?_ ?_
  · rw [hdelivered]
    intro m' hm'
    rcases List.mem_append.mp hm' with hm' | hm'
    · exact hsmall m' hm'
    · rwa [List.mem_singleton.mp hm']
  · rw [hdelivered, hsent, List.append_assoc, List.singleton_append]
  · have hnil : m.bytes.drop n = [] :=
      List.drop_eq_nil_of_le (by rwa [ReceivedMsg.bytes, length_frame])
    exact hdrop.trans (by rw [hnil, List.nil_append])

theorem ReceiverStep.receiving (hnode : ∀ m ∈ sent, m.fromNodeId = 0) (hi : Receiving sent r)
    (h : ReceiverStep r k r') : Receiving sent r' := by
  cases hi with
  | all hd hsmall hreader hstream =>
    cases h with
    | read hreader' hpos hwants hle =>
      rw [hstream, List.length_nil] at hle
      omega
  | spoiled hlarge hspoiled =>
    refine .spoiled hlarge ?_
    rcases hspoiled with hnone | hd
    · cases h with
      | read hreader' hpos hwants hle => simp [hnone] at hreader'
    · exact .inr (h.spoiled hd)
  | @within n m rest hsent hsmall hn hhead hreader hstream =>
    have hm : m ∈ sent := by simp [hsent]
    cases h with
    | @read reader _ hreader' hpos hwants hle =>
      obtain rfl : Reader.upTo m n = reader := Option.some.inj (hreader.symm.trans hreader')
      have hdrop : r.stream.drop k = m.bytes.drop (n + k) ++ frames rest := by
        rw [hstream, drop_stream hn hwants]
      rw [hstream, take_stream hn hwants]
      by_cases hfit : m.announced ≤ maxPayload
      · rw [Reader.accept_upTo hfit hn hwants]
        by_cases hmore : n + k < 12 + m.announced
        · rw [if_pos hmore]
          exact .within hsent hsmall hmore (by omega) rfl hdrop
        · rw [if_neg hmore]
          by_cases hlen : m.payload.length ≤ maxPayload
          · rw [announced_of_small hlen, Nat.not_lt] at hmore
            exact .message hnode hsent hsmall hlen hmore hdrop
          · refine .spoiled ⟨m, hm, Nat.not_le.mp hlen⟩ (.inr ?_)
            have hne : { m.cut with fromNodeId := 0 } ≠ m := by
              intro heq
              exact payload_cut_ne (Nat.not_le.mp hlen) hfit (congrArg ReceivedMsg.payload heq)
            rw [hsent]
            exact not_prefix_snoc hne
      · have hlarge := Nat.not_le.mp hfit
        rw [Reader.accept_upTo_large hlarge (hhead hlarge) hwants]
        by_cases hmore : n + k < 12
        · rw [if_pos hmore]
          exact .within hsent hsmall (by omega) (fun _ ↦ hmore) rfl hdrop
        · rw [if_neg hmore]
          exact .spoiled ⟨m, hm, hlarge.trans_le (Reader.announced_le m)⟩ (.inl rfl)

theorem run_receiving (hnode : ∀ m ∈ sent, m.fromNodeId = 0)
    (h : Run ReceiverStep { stream := frames sent } tr r) : Receiving sent r :=
  (h.invariant (fun _ _ _ hi hstep ↦ hstep.receiving hnode hi)
    (.next sent (by simp) rfl rfl rfl)).2

/-- What the worker returns of some frames, when it has read them or has given up. -/
theorem returned_iff (hnode : ∀ m ∈ sent, m.fromNodeId = 0)
    (h : Run ReceiverStep { stream := frames sent } tr r) (hfin : r.Finished) :
    r.Returned sent ↔ ∀ m ∈ sent, m.payload.length ≤ maxPayload := by
  cases run_receiving hnode h with
  | all hd hsmall hreader hstream =>
    exact ⟨fun _ ↦ hsmall, fun _ ↦ ⟨hd, by rw [hreader]; rfl⟩⟩
  | @within n m rest hsent hsmall hn hhead hreader hstream =>
    -- the rest of the frame is still to be read
    have hle := Reader.announced_le m
    rcases hfin with hnone | hnil
    · simp [hreader] at hnone
    · rw [hstream, List.append_eq_nil_iff, List.drop_eq_nil_iff, ReceivedMsg.bytes,
        length_frame] at hnil
      omega
  | spoiled hlarge hspoiled =>
    obtain ⟨m, hm, hlen⟩ := hlarge
    refine iff_of_false ?_ (fun hsmall ↦ absurd (hsmall m hm) (by omega))
    rintro ⟨hd, hreader⟩
    rcases hspoiled with hnone | hbegins
    · simp [hnone] at hreader
    · exact hbegins (hd ▸ List.prefix_refl _)

theorem Reader.wants_of_accept {reader reader' : Reader} {bytes : ByteString}
    (h : reader.accept bytes = .more reader') : 0 < reader'.wants := by
  cases reader with
  | header got =>
    rw [accept] at h
    split at h
    · injection h with h
      rw [← h, wants]
      omega
    · unfold afterHeader at h
      split at h
      · cases h
      · split at h
        · cases h
        · split at h
          · injection h with h
            rw [← h, wants]
            simpa
          · cases h
  | payload type len got =>
    rw [accept] at h
    split at h
    · injection h with h
      rw [← h, wants]
      omega
    · cases h

theorem ReceiverStep.wants (h : ReceiverStep r k r') : ∀ reader ∈ r'.reader, 0 < reader.wants := by
  cases h with
  | @read reader _ hreader hpos hwants hle =>
    cases haccept : reader.accept (r.stream.take k) with
    | more reader' =>
      intro reader'' hmem
      rw [← Option.some.inj hmem]
      exact Reader.wants_of_accept haccept
    | message msg =>
      intro reader'' hmem
      rw [← Option.some.inj hmem]
      decide
    | nothing => exact fun _ hmem ↦ (Option.not_mem_none _ hmem).elim

theorem ReceiverStep.length (h : ReceiverStep r k r') : r'.stream.length + k = r.stream.length := by
  cases h with
  | @read reader _ hreader hpos hwants hle =>
    have hdrop : (r.stream.drop k).length + k = r.stream.length := by
      rw [List.length_drop]
      omega
    cases reader.accept (r.stream.take k) with
    | more reader' => exact hdrop
    | message msg => exact hdrop
    | nothing => exact hdrop

theorem exists_finished (hwants : ∀ reader ∈ r.reader, 0 < reader.wants) :
    ∃ tr r', Run ReceiverStep r tr r' ∧ r'.Finished := by
  induction hlen : r.stream.length using Nat.strong_induction_on generalizing r with
  | _ len ih =>
    cases hreader : r.reader with
    | none => exact ⟨[], r, .nil r, .inl hreader⟩
    | some reader =>
      by_cases hnil : r.stream = []
      · exact ⟨[], r, .nil r, .inr hnil⟩
      · have hpos := List.length_pos_iff.mpr hnil
        have hstep := ReceiverStep.read hreader Nat.one_pos (hwants reader hreader) hpos
        have hshort := hstep.length
        obtain ⟨tr, r', hrun, hfin⟩ := ih _ (by omega) hstep.wants rfl
        exact ⟨_, r', .cons hstep hrun, hfin⟩

end

section

variable {t : ClusterTransport} {target : UInt32} {calls : List SendCall} {c : SendCall}
  {tr : List (Receiver × Nat)} {r : Receiver}

theorem send_ok {fd : SockFd} (hfd : t.workerSockets target = some fd)
    (h : (t.send target c).1 = .ok ()) : (t.send target c).2 = c.message.bytes := by
  have hsend : t.send target c =
      if ((Writer.sendMsg c.type c.payload).perform c.results).2 = .done true then
        (.ok (), ((Writer.sendMsg c.type c.payload).perform c.results).1)
      else (.error .sendFailed, ((Writer.sendMsg c.type c.payload).perform c.results).1) := by
    simp [ClusterTransport.send, hfd]
  rw [hsend] at h ⊢
  by_cases hdone : ((Writer.sendMsg c.type c.payload).perform c.results).2 = .done true
  · rw [if_pos hdone]
    exact Writer.perform_ok hdone
  · rw [if_neg hdone] at h
    cases h

theorem send_unconnected (hfd : t.workerSockets target = none) : (t.send target c).2 = [] := by
  unfold ClusterTransport.send
  rw [hfd]
  by_cases hlink : t.preferredLink = .loopbackUnix
  · simp [hlink]
  · simp [hlink]

/-- After calls of `send` that have all reported success, the worker returns their messages exactly
where they went to a socket and no payload was larger than the receiver accepts. -/
theorem framing_iff (hok : ∀ c ∈ calls, (t.send target c).1 = .ok ())
    (hrun : Run ReceiverStep { stream := calls.flatMap (fun c ↦ (t.send target c).2) } tr r)
    (hfin : r.Finished) :
    r.Returned (calls.map SendCall.message) ↔
      (calls ≠ [] → (t.workerSockets target).isSome) ∧
        ∀ c ∈ calls, c.payload.length ≤ maxPayload := by
  cases hfd : t.workerSockets target with
  | none =>
    have hnone : calls.flatMap (fun c ↦ (t.send target c).2) = frames [] := by
      rw [frames, List.flatMap_nil, List.flatMap_eq_nil_iff]
      exact fun c _ ↦ send_unconnected hfd
    rw [hnone] at hrun
    have hreturned : r.Returned [] := (returned_iff (by simp) hrun hfin).mpr (by simp)
    constructor
    · intro h
      have hnil : calls.map SendCall.message = [] := h.1.symm.trans hreturned.1
      simp [List.map_eq_nil_iff.mp hnil]
    · rintro ⟨hcalls, -⟩
      have hnil : calls = [] := by
        by_contra hne
        simpa using hcalls hne
      rwa [hnil]
  | some fd =>
    have hstream : calls.flatMap (fun c ↦ (t.send target c).2) =
        frames (calls.map SendCall.message) := by
      rw [frames, List.flatMap_map]
      exact List.flatMap_congr (fun c hc ↦ send_ok hfd (hok c hc))
    rw [hstream] at hrun
    rw [returned_iff (by simp [SendCall.message]) hrun hfin]
    simp [SendCall.message]

end

def wholeCall (type : MsgType) (payload : ByteString) : SendCall :=
  ⟨type, payload, [12, payload.length]⟩

def oneWorker : ClusterTransport where
  workerSockets := Function.update (fun _ ↦ none) 1 (some 5)

theorem send_wholeCall (type : MsgType) (payload : ByteString) :
    (oneWorker.send 1 (wholeCall type payload)).1 = .ok () := by
  have hlen : (headerOf type payload).bytes.length = 12 := MessageHeader.length_bytes _
  cases payload with
  | nil =>
    simp [ClusterTransport.send, oneWorker, wholeCall, Writer.sendMsg, Writer.perform,
      Writer.write, Writer.afterHeader, hlen, List.drop_eq_nil_of_le]
  | cons b payload =>
    have hpos : ¬ (payload.length : Int) < 0 := by omega
    simp [ClusterTransport.send, oneWorker, wholeCall, Writer.sendMsg, Writer.perform,
      Writer.write, Writer.afterHeader, Writer.afterPayload, hlen, List.drop_eq_nil_of_le, hpos]

def twoCalls : List SendCall := [wholeCall .heartbeat [], wholeCall .generateRequest [1, 2, 3]]

def sentBytes (calls : List SendCall) : ByteString :=
  calls.flatMap (fun c ↦ (oneWorker.send 1 c).2)

theorem framing_iff_two :
    ∃ tr r, Run ReceiverStep { stream := sentBytes twoCalls } tr r ∧ r.Finished ∧
      r.Returned [⟨0, .heartbeat, []⟩, ⟨0, .generateRequest, [1, 2, 3]⟩] := by
  obtain ⟨tr, r, hrun, hfin⟩ := exists_finished (r := { stream := sentBytes twoCalls })
    (by simp [Reader.recvMsg, Reader.wants])
  refine ⟨tr, r, hrun, hfin, (framing_iff ?_ hrun hfin).mpr ⟨fun _ ↦ rfl, by decide⟩⟩
  simp [twoCalls, send_wholeCall]

def oversize : SendCall := wholeCall .generateRequest (List.replicate (maxPayload + 1) 0)

/-- It is sent with success, and the worker does not return it. -/
theorem oversize_dropped :
    (oneWorker.send 1 oversize).1 = .ok () ∧
    ∃ tr r, Run ReceiverStep { stream := sentBytes [oversize] } tr r ∧ r.Finished ∧
      ¬ r.Returned [oversize.message] := by
  have hok : (oneWorker.send 1 oversize).1 = .ok () := send_wholeCall _ _
  have hsent : sentBytes [oversize] = frames [oversize.message] := by
    rw [sentBytes, List.flatMap_singleton, send_ok rfl hok, frames, List.flatMap_singleton]
  obtain ⟨tr, r, hrun, hfin⟩ := exists_finished (r := { stream := sentBytes [oversize] })
    (by simp [Reader.recvMsg, Reader.wants])
  refine ⟨hok, tr, r, hrun, hfin, fun h ↦ ?_⟩
  rw [hsent] at hrun
  have hsmall := (returned_iff (by simp [SendCall.message]) hrun hfin).mp h
  have hlen := hsmall oversize.message (List.mem_singleton_self _)
  rw [SendCall.message, oversize, wholeCall, List.length_replicate] at hlen
  omega

end Cerberus.Cluster
