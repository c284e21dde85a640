import Cerberus.Cluster.Framing

namespace Cerberus.Cluster

open Foundation.Bytes Foundation.LittleEndian Foundation.Trace

structure GenerationRequest where
  prompt : ByteString
  width : UInt32 := 512
  height : UInt32 := 512
  numSteps : UInt32 := 20
  guidanceScale : UInt32 := 0x40F00000
  seed : UInt64 := 0xFFFFFFFFFFFFFFFF

/-- The flat payload; the length of the prompt is cut to 32 bits, and the prompt with it. -/
def GenerationRequest.pack (req : GenerationRequest) : ByteString :=
  let promptLen := req.prompt.length % 2 ^ 32
  littleEndian 4 promptLen ++ req.prompt.take promptLen ++ littleEndian 4 req.width.toNat ++
    littleEndian 4 req.height.toNat ++ littleEndian 4 req.numSteps.toNat ++
    littleEndian 4 req.guidanceScale.toNat ++ littleEndian 8 req.seed.toNat

structure GeneratedImage where
  pixels : ByteString
  width : Nat
  height : Nat
  generationTimeMs : Nat
  deriving DecidableEq

/-- What `try_cluster_dispatch_` makes of a message: an image, the error `Unknown`, or the exception
of a vector that is too long. -/
inductive DispatchResult
  | image (img : GeneratedImage)
  | unknown
  | lengthError
  deriving DecidableEq

def kHdrSz : Nat := 20

/-- The payload of a result. The sums and products are those of 64 bits. -/
def unpackImage (rp : ByteString) : DispatchResult :=
  if rp.length < kHdrSz then .unknown
  else
    let imgW := readAt 0 4 rp
    let imgH := readAt 4 4 rp
    let pixelCount := readAt 12 8 rp
    let expectedPixels := imgW * imgH * 4 % 2 ^ 64
    if pixelCount ≠ expectedPixels ∨ rp.length < (kHdrSz + pixelCount) % 2 ^ 64 then .unknown
    else if 2 ^ 63 ≤ pixelCount then .lengthError
    else .image
      { pixels := (rp.drop kHdrSz).take pixelCount
        width := imgW
        height := imgH
        generationTimeMs := readAt 8 4 rp }

def unpackMessage (msg : ReceivedMsg) : DispatchResult :=
  if msg.type ≠ .generateResult then .unknown else unpackImage msg.payload

/-- A message in the inbound queue, and the request that the worker answers with it. The message
itself does not name the request. -/
structure Queued where
  msg : ReceivedMsg
  answers : Option Nat

/-- The coordinator and its calls of `try_cluster_dispatch_`, one after the other. The requests have
numbers in the order in which they were sent. -/
structure Dispatcher where
  transport : ClusterTransport
  recvQueue : List Queued := []
  targets : List UInt32 := []
  unanswered : List Nat := []
  waiting : Option Nat := none
  returned : List (Nat × Queued × GeneratedImage) := []

inductive DispatchAction
  | dispatch (req : GenerationRequest) (target : UInt32) (results : List Int)
  | answer (n : Nat) (payload : ByteString)
  | message (msg : ReceivedMsg)
  | receive
  | timeout

namespace Dispatcher

variable (s : Dispatcher)

/-- The call up to its `recv`. A request that was not written to a socket gets no answer. -/
def dispatch (req : GenerationRequest) (target : UInt32) (results : List Int) : Dispatcher :=
  match (s.transport.send target ⟨.generateRequest, req.pack, results⟩).1 with
  | .error _ => s
  | .ok () =>
    { s with
      targets := s.targets ++ [target]
      unanswered :=
        if (s.transport.workerSockets target).isSome then s.unanswered ++ [s.targets.length]
        else s.unanswered
      waiting := some s.targets.length }

def receive (n : Nat) (x : Queued) (rest : List Queued) : Dispatcher :=
  match unpackMessage x.msg with
  | .image img =>
    { s with recvQueue := rest, waiting := none, returned := s.returned ++ [(n, x, img)] }
  | _ => { s with recvQueue := rest, waiting := none }

end Dispatcher

inductive DispatchStep : Dispatcher → DispatchAction → Dispatcher → Prop
  | dispatch {s : Dispatcher} {req : GenerationRequest} {target : UInt32} {results : List Int} :
      s.waiting = none →
      DispatchStep s (.dispatch req target results) (s.dispatch req target results)
  | answer {s : Dispatcher} {n : Nat} {payload : ByteString} {worker : UInt32} :
      n ∈ s.unanswered → s.targets[n]? = some worker →
      DispatchStep s (.answer n payload)
        { s with
          recvQueue := s.recvQueue ++ [⟨⟨worker, .generateResult, payload⟩, some n⟩]
          unanswered := s.unanswered.erase n }
  | message {s : Dispatcher} {msg : ReceivedMsg} : msg.type ≠ .generateResult →
      DispatchStep s (.message msg) { s with recvQueue := s.recvQueue ++ [⟨msg, none⟩] }
  | receive {s : Dispatcher} {n : Nat} {x : Queued} {rest : List Queued} :
      s.waiting = some n → s.recvQueue = x :: rest →
      DispatchStep s .receive (s.receive n x rest)
  | timeout {s : Dispatcher} {n : Nat} : s.waiting = some n → s.recvQueue = [] →
      DispatchStep s .timeout { s with waiting := none }

/-- Every image that was returned is the answer to its request, from the worker the request was sent
to. -/
def Dispatcher.Matched (s : Dispatcher) : Prop :=
  ∀ x ∈ s.returned, x.2.1.answers = some x.1 ∧ s.targets[x.1]? = some x.2.1.msg.fromNodeId ∧
    unpackMessage x.2.1.msg = .image x.2.2

/-- A request is sent while there is no result in the queue, and the results that come while a call
waits are answers to its request. -/
def DispatchAction.Timely (s : Dispatcher) : DispatchAction → Prop
  | .dispatch _ _ _ => ∀ x ∈ s.recvQueue, x.msg.type ≠ .generateResult
  | .answer n _ => ∀ n', s.waiting = some n' → n' = n
  | _ => True

def Dispatcher.Expecting (s : Dispatcher) : Prop :=
  ∀ n, s.waiting = some n → ∀ x ∈ s.recvQueue, x.msg.type = .generateResult →
    x.answers = some n ∧ s.targets[n]? = some x.msg.fromNodeId

section

variable {s s' u : Dispatcher} {a : DispatchAction} {tr : List (Dispatcher × DispatchAction)}
  {req : GenerationRequest} {target : UInt32} {results : List Int}

/-- A call of `send` that fails ends the call; otherwise the call waits. -/
theorem dispatch_cases (s : Dispatcher) (req : GenerationRequest) (target : UInt32)
    (results : List Int) :
    s.dispatch req target results = s ∨
      (s.dispatch req target results).targets = s.targets ++ [target] ∧
        (s.dispatch req target results).recvQueue = s.recvQueue ∧
        (s.dispatch req target results).returned = s.returned := by
  unfold Dispatcher.dispatch
  split
  · exact .inl rfl
  · exact .inr ⟨rfl, rfl, rfl⟩

theorem targets_append {n : Nat} {worker : UInt32} (target : UInt32)
    (h : s.targets[n]? = some worker) : (s.targets ++ [target])[n]? = some worker := by
  obtain ⟨hlt, -⟩ := List.getElem?_eq_some_iff.mp h
  rwa [List.getElem?_append_left hlt]

theorem image_type {msg : ReceivedMsg} {img : GeneratedImage}
    (h : unpackMessage msg = .image img) : msg.type = .generateResult := by
  by_contra hne
  rw [unpackMessage, if_pos hne] at h
  cases h

theorem DispatchStep.expecting (hi : s.Expecting) (hok : a.Timely s) (h : DispatchStep s a s') :
    s'.Expecting := by
  cases h with
  | @dispatch req target results hidle =>
    rcases dispatch_cases s req target results with heq | ⟨-, hqueue, -⟩
    · rwa [heq]
    · intro n hn x hx htype
      rw [hqueue] at hx
      exact (hok x hx htype).elim
  | @answer n payload worker hmem htarget =>
    intro n' hn' x hx htype
    rcases List.mem_append.mp hx with hx | hx
    · exact hi n' hn' x hx htype
    · obtain rfl := List.mem_singleton.mp hx
      obtain rfl := hok n' hn'
      exact ⟨rfl, htarget⟩
  | @message msg htype' =>
    intro n hn x hx htype
    rcases List.mem_append.mp hx with hx | hx
    · exact hi n hn x hx htype
    · obtain rfl := List.mem_singleton.mp hx
      exact (htype' htype).elim
  | receive hwait hqueue =>
    intro n hn
    unfold Dispatcher.receive at hn
    split at hn
    · cases hn
    · cases hn
  | timeout hwait hqueue =>
    rintro n ⟨⟩

theorem DispatchStep.matched (hi : s.Expecting) (hm : s.Matched) (h : DispatchStep s a s') :
    s'.Matched := by
  cases h with
  | @dispatch req target results hidle =>
    rcases dispatch_cases s req target results with heq | ⟨htargets, -, hreturned⟩
    · rwa [heq]
    · intro x hx
      rw [hreturned] at hx
      obtain ⟨hanswers, htarget, himage⟩ := hm x hx
      refine ⟨hanswers, ?_, himage⟩
      rw [htargets]
      exact targets_append target htarget
  | answer hmem htarget => exact hm
  | message htype => exact hm
  | @receive n x rest hwait hqueue =>
    unfold Dispatcher.receive
    split
    · rename_i img himage
      intro y hy
      rcases List.mem_append.mp hy with hy | hy
      · exact hm y hy
      · obtain rfl := List.mem_singleton.mp hy
        have hx : x ∈ s.recvQueue := by simp [hqueue]
        obtain ⟨hanswers, htarget⟩ := hi n hwait x hx (image_type himage)
        exact ⟨hanswers, htarget, himage⟩
    · exact hm
  | timeout hwait hqueue => exact hm

/-- Along a run in which no result to an earlier request is in the queue when a request is sent, or
comes while it is waited for, every image that is returned is the answer to its request. -/
theorem replies_match {t : ClusterTransport} (h : Run DispatchStep { transport := t } tr u)
    (hok : ∀ x ∈ tr, x.2.Timely x.1) : Throughout Dispatcher.Matched tr u := by
  have hrun := h.guarded (I := fun s ↦ s.Expecting ∧ s.Matched)
    (fun _ _ _ hi ha hstep ↦ ⟨hstep.expecting hi.1 ha, hstep.matched hi.1 hi.2⟩)
    ⟨by rintro n ⟨⟩, fun x hx ↦ absurd hx List.not_mem_nil⟩ hok
  exact ⟨fun e he ↦ (hrun.1 e he).2, hrun.2.2⟩

end

def twoWorkers : ClusterTransport where
  workerSockets := Function.update (Function.update (fun _ ↦ none) 1 (some 5)) 2 (some 6)

def onePixel (shade : UInt8) : ByteString :=
  [1, 0, 0, 0, 1, 0, 0, 0, 0, 0, 0, 0, 4, 0, 0, 0, 0, 0, 0, 0, shade, shade, shade, 255]

def image (shade : UInt8) : GeneratedImage where
  pixels := [shade, shade, shade, 255]
  width := 1
  height := 1
  generationTimeMs := 0

def ask (target : UInt32) : DispatchAction := .dispatch { prompt := [] } target [12, 28]

theorem replies_match_two :
    ∃ tr u, Run DispatchStep { transport := twoWorkers } tr u ∧
      tr.map Prod.snd = [ask 1, .answer 0 (onePixel 10), .receive, ask 2, .answer 1 (onePixel 20),
        .receive] ∧
      u.returned.map (fun x ↦ (x.1, x.2.2)) = [(0, image 10), (1, image 20)] ∧ u.Matched := by
  have hrun : ∃ tr u, Run DispatchStep { transport := twoWorkers } tr u ∧
      tr.map Prod.snd = [ask 1, .answer 0 (onePixel 10), .receive, ask 2, .answer 1 (onePixel 20),
        .receive] ∧
      u.returned.map (fun x ↦ (x.1, x.2.2)) = [(0, image 10), (1, image 20)] ∧
      ∀ x ∈ tr, x.2.Timely x.1 := by
    refine ⟨_, _, .cons (.dispatch rfl) (.cons (.answer (by decide) rfl) (.cons (.receive rfl rfl)
      (.cons (.dispatch rfl) (.cons (.answer (by decide) rfl) (.cons (.receive rfl rfl)
        (.nil _)))))), rfl, rfl, ?_⟩
    simp only [List.forall_mem_cons]
    refine ⟨?_, ?_, trivial, ?_, ?_, trivial, by simp⟩
    · intro x hx
      cases hx
    · exact fun n hn ↦ (Option.some.inj hn).symm
    · intro x hx
      cases hx
    · exact fun n hn ↦ (Option.some.inj hn).symm
  obtain ⟨tr, u, hrun, hactions, hreturned, hok⟩ := hrun
  exact ⟨tr, u, hrun, hactions, hreturned, (replies_match hrun hok).2⟩

/-- The first request times out; its answer comes while the second one is waited for, and is
returned for that one, though it comes from the other worker. -/
theorem late_reply_returned :
    ∃ tr u, Run DispatchStep { transport := twoWorkers } tr u ∧
      tr.map Prod.snd = [ask 1, .timeout, ask 2, .answer 0 (onePixel 10), .receive] ∧
      u.targets = [1, 2] ∧
      u.returned.map (fun x ↦ (x.1, x.2.1.msg.fromNodeId, x.2.2)) = [(1, 1, image 10)] ∧
      ¬ u.Matched := by
  refine ⟨_, _, .cons (.dispatch rfl) (.cons (.timeout rfl rfl) (.cons (.dispatch rfl)
    (.cons (.answer (by decide) rfl) (.cons (.receive rfl rfl) (.nil _))))), rfl, rfl, rfl, ?_⟩
  intro hmatched
  exact absurd (hmatched _ (List.mem_singleton_self _)).1 (by decide)

end Cerberus.Cluster
