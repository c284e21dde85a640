import Cerberus.Cluster.Framing

namespace Cerberus.Cluster

open Foundation.Bytes Foundation.Trace

/-- Where a thread of the coordinator stands with the socket of a worker. A heartbeat round and
`collect_telemetry` hold the lock of the workers while they write, `send` does not. -/
inductive LinkPc
  | idle
  | writing (locked : Bool) (msg : ReceivedMsg) (w : Writer)

structure Link where
  stream : ByteString := []
  threads : Nat → LinkPc := fun _ ↦ .idle
  locked : Bool := false

inductive LinkAction
  | send (i : Nat) (type : MsgType) (payload : ByteString)
  | beat (i : Nat)
  | write (i : Nat) (n : Int)
  | finish (i : Nat)

def heartbeat : ReceivedMsg := { type := .heartbeat, payload := [] }

def Link.goto (s : Link) (i : Nat) (pc : LinkPc) : Link :=
  { s with threads := Function.update s.threads i pc }

inductive LinkStep : Link → LinkAction → Link → Prop
  /-- The lock is taken for the lookup only. -/
  | send {s : Link} {i : Nat} {type : MsgType} {payload : ByteString} :
      s.threads i = .idle → s.locked = false →
      LinkStep s (.send i type payload)
        (s.goto i (.writing false { type, payload } (.sendMsg type payload)))
  | beat {s : Link} {i : Nat} : s.threads i = .idle → s.locked = false →
      LinkStep s (.beat i)
        { s.goto i (.writing true heartbeat (.sendMsg .heartbeat [])) with locked := true }
  | write {s : Link} {i : Nat} {n : Int} {locked : Bool} {msg : ReceivedMsg} {w : Writer} :
      s.threads i = .writing locked msg w → (∀ ok, w ≠ .done ok) →
      LinkStep s (.write i n)
        { s.goto i (.writing locked msg (w.write n).2) with stream := s.stream ++ (w.write n).1 }
  | finish {s : Link} {i : Nat} {locked ok : Bool} {msg : ReceivedMsg} :
      s.threads i = .writing locked msg (.done ok) →
      LinkStep s (.finish i) { s.goto i .idle with locked := s.locked && !locked }

def LinkPc.part : LinkPc → ByteString
  | .idle => []
  | .writing _ msg w =>
    if w.remaining = [] then [] else msg.bytes.take (msg.bytes.length - w.remaining.length)

def LinkAction.completes (s : Link) : LinkAction → List ReceivedMsg
  | .write i n =>
    match s.threads i with
    | .writing _ msg w => if (w.write n).2 = .done true then [msg] else []
    | .idle => []
  | _ => []

/-- A write does not come between the parts of another frame, and does not fail in the middle of its
own. -/
def LinkAction.Apart (s : Link) : LinkAction → Prop
  | .write i n =>
    if n ≤ 0 then (s.threads i).part = [] else ∀ j, j ≠ i → (s.threads j).part = []
  | _ => True

abbrev LinkRun := List (Link × LinkAction)

def LinkRun.completed (tr : LinkRun) : List ReceivedMsg := tr.flatMap (fun x ↦ x.2.completes x.1)

/-- The stream holds complete frames, and after them at most a part of a frame that a thread is
still writing. -/
def Link.Framed (s : Link) (sent : List ReceivedMsg) : Prop :=
  ∃ i, s.stream = frames sent ++ (s.threads i).part ∧ ∀ j, j ≠ i → (s.threads j).part = []

def LinkPc.Sound : LinkPc → Prop
  | .idle => True
  | .writing _ msg w =>
    (∃ ok, w = .done ok) ∨ w.remaining ≠ [] ∧ w.remaining <:+ msg.bytes

section

variable {s s' u : Link} {a : LinkAction} {sent : List ReceivedMsg} {tr : LinkRun} {i : Nat}
  {n : Int} {locked ok : Bool} {msg : ReceivedMsg} {w : Writer}

@[simp] theorem LinkPc.part_done : (LinkPc.writing locked msg (.done ok)).part = [] := rfl

theorem LinkPc.Sound.part_append (h : (LinkPc.writing locked msg w).Sound)
    (hw : ∀ ok, w ≠ .done ok) : (LinkPc.writing locked msg w).part ++ w.remaining = msg.bytes := by
  rcases h with ⟨ok, rfl⟩ | ⟨hne, hsuffix⟩
  · exact (hw ok rfl).elim
  · rw [LinkPc.part, if_neg hne]
    exact List.suffix_iff_eq_append.mp hsuffix

theorem sound_sendMsg (locked : Bool) (msg : ReceivedMsg) :
    (LinkPc.writing locked msg (.sendMsg msg.type msg.payload)).Sound := by
  refine .inr ⟨?_, List.suffix_refl _⟩
  intro hnil
  have hlen : msg.bytes.length = 0 := congrArg List.length hnil
  rw [ReceivedMsg.bytes, length_frame] at hlen
  omega

theorem part_sendMsg (locked : Bool) (msg : ReceivedMsg) :
    (LinkPc.writing locked msg (.sendMsg msg.type msg.payload)).part = [] := by
  have happend := (sound_sendMsg locked msg).part_append (by simp [Writer.sendMsg])
  exact List.append_left_eq_self.mp happend

def Writer.Settled (w : Writer) : Prop :=
  w = .done true ∨ (∀ ok, w ≠ .done ok) ∧ w.remaining ≠ []

theorem Writer.settled_afterHeader (todo body : ByteString) : (afterHeader todo body).Settled := by
  by_cases htodo : todo = []
  · by_cases hbody : body = []
    · exact .inl (by simp [afterHeader, htodo, hbody])
    · exact .inr (by simp [afterHeader, htodo, hbody, remaining])
  · exact .inr (by simp [afterHeader, htodo, remaining])

theorem Writer.settled_afterPayload (todo : ByteString) : (afterPayload todo).Settled := by
  by_cases htodo : todo = []
  · exact .inl (by simp [afterPayload, htodo])
  · exact .inr (by simp [afterPayload, htodo, remaining])

theorem Writer.write_cases (hn : ¬ n ≤ 0) (hw : ∀ ok, w ≠ .done ok) :
    (w.write n).2 = .done true ∧ (w.write n).1 = w.remaining ∨
      (∀ ok, (w.write n).2 ≠ .done ok) ∧ (w.write n).2.remaining ≠ [] ∧
        (w.write n).1 ++ (w.write n).2.remaining = w.remaining := by
  have hsettled : (w.write n).2.Settled := by
    cases w with
    | header todo body =>
      rw [write, if_neg hn]
      exact settled_afterHeader _ _
    | payload todo =>
      rw [write, if_neg hn]
      exact settled_afterPayload _
    | done ok => exact (hw ok rfl).elim
  rcases hsettled with hdone | ⟨hmore, hne⟩
  · have hmoved := (write_remaining w n).resolve_left (by simp [hdone])
    rw [hdone] at hmoved
    exact .inl ⟨hdone, by simpa [remaining] using hmoved⟩
  · exact .inr ⟨hmore, hne, (write_remaining w n).resolve_left (hmore false)⟩

theorem Writer.write_fails (hn : n ≤ 0) (hw : ∀ ok, w ≠ .done ok) :
    w.write n = ([], .done false) := by
  cases w with
  | header todo body => rw [write, if_pos hn]
  | payload todo => rw [write, if_pos hn]
  | done ok => exact (hw ok rfl).elim

theorem LinkPc.Sound.write (h : (LinkPc.writing locked msg w).Sound) (n : Int)
    (hw : ∀ ok, w ≠ .done ok) : (LinkPc.writing locked msg (w.write n).2).Sound := by
  by_cases hn : n ≤ 0
  · rw [Writer.write_fails hn hw]
    exact .inl ⟨false, rfl⟩
  · rcases Writer.write_cases hn hw with ⟨hdone, -⟩ | ⟨hmore, hne, hmoved⟩
    · exact .inl ⟨true, hdone⟩
    · rcases h with ⟨ok, hok⟩ | ⟨-, hsuffix⟩
      · exact (hw ok hok).elim
      · exact .inr ⟨hne, List.IsSuffix.trans ⟨_, hmoved⟩ hsuffix⟩

theorem Link.goto_threads (s : Link) (i : Nat) (pc : LinkPc) (P : LinkPc → Prop)
    (h : ∀ j, P (s.threads j)) (hpc : P pc) : ∀ j, P ((s.goto i pc).threads j) := by
  intro j
  by_cases hj : j = i
  · subst hj
    simpa [goto] using hpc
  · simpa [goto, hj] using h j

theorem LinkStep.sound (hs : ∀ i, (s.threads i).Sound) (h : LinkStep s a s') :
    ∀ i, (s'.threads i).Sound := by
  cases h with
  | @send i type payload hidle hlock =>
    exact s.goto_threads i _ LinkPc.Sound hs (sound_sendMsg false { type, payload })
  | @beat i hidle hlock =>
    exact s.goto_threads i _ LinkPc.Sound hs (sound_sendMsg true heartbeat)
  | @write i n locked msg w hpc hw =>
    have hsound := hs i
    rw [hpc] at hsound
    exact s.goto_threads i _ LinkPc.Sound hs (hsound.write n hw)
  | @finish i locked ok msg hpc => exact s.goto_threads i _ LinkPc.Sound hs trivial

theorem Link.Framed.goto {pc : LinkPc} (hf : s.Framed sent) (hold : (s.threads i).part = [])
    (hnew : pc.part = []) : (s.goto i pc).Framed sent := by
  have hparts (j : Nat) : ((s.goto i pc).threads j).part = (s.threads j).part := by
    by_cases hj : j = i
    · subst hj
      simp [Link.goto, hnew, hold]
    · simp [Link.goto, hj]
  obtain ⟨k, hstream, hother⟩ := hf
  refine ⟨k, ?_, fun j hj ↦ ?_⟩
  · rw [hparts]
    exact hstream
  · rw [hparts]
    exact hother j hj

theorem Link.Framed.stream_eq (hf : s.Framed sent)
    (halone : ∀ j, j ≠ i → (s.threads j).part = []) :
    s.stream = frames sent ++ (s.threads i).part := by
  obtain ⟨k, hstream, hother⟩ := hf
  by_cases hk : k = i
  · rw [← hk]
    exact hstream
  · rw [hstream, halone k hk, hother i (fun h ↦ hk h.symm)]

theorem LinkStep.framed (hs : ∀ i, (s.threads i).Sound) (hok : a.Apart s) (hf : s.Framed sent)
    (h : LinkStep s a s') : s'.Framed (sent ++ a.completes s) := by
  cases h with
  | @send i type payload hidle hlock =>
    rw [show LinkAction.completes s _ = [] from rfl, List.append_nil]
    exact hf.goto (by rw [hidle]; rfl) (part_sendMsg false { type, payload })
  | @beat i hidle hlock =>
    rw [show LinkAction.completes s _ = [] from rfl, List.append_nil]
    exact hf.goto (by rw [hidle]; rfl) (part_sendMsg true heartbeat)
  | @finish i locked ok msg hpc =>
    rw [show LinkAction.completes s _ = [] from rfl, List.append_nil]
    exact hf.goto (by rw [hpc]; rfl) rfl
  | @write i n locked msg w hpc hw =>
    have hcompletes : LinkAction.completes s (.write i n) =
        if (w.write n).2 = .done true then [msg] else [] := by
      simp [LinkAction.completes, hpc]
    rw [hcompletes]
    by_cases hn : n ≤ 0
    · rw [Writer.write_fails hn hw, if_neg (by simp), List.append_nil, List.append_nil]
      rw [LinkAction.Apart, if_pos hn] at hok
      exact hf.goto hok rfl
    · rw [LinkAction.Apart, if_neg hn] at hok
      have hsound := hs i
      rw [hpc] at hsound
      have hbytes := hsound.part_append hw
      have hstream := hf.stream_eq hok
      rw [hpc] at hstream
      have hother (pc : LinkPc) (j : Nat) (hj : j ≠ i) : ((s.goto i pc).threads j).part = [] := by
        simpa [Link.goto, hj] using hok j hj
      have hself (pc : LinkPc) : (s.goto i pc).threads i = pc := by simp [Link.goto]
      refine ⟨i, ?_, hother _⟩
      rw [hself]
      rcases Writer.write_cases hn hw with ⟨hdone, hchunk⟩ | ⟨hmore, hne, hmoved⟩
      · rw [if_pos hdone, hdone, hchunk, hstream, List.append_assoc, hbytes]
        simp [frames]
      · rw [if_neg (hmore true), List.append_nil, hstream, List.append_assoc]
        have hbytes' := (hsound.write n hw).part_append hmore
        rw [← hbytes', ← hmoved, ← List.append_assoc] at hbytes
        rw [List.append_cancel_right hbytes]

theorem run_framed (h : Run LinkStep s tr u) (hok : ∀ x ∈ tr, x.2.Apart x.1)
    (hs : ∀ i, (s.threads i).Sound) (hf : s.Framed sent) : u.Framed (sent ++ tr.completed) := by
  induction h generalizing sent with
  | nil s => simpa [LinkRun.completed] using hf
  | @cons s t u a tr hstep hrun ih =>
    have hfirst := hstep.framed hs (hok (s, a) (by simp)) hf
    have hrest := ih (fun x hx ↦ hok x (by simp [hx])) (hstep.sound hs) hfirst
    simpa [LinkRun.completed] using hrest

/-- Along a run in which no write comes between the parts of another frame or fails in the middle
of its own, the stream consists of the frames of the calls that are complete, and of the part of at
most one frame that is still being written. -/
theorem stream_framed (h : Run LinkStep {} tr u) (hok : ∀ x ∈ tr, x.2.Apart x.1) :
    u.Framed tr.completed := by
  have hstart : ({} : Link).Framed [] := ⟨0, rfl, fun _ _ ↦ rfl⟩
  simpa using run_framed h hok (fun _ ↦ trivial) hstart

end

theorem stream_framed_request :
    ∃ tr u, Run LinkStep {} tr u ∧
      tr.map Prod.snd = [.send 0 .generateRequest [7], .beat 1, .write 0 12, .write 0 1,
        .write 1 12, .finish 1] ∧ u.Framed (LinkRun.completed tr) := by
  have hrun : ∃ tr u, Run LinkStep {} tr u ∧
      tr.map Prod.snd = [.send 0 .generateRequest [7], .beat 1, .write 0 12, .write 0 1,
        .write 1 12, .finish 1] ∧ ∀ x ∈ tr, x.2.Apart x.1 := by
    refine ⟨_, _, .cons (.send rfl rfl) (.cons (.beat rfl rfl) (.cons (.write rfl (by decide))
      (.cons (.write rfl (by decide)) (.cons (.write rfl (by decide)) (.cons (.finish rfl)
        (.nil _)))))), rfl, ?_⟩
    simp only [List.forall_mem_cons]
    refine ⟨trivial, trivial, ?_, ?_, ?_, trivial, by simp⟩
    · rintro (_ | _ | j) hj
      · exact (hj rfl).elim
      · rfl
      · rfl
    · rintro (_ | _ | j) hj
      · exact (hj rfl).elim
      · rfl
      · rfl
    · rintro (_ | _ | j) hj
      · rfl
      · exact (hj rfl).elim
      · rfl
  obtain ⟨tr, u, hrun, hactions, hapart⟩ := hrun
  exact ⟨tr, u, hrun, hactions, stream_framed hrun hapart⟩

theorem frames_split {head tail : ByteString} {sent : List ReceivedMsg}
    (h : frames sent = head ++ tail) (hhead : head.length = 12) :
    ∃ (m : ReceivedMsg) (rest : List ReceivedMsg),
      (MessageHeader.ofBytes head).payloadLen.toNat = m.announced ∧
        m.payload ++ frames rest = tail := by
  cases sent with
  | nil =>
    have hlen := congrArg List.length h
    simp only [frames, List.flatMap_nil, List.length_nil, List.length_append, hhead] at hlen
    omega
  | cons m rest =>
    have hsplit : (headerOf m.type m.payload).bytes ++ (m.payload ++ frames rest) =
        head ++ tail := by
      rw [← h, ← List.append_assoc]
      rfl
    obtain ⟨heq, htail⟩ := List.append_inj hsplit (by simp [hhead])
    refine ⟨m, rest, ?_, htail⟩
    rw [← heq, MessageHeader.ofBytes_bytes, Reader.payloadLen_headerOf]

theorem frames_head (sent : List ReceivedMsg) : ∀ b ∈ (frames sent).head?, b = 0x21 := by
  cases sent with
  | nil => simp [frames]
  | cons m rest =>
    have hfirst : (frames (m :: rest)).head? = some kMagic.toNat.toUInt8 := rfl
    intro b hb
    rw [← Option.some.inj (hfirst.symm.trans hb)]
    decide

/-- A heartbeat between the header and the payload of a request tears the frame of the request. -/
theorem request_torn :
    ∃ tr u, Run LinkStep {} tr u ∧
      tr.map Prod.snd = [.send 0 .generateRequest [7], .write 0 12, .beat 1, .write 1 12, .finish 1,
        .write 0 1, .finish 0] ∧
      (∀ i, u.threads i = .idle) ∧ ∀ sent, u.stream ≠ frames sent := by
  refine ⟨_, _, .cons (.send rfl rfl) (.cons (.write rfl (by decide)) (.cons (.beat rfl rfl)
    (.cons (.write rfl (by decide)) (.cons (.finish rfl) (.cons (.write rfl (by decide))
      (.cons (.finish rfl) (.nil _))))))), rfl, ?_, ?_⟩
  · rintro (_ | _ | i)
    · rfl
    · rfl
    · rfl
  · intro sent hsent
    have hstream : frames sent = [0x21, 0x57, 0xBE, 0xCE, 1, 0, 0, 0, 1, 0, 0, 0, 0x21, 0x57, 0xBE,
        0xCE, 2, 0, 0, 0, 0, 0, 0, 0, 7] := hsent.symm
    obtain ⟨m, rest, hannounced, htail⟩ := frames_split (show frames sent =
      [0x21, 0x57, 0xBE, 0xCE, 1, 0, 0, 0, 1, 0, 0, 0] ++ _ from hstream) rfl
    have hone : m.payload.length = 1 := by
      have hlen := congrArg List.length htail
      have hsmall : m.announced = m.payload.length :=
        Nat.mod_eq_of_lt (by simp at hlen; omega)
      rw [← hsmall, ← hannounced]
      decide
    obtain ⟨b, hb⟩ := List.length_eq_one_iff.mp hone
    rw [hb, List.singleton_append] at htail
    have hrest := (List.cons.inj htail).2
    exact absurd (frames_head rest 0x57 (by rw [hrest]; rfl)) (by decide)

end Cerberus.Cluster
