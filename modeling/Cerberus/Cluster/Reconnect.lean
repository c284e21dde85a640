import Cerberus.Cluster.Framing
import Mathlib.Data.Nat.Find

namespace Cerberus.Cluster

open Foundation.Bytes Foundation.LittleEndian Foundation.Trace

def kInvalidSock : SockFd := -1

structure ClusterNode where
  nodeId : UInt32 := 0
  reachable : Bool := false

structure Conn where
  workerId : UInt32 := 0
  fd : SockFd := 0
  ended : Bool := false
  pumpDone : Bool := false

/-- The coordinator with the connections it has accepted, in their order, and the descriptors that
are open, each the socket of a connection. Each call that closes a descriptor is recorded with the
connection whose pump has made it, and with the connection whose socket it was. -/
structure Coordinator extends ClusterTransport where
  workerMap : UInt32 → Option ClusterNode := fun _ ↦ none
  descriptors : SockFd → Option Nat := fun _ ↦ none
  conns : Nat → Conn := fun _ ↦ {}
  accepted : Nat := 0
  closes : List (Nat × Option Nat) := []

def handshake : Option ReceivedMsg → Option UInt32
  | none => none
  | some msg =>
    if msg.type ≠ .workerReady ∨ msg.payload.length < 4 then none
    else some (UInt32.ofNat (readAt 0 4 msg.payload))

namespace Coordinator

variable (s : Coordinator)

def register (fd : SockFd) (workerId : UInt32) : Coordinator :=
  { s with
    workerSockets := Function.update s.workerSockets workerId (some fd)
    workerMap := Function.update s.workerMap workerId
      (some { nodeId := workerId, reachable := true })
    descriptors := Function.update s.descriptors fd (some s.accepted)
    conns := Function.update s.conns s.accepted { workerId, fd }
    accepted := s.accepted + 1 }

/-- The accept loop with a client; without a handshake its socket is closed again. -/
def acceptClient (fd : SockFd) (msg : Option ReceivedMsg) : Coordinator :=
  match handshake msg with
  | none => s
  | some workerId => s.register fd workerId

def sockClose (c : Nat) (fd : SockFd) : Coordinator :=
  if 0 ≤ fd then
    { s with
      descriptors := Function.update s.descriptors fd none
      closes := s.closes ++ [(c, s.descriptors fd)] }
  else s

def closeSocket (c : Nat) (workerId : UInt32) : Coordinator :=
  match s.workerSockets workerId with
  | none => s
  | some fd =>
    { s.sockClose c fd with
      workerSockets := Function.update s.workerSockets workerId (some kInvalidSock) }

def markUnreachable (workerId : UInt32) : Coordinator :=
  match s.workerMap workerId with
  | none => s
  | some node =>
    { s with
      workerMap := Function.update s.workerMap workerId (some { node with reachable := false }) }

/-- The pump of a connection after `recv_msg` has returned nothing: it closes the socket that is
registered for the worker. -/
def disconnect (c : Nat) : Coordinator :=
  let s' := (s.closeSocket c (s.conns c).workerId).markUnreachable (s.conns c).workerId
  { s' with conns := Function.update s.conns c { s.conns c with pumpDone := true } }

end Coordinator

inductive CoordinatorAction
  | accept (fd : SockFd) (msg : Option ReceivedMsg)
  | fail (c : Nat)
  | pumpFails (c : Nat)

inductive CoordinatorStep : Coordinator → CoordinatorAction → Coordinator → Prop
  | accept {s : Coordinator} {fd : SockFd} {msg : Option ReceivedMsg} :
      0 ≤ fd → s.descriptors fd = none →
      CoordinatorStep s (.accept fd msg) (s.acceptClient fd msg)
  /-- The peer closes the connection, or it breaks. -/
  | fail {s : Coordinator} {c : Nat} : c < s.accepted →
      CoordinatorStep s (.fail c)
        { s with conns := Function.update s.conns c { s.conns c with ended := true } }
  | pumpFails {s : Coordinator} {c : Nat} : c < s.accepted → (s.conns c).pumpDone = false →
      ((s.conns c).ended = true ∨ s.descriptors (s.conns c).fd ≠ some c) →
      CoordinatorStep s (.pumpFails c) (s.disconnect c)

namespace Coordinator

variable (s : Coordinator)

def Latest (id : UInt32) (c : Nat) : Prop :=
  c < s.accepted ∧ (s.conns c).workerId = id ∧
    ∀ c' < s.accepted, (s.conns c').workerId = id → c' ≤ c

def Quiet : Prop :=
  ∀ c < s.accepted, (s.conns c).pumpDone = false →
    (s.conns c).ended = false ∧ s.descriptors (s.conns c).fd = some c

def Connected (id : UInt32) : Prop :=
  (∃ node, s.workerMap id = some node ∧ node.reachable = true) ∧
    ∃ fd, s.workerSockets id = some fd ∧ 0 ≤ fd ∧ (s.descriptors fd).isSome

/-- Pumps have closed their own sockets only, and each of them once; and the registry is right about
every worker when there is no disconnect to notice. -/
structure Safe : Prop where
  own : ∀ x ∈ s.closes, x.2 = some x.1
  once : s.closes.Nodup
  connected : s.Quiet → ∀ id, s.Connected id ↔ ∃ c, s.Latest id c ∧ (s.conns c).ended = false

end Coordinator

/-- A pump notices the end of its connection while there is no newer one of the worker whose pump
still runs. -/
def CoordinatorAction.Undisturbed (s : Coordinator) : CoordinatorAction → Prop
  | .pumpFails c =>
    ∀ c', s.Latest (s.conns c).workerId c' → c' = c ∨ (s.conns c').pumpDone = true
  | _ => True

structure Registered (s : Coordinator) : Prop where
  own : ∀ c < s.accepted, (s.conns c).pumpDone = false →
    0 ≤ (s.conns c).fd ∧ s.descriptors (s.conns c).fd = some c
  socket : ∀ id c, s.Latest id c →
    s.workerSockets id = some (if (s.conns c).pumpDone then kInvalidSock else (s.conns c).fd)
  node : ∀ id c, s.Latest id c →
    ∃ node, s.workerMap id = some node ∧ node.reachable = !(s.conns c).pumpDone
  fresh : ∀ id, (∀ c < s.accepted, (s.conns c).workerId ≠ id) → s.workerSockets id = none
  ended : ∀ c < s.accepted, (s.conns c).pumpDone = true → (s.conns c).ended = true
  closes : ∀ x ∈ s.closes, x.1 < s.accepted ∧ (s.conns x.1).pumpDone = true ∧ x.2 = some x.1
  once : s.closes.Nodup

section

variable {s s' u : Coordinator} {a : CoordinatorAction} {id id' : UInt32} {c c' l : Nat}
  {fd : SockFd} {tr : List (Coordinator × CoordinatorAction)}

theorem Coordinator.Latest.unique (h : s.Latest id c) (h' : s.Latest id c') : c = c' :=
  le_antisymm (h'.2.2 c h.1 h.2.1) (h.2.2 c' h'.1 h'.2.1)

theorem exists_latest (hc : c < s.accepted) : ∃ c', s.Latest (s.conns c).workerId c' := by
  classical
  let P (c' : Nat) : Prop := c' < s.accepted ∧ (s.conns c').workerId = (s.conns c).workerId
  have hspec : P (Nat.findGreatest P s.accepted) := Nat.findGreatest_spec hc.le ⟨hc, rfl⟩
  refine ⟨Nat.findGreatest P s.accepted, hspec.1, hspec.2, ?_⟩
  intro c' hc' hid
  exact Nat.le_findGreatest hc'.le ⟨hc', hid⟩

theorem Registered.connected_iff (h : Registered s) (hquiet : s.Quiet) (hl : s.Latest id c) :
    s.Connected id ↔ (s.conns c).ended = false := by
  have hsocket := h.socket id c hl
  obtain ⟨node, hnode, hreachable⟩ := h.node id c hl
  cases hdone : (s.conns c).pumpDone with
  | true =>
    rw [hdone, Bool.not_true] at hreachable
    refine iff_of_false ?_ (by simp [h.ended c hl.1 hdone])
    rintro ⟨⟨node', hnode', htrue⟩, -⟩
    rw [Option.some.inj (hnode.symm.trans hnode'), htrue] at hreachable
    cases hreachable
  | false =>
    rw [hdone] at hsocket hreachable
    obtain ⟨hpos, hopen⟩ := h.own c hl.1 hdone
    refine iff_of_true ⟨⟨node, hnode, hreachable⟩, _, hsocket, hpos, ?_⟩ (hquiet c hl.1 hdone).1
    simp [hopen]

theorem Registered.safe (h : Registered s) : s.Safe := by
  refine ⟨fun x hx ↦ (h.closes x hx).2.2, h.once, fun hquiet id ↦ ?_⟩
  by_cases hex : ∃ c < s.accepted, (s.conns c).workerId = id
  · obtain ⟨c, hc, rfl⟩ := hex
    obtain ⟨l, hl⟩ := exists_latest hc
    rw [h.connected_iff hquiet hl]
    refine ⟨fun hended ↦ ⟨l, hl, hended⟩, ?_⟩
    rintro ⟨l', hl', hended⟩
    rwa [hl.unique hl']
  · push Not at hex
    refine iff_of_false ?_ ?_
    · rintro ⟨-, fd, hfd, -⟩
      rw [h.fresh id hex] at hfd
      cases hfd
    · rintro ⟨c, hl, -⟩
      exact hex c hl.1 hl.2.1

theorem latest_congr (hacc : s'.accepted = s.accepted)
    (hid : ∀ c, (s'.conns c).workerId = (s.conns c).workerId) : s'.Latest id c ↔ s.Latest id c := by
  simp only [Coordinator.Latest, hacc, hid]

@[simp] theorem conns_register_self :
    (s.register fd id).conns s.accepted = { workerId := id, fd } := by
  simp [Coordinator.register]

theorem conns_register_of_lt (hc : c < s.accepted) :
    (s.register fd id).conns c = s.conns c := by
  simp [Coordinator.register, hc.ne]

theorem latest_register (h : (s.register fd id).Latest id' c) :
    c = s.accepted ∧ id' = id ∨ c < s.accepted ∧ id' ≠ id ∧ s.Latest id' c := by
  obtain ⟨hlt, hid, hmax⟩ := h
  have hself (heq : id' = id) : s.accepted ≤ c := by
    refine hmax s.accepted (Nat.lt_succ_self _) ?_
    rw [conns_register_self, heq]
  rcases Nat.lt_succ_iff_lt_or_eq.mp hlt with hc | hc
  · refine .inr ⟨hc, fun heq ↦ absurd (hself heq) (by omega), hc, ?_, ?_⟩
    · rwa [conns_register_of_lt hc] at hid
    · intro c' hc' hid'
      refine hmax c' (Nat.lt_succ_of_lt hc') ?_
      rwa [conns_register_of_lt hc']
  · subst hc
    rw [conns_register_self] at hid
    exact .inl ⟨rfl, hid.symm⟩

theorem Registered.register (h : Registered s) (hpos : 0 ≤ fd) (hfree : s.descriptors fd = none) :
    Registered (s.register fd id) := by
  have hother (c : Nat) (hc : c < s.accepted) (hdone : (s.conns c).pumpDone = false) :
      (s.conns c).fd ≠ fd := by
    intro heq
    have hopen := (h.own c hc hdone).2
    rw [heq, hfree] at hopen
    cases hopen
  constructor
  case own =>
    intro c hc hdone
    rcases Nat.lt_succ_iff_lt_or_eq.mp hc with hc | rfl
    · rw [conns_register_of_lt hc] at hdone ⊢
      have hopen := h.own c hc hdone
      simpa [Coordinator.register, hother c hc hdone] using hopen
    · rw [conns_register_self]
      exact ⟨hpos, by simp [Coordinator.register]⟩
  case socket =>
    intro id' c hl
    rcases latest_register hl with ⟨rfl, rfl⟩ | ⟨hc, hne, hl⟩
    · simp [Coordinator.register]
    · rw [conns_register_of_lt hc]
      simpa [Coordinator.register, hne] using h.socket id' c hl
  case node =>
    intro id' c hl
    rcases latest_register hl with ⟨rfl, rfl⟩ | ⟨hc, hne, hl⟩
    · simp [Coordinator.register]
    · rw [conns_register_of_lt hc]
      simpa [Coordinator.register, hne] using h.node id' c hl
  case fresh =>
    intro id' hnone
    have hne : id' ≠ id := by
      intro heq
      refine hnone s.accepted (Nat.lt_succ_self _) ?_
      rw [conns_register_self, heq]
    have hold := h.fresh id' (fun c hc ↦ by
      have hc' := hnone c (Nat.lt_succ_of_lt hc)
      rwa [conns_register_of_lt hc] at hc')
    simpa [Coordinator.register, hne] using hold
  case ended =>
    intro c hc hdone
    rcases Nat.lt_succ_iff_lt_or_eq.mp hc with hc | rfl
    · rw [conns_register_of_lt hc] at hdone ⊢
      exact h.ended c hc hdone
    · rw [conns_register_self] at hdone
      cases hdone
  case closes =>
    intro x hx
    obtain ⟨hlt, hdone, hown⟩ := h.closes x hx
    refine ⟨Nat.lt_succ_of_lt hlt, ?_, hown⟩
    rwa [conns_register_of_lt hlt]
  case once => exact h.once

theorem Registered.fail (h : Registered s) (c : Nat) :
    Registered { s with conns := Function.update s.conns c { s.conns c with ended := true } } := by
  let t : Coordinator :=
    { s with conns := Function.update s.conns c { s.conns c with ended := true } }
  have hid (c' : Nat) : (t.conns c').workerId = (s.conns c').workerId := by
    by_cases hc : c' = c
    · subst hc
      simp [t]
    · simp [t, hc]
  have hfd (c' : Nat) : (t.conns c').fd = (s.conns c').fd := by
    by_cases hc : c' = c
    · subst hc
      simp [t]
    · simp [t, hc]
  have hdone (c' : Nat) : (t.conns c').pumpDone = (s.conns c').pumpDone := by
    by_cases hc : c' = c
    · subst hc
      simp [t]
    · simp [t, hc]
  have hended (c' : Nat) (he : (s.conns c').ended = true) : (t.conns c').ended = true := by
    by_cases hc : c' = c
    · subst hc
      simp [t]
    · simpa [t, hc] using he
  have hlatest (id : UInt32) (c' : Nat) : t.Latest id c' ↔ s.Latest id c' := latest_congr rfl hid
  change Registered t
  constructor
  case own =>
    intro c' hc' hd
    rw [hdone] at hd
    rw [hfd]
    exact h.own c' hc' hd
  case socket =>
    intro id c' hl
    rw [hdone, hfd]
    exact h.socket id c' ((hlatest id c').mp hl)
  case node =>
    intro id c' hl
    rw [hdone]
    exact h.node id c' ((hlatest id c').mp hl)
  case fresh =>
    intro id hnone
    exact h.fresh id (fun c' hc' ↦ hid c' ▸ hnone c' hc')
  case ended =>
    intro c' hc' hd
    rw [hdone] at hd
    exact hended c' (h.ended c' hc' hd)
  case closes =>
    intro x hx
    obtain ⟨hlt, hd, hown⟩ := h.closes x hx
    exact ⟨hlt, (hdone x.1).trans hd, hown⟩
  case once => exact h.once

def Coordinator.released (s : Coordinator) (c : Nat) (node : ClusterNode)
    (descriptors : SockFd → Option Nat) (closes : List (Nat × Option Nat)) : Coordinator :=
  { s with
    workerSockets := Function.update s.workerSockets (s.conns c).workerId (some kInvalidSock)
    workerMap := Function.update s.workerMap (s.conns c).workerId
      (some { node with reachable := false })
    descriptors
    conns := Function.update s.conns c { s.conns c with pumpDone := true }
    closes }

theorem disconnect_eq {node : ClusterNode} (hfd : s.workerSockets (s.conns c).workerId = some fd)
    (hnode : s.workerMap (s.conns c).workerId = some node) :
    s.disconnect c =
      s.released c node (s.sockClose c fd).descriptors (s.sockClose c fd).closes := by
  by_cases hpos : 0 ≤ fd
  · simp [Coordinator.disconnect, Coordinator.closeSocket, Coordinator.markUnreachable,
      Coordinator.sockClose, Coordinator.released, hfd, hnode, hpos]
  · simp [Coordinator.disconnect, Coordinator.closeSocket, Coordinator.markUnreachable,
      Coordinator.sockClose, Coordinator.released, hfd, hnode, hpos]

theorem Registered.released {node : ClusterNode} {descriptors : SockFd → Option Nat}
    {closes : List (Nat × Option Nat)} (h : Registered s) (hc : c < s.accepted)
    (hended : (s.conns c).ended = true) (hl : s.Latest (s.conns c).workerId l)
    (hlast : l = c ∨ (s.conns l).pumpDone = true)
    (hopen : ∀ c' < s.accepted, c' ≠ c → (s.conns c').pumpDone = false →
      descriptors (s.conns c').fd = some c')
    (hcloses : ∀ x ∈ closes, x ∈ s.closes ∨ x = (c, some c)) (honce : closes.Nodup) :
    Registered (s.released c node descriptors closes) := by
  have hself : (s.released c node descriptors closes).conns c =
      { s.conns c with pumpDone := true } := by simp [Coordinator.released]
  have hother (c' : Nat) (hne : c' ≠ c) :
      (s.released c node descriptors closes).conns c' = s.conns c' := by
    simp [Coordinator.released, hne]
  have hid (c' : Nat) : ((s.released c node descriptors closes).conns c').workerId =
      (s.conns c').workerId := by
    by_cases hne : c' = c
    · rw [hne, hself]
    · rw [hother c' hne]
  have hlatest (id : UInt32) (c' : Nat) :
      (s.released c node descriptors closes).Latest id c' ↔ s.Latest id c' := latest_congr rfl hid
  have hdone : ((s.released c node descriptors closes).conns l).pumpDone = true := by
    by_cases hne : l = c
    · rw [hne, hself]
    · rw [hother l hne]
      exact hlast.resolve_left hne
  constructor
  case own =>
    intro c' hc' hd
    by_cases hne : c' = c
    · rw [hne, hself] at hd
      cases hd
    · rw [hother c' hne] at hd ⊢
      exact ⟨(h.own c' hc' hd).1, hopen c' hc' hne hd⟩
  case socket =>
    intro id c' hl'
    rw [hlatest] at hl'
    by_cases hidc : id = (s.conns c).workerId
    · subst hidc
      rw [← hl.unique hl', hdone]
      simp [Coordinator.released]
    · have hne : c' ≠ c := fun heq ↦ hidc (heq ▸ hl'.2.1.symm)
      rw [hother c' hne]
      simpa [Coordinator.released, hidc] using h.socket id c' hl'
  case node =>
    intro id c' hl'
    rw [hlatest] at hl'
    by_cases hidc : id = (s.conns c).workerId
    · subst hidc
      rw [← hl.unique hl', hdone]
      simp [Coordinator.released]
    · have hne : c' ≠ c := fun heq ↦ hidc (heq ▸ hl'.2.1.symm)
      rw [hother c' hne]
      simpa [Coordinator.released, hidc] using h.node id c' hl'
  case fresh =>
    intro id hnone
    have hidc : id ≠ (s.conns c).workerId := fun heq ↦ hnone c hc ((hid c).trans heq.symm)
    have hold := h.fresh id (fun c' hc' ↦ hid c' ▸ hnone c' hc')
    simpa [Coordinator.released, hidc] using hold
  case ended =>
    intro c' hc' hd
    by_cases hne : c' = c
    · rw [hne, hself]
      exact hended
    · rw [hother c' hne] at hd ⊢
      exact h.ended c' hc' hd
  case closes =>
    intro x hx
    rcases hcloses x hx with hold | rfl
    · obtain ⟨hlt, hd, hown⟩ := h.closes x hold
      refine ⟨hlt, ?_, hown⟩
      by_cases hne : x.1 = c
      · rw [hne, hself]
      · rw [hother x.1 hne]
        exact hd
    · exact ⟨hc, by rw [hself], rfl⟩
  case once => exact honce

theorem Registered.disconnect (h : Registered s) (hc : c < s.accepted)
    (hdone : (s.conns c).pumpDone = false)
    (hwhy : (s.conns c).ended = true ∨ s.descriptors (s.conns c).fd ≠ some c)
    (hok : CoordinatorAction.Undisturbed s (.pumpFails c)) : Registered (s.disconnect c) := by
  obtain ⟨l, hl⟩ := exists_latest hc
  obtain ⟨node, hnode, -⟩ := h.node _ l hl
  obtain ⟨hpos, hopen⟩ := h.own c hc hdone
  have hended := hwhy.resolve_right (not_not.mpr hopen)
  have hsocket := h.socket _ l hl
  rw [disconnect_eq hsocket hnode]
  by_cases hlc : l = c
  · -- the pump closes its own socket
    subst hlc
    have hclosed : s.sockClose l (s.conns l).fd =
        { s with
          descriptors := Function.update s.descriptors (s.conns l).fd none
          closes := s.closes ++ [(l, some l)] } := by
      rw [Coordinator.sockClose, if_pos hpos, hopen]
    rw [hdone, if_neg (by simp), hclosed]
    refine h.released hc hended hl (.inl rfl) ?_ ?_ ?_
    · intro c' hc' hne hd
      have hopen' := (h.own c' hc' hd).2
      have hfd : (s.conns c').fd ≠ (s.conns l).fd := by
        intro heq
        rw [heq, hopen] at hopen'
        exact hne (Option.some.inj hopen').symm
      simpa [hfd] using hopen'
    · intro x hx
      simpa using hx
    · refine List.nodup_append.mpr ⟨h.once, List.nodup_singleton _, ?_⟩
      intro x hx y hy heq
      obtain rfl := List.mem_singleton.mp hy
      rw [heq] at hx
      have hd := (h.closes _ hx).2.1
      rw [hdone] at hd
      cases hd
  · -- nothing is registered any more
    have hld := (hok l hl).resolve_left hlc
    have hclosed : s.sockClose c kInvalidSock = s := by
      rw [Coordinator.sockClose, if_neg (by decide)]
    rw [hld, if_pos rfl, hclosed]
    exact h.released hc hended hl (.inr hld) (fun c' hc' _ hd ↦ (h.own c' hc' hd).2)
      (fun x hx ↦ .inl hx) h.once

theorem CoordinatorStep.registered (h : Registered s) (hok : a.Undisturbed s)
    (hstep : CoordinatorStep s a s') : Registered s' := by
  cases hstep with
  | @accept fd msg hpos hfree =>
    unfold Coordinator.acceptClient
    split
    · exact h
    · exact h.register hpos hfree
  | @fail c hc => exact h.fail c
  | pumpFails hc hdone hwhy => exact h.disconnect hc hdone hwhy hok

/-- A pump that is disturbed closes the socket of another connection. -/
theorem CoordinatorStep.not_safe (h : Registered s) (hok : ¬ a.Undisturbed s)
    (hstep : CoordinatorStep s a s') : ¬ s'.Safe := by
  cases hstep with
  | accept hpos hfree => exact (hok trivial).elim
  | fail hc => exact (hok trivial).elim
  | @pumpFails c hc hdone hwhy =>
    rw [CoordinatorAction.Undisturbed] at hok
    push Not at hok
    obtain ⟨l, hl, hne, hld⟩ := hok
    have hld' : (s.conns l).pumpDone = false := by simpa using hld
    obtain ⟨node, hnode, -⟩ := h.node _ l hl
    obtain ⟨hpos, hopen⟩ := h.own l hl.1 hld'
    have hsocket := h.socket _ l hl
    rw [hld', if_neg (by simp)] at hsocket
    intro hsafe
    have hmem : (c, some l) ∈ (s.disconnect c).closes := by
      rw [disconnect_eq hsocket hnode, Coordinator.sockClose, if_pos hpos, hopen]
      simp [Coordinator.released]
    exact hne (Option.some.inj (hsafe.own _ hmem))

/-- Along every run from a roster of workers, pumps close nothing but their own sockets and the
registry stays right exactly where each pump that notices the end of its connection does so before a
newer connection of the worker runs. -/
theorem reconnect_safe_iff (roster : UInt32 → Option ClusterNode)
    (h : Run CoordinatorStep { workerMap := roster } tr u) :
    Throughout Coordinator.Safe tr u ↔ ∀ x ∈ tr, x.2.Undisturbed x.1 := by
  refine h.holds_iff (fun _ ↦ Registered.safe) (fun _ _ _ hs hok hstep ↦ hstep.registered hs hok)
    (fun _ _ _ hs hok hstep ↦ hstep.not_safe hs hok) ?_
  constructor
  case own => exact fun c hc ↦ absurd hc (Nat.not_lt_zero c)
  case socket => exact fun id c hl ↦ absurd hl.1 (Nat.not_lt_zero c)
  case node => exact fun id c hl ↦ absurd hl.1 (Nat.not_lt_zero c)
  case fresh => exact fun id _ ↦ rfl
  case ended => exact fun c hc ↦ absurd hc (Nat.not_lt_zero c)
  case closes => exact fun x hx ↦ absurd hx List.not_mem_nil
  case once => exact List.nodup_nil

end

def ready : Option ReceivedMsg := some { type := .workerReady, payload := [1, 0, 0, 0] }

theorem reconnect_safe_iff_once :
    ∃ tr u, Run CoordinatorStep {} tr u ∧
      tr.map Prod.snd = [.accept 5 ready, .fail 0, .pumpFails 0, .accept 5 ready] ∧
      Throughout Coordinator.Safe tr u := by
  have hrun : ∃ tr u, Run CoordinatorStep {} tr u ∧
      tr.map Prod.snd = [.accept 5 ready, .fail 0, .pumpFails 0, .accept 5 ready] ∧
      ∀ x ∈ tr, x.2.Undisturbed x.1 := by
    refine ⟨_, _, .cons (.accept (by decide) rfl) (.cons (.fail (by decide)) (.cons (.pumpFails
      (by decide) rfl (.inl rfl)) (.cons (.accept (by decide) rfl) (.nil _)))), rfl, ?_⟩
    simp only [List.forall_mem_cons]
    refine ⟨trivial, trivial, ?_, trivial, by simp⟩
    intro c' hl
    exact .inl (Nat.lt_one_iff.mp hl.1)
  obtain ⟨tr, u, hrun, hactions, hok⟩ := hrun
  exact ⟨tr, u, hrun, hactions, (reconnect_safe_iff _ hrun).mpr hok⟩

/-- The worker connects again before the pump of its first connection has noticed the end of that
one. The pump closes the socket of the second connection, and the worker is unreachable. -/
theorem new_socket_closed :
    ∃ tr u, Run CoordinatorStep {} tr u ∧
      tr.map Prod.snd = [.accept 5 ready, .fail 0, .accept 6 ready, .pumpFails 0] ∧
      (u.conns 1).ended = false ∧ u.closes = [(0, some 1)] ∧
      u.workerSockets 1 = some kInvalidSock ∧ ¬ u.Safe := by
  refine ⟨_, _, .cons (.accept (by decide) rfl) (.cons (.fail (by decide)) (.cons (.accept
    (by decide) rfl) (.cons (.pumpFails (by decide) rfl (.inl rfl)) (.nil _)))), rfl, rfl, rfl, rfl,
      ?_⟩
  intro hsafe
  exact absurd (hsafe.own (0, some 1) (List.mem_singleton_self _)) (by decide)

end Cerberus.Cluster
