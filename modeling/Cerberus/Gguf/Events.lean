import Cerberus.Gguf.Acceptance

namespace Cerberus.Gguf

open Foundation Foundation.Bytes Foundation.LittleEndian InputStream

/-- A loop of the parser at one of its iterations. The loops that go on where their step fails
count the iterations that are still to come; the loops inside an array take the number of the loop
that they are in. -/
inductive Loop
  | metadata
  | tensor
  | dimension (remaining : Nat)
  | element (type : GgufMetadataType) (remaining : Nat)

/-- What happens in a run: the stream is read or positioned, an iteration begins, or an iteration
is over. -/
inductive Event
  | moved (before after : Nat)
  | begins (loop : Loop)
  | ends (loop : Loop) (before after : InputStream)

abbrev Log := List Event

/-! The events of the functions of the parser, in their order. Where a function is cut off in the
depth, its log ends. -/

def readLog (n : Nat) (s : InputStream) : Log := [.moved s.pos (s.read n).2.pos]

def itemsLog (loop : Loop) (skipItem : InputStream → Option (Bool × InputStream))
    (itemLog : InputStream → Log) : Nat → InputStream → Log
  | 0, _ => []
  | n + 1, s =>
    .begins loop :: itemLog s ++
      match skipItem s with
      | none => []
      | some (ok, s') =>
        .ends loop s s' :: if ok then itemsLog loop skipItem itemLog n s' else []

def skipLog (remaining : Nat) : Nat → GgufMetadataType → InputStream → Log
  | 0, _, _ => []
  | depth + 1, type, s =>
    match type with
    | .uint8 | .int8 | .bool => readLog 1 s
    | .uint16 | .int16 => readLog 2 s
    | .uint32 | .int32 | .float32 => readLog 4 s
    | .uint64 | .int64 | .float64 => readLog 8 s
    | .string =>
      let len := s.readNat 8
      readLog 8 s ++
        if 0 < len.1 then [.moved len.2.pos (len.2.seekCur (signed64 len.1)).pos] else []
    | .array =>
      let arrType := s.readNat 4
      let arrLen := arrType.2.readNat 8
      readLog 4 s ++ readLog 8 arrType.2 ++
        itemsLog (.element (.ofRaw arrType.1) remaining)
          (skipMetadataValue depth (.ofRaw arrType.1))
          (skipLog remaining depth (.ofRaw arrType.1)) arrLen.1 arrLen.2
    | .unknown _ => []

def allLog (depth : Nat) (type : GgufMetadataType) : Nat → InputStream → Log
  | 0, _ => []
  | n + 1, s =>
    .begins (.element type n) :: skipLog n depth type s ++
      match skipMetadataValue depth type s with
      | none => []
      | some (_, s') => .ends (.element type n) s s' :: allLog depth type n s'

section

variable (host : Host)

def stringLog (s : InputStream) : Log :=
  let len := s.readNat 8
  readLog 8 s ++ if host.maxSize < len.1 then [] else readLog len.1 len.2

def valueLog (depth : Nat) (type : GgufMetadataType) (s : InputStream) : Log :=
  match type with
  | .string => stringLog host s
  | .array =>
    let arrType := s.readNat 4
    let arrLen := arrType.2.readNat 8
    readLog 4 s ++ readLog 8 arrType.2 ++ allLog depth (.ofRaw arrType.1) arrLen.1 arrLen.2
  | type => (type.width.map (fun w ↦ readLog w s)).getD []

def kvLog (depth : Nat) (s : InputStream) : Log :=
  stringLog host s ++
    match readString host s with
    | none => []
    | some (_, s₁) =>
      let typeRaw := s₁.readNat 4
      readLog 4 s₁ ++ valueLog host depth (.ofRaw typeRaw.1) typeRaw.2

def shapeLog : Nat → InputStream → Log
  | 0, _ => []
  | n + 1, s =>
    .begins (.dimension n) :: readLog 8 s ++
      .ends (.dimension n) s (s.readNat 8).2 :: shapeLog n (s.readNat 8).2

def tensorLog (s : InputStream) : Log :=
  stringLog host s ++
    match readString host s with
    | none => []
    | some (_, s₁) =>
      let ndim := s₁.readNat 4
      let shape := GgufParser.readShape ndim.1 ndim.2
      let dtypeRaw := shape.2.readNat 4
      readLog 4 s₁ ++ shapeLog ndim.1 ndim.2 ++ readLog 4 shape.2 ++ readLog 8 dtypeRaw.2

def metadataLog (depth : Nat) : Nat → GgufParser → InputStream → Log
  | 0, _, _ => []
  | n + 1, p, s =>
    .begins .metadata :: kvLog host depth s ++
      match p.parseMetadataKv host depth s with
      | none => []
      | some kv =>
        .ends .metadata s kv.2.2 ::
          if kv.1 = .returned true then metadataLog depth n kv.2.1 kv.2.2 else []

def tensorsLog : Nat → GgufParser → InputStream → Log
  | 0, _, _ => []
  | n + 1, p, s =>
    let info := p.parseTensorInfo host s
    .begins .tensor :: tensorLog host s ++ .ends .tensor s info.2.2 ::
      if info.1 = .returned true then tensorsLog n info.2.1 info.2.2 else []

def streamLog (depth : Nat) (s : InputStream) : Log :=
  let magic := s.readNat 4
  let version := magic.2.readNat 4
  let p : GgufParser := { header := { magic := magic.1, version := version.1 } }
  readLog 4 s ++ readLog 4 magic.2 ++
    if ¬p.header.isValid then []
    else
      let tensorCount := version.2.readNat 8
      let kvCount := tensorCount.2.readNat 8
      let p : GgufParser := { header := { p.header with
        tensorCount := tensorCount.1
        metadataKvCount := kvCount.1 } }
      readLog 8 version.2 ++ readLog 8 tensorCount.2 ++
        metadataLog host depth kvCount.1 p kvCount.2 ++
        match p.parseMetadata host depth kvCount.1 kvCount.2 with
        | none => []
        | some kvs =>
          if kvs.1 = .returned true then tensorsLog host tensorCount.1 kvs.2.1 kvs.2.2 else []

def memoryLog (depth : Nat) (data : ByteString) : Log :=
  if data = [] then []
  else if host.maxSize < data.length then []
  else streamLog host depth { kind := .memory, bytes := data }

end

def Left (s : InputStream) : Prop := s.good = true ∧ s.pos < s.bytes.length

/-- The length of a string that is skipped is taken for a negative one, and there is a position so
far back. -/
def SkipsBack (s : InputStream) : Prop :=
  s.good = true ∧ s.pos + 8 ≤ s.bytes.length ∧ 2 ^ 63 ≤ readAt s.pos 8 s.bytes ∧
    s.kind.admits s.bytes.length ((s.pos + 8 : Nat) + signed64 (readAt s.pos 8 s.bytes))

/-- The state in which an iteration does what it should: one of the loops that go on needs bytes
to read unless it is the last, and an element has a type that is known and is not skipped
backwards. -/
def Loop.Advances (s : InputStream) : Loop → Prop
  | .metadata => True
  | .tensor => True
  | .dimension remaining => Left s ∨ remaining = 0
  | .element type remaining => (s.good = true → type.Known) ∧ (Left s ∨ remaining = 0) ∧
      (type = .string → ¬SkipsBack s)

namespace Event

def IsBegins : Event → Prop
  | .begins _ => True
  | _ => False

def Forward : Event → Prop
  | .moved before after => before ≤ after
  | _ => True

def Stalls : Event → Prop
  | .ends _ before after => after.pos ≤ before.pos
  | _ => False

def Advances : Event → Prop
  | .ends loop before _ => loop.Advances before
  | _ => True

end Event

/-- The position never decreases, and no iteration begins after one that has not consumed a
byte. -/
structure Steady (log : Log) : Prop where
  forward : ∀ e ∈ log, e.Forward
  last : log.Pairwise (fun e e' ↦ e.Stalls → ¬e'.IsBegins)

def Stuck (log : Log) : Prop := ∃ e ∈ log, e.Stalls

/-- The states of the iterations are those in which they should begin exactly when the log is
steady, and nothing is consumed only where the run has ended in some way. -/
def Accounts (log : Log) (ended : Prop) : Prop :=
  (∀ e ∈ log, e.Advances) ↔ Steady log ∧ (Stuck log → ended)

def Moves (log : Log) : Prop := ∀ e ∈ log, ∃ a b, e = .moved a b ∧ a ≤ b

variable {log log₁ log₂ : Log} {ended ended' : Prop} {loop : Loop} {s s' : InputStream}

theorem steady_append : Steady (log₁ ++ log₂) ↔
    Steady log₁ ∧ Steady log₂ ∧ (Stuck log₁ → ∀ e ∈ log₂, ¬e.IsBegins) := by
  constructor
  · rintro ⟨hforward, hlast⟩
    obtain ⟨hlast₁, hlast₂, hcross⟩ := List.pairwise_append.mp hlast
    refine ⟨⟨fun e he ↦ hforward e (List.mem_append_left _ he), hlast₁⟩,
      ⟨fun e he ↦ hforward e (List.mem_append_right _ he), hlast₂⟩, ?_⟩
    rintro ⟨e, he, hstalls⟩ e' he'
    exact hcross e he e' he' hstalls
  · rintro ⟨⟨hforward₁, hlast₁⟩, ⟨hforward₂, hlast₂⟩, hcross⟩
    refine ⟨?_, List.pairwise_append.mpr ⟨hlast₁, hlast₂, ?_⟩⟩
    · intro e he
      exact (List.mem_append.mp he).elim (hforward₁ e) (hforward₂ e)
    · intro e he e' he' hstalls
      exact hcross ⟨e, he, hstalls⟩ e' he'

theorem stuck_append : Stuck (log₁ ++ log₂) ↔ Stuck log₁ ∨ Stuck log₂ := by
  simp [Stuck, or_and_right, exists_or]

theorem Accounts.weaken_stuck (h : Accounts log ended) (heq : Stuck log → (ended ↔ ended')) :
    Accounts log ended' := by
  unfold Accounts at h ⊢
  rw [h]
  exact and_congr_right (fun _ ↦ forall_congr' heq)

theorem Accounts.weaken (h : Accounts log ended) (heq : ended ↔ ended') : Accounts log ended' := by
  rwa [Accounts, ← heq]

theorem Accounts.goes_on (h : Accounts log ended) (hno : ¬ended) : Accounts log False :=
  h.weaken (iff_false_intro hno)

theorem Accounts.append (h : Accounts log₁ False) (h' : Accounts log₂ ended)
    (hquiet : (∀ e ∈ log₂, ¬e.IsBegins) → ¬ended) : Accounts (log₁ ++ log₂) ended := by
  unfold Accounts at h h' ⊢
  rw [List.forall_mem_append, h, h', steady_append, stuck_append]
  constructor
  · rintro ⟨⟨hsteady₁, hno⟩, hsteady₂, hended⟩
    exact ⟨⟨hsteady₁, hsteady₂, fun hs ↦ (hno hs).elim⟩, fun hs ↦ hs.elim (fun hs ↦ (hno hs).elim) hended⟩
  · rintro ⟨⟨hsteady₁, hsteady₂, hcross⟩, hended⟩
    refine ⟨⟨hsteady₁, ?_⟩, hsteady₂, fun hs ↦ hended (.inr hs)⟩
    intro hs
    exact hquiet (hcross hs) (hended (.inl hs))

theorem Moves.advances (h : Moves log) : ∀ e ∈ log, e.Advances := by
  intro e he
  obtain ⟨a, b, rfl, -⟩ := h e he
  trivial

theorem Moves.not_begins (h : Moves log) : ∀ e ∈ log, ¬e.IsBegins := by
  intro e he
  obtain ⟨a, b, rfl, -⟩ := h e he
  exact id

theorem Moves.not_stuck (h : Moves log) : ¬Stuck log := by
  rintro ⟨e, he, hstalls⟩
  obtain ⟨a, b, rfl, -⟩ := h e he
  exact hstalls

theorem Moves.steady (h : Moves log) : Steady log := by
  refine ⟨?_, ?_⟩
  · intro e he
    obtain ⟨a, b, rfl, hle⟩ := h e he
    exact hle
  · apply List.pairwise_of_forall_mem_list
    exact fun _ _ _ he _ ↦ h.not_begins _ he

theorem Moves.accounts (h : Moves log) : Accounts log ended :=
  iff_of_true h.advances ⟨h.steady, fun hs ↦ (h.not_stuck hs).elim⟩

theorem Moves.append (h : Moves log₁) (h' : Moves log₂) : Moves (log₁ ++ log₂) := by
  intro e he
  exact (List.mem_append.mp he).elim (h e) (h' e)

theorem moves_nil : Moves [] := fun _ he ↦ absurd he List.not_mem_nil

/-- Before the first iteration is over, nothing can go wrong but a move. -/
theorem Accounts.prepend (h : Accounts log₂ ended) (hsteady : Steady log₁)
    (hends : ∀ e ∈ log₁, ∀ loop s s', e ≠ .ends loop s s') : Accounts (log₁ ++ log₂) ended := by
  have hadvances : ∀ e ∈ log₁, e.Advances := by
    intro e he
    cases e with
    | ends loop s s' => exact absurd rfl (hends _ he loop s s')
    | _ => trivial
  have hstuck : ¬Stuck log₁ := by
    rintro ⟨e, he, hstalls⟩
    cases e with
    | ends loop s s' => exact absurd rfl (hends _ he loop s s')
    | _ => exact hstalls
  unfold Accounts at h ⊢
  rw [List.forall_mem_append, h, steady_append, stuck_append]
  constructor
  · rintro ⟨-, hsteady', hended⟩
    exact ⟨⟨hsteady, hsteady', fun hs ↦ (hstuck hs).elim⟩,
      fun hs ↦ hs.elim (fun hs ↦ (hstuck hs).elim) hended⟩
  · rintro ⟨⟨-, hsteady', -⟩, hended⟩
    exact ⟨hadvances, hsteady', fun hs ↦ hended (.inr hs)⟩

theorem Accounts.after_moves (h : Accounts log₂ ended) (hm : Moves log₁) :
    Accounts (log₁ ++ log₂) ended := by
  apply h.prepend hm.steady
  rintro e he loop s s' rfl
  obtain ⟨a, b, heq, -⟩ := hm _ he
  cases heq

theorem Accounts.begins (h : Accounts log ended) (loop : Loop) :
    Accounts (.begins loop :: log) ended := by
  rw [← List.singleton_append]
  apply h.prepend
  · refine ⟨?_, List.pairwise_singleton _ _⟩
    intro e he
    obtain rfl := List.mem_singleton.mp he
    trivial
  · rintro e he loop s s' rfl
    cases List.mem_singleton.mp he

theorem Accounts.moves (h : Accounts log₁ ended) (hm : Moves log₂) :
    Accounts (log₁ ++ log₂) ended := by
  unfold Accounts at h ⊢
  rw [List.forall_mem_append, h, steady_append, stuck_append]
  constructor
  · rintro ⟨⟨hsteady, hended⟩, -⟩
    exact ⟨⟨hsteady, hm.steady, fun _ ↦ hm.not_begins⟩,
      fun hs ↦ hs.elim hended (fun hs ↦ (hm.not_stuck hs).elim)⟩
  · rintro ⟨⟨hsteady, -, -⟩, hended⟩
    exact ⟨⟨hsteady, fun hs ↦ hended (.inl hs)⟩, hm.advances⟩

theorem Accounts.ends (h : Accounts log ended)
    (hown : Steady log → (loop.Advances s ↔ (s'.pos ≤ s.pos → ended))) :
    Accounts (log ++ [.ends loop s s']) ended := by
  have hsteady : Steady (log ++ [.ends loop s s']) ↔ Steady log := by
    rw [steady_append]
    refine ⟨fun hs ↦ hs.1, fun hs ↦ ⟨hs, ⟨?_, List.pairwise_singleton _ _⟩, ?_⟩⟩
    · intro e he
      obtain rfl := List.mem_singleton.mp he
      trivial
    · intro _ e he
      obtain rfl := List.mem_singleton.mp he
      exact id
  have hstuck : Stuck (log ++ [.ends loop s s']) ↔ Stuck log ∨ s'.pos ≤ s.pos := by
    simp [Stuck, Event.Stalls]
  have hmeets : (∀ e ∈ log ++ [.ends loop s s'], e.Advances) ↔
      (∀ e ∈ log, e.Advances) ∧ loop.Advances s := by
    rw [List.forall_mem_append, List.forall_mem_singleton]
    rfl
  unfold Accounts at h ⊢
  rw [hmeets, h, hsteady, hstuck]
  constructor
  · rintro ⟨⟨hs, hended⟩, hadvances⟩
    exact ⟨hs, fun hor ↦ hor.elim hended ((hown hs).mp hadvances)⟩
  · rintro ⟨hs, hended⟩
    exact ⟨⟨hs, fun h ↦ hended (.inl h)⟩, (hown hs).mpr (fun h ↦ hended (.inr h))⟩

end Cerberus.Gguf
