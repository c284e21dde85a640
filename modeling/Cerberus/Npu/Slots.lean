import Cerberus.Foundation.Trace

namespace Cerberus.Npu

open Foundation.Trace

abbrev FloatBits := UInt32

inductive SlotState
  | idle
  | encoding
  | staging
  | ready
  | failed
  deriving DecidableEq

structure NpuDmaSlotDevice where
  devicePtr : Option Nat := none
  dmaStream : Option Nat := none

structure NpuDmaSlot where
  state : SlotState := .idle
  hostBuffer : List FloatBits
  dev : NpuDmaSlotDevice := {}

structure Config where
  numSlots : Nat := 3
  embeddingBytes : Nat := 77 * 2048 * 4
  enableGpuStaging : Bool := true

namespace Config

variable (cfg : Config)

def slotCount : Nat := if 0 < cfg.numSlots then cfg.numSlots else 3

def bufferSize : Nat := cfg.embeddingBytes / 4

end Config

structure NpuEncodeResult where
  embeddings : List FloatBits
  npuUtilization : FloatBits := 0xBF800000

structure Transfer where
  memcpyAsync : Bool := true
  eventRecord : Bool := true

structure NpuTensorHandle where
  devicePtr : Option Nat
  elementCount : Nat
  npuUtil : FloatBits
  valid : Bool

inductive WaitError
  | outOfRange (slot : Nat)
  | errorState (slot : Nat)
  | timeout (slot : Nat)

namespace NpuDmaSlot

variable (slot : NpuDmaSlot)

/-- What the encoder has returned is copied as far as the buffer goes. -/
def runEncode : Option NpuEncodeResult → NpuDmaSlot
  | none => { slot with state := .failed }
  | some encoded =>
    if slot.hostBuffer ≠ [] ∧ encoded.embeddings ≠ [] then
      let n := min slot.hostBuffer.length encoded.embeddings.length
      { slot with
        state := .encoding
        hostBuffer := encoded.embeddings.take n ++ slot.hostBuffer.drop n }
    else { slot with state := .encoding }

def stageToGpu (hip : Bool) (t : Transfer) : NpuDmaSlot :=
  if hip = false ∨ slot.dev.devicePtr = none ∨ slot.dev.dmaStream = none ∨ slot.hostBuffer = [] then
    slot
  else if t.memcpyAsync = false then { slot with state := .failed }
  else if t.eventRecord = false then { slot with state := .failed }
  else { slot with state := .staging }

/-- The slot in a call of `submit`. Staging ends in `READY`, whatever came before. -/
def submit (hip staging : Bool) (t : Transfer) (encoded : Option NpuEncodeResult) : NpuDmaSlot :=
  if staging then { (slot.runEncode encoded).stageToGpu hip t with state := .ready }
  else slot.runEncode encoded

end NpuDmaSlot

/-- The pipeline, and for each slot what the encoder has returned in the last call of `submit` that
has returned the slot, until the slot is released. -/
structure NpuDmaPipeline where
  cfg : Config
  slots : Nat → NpuDmaSlot
  freeSlots : List Nat
  lastNpuUtil : FloatBits := 0xBF800000
  submitted : Nat → Option (Option NpuEncodeResult) := fun _ ↦ none

namespace NpuDmaPipeline

variable (p : NpuDmaPipeline)

def create (hip : Bool) (cfg : Config) (memory : Nat → Nat → FloatBits)
    (dev : Nat → NpuDmaSlotDevice) : NpuDmaPipeline where
  cfg := cfg
  slots i :=
    { hostBuffer := (List.range cfg.bufferSize).map (memory i)
      dev := if hip && cfg.enableGpuStaging then dev i else {} }
  freeSlots := List.range cfg.slotCount

def submit (hip : Bool) (t : Transfer) (encoded : Option NpuEncodeResult) (i : Nat)
    (rest : List Nat) : NpuDmaPipeline :=
  { p with
    slots := Function.update p.slots i
      ((p.slots i).submit hip p.cfg.enableGpuStaging t encoded)
    freeSlots := rest
    lastNpuUtil := (encoded.map NpuEncodeResult.npuUtilization).getD p.lastNpuUtil
    submitted := Function.update p.submitted i (some encoded) }

def handle (slot : Nat) (valid : Bool) : NpuTensorHandle where
  devicePtr := (p.slots slot).dev.devicePtr
  elementCount := (p.slots slot).hostBuffer.length
  npuUtil := p.lastNpuUtil
  valid := valid

/-- A call that looks at the slot before its deadline, or does not come to it. -/
def waitGpuReady (slot : Nat) (inTime : Bool) : Except WaitError NpuTensorHandle :=
  if p.cfg.slotCount ≤ slot then .error (.outOfRange slot)
  else if inTime then
    match (p.slots slot).state with
    | .ready => .ok (p.handle slot true)
    | .failed => .error (.errorState slot)
    | _ => .error (.timeout slot)
  else .error (.timeout slot)

def tryGetGpuHandle (slot : Nat) : Option NpuTensorHandle :=
  if p.cfg.slotCount ≤ slot then none
  else if (p.slots slot).state ≠ .ready then none
  else some (p.handle slot (p.slots slot).dev.devicePtr.isSome)

def releaseSlot (slot : Nat) : NpuDmaPipeline :=
  if p.cfg.slotCount ≤ slot then p
  else
    { p with
      slots := Function.update p.slots slot { p.slots slot with state := .idle }
      freeSlots := p.freeSlots ++ [slot]
      submitted := Function.update p.submitted slot none }

end NpuDmaPipeline

inductive PipelineAction
  | submit (t : Transfer) (encoded : Option NpuEncodeResult)
  | wait (slot : Nat) (inTime : Bool)
  | tryGet (slot : Nat)
  | release (slot : Nat)

/-- A call of `submit` blocks until a slot is free. -/
inductive PipelineStep (hip : Bool) : NpuDmaPipeline → PipelineAction → NpuDmaPipeline → Prop
  | submit {p : NpuDmaPipeline} {t : Transfer} {encoded : Option NpuEncodeResult} {i : Nat}
      {rest : List Nat} : p.freeSlots = i :: rest →
      PipelineStep hip p (.submit t encoded) (p.submit hip t encoded i rest)
  | wait {p : NpuDmaPipeline} {slot : Nat} {inTime : Bool} :
      PipelineStep hip p (.wait slot inTime) p
  | tryGet {p : NpuDmaPipeline} {slot : Nat} : PipelineStep hip p (.tryGet slot) p
  | release {p : NpuDmaPipeline} {slot : Nat} :
      PipelineStep hip p (.release slot) (p.releaseSlot slot)

namespace NpuDmaPipeline

variable (p : NpuDmaPipeline)

def Returns (slot : Nat) (h : NpuTensorHandle) : Prop :=
  (∃ inTime, p.waitGpuReady slot inTime = .ok h) ∨ p.tryGetGpuHandle slot = some h

/-- The state of every slot that a call of `submit` has returned says how the encoding went, and
valid handles are those of slots that hold its embeddings. -/
structure Genuine : Prop where
  state : ∀ i encoded, p.submitted i = some encoded →
    (p.slots i).state = if encoded.isSome then .ready else .failed
  handle : ∀ i encoded h, p.submitted i = some encoded → p.Returns i h → h.valid = true →
    ∃ r, encoded = some r ∧ r.embeddings <+: (p.slots i).hostBuffer

end NpuDmaPipeline

/-- The encoder succeeds where the slots are staged, with embeddings for which there is room, and
fails where they are not. -/
def PipelineAction.Suited (p : NpuDmaPipeline) : PipelineAction → Prop
  | .submit _ encoded => p.cfg.enableGpuStaging = encoded.isSome ∧
      ∀ r, encoded = some r → r.embeddings.length ≤ p.cfg.bufferSize
  | _ => True

structure Filled (p : NpuDmaPipeline) : Prop where
  size : ∀ i, (p.slots i).hostBuffer.length = p.cfg.bufferSize
  free : ∀ i ∈ p.freeSlots, i < p.cfg.slotCount
  state : ∀ i encoded, p.submitted i = some encoded →
    (p.slots i).state = if encoded.isSome then .ready else .failed
  embeddings : ∀ i r, p.submitted i = some (some r) → r.embeddings <+: (p.slots i).hostBuffer

section

variable {hip : Bool} {p p' u : NpuDmaPipeline} {a : PipelineAction} {i : Nat} {rest : List Nat}
  {t : Transfer} {encoded : Option NpuEncodeResult} {tr : List (NpuDmaPipeline × PipelineAction)}

namespace NpuDmaSlot

variable (slot : NpuDmaSlot)

theorem length_runEncode (encoded : Option NpuEncodeResult) :
    (slot.runEncode encoded).hostBuffer.length = slot.hostBuffer.length := by
  cases encoded with
  | none => rfl
  | some r =>
    rw [runEncode]
    split
    · simp only [List.length_append, List.length_take, List.length_drop]
      omega
    · rfl

theorem state_runEncode (encoded : Option NpuEncodeResult) :
    (slot.runEncode encoded).state = if encoded.isSome then .encoding else .failed := by
  cases encoded with
  | none => rfl
  | some r =>
    rw [runEncode]
    split
    · rfl
    · rfl

theorem prefix_runEncode {r : NpuEncodeResult}
    (hfit : r.embeddings.length ≤ slot.hostBuffer.length) :
    r.embeddings <+: (slot.runEncode (some r)).hostBuffer := by
  rw [runEncode]
  by_cases hempty : slot.hostBuffer ≠ [] ∧ r.embeddings ≠ []
  · rw [if_pos hempty]
    simp only [Nat.min_eq_right hfit, List.take_length]
    exact List.prefix_append _ _
  · rw [if_neg hempty]
    have hnil : r.embeddings = [] := by
      by_contra hne
      have hbuffer : slot.hostBuffer = [] := by
        by_contra hbuffer
        exact hempty ⟨hbuffer, hne⟩
      rw [hbuffer, List.length_nil] at hfit
      exact hne (List.eq_nil_of_length_eq_zero (by omega))
    rw [hnil]
    exact List.nil_prefix

theorem hostBuffer_stageToGpu (hip : Bool) (t : Transfer) :
    (slot.stageToGpu hip t).hostBuffer = slot.hostBuffer := by
  unfold stageToGpu
  split
  · rfl
  · split
    · rfl
    · split
      · rfl
      · rfl

theorem hostBuffer_submit (hip staging : Bool) (t : Transfer) (encoded : Option NpuEncodeResult) :
    (slot.submit hip staging t encoded).hostBuffer = (slot.runEncode encoded).hostBuffer := by
  cases staging with
  | true => exact hostBuffer_stageToGpu _ hip t
  | false => rfl

theorem state_submit (hip staging : Bool) (t : Transfer) (encoded : Option NpuEncodeResult) :
    (slot.submit hip staging t encoded).state =
      if staging then .ready else if encoded.isSome then .encoding else .failed := by
  cases staging with
  | true => rfl
  | false => exact state_runEncode slot encoded

end NpuDmaSlot

theorem NpuDmaPipeline.Returns.ready {h : NpuTensorHandle} (hr : p.Returns i h) :
    (p.slots i).state = .ready := by
  rcases hr with ⟨inTime, hwait⟩ | htry
  · unfold NpuDmaPipeline.waitGpuReady at hwait
    split at hwait
    · cases hwait
    · split at hwait
      · split at hwait
        · assumption
        · cases hwait
        · cases hwait
      · cases hwait
  · unfold NpuDmaPipeline.tryGetGpuHandle at htry
    split at htry
    · cases htry
    · split at htry
      · cases htry
      · rename_i hstate
        exact not_not.mp hstate

theorem Filled.genuine (h : Filled p) : p.Genuine := by
  refine ⟨h.state, fun i encoded hnd hsub hreturns _ ↦ ?_⟩
  have hstate := h.state i encoded hsub
  rw [hreturns.ready] at hstate
  cases encoded with
  | none => cases hstate
  | some r => exact ⟨r, rfl, h.embeddings i r hsub⟩

theorem slots_submit_self :
    (p.submit hip t encoded i rest).slots i =
      (p.slots i).submit hip p.cfg.enableGpuStaging t encoded := by
  simp [NpuDmaPipeline.submit]

theorem submitted_submit_self : (p.submit hip t encoded i rest).submitted i = some encoded := by
  simp [NpuDmaPipeline.submit]

theorem Filled.submit (h : Filled p) (hfree : p.freeSlots = i :: rest)
    (hok : PipelineAction.Suited p (.submit t encoded)) :
    Filled (p.submit hip t encoded i rest) := by
  obtain ⟨hstaging, hfit⟩ := hok
  have hother (j : Nat) (hj : j ≠ i) : (p.submit hip t encoded i rest).slots j = p.slots j := by
    simp [NpuDmaPipeline.submit, hj]
  have hsubmitted (j : Nat) (hj : j ≠ i) :
      (p.submit hip t encoded i rest).submitted j = p.submitted j := by
    simp [NpuDmaPipeline.submit, hj]
  constructor
  case size =>
    intro j
    by_cases hj : j = i
    · rw [hj, slots_submit_self, NpuDmaSlot.hostBuffer_submit, NpuDmaSlot.length_runEncode]
      exact h.size i
    · rw [hother j hj]
      exact h.size j
  case free =>
    intro j hj
    exact h.free j (by rw [hfree]; exact List.mem_cons_of_mem i hj)
  case state =>
    intro j encoded' hsub
    by_cases hj : j = i
    · subst hj
      obtain rfl := Option.some.inj (submitted_submit_self.symm.trans hsub)
      rw [slots_submit_self, NpuDmaSlot.state_submit, hstaging]
      cases encoded with
      | none => rfl
      | some r => rfl
    · rw [hsubmitted j hj] at hsub
      rw [hother j hj]
      exact h.state j encoded' hsub
  case embeddings =>
    intro j r hsub
    by_cases hj : j = i
    · subst hj
      obtain rfl := Option.some.inj (submitted_submit_self.symm.trans hsub)
      rw [slots_submit_self, NpuDmaSlot.hostBuffer_submit]
      exact NpuDmaSlot.prefix_runEncode _ (by rw [h.size]; exact hfit r rfl)
    · rw [hsubmitted j hj] at hsub
      rw [hother j hj]
      exact h.embeddings j r hsub

theorem Filled.release (h : Filled p) (slot : Nat) : Filled (p.releaseSlot slot) := by
  unfold NpuDmaPipeline.releaseSlot
  split
  · exact h
  · rename_i hlt
    constructor
    case size =>
      intro j
      by_cases hj : j = slot
      · subst hj
        simpa using h.size j
      · simpa [hj] using h.size j
    case free =>
      intro j hj
      rcases List.mem_append.mp hj with hj | hj
      · exact h.free j hj
      · rw [List.mem_singleton.mp hj]
        exact Nat.not_le.mp hlt
    case state =>
      intro j encoded hsub
      by_cases hj : j = slot
      · subst hj
        simp at hsub
      · simp only [Function.update_of_ne hj] at hsub ⊢
        exact h.state j encoded hsub
    case embeddings =>
      intro j r hsub
      by_cases hj : j = slot
      · subst hj
        simp at hsub
      · simp only [Function.update_of_ne hj] at hsub ⊢
        exact h.embeddings j r hsub

theorem PipelineStep.filled (h : Filled p) (hok : a.Suited p) (hstep : PipelineStep hip p a p') :
    Filled p' := by
  cases hstep with
  | submit hfree => exact h.submit hfree hok
  | wait => exact h
  | tryGet => exact h
  | release => exact h.release _

/-- A call of `submit` with another encoder leaves a slot that is not genuine. -/
theorem PipelineStep.not_genuine (h : Filled p) (hok : ¬ a.Suited p)
    (hstep : PipelineStep hip p a p') : ¬ p'.Genuine := by
  cases hstep with
  | wait => exact (hok trivial).elim
  | tryGet => exact (hok trivial).elim
  | release => exact (hok trivial).elim
  | @submit t encoded i rest hfree =>
    intro hgenuine
    have hlt : i < p.cfg.slotCount := h.free i (by simp [hfree])
    have hstate := hgenuine.state i encoded submitted_submit_self
    rw [slots_submit_self, NpuDmaSlot.state_submit] at hstate
    have hstaging : p.cfg.enableGpuStaging = encoded.isSome := by
      cases encoded with
      | none =>
        cases hs : p.cfg.enableGpuStaging with
        | true => simp [hs] at hstate
        | false => rfl
      | some r =>
        cases hs : p.cfg.enableGpuStaging with
        | true => rfl
        | false => simp [hs] at hstate
    refine hok ⟨hstaging, fun r hr ↦ ?_⟩
    subst hr
    have hready : ((p.submit hip t (some r) i rest).slots i).state = .ready :=
      hgenuine.state i (some r) submitted_submit_self
    have hrange : ¬ (p.submit hip t (some r) i rest).cfg.slotCount ≤ i := Nat.not_le.mpr hlt
    have hwait : (p.submit hip t (some r) i rest).waitGpuReady i true =
        .ok ((p.submit hip t (some r) i rest).handle i true) := by
      rw [NpuDmaPipeline.waitGpuReady, if_neg hrange, if_pos rfl, hready]
    obtain ⟨r', hr', hbegins⟩ :=
      hgenuine.handle i (some r) _ submitted_submit_self (.inl ⟨true, hwait⟩) rfl
    obtain rfl := Option.some.inj hr'
    have hle := hbegins.length_le
    rwa [slots_submit_self, NpuDmaSlot.hostBuffer_submit, NpuDmaSlot.length_runEncode,
      h.size] at hle

/-- In every run of a new pipeline, the slots are genuine all along exactly where each call of
`submit` is staged and its encoder succeeds with embeddings for which there is room, or is not
staged and its encoder fails. -/
theorem slots_genuine_iff (cfg : Config) (memory : Nat → Nat → FloatBits)
    (dev : Nat → NpuDmaSlotDevice) (h : Run (PipelineStep hip) (.create hip cfg memory dev) tr u) :
    Throughout NpuDmaPipeline.Genuine tr u ↔ ∀ x ∈ tr, x.2.Suited x.1 := by
  refine h.holds_iff (fun _ ↦ Filled.genuine) (fun _ _ _ hs hok hstep ↦ hstep.filled hs hok)
    (fun _ _ _ hs hok hstep ↦ hstep.not_genuine hs hok) ?_
  constructor
  case size => exact fun i ↦ by simp [NpuDmaPipeline.create]
  case free => exact fun i hi ↦ List.mem_range.mp hi
  case state => exact fun i encoded hsub ↦ nomatch hsub
  case embeddings => exact fun i r hsub ↦ nomatch hsub

end

def small (staging : Bool) : Config where
  numSlots := 2
  embeddingBytes := 8
  enableGpuStaging := staging

def fresh (staging : Bool) : NpuDmaPipeline :=
  .create false (small staging) (fun _ _ ↦ 0) (fun _ ↦ {})

theorem slots_genuine_iff_pair :
    ∃ tr u, Run (PipelineStep false) (fresh true) tr u ∧
      tr.map Prod.snd = [.submit {} (some { embeddings := [1, 2] }), .wait 0 true, .release 0] ∧
      Throughout NpuDmaPipeline.Genuine tr u := by
  have hrun : ∃ tr u, Run (PipelineStep false) (fresh true) tr u ∧
      tr.map Prod.snd = [.submit {} (some { embeddings := [1, 2] }), .wait 0 true, .release 0] ∧
      ∀ x ∈ tr, x.2.Suited x.1 := by
    refine ⟨_, _, .cons (.submit rfl) (.cons .wait (.cons .release (.nil _))), rfl, ?_⟩
    simp only [List.forall_mem_cons]
    refine ⟨⟨rfl, fun r hr ↦ ?_⟩, trivial, trivial, by simp⟩
    rw [← Option.some.inj hr]
    decide
  obtain ⟨tr, u, hrun, hactions, hok⟩ := hrun
  exact ⟨tr, u, hrun, hactions, (slots_genuine_iff _ _ _ hrun).mpr hok⟩

/-- The encoder fails, and the slot is ready: a handle to it is valid. -/
theorem failed_slot_ready :
    ∃ tr u, Run (PipelineStep false) (fresh true) tr u ∧
      tr.map Prod.snd = [.submit {} none, .wait 0 true] ∧
      u.submitted 0 = some none ∧ (u.slots 0).state = .ready ∧
      (∃ h, u.waitGpuReady 0 true = .ok h ∧ h.valid = true) ∧ ¬ u.Genuine := by
  refine ⟨_, _, .cons (.submit rfl) (.cons .wait (.nil _)), rfl, rfl, rfl, ⟨_, rfl, rfl⟩, ?_⟩
  intro hgenuine
  exact absurd (hgenuine.state 0 none rfl) (by decide)

end Cerberus.Npu
