import Cerberus.Foundation.Reading
import Cerberus.Npu.Slots
import Mathlib.Data.List.Perm.Basic
import Mathlib.Algebra.Order.Ring.Int

namespace Cerberus.Npu

open Foundation

variable {K Image : Type}

structure GenerationRequest (K : Type) where
  prompt : List UInt8
  width : Nat := 512
  height : Nat := 512
  numSteps : Nat := 20
  guidanceScale : Reading K
  seed : Int := -1

structure NpuEncodeRequest (K : Type) where
  prompt : List UInt8
  guidanceScale : Reading K
  seed : Int
  width : Nat
  height : Nat
  numSteps : Nat

def GenerationRequest.encode (req : GenerationRequest K) : NpuEncodeRequest K where
  prompt := req.prompt
  guidanceScale := req.guidanceScale
  seed := req.seed
  width := req.width
  height := req.height
  numSteps := req.numSteps

/-- The encoding of the empty prompt for classifier-free guidance, at scale `1`. -/
def GenerationRequest.encodeEmpty [One K] (req : GenerationRequest K) : NpuEncodeRequest K :=
  { req.encode with prompt := [], guidanceScale := some 1 }

/-- `operator bool` of a handle. -/
def NpuTensorHandle.usable (h : NpuTensorHandle) : Bool := h.valid && h.devicePtr.isSome

def NpuTensorHandle.empty : NpuTensorHandle where
  devicePtr := none
  elementCount := 0
  npuUtil := 0xBF800000
  valid := false

abbrev SubmitResult := Except (List UInt8) Nat

inductive NpuCall (K : Type)
  | submit (req : NpuEncodeRequest K) (result : SubmitResult)
  | await (slot : Nat) (handle : NpuTensorHandle)
  | release (slot : Nat)

/-- What the calls of one coroutine return; a step of `generate` may fail. -/
structure Outcomes (Image : Type) where
  submit : SubmitResult
  await : NpuTensorHandle
  submitEmpty : SubmitResult
  awaitEmpty : NpuTensorHandle
  generate : Nat → Option Image

namespace GenerationRequest

variable (req : GenerationRequest K)

def badDimensions : Bool :=
  req.width = 0 || req.height = 0 || req.width > 2048 || req.height > 2048

def badAlignment : Bool := req.width % 8 ≠ 0 || req.height % 8 ≠ 0

def badSteps : Bool := req.numSteps = 0 || req.numSteps > 150

end GenerationRequest

section

variable [LinearOrder K] [One K]

def encodeUncond (req : GenerationRequest K) (o : Outcomes Image) : List (NpuCall K) × Option Nat :=
  if req.guidanceScale.above (some 1) then
    match o.submitEmpty with
    | .error e => ([.submit req.encodeEmpty (.error e)], none)
    | .ok slot =>
      ([.submit req.encodeEmpty (.ok slot), .await slot o.awaitEmpty],
        if o.awaitEmpty.usable then some slot else none)
  else ([], none)

/-- `generate_async`; the image is `none` where a default one is returned. -/
def generateAsync (req : GenerationRequest K) (o : Outcomes Image) :
    List (NpuCall K) × Option Image :=
  if req.badDimensions then ([], none)
  else if req.badAlignment then ([], none)
  else if req.badSteps then ([], none)
  else
    match o.submit with
    | .error e => ([.submit req.encode (.error e)], none)
    | .ok slot =>
      let cond := [.submit req.encode (.ok slot), .await slot o.await]
      if !o.await.usable then (cond ++ [.release slot], none)
      else
        let (uncond, uncondSlot) := encodeUncond req o
        (cond ++ uncond ++ .release slot :: (uncondSlot.map .release).toList, o.generate 0)

/-- `generate_streaming`, with the image of each step it yields. -/
def generateStreaming (req : GenerationRequest K) (o : Outcomes Image) :
    List (NpuCall K) × List (Option Image) :=
  if req.badDimensions then ([], [])
  else if req.badSteps then ([], [])
  else
    match o.submit with
    | .error e => ([.submit req.encode (.error e)], [])
    | .ok slot =>
      let calls := [.submit req.encode (.ok slot), .await slot o.await, .release slot]
      if !o.await.usable then (calls, [])
      else (calls, (List.range req.numSteps).map o.generate)

end

def submitted : List (NpuCall K) → List Nat
  | [] => []
  | .submit _ (.ok slot) :: calls => slot :: submitted calls
  | _ :: calls => submitted calls

def released : List (NpuCall K) → List Nat
  | [] => []
  | .release slot :: calls => slot :: released calls
  | _ :: calls => released calls

def Settled (calls : List (NpuCall K)) : Prop := ∀ i, (released calls).count i = (submitted calls).count i

theorem submitted_append (calls calls' : List (NpuCall K)) :
    submitted (calls ++ calls') = submitted calls ++ submitted calls' := by
  induction calls using submitted.induct with
  | case1 => rfl
  | case2 _ _ _ ih => simp only [List.cons_append, submitted, ih]
  | case3 call calls hne ih =>
    cases call with
    | submit _ r =>
      cases r with
      | error _ => simp only [List.cons_append, submitted, ih]
      | ok slot => exact absurd rfl (hne _ slot)
    | await => simp only [List.cons_append, submitted, ih]
    | release => simp only [List.cons_append, submitted, ih]

theorem released_append (calls calls' : List (NpuCall K)) :
    released (calls ++ calls') = released calls ++ released calls' := by
  induction calls with
  | nil => rfl
  | cons call calls ih =>
    cases call with
    | submit => simpa only [List.cons_append, released] using ih
    | await => simpa only [List.cons_append, released] using ih
    | release => simpa only [List.cons_append, released, List.cons.injEq, true_and] using ih

theorem settled_nil : Settled ([] : List (NpuCall K)) := fun _ ↦ rfl

theorem generateStreaming_settled (req : GenerationRequest K) (o : Outcomes Image) :
    Settled (generateStreaming req o).1 := by
  unfold generateStreaming
  split
  · exact settled_nil
  · split
    · exact settled_nil
    · cases o.submit with
      | error e => exact fun _ ↦ rfl
      | ok slot =>
        dsimp only
        split
        · exact fun _ ↦ rfl
        · exact fun _ ↦ rfl

variable [LinearOrder K] [One K] {req : GenerationRequest K} {o : Outcomes Image}

/-- The conditional embeddings are usable, but the unconditional ones, which have a slot, are
not. -/
def Leaks (req : GenerationRequest K) (o : Outcomes Image) : Bool :=
  !req.badDimensions && !req.badAlignment && !req.badSteps && o.submit.toBool &&
    o.await.usable && req.guidanceScale.above (some 1) && o.submitEmpty.toBool && !o.awaitEmpty.usable

/-- The slot of the unconditional encoding is kept for release unless its embeddings are not
usable. -/
theorem encodeUncond_slots (req : GenerationRequest K) (o : Outcomes Image) :
    released (encodeUncond req o).1 = [] ∧
    ((∀ i, (encodeUncond req o).2.toList.count i = (submitted (encodeUncond req o).1).count i) ↔
      (req.guidanceScale.above (some 1) && o.submitEmpty.toBool && !o.awaitEmpty.usable) = false) := by
  unfold encodeUncond
  cases hg : req.guidanceScale.above (some 1) with
  | false => simp [released, submitted]
  | true =>
    cases hs : o.submitEmpty with
    | error e => simp [released, submitted, Except.toBool]
    | ok slot =>
      cases hu : o.awaitEmpty.usable with
      | true => simp [released, submitted]
      | false =>
        refine ⟨rfl, ⟨fun h ↦ ?_, fun h ↦ by simp [Except.toBool] at h⟩⟩
        simpa [submitted] using h slot

theorem generateAsync_settled_iff : Settled (generateAsync req o).1 ↔ Leaks req o = false := by
  unfold generateAsync Leaks
  cases req.badDimensions with
  | true => simp [settled_nil]
  | false =>
    cases req.badAlignment with
    | true => simp [settled_nil]
    | false =>
      cases req.badSteps with
      | true => simp [settled_nil]
      | false =>
        cases hs : o.submit with
        | error e => simp [Settled, released, submitted, Except.toBool]
        | ok slot =>
          cases hu : o.await.usable with
          | false => simp [Settled, released, submitted]
          | true =>
            obtain ⟨hnone, hiff⟩ := encodeUncond_slots req o
            have hkept (l : Option Nat) : released ((l.map NpuCall.release).toList : List (NpuCall K)) =
                l.toList ∧ submitted ((l.map NpuCall.release).toList : List (NpuCall K)) = [] := by
              cases l <;> exact ⟨rfl, rfl⟩
            have hok : (Except.ok slot : SubmitResult).toBool = true := rfl
            simp only [Bool.false_eq_true, ↓reduceIte, Bool.not_true, Bool.not_false, Bool.true_and,
              hok, ← hiff, Settled, released_append, submitted_append, released, submitted, hnone,
              hkept, List.nil_append, List.cons_append, List.append_nil, List.count_cons,
              Nat.add_right_cancel_iff]

/-- What `NpuReadyAwaiter` gives back: the handle, if the slot is ready at once or in time. A wait that
is not answered at once ends the process, since the thread that resumes the coroutine then joins
itself. No run of `AsyncPipeline` gets there: its slots are staged when `submit` returns. -/
def NpuDmaPipeline.awaitReady (p : NpuDmaPipeline) (slot : Nat) (inTime : Bool) : NpuTensorHandle :=
  match p.tryGetGpuHandle slot with
  | some h => h
  | none =>
    match p.waitGpuReady slot inTime with
    | .ok h => h
    | .error _ => .empty

/-- The pipeline answers the calls of coroutines one after the other. A submit call that returns
takes the slot at the head of the free list. -/
inductive Plays (hip : Bool) : NpuDmaPipeline → List (NpuCall K) → NpuDmaPipeline → Prop
  | nil (p : NpuDmaPipeline) : Plays hip p [] p
  | submit {p p' : NpuDmaPipeline} {calls : List (NpuCall K)} {req : NpuEncodeRequest K} {i : Nat}
      {rest : List Nat} {t : Transfer} {encoded : Option NpuEncodeResult} :
      p.freeSlots = i :: rest → Plays hip (p.submit hip t encoded i rest) calls p' →
      Plays hip p (.submit req (.ok i) :: calls) p'
  | refuse {p p' : NpuDmaPipeline} {calls : List (NpuCall K)} {req : NpuEncodeRequest K}
      {e : List UInt8} : Plays hip p calls p' → Plays hip p (.submit req (.error e) :: calls) p'
  | await {p p' : NpuDmaPipeline} {calls : List (NpuCall K)} {i : Nat} {inTime : Bool} :
      Plays hip p calls p' → Plays hip p (.await i (p.awaitReady i inTime) :: calls) p'
  | release {p p' : NpuDmaPipeline} {calls : List (NpuCall K)} {i : Nat} :
      Plays hip (p.releaseSlot i) calls p' → Plays hip p (.release i :: calls) p'

structure Job (K Image : Type) where
  streaming : Bool
  req : GenerationRequest K
  outcomes : Outcomes Image

def Job.calls (job : Job K Image) : List (NpuCall K) :=
  if job.streaming then (generateStreaming job.req job.outcomes).1
  else (generateAsync job.req job.outcomes).1

/-- The configuration with which `AsyncPipeline` makes its NPU pipeline. -/
def asyncConfig : Config := { numSlots := 3, embeddingBytes := 77 * 2048 * 4 }

section

omit [LinearOrder K] [One K]

variable {hip : Bool} {p p' : NpuDmaPipeline} {calls : List (NpuCall K)}

theorem NpuDmaPipeline.freeSlots_releaseSlot {i : Nat} (hi : i < p.cfg.slotCount) :
    (p.releaseSlot i).freeSlots = p.freeSlots ++ [i] := by
  simp [releaseSlot, Nat.not_le.mpr hi]

theorem NpuDmaPipeline.cfg_releaseSlot (i : Nat) : (p.releaseSlot i).cfg = p.cfg := by
  unfold releaseSlot
  split <;> rfl

def NpuDmaPipeline.InRange (p : NpuDmaPipeline) : Prop := ∀ i ∈ p.freeSlots, i < p.cfg.slotCount

theorem NpuDmaPipeline.InRange.releaseSlot (h : p.InRange) (i : Nat) :
    (p.releaseSlot i).InRange := by
  by_cases hi : i < p.cfg.slotCount
  · intro j hj
    rw [freeSlots_releaseSlot hi, List.mem_append, List.mem_singleton] at hj
    rw [cfg_releaseSlot]
    rcases hj with hj | rfl
    · exact h j hj
    · exact hi
  · have hp : p.releaseSlot i = p := by simp [NpuDmaPipeline.releaseSlot, Nat.not_lt.mp hi]
    rwa [hp]

theorem Plays.submitted_lt (h : Plays hip p calls p') (hp : p.InRange) :
    ∀ i ∈ submitted calls, i < p.cfg.slotCount := by
  induction h with
  | nil => simp [submitted]
  | @submit p _ _ _ i rest _ _ hfree _ ih =>
    have hi : i < p.cfg.slotCount := hp i (by simp [hfree])
    have hrest := ih fun j hj ↦ hp j (by rw [hfree]; exact List.mem_cons_of_mem _ hj)
    intro j hj
    rcases List.mem_cons.mp hj with rfl | hj
    · exact hi
    · exact hrest j hj
  | refuse _ ih => exact ih hp
  | await _ ih => exact ih hp
  | @release p _ _ i _ ih =>
    have hrest := ih (hp.releaseSlot i)
    rwa [NpuDmaPipeline.cfg_releaseSlot] at hrest

theorem Plays.freeSlots (h : Plays hip p calls p')
    (hr : ∀ i ∈ released calls, i < p.cfg.slotCount) :
    (submitted calls ++ p'.freeSlots).Perm (released calls ++ p.freeSlots) := by
  induction h with
  | nil => exact .refl _
  | submit hfree _ ih =>
    rw [hfree]
    exact ((ih hr).cons _).trans List.perm_middle.symm
  | refuse _ ih => exact ih hr
  | await _ ih => exact ih hr
  | @release p _ _ i _ ih =>
    have hi : i < p.cfg.slotCount := hr i (by simp [released])
    have hrest := ih fun j hj ↦ by
      rw [NpuDmaPipeline.cfg_releaseSlot]
      exact hr j (List.mem_cons_of_mem _ hj)
    rw [NpuDmaPipeline.freeSlots_releaseSlot hi, ← List.append_assoc] at hrest
    exact hrest.trans (List.perm_append_singleton _ _)

theorem Settled.perm (h : Settled calls) : (released calls).Perm (submitted calls) :=
  List.perm_iff_count.mpr h

theorem Settled.append {calls' : List (NpuCall K)} (h : Settled calls) (h' : Settled calls') :
    Settled (calls ++ calls') := by
  intro i
  simp only [released_append, submitted_append, List.count_append, h i, h' i]

theorem settled_flatMap {α : Type} {f : α → List (NpuCall K)} {l : List α}
    (h : ∀ x ∈ l, Settled (f x)) : Settled (l.flatMap f) := by
  induction l with
  | nil => exact settled_nil
  | cons x l ih =>
    rw [List.flatMap_cons]
    exact (h x (by simp)).append (ih fun y hy ↦ h y (by simp [hy]))

/-- Coroutines that release what they were given leave the free list as it was, in some order. -/
theorem Plays.settled (h : Plays hip p calls p') (hp : p.InRange) (hs : Settled calls) :
    p'.freeSlots.Perm p.freeSlots := by
  have hr : ∀ i ∈ released calls, i < p.cfg.slotCount :=
    fun i hi ↦ h.submitted_lt hp i (hs.perm.mem_iff.mp hi)
  exact (List.perm_append_left_iff _).mp ((h.freeSlots hr).trans (hs.perm.append_right _))

end

theorem NpuDmaSlot.dev_submit (slot : NpuDmaSlot) (hip staging : Bool) (t : Transfer)
    (encoded : Option NpuEncodeResult) :
    (slot.submit hip staging t encoded).dev = slot.dev := by
  have hencode : (slot.runEncode encoded).dev = slot.dev := by
    unfold runEncode
    split
    · rfl
    · split <;> rfl
  have hstage (s : NpuDmaSlot) : (s.stageToGpu hip t).dev = s.dev := by
    unfold stageToGpu
    split
    · rfl
    · split
      · rfl
      · split <;> rfl
  unfold submit
  split
  · exact (hstage _).trans hencode
  · exact hencode

/-- Once staged, a slot gives a usable handle exactly when the device has memory for it. -/
theorem awaitReady_submit {hip inTime : Bool} {p : NpuDmaPipeline} {i : Nat} {rest : List Nat}
    {t : Transfer} {encoded : Option NpuEncodeResult} (hi : i < p.cfg.slotCount)
    (hstaging : p.cfg.enableGpuStaging = true) :
    ((p.submit hip t encoded i rest).awaitReady i inTime).usable =
      (p.slots i).dev.devicePtr.isSome := by
  have hready : ((p.submit hip t encoded i rest).slots i).state = .ready := by
    rw [slots_submit_self, NpuDmaSlot.state_submit, if_pos hstaging]
  have hdev : ((p.submit hip t encoded i rest).slots i).dev = (p.slots i).dev := by
    rw [slots_submit_self, NpuDmaSlot.dev_submit]
  have hcount : ¬ (p.submit hip t encoded i rest).cfg.slotCount ≤ i := Nat.not_le.mpr hi
  simp [NpuDmaPipeline.awaitReady, NpuDmaPipeline.tryGetGpuHandle, hcount, hready,
    NpuTensorHandle.usable, NpuDmaPipeline.handle, hdev]

/-- Each of the two coroutines releases every slot that its submit calls have returned exactly
once, if and only if `generate_async` does not come to unusable embeddings of the empty prompt;
so requests that do not come to that leave the three slots for those after them. -/
theorem slots_released_iff :
    (∀ (req : GenerationRequest K) (o : Outcomes Image),
      Settled (generateAsync req o).1 ∧ Settled (generateStreaming req o).1 ↔
        Leaks req o = false) ∧
    ∀ (hip : Bool) (memory : Nat → Nat → FloatBits) (dev : Nat → NpuDmaSlotDevice)
      (jobs : List (Job K Image)) (p : NpuDmaPipeline),
      Plays hip (.create hip asyncConfig memory dev) (jobs.flatMap Job.calls) p →
      (∀ job ∈ jobs, job.streaming = true ∨ Leaks job.req job.outcomes = false) →
        p.freeSlots.Perm [0, 1, 2] := by
  refine ⟨fun req o ↦ ?_, fun hip memory dev jobs p hplay hjobs ↦ ?_⟩
  · rw [and_iff_left (generateStreaming_settled req o)]
    exact generateAsync_settled_iff
  · refine hplay.settled (fun i hi ↦ List.mem_range.mp hi) (settled_flatMap fun job hj ↦ ?_)
    unfold Job.calls
    split
    · exact generateStreaming_settled _ _
    · next hs => exact generateAsync_settled_iff.mpr ((hjobs job hj).resolve_left hs)

/-- A machine whose device has memory for the slots of `has` only. -/
def deviceFor (has : Nat → Bool) (i : Nat) : NpuDmaSlotDevice where
  devicePtr := if has i then some i else none
  dmaStream := some i

def portrait (guidanceScale : Int) : GenerationRequest Int :=
  { prompt := [], guidanceScale := some guidanceScale }

theorem slots_released_iff_unguided :
    ∃ (o : Outcomes Unit) (p : NpuDmaPipeline),
      Plays true (.create true asyncConfig (fun _ _ ↦ 0) (deviceFor fun _ ↦ true))
        (generateAsync (portrait 1) o).1 p ∧
      Settled (generateAsync (portrait 1) o).1 ∧ p.freeSlots.Perm [0, 1, 2] := by
  let p₀ : NpuDmaPipeline := .create true asyncConfig (fun _ _ ↦ 0) (deviceFor fun _ ↦ true)
  let p₁ := p₀.submit true {} none 0 [1, 2]
  let o : Outcomes Unit :=
    { submit := .ok 0, await := p₁.awaitReady 0 true, submitEmpty := .error [],
      awaitEmpty := .empty, generate := fun _ ↦ some () }
  have husable : (p₁.awaitReady 0 true).usable = (p₀.slots 0).dev.devicePtr.isSome :=
    awaitReady_submit (by decide) rfl
  have hfirst : (p₀.slots 0).dev.devicePtr.isSome = true := rfl
  have hcalls : (generateAsync (portrait 1) o).1 =
      [.submit (portrait 1).encode (.ok 0), .await 0 (p₁.awaitReady 0 true), .release 0] := by
    have hbad : (portrait 1).badDimensions = false ∧ (portrait 1).badAlignment = false ∧
        (portrait 1).badSteps = false := by decide
    have hscale : (portrait 1).guidanceScale.above (some 1) = false := by decide
    simp [generateAsync, encodeUncond, hbad, hscale, husable, hfirst, o]
  have hplay : Plays true p₀ (generateAsync (portrait 1) o).1 (p₁.releaseSlot 0) := by
    rw [hcalls]
    exact .submit rfl (.await (.release (.nil _)))
  have hleak : Leaks (portrait 1) o = false := by
    have hscale : (portrait 1).guidanceScale.above (some 1) = false := by decide
    simp [Leaks, hscale]
  refine ⟨o, p₁.releaseSlot 0, hplay, ((slots_released_iff.1 (portrait 1) o).mpr hleak).1, ?_⟩
  refine slots_released_iff.2 true (fun _ _ ↦ 0) (deviceFor fun _ ↦ true)
    [⟨false, portrait 1, o⟩] _ ?_ (by simp [hleak])
  simpa [Job.calls] using hplay

/-- The device has no memory for slot `1`, which the encoding of the empty prompt gets: its
handle is not usable, and the slot is never released. -/
theorem slot_leaked :
    ∃ (o : Outcomes Unit) (p : NpuDmaPipeline),
      Plays true (.create true asyncConfig (fun _ _ ↦ 0) (deviceFor (· ≠ 1)))
        (generateAsync (portrait 7) o).1 p ∧
      p.freeSlots = [2, 0] ∧ ¬ Settled (generateAsync (portrait 7) o).1 := by
  let p₀ : NpuDmaPipeline := .create true asyncConfig (fun _ _ ↦ 0) (deviceFor (· ≠ 1))
  let p₁ := p₀.submit true {} none 0 [1, 2]
  let p₂ := p₁.submit true {} none 1 [2]
  let o : Outcomes Unit :=
    { submit := .ok 0, await := p₁.awaitReady 0 true, submitEmpty := .ok 1,
      awaitEmpty := p₂.awaitReady 1 true, generate := fun _ ↦ some () }
  have husable : (p₁.awaitReady 0 true).usable = (p₀.slots 0).dev.devicePtr.isSome :=
    awaitReady_submit (by decide) rfl
  have hunusable : (p₂.awaitReady 1 true).usable = (p₁.slots 1).dev.devicePtr.isSome :=
    awaitReady_submit (by decide) rfl
  have hfirst : (p₀.slots 0).dev.devicePtr.isSome = true := rfl
  have hsecond : (p₁.slots 1).dev.devicePtr.isSome = false := rfl
  have hcalls : (generateAsync (portrait 7) o).1 =
      [.submit (portrait 7).encode (.ok 0), .await 0 (p₁.awaitReady 0 true),
        .submit (portrait 7).encodeEmpty (.ok 1), .await 1 (p₂.awaitReady 1 true),
        .release 0] := by
    have hbad : (portrait 7).badDimensions = false ∧ (portrait 7).badAlignment = false ∧
        (portrait 7).badSteps = false := by decide
    have hscale : (portrait 7).guidanceScale.above (some 1) = true := by decide
    simp [generateAsync, encodeUncond, hbad, hscale, husable, hfirst, hunusable, hsecond, o]
  refine ⟨o, p₂.releaseSlot 0, ?_, rfl, fun h ↦ ?_⟩
  · rw [hcalls]
    exact .submit rfl (.await (.submit rfl (.await (.release (.nil _)))))
  · have hcount := h 1
    rw [hcalls] at hcount
    revert hcount
    decide

end Cerberus.Npu
