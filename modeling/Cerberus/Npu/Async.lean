import Cerberus.Npu.Slots

namespace Cerberus.Npu

open Foundation.Trace

structure Answer where
  encoded : Option NpuEncodeResult := none
  transfer : Transfer := {}

/-- What the detached thread of `submit_async` does next. -/
inductive EncodeThread
  | starting
  | encoding
  | failing
  | copying (encoded : NpuEncodeResult)
  | staging
  | transferring
  | recording
  | publishing
  | synchronizing
  | finished

namespace EncodeThread

/-- What follows `run_encode`. -/
def encodeDone (staging : Bool) : EncodeThread := if staging then .staging else .finished

/-- One action of the thread on its slot: a store to the state, the copy into the host buffer, or
a call of the encoder or the runtime. -/
def next (hip staging : Bool) (ans : Answer) (slot : NpuDmaSlot) :
    EncodeThread → EncodeThread × NpuDmaSlot
  | .starting => (.encoding, { slot with state := .encoding })
  | .encoding =>
    match ans.encoded with
    | none => (.failing, slot)
    | some encoded => (.copying encoded, slot)
  | .failing => (encodeDone staging, { slot with state := .failed })
  | .copying encoded =>
    (encodeDone staging, { slot with hostBuffer := (slot.runEncode (some encoded)).hostBuffer })
  | .staging =>
    if hip = false ∨ slot.dev.devicePtr = none ∨ slot.dev.dmaStream = none ∨
        slot.hostBuffer = [] then (.publishing, slot)
    else (.transferring, { slot with state := .staging })
  | .transferring =>
    if ans.transfer.memcpyAsync = false then (.publishing, { slot with state := .failed })
    else (.recording, slot)
  | .recording =>
    if ans.transfer.eventRecord = false then (.publishing, { slot with state := .failed })
    else (.publishing, slot)
  | .publishing => (.synchronizing, { slot with state := .ready })
  | .synchronizing | .finished => (.finished, slot)

def report (util : FloatBits) : EncodeThread → FloatBits
  | .copying encoded => encoded.npuUtilization
  | _ => util

def writes : EncodeThread → Bool
  | .synchronizing | .finished => false
  | _ => true

end EncodeThread

inductive Caller
  | idle
  | acquired
  | holding
  | releasing
  | released
  deriving DecidableEq

structure Request where
  caller : Caller := .idle
  slot : Nat := 0
  thread : Option EncodeThread := none
  waited : Option (Except WaitError NpuTensorHandle) := none

namespace Request

variable (q : Request)

def Owns : Prop := q.caller = .acquired ∨ q.caller = .holding ∨ q.caller = .releasing

def mayWrite : Bool := q.thread.any EncodeThread.writes

end Request

structure NpuAsync where
  pipe : NpuDmaPipeline
  requests : Nat → Request := fun _ ↦ {}

/-- `release_slot` is two events, since it stores the state before it takes the lock. -/
inductive AsyncEvent
  | acquire (r : Nat)
  | spawn (r : Nat)
  | run (r : Nat) (ans : Answer)
  | wait (r : Nat) (inTime : Bool)
  | release (r : Nat)
  | push (r : Nat)

namespace NpuAsync

variable (s : NpuAsync)

def setRequest (r : Nat) (q : Request) : NpuAsync :=
  { s with requests := Function.update s.requests r q }

def setSlot (i : Nat) (slot : NpuDmaSlot) : NpuAsync :=
  { s with pipe := { s.pipe with slots := Function.update s.pipe.slots i slot } }

def setFree (l : List Nat) : NpuAsync := { s with pipe := { s.pipe with freeSlots := l } }

def runThread (hip : Bool) (r : Nat) (pc : EncodeThread) (ans : Answer) : NpuAsync :=
  let q := s.requests r
  let (pc', slot) := pc.next hip s.pipe.cfg.enableGpuStaging ans (s.pipe.slots q.slot)
  let s := (s.setSlot q.slot slot).setRequest r { q with thread := some pc' }
  { s with pipe := { s.pipe with lastNpuUtil := pc.report s.pipe.lastNpuUtil } }

end NpuAsync

/-- The steps of callers and threads. A caller releases the slot it was given, at any time after
`submit_async` has returned, and only once. -/
inductive AsyncStep (hip : Bool) : NpuAsync → AsyncEvent → NpuAsync → Prop
  | acquire {s : NpuAsync} {r i : Nat} {rest : List Nat} :
      (s.requests r).caller = .idle → s.pipe.freeSlots = i :: rest →
      AsyncStep hip s (.acquire r)
        ((s.setFree rest).setRequest r { caller := .acquired, slot := i })
  | spawn {s : NpuAsync} {r : Nat} : (s.requests r).caller = .acquired →
      AsyncStep hip s (.spawn r)
        (s.setRequest r { s.requests r with caller := .holding, thread := some .starting })
  | run {s : NpuAsync} {r : Nat} {pc : EncodeThread} {ans : Answer} :
      (s.requests r).thread = some pc →
      AsyncStep hip s (.run r ans) (s.runThread hip r pc ans)
  | wait {s : NpuAsync} {r : Nat} {inTime : Bool} : (s.requests r).caller = .holding →
      AsyncStep hip s (.wait r inTime) (s.setRequest r
        { s.requests r with waited := some (s.pipe.waitGpuReady (s.requests r).slot inTime) })
  | release {s : NpuAsync} {r : Nat} : (s.requests r).caller = .holding →
      (s.requests r).slot < s.pipe.cfg.slotCount →
      AsyncStep hip s (.release r)
        ((s.setSlot (s.requests r).slot
          { s.pipe.slots (s.requests r).slot with state := .idle }).setRequest r
            { s.requests r with caller := .releasing })
  | outOfRange {s : NpuAsync} {r : Nat} : (s.requests r).caller = .holding →
      s.pipe.cfg.slotCount ≤ (s.requests r).slot →
      AsyncStep hip s (.release r) (s.setRequest r { s.requests r with caller := .released })
  | push {s : NpuAsync} {r : Nat} : (s.requests r).caller = .releasing →
      AsyncStep hip s (.push r) ((s.setFree (s.pipe.freeSlots ++ [(s.requests r).slot])).setRequest r
        { s.requests r with caller := .released })

namespace NpuAsync

/-- The slot that an `acquire` hands out has no thread that can still write to it. -/
def HandsOutClean (s : NpuAsync) : AsyncEvent → Prop
  | .acquire _ => ∀ i rest, s.pipe.freeSlots = i :: rest →
      ∀ r, (s.requests r).slot = i → (s.requests r).mayWrite = false
  | _ => True

/-- `release_slot` is called when the encode thread of the request can no longer write. -/
def Disciplined (s : NpuAsync) : AsyncEvent → Prop
  | .release r => (s.requests r).mayWrite = false
  | _ => True

/-- A slot is on the free list once, or belongs to one request. -/
structure Issued (s : NpuAsync) : Prop where
  nodup : s.pipe.freeSlots.Nodup
  taken : ∀ {r}, (s.requests r).Owns → (s.requests r).slot ∉ s.pipe.freeSlots
  single : ∀ {r r'}, (s.requests r).Owns → (s.requests r').Owns →
    (s.requests r).slot = (s.requests r').slot → r = r'

/-- The thread of a request writes only while its caller holds the slot. -/
def Quiet (s : NpuAsync) : Prop :=
  ∀ r, (s.requests r).mayWrite = true → (s.requests r).caller = .holding

end NpuAsync

section

variable {hip : Bool} {s t u : NpuAsync} {e : AsyncEvent} {r r' i : Nat} {q : Request}
  {tr : List (NpuAsync × AsyncEvent)}

namespace NpuAsync

@[simp] theorem requests_setRequest :
    (s.setRequest r q).requests = Function.update s.requests r q := rfl

@[simp] theorem pipe_setRequest : (s.setRequest r q).pipe = s.pipe := rfl

@[simp] theorem requests_setSlot {slot : NpuDmaSlot} :
    (s.setSlot i slot).requests = s.requests := rfl

@[simp] theorem freeSlots_setSlot {slot : NpuDmaSlot} :
    (s.setSlot i slot).pipe.freeSlots = s.pipe.freeSlots := rfl

@[simp] theorem requests_setFree {l : List Nat} : (s.setFree l).requests = s.requests := rfl

@[simp] theorem freeSlots_setFree {l : List Nat} : (s.setFree l).pipe.freeSlots = l := rfl

theorem runThread_requests {pc : EncodeThread} {ans : Answer} :
    (s.runThread hip r pc ans).requests = Function.update s.requests r
      { s.requests r with thread := some (pc.next hip s.pipe.cfg.enableGpuStaging ans
        (s.pipe.slots (s.requests r).slot)).1 } := rfl

theorem runThread_freeSlots {pc : EncodeThread} {ans : Answer} :
    (s.runThread hip r pc ans).pipe.freeSlots = s.pipe.freeSlots := rfl

theorem Issued.keep (h : Issued s) (hfree : t.pipe.freeSlots = s.pipe.freeSlots)
    (hreq : t.requests = Function.update s.requests r q) (hslot : q.slot = (s.requests r).slot)
    (howns : q.Owns → (s.requests r).Owns) : Issued t := by
  have hback (k : Nat) : (t.requests k).slot = (s.requests k).slot ∧
      ((t.requests k).Owns → (s.requests k).Owns) := by
    rw [hreq]
    by_cases hk : k = r
    · subst hk
      rw [Function.update_self]
      exact ⟨hslot, howns⟩
    · rw [Function.update_of_ne hk]
      exact ⟨rfl, id⟩
  refine ⟨hfree ▸ h.nodup, fun {k} hk ↦ ?_, fun {k k'} hk hk' he ↦ ?_⟩
  · rw [hfree, (hback k).1]
    exact h.taken ((hback k).2 hk)
  · rw [(hback k).1, (hback k').1] at he
    exact h.single ((hback k).2 hk) ((hback k').2 hk') he

theorem Issued.acquire {rest : List Nat} (h : Issued s) (hfree : s.pipe.freeSlots = i :: rest) :
    Issued ((s.setFree rest).setRequest r { caller := .acquired, slot := i }) := by
  have hnd := h.nodup
  rw [hfree, List.nodup_cons] at hnd
  have hother {k : Nat} (hk : (s.requests k).Owns) : (s.requests k).slot ≠ i ∧
      (s.requests k).slot ∉ rest := by
    have := h.taken hk
    rwa [hfree, List.mem_cons, not_or] at this
  refine ⟨hnd.2, fun {k} hk ↦ ?_, fun {k k'} hk hk' he ↦ ?_⟩
  · simp only [requests_setRequest, requests_setFree, pipe_setRequest, freeSlots_setFree] at hk ⊢
    by_cases hkr : k = r
    · subst hkr
      simpa using hnd.1
    · rw [Function.update_of_ne hkr] at hk ⊢
      exact (hother hk).2
  · simp only [requests_setRequest, requests_setFree] at hk hk' he
    by_cases hkr : k = r
    · by_cases hkr' : k' = r
      · rw [hkr, hkr']
      · rw [Function.update_of_ne hkr'] at hk' he
        rw [hkr, Function.update_self] at he
        exact absurd he.symm (hother hk').1
    · rw [Function.update_of_ne hkr] at hk he
      by_cases hkr' : k' = r
      · rw [hkr', Function.update_self] at he
        exact absurd he (hother hk).1
      · rw [Function.update_of_ne hkr'] at hk' he
        exact h.single hk hk' he

theorem Issued.push (h : Issued s) (hr : (s.requests r).caller = .releasing) :
    Issued ((s.setFree (s.pipe.freeSlots ++ [(s.requests r).slot])).setRequest r
      { s.requests r with caller := .released }) := by
  have howns : (s.requests r).Owns := .inr (.inr hr)
  have hback {k : Nat} (hk : (((s.setFree (s.pipe.freeSlots ++ [(s.requests r).slot])).setRequest r
      { s.requests r with caller := .released }).requests k).Owns) :
      k ≠ r ∧ (s.requests k).Owns := by
    have hkr : k ≠ r := by
      rintro rfl
      simp [Request.Owns] at hk
    rw [requests_setRequest, requests_setFree, Function.update_of_ne hkr] at hk
    exact ⟨hkr, hk⟩
  refine ⟨?_, fun {k} hk ↦ ?_, fun {k k'} hk hk' he ↦ ?_⟩
  · simp only [pipe_setRequest, freeSlots_setFree]
    exact List.nodup_append.mpr ⟨h.nodup, by simp, fun x hx y hy ↦ by
      rw [List.mem_singleton.mp hy]
      rintro rfl
      exact h.taken howns hx⟩
  · obtain ⟨hkr, hk⟩ := hback hk
    simp only [requests_setRequest, requests_setFree, pipe_setRequest, freeSlots_setFree,
      Function.update_of_ne hkr, List.mem_append, List.mem_singleton, not_or]
    exact ⟨h.taken hk, fun he ↦ hkr (h.single hk howns he)⟩
  · obtain ⟨hkr, hk⟩ := hback hk
    obtain ⟨hkr', hk'⟩ := hback hk'
    simp only [requests_setRequest, requests_setFree, Function.update_of_ne hkr,
      Function.update_of_ne hkr'] at he
    exact h.single hk hk' he

end NpuAsync

open NpuAsync

/-- Whatever the callers do, a slot is handed out by the free list or owned by one request. -/
theorem AsyncStep.issued (hs : AsyncStep hip s e t) (h : Issued s) : Issued t := by
  cases hs with
  | acquire _ hfree => exact h.acquire hfree
  | spawn hc => exact h.keep rfl rfl rfl fun _ ↦ .inl hc
  | run _ => exact h.keep runThread_freeSlots runThread_requests rfl id
  | wait _ => exact h.keep rfl rfl rfl id
  | release hc _ => exact h.keep rfl rfl rfl fun _ ↦ .inr (.inl hc)
  | outOfRange hc _ => exact h.keep rfl rfl rfl fun _ ↦ .inr (.inl hc)
  | push hc => exact h.push hc

theorem EncodeThread.next_writes {staging : Bool} {ans : Answer} {slot : NpuDmaSlot}
    {pc : EncodeThread} (h : (pc.next hip staging ans slot).1.writes = true) :
    pc.writes = true := by
  cases pc with
  | synchronizing => exact h
  | finished => exact h
  | starting | encoding | failing | copying | staging | transferring | recording | publishing => rfl

namespace NpuAsync

theorem Quiet.keep (h : Quiet s) (hreq : t.requests = Function.update s.requests r q)
    (hq : q.mayWrite = true → q.caller = .holding) : Quiet t := by
  intro k hk
  rw [hreq] at hk ⊢
  by_cases hkr : k = r
  · subst hkr
    rw [Function.update_self] at hk ⊢
    exact hq hk
  · rw [Function.update_of_ne hkr] at hk ⊢
    exact h k hk

theorem Quiet.handsOutClean (h : Quiet s) (hi : Issued s) (e : AsyncEvent) :
    HandsOutClean s e := by
  cases e with
  | acquire r =>
    intro i rest hfree k hk
    by_contra hw
    have hhold := h k (by simpa using hw)
    refine hi.taken (.inr (.inl hhold)) ?_
    rw [hk, hfree]
    exact List.mem_cons_self
  | spawn | run | wait | release | push => trivial

end NpuAsync

/-- With the discipline no thread outlives the ownership of its slot. -/
theorem AsyncStep.quiet (hs : AsyncStep hip s e t) (h : Quiet s) (hd : Disciplined s e) :
    Quiet t := by
  cases hs with
  | acquire _ _ => exact h.keep rfl fun hw ↦ by cases hw
  | spawn _ => exact h.keep rfl fun _ ↦ rfl
  | @run r pc ans hpc =>
    refine h.keep runThread_requests fun hw ↦ ?_
    refine h r ?_
    rw [Request.mayWrite, hpc]
    exact EncodeThread.next_writes hw
  | @wait r _ _ => exact h.keep rfl (h r)
  | @release r _ _ => exact h.keep rfl fun hw ↦ by cases hw.symm.trans hd
  | @outOfRange r _ _ => exact h.keep rfl fun hw ↦ by cases hw.symm.trans hd
  | @push r hc => exact h.keep rfl fun hw ↦ by cases (h r hw).symm.trans hc

def NpuAsync.start (hip : Bool) (cfg : Config) (memory : Nat → Nat → FloatBits)
    (dev : Nat → NpuDmaSlotDevice) : NpuAsync where
  pipe := .create hip cfg memory dev

variable {cfg : Config} {memory : Nat → Nat → FloatBits} {dev : Nat → NpuDmaSlotDevice}

theorem start_issued : Issued (.start hip cfg memory dev) where
  nodup := List.nodup_range
  taken := fun h ↦ by simp [NpuAsync.start, Request.Owns] at h
  single := fun h ↦ by simp [NpuAsync.start, Request.Owns] at h

theorem start_quiet : Quiet (.start hip cfg memory dev) := fun _ h ↦ by cases h

/-- However the calls and the threads are interleaved, the free list names no slot twice; and
if slots are released only when the thread of the request has made its last store, no slot is
handed out that an earlier thread can still write to. -/
theorem slot_ownership (hr : Run (AsyncStep hip) (.start hip cfg memory dev) tr u) :
    Throughout (fun s ↦ s.pipe.freeSlots.Nodup) tr u ∧
      ((∀ e ∈ tr, Disciplined e.1 e.2) → ∀ e ∈ tr, HandsOutClean e.1 e.2) := by
  obtain ⟨hmid, hend⟩ := hr.invariant (fun _ _ _ h hs ↦ AsyncStep.issued hs h) start_issued
  refine ⟨⟨fun e he ↦ (hmid e he).nodup, hend.nodup⟩, fun hd e he ↦ ?_⟩
  have hquiet := hr.guarded (I := Quiet)
    (fun s e _ h (hok : Disciplined s e) hs ↦ AsyncStep.quiet hs h hok) start_quiet hd
  exact (hquiet.1 e he).handsOutClean (hmid e he) e.2

/-- A stored `READY` is the last store of a thread. -/
theorem EncodeThread.next_ready {staging : Bool} {ans : Answer} {slot : NpuDmaSlot}
    {pc : EncodeThread} (h : (pc.next hip staging ans slot).2.state = .ready) :
    slot.state = .ready ∨ (pc.next hip staging ans slot).1.writes = false := by
  cases pc with
  | starting => cases h
  | encoding =>
    refine .inl ?_
    revert h
    simp only [next]
    split <;> exact id
  | failing => cases h
  | copying _ => exact .inl h
  | staging =>
    simp only [next] at h ⊢
    split at h
    · exact .inl h
    · cases h
  | transferring =>
    simp only [next] at h ⊢
    split at h
    · cases h
    · exact .inl h
  | recording =>
    simp only [next] at h ⊢
    split at h
    · cases h
    · exact .inl h
  | publishing => exact .inr rfl
  | synchronizing => exact .inl h
  | finished => exact .inl h

theorem EncodeThread.next_idle {staging : Bool} {ans : Answer} {slot : NpuDmaSlot}
    {pc : EncodeThread} (h : pc.writes = false) : (pc.next hip staging ans slot).2 = slot := by
  cases pc with
  | synchronizing => rfl
  | finished => rfl
  | starting | encoding | failing | copying | staging | transferring | recording | publishing =>
    cases h

namespace NpuAsync

/-- `release_slot` is called after `wait_gpu_ready` has returned a handle. -/
def ReleasesReady (s : NpuAsync) : AsyncEvent → Prop
  | .release r => ∃ h, (s.requests r).waited = some (.ok h)
  | _ => True

structure Watched (s : NpuAsync) : Prop where
  free : ∀ {i}, i ∈ s.pipe.freeSlots → (s.pipe.slots i).state = .idle
  fresh : ∀ {r}, (s.requests r).Owns → (s.requests r).caller ≠ .holding →
    (s.pipe.slots (s.requests r).slot).state = .idle
  ready : ∀ {r}, (s.requests r).caller = .holding →
    (s.pipe.slots (s.requests r).slot).state = .ready → (s.requests r).mayWrite = false
  unwatched : ∀ {r}, (s.requests r).caller = .acquired → (s.requests r).waited = none
  waited : ∀ {r h}, (s.requests r).waited = some (.ok h) → (s.requests r).mayWrite = false

theorem Watched.disciplined (h : Watched s) (hd : ReleasesReady s e) : Disciplined s e := by
  cases e with
  | release r =>
    obtain ⟨hnd, hw⟩ := hd
    exact h.waited hw
  | acquire | spawn | run | wait | push => trivial

theorem Watched.update (h : Watched s) (hreq : t.requests = Function.update s.requests r q)
    (hfree : ∀ {i}, i ∈ t.pipe.freeSlots → (t.pipe.slots i).state = .idle)
    (hapart : ∀ {k}, k ≠ r → (s.requests k).Owns →
      t.pipe.slots (s.requests k).slot = s.pipe.slots (s.requests k).slot)
    (hfresh : q.Owns → q.caller ≠ .holding → (t.pipe.slots q.slot).state = .idle)
    (hready : q.caller = .holding → (t.pipe.slots q.slot).state = .ready → q.mayWrite = false)
    (hunwatched : q.caller = .acquired → q.waited = none)
    (hwaited : ∀ h, q.waited = some (.ok h) → q.mayWrite = false) : Watched t := by
  have hother {k : Nat} (hk : k ≠ r) : t.requests k = s.requests k := by
    rw [hreq, Function.update_of_ne hk]
  have hself : t.requests r = q := by rw [hreq, Function.update_self]
  refine ⟨hfree, fun {k} hko hkc ↦ ?_, fun {k} hkc hks ↦ ?_, fun {k} hkc ↦ ?_, fun {k nh} hkw ↦ ?_⟩
  · by_cases hk : k = r
    · subst hk
      rw [hself] at hko hkc ⊢
      exact hfresh hko hkc
    · rw [hother hk] at hko hkc ⊢
      rw [hapart hk hko]
      exact h.fresh hko hkc
  · by_cases hk : k = r
    · subst hk
      rw [hself] at hkc hks ⊢
      exact hready hkc hks
    · rw [hother hk] at hkc hks ⊢
      rw [hapart hk (.inr (.inl hkc))] at hks
      exact h.ready hkc hks
  · by_cases hk : k = r
    · subst hk
      rw [hself] at hkc ⊢
      exact hunwatched hkc
    · rw [hother hk] at hkc ⊢
      exact h.unwatched hkc
  · by_cases hk : k = r
    · subst hk
      rw [hself] at hkw ⊢
      exact hwaited nh hkw
    · rw [hother hk] at hkw ⊢
      exact h.waited hkw

theorem Issued.alone (h : Issued s) (howns : (s.requests r).Owns) (slot : NpuDmaSlot) :
    (∀ {i}, i ∈ s.pipe.freeSlots →
      Function.update s.pipe.slots (s.requests r).slot slot i = s.pipe.slots i) ∧
    ∀ {k}, k ≠ r → (s.requests k).Owns →
      Function.update s.pipe.slots (s.requests r).slot slot (s.requests k).slot =
        s.pipe.slots (s.requests k).slot := by
  refine ⟨fun {i} hm ↦ Function.update_of_ne ?_ _ _, fun {k} hk hko ↦ Function.update_of_ne ?_ _ _⟩
  · rintro rfl
    exact h.taken howns hm
  · exact fun he ↦ hk (h.single hko howns he)

theorem Watched.run {pc : EncodeThread} {ans : Answer} (h : Watched s) (hi : Issued s)
    (hq : Quiet s) (hpc : (s.requests r).thread = some pc) :
    Watched (s.runThread hip r pc ans) := by
  have hmay : (s.requests r).mayWrite = pc.writes := by rw [Request.mayWrite, hpc]; rfl
  cases hw : pc.writes with
  | false =>
    have hslots : (s.runThread hip r pc ans).pipe.slots = s.pipe.slots := by
      simp only [runThread, setSlot, setRequest, EncodeThread.next_idle hw,
        Function.update_eq_self]
    have hdone : (pc.next hip s.pipe.cfg.enableGpuStaging ans
        (s.pipe.slots (s.requests r).slot)).1.writes = false := by
      rw [← Bool.not_eq_true]
      intro hn
      rw [EncodeThread.next_writes hn] at hw
      cases hw
    refine h.update runThread_requests ?_ ?_ ?_ ?_ h.unwatched ?_
    · rw [hslots]
      exact h.free
    · rw [hslots]
      exact fun _ _ ↦ rfl
    · rw [hslots]
      exact h.fresh
    · exact fun _ _ ↦ hdone
    · exact fun _ _ ↦ hdone
  | true =>
    have hhold := hq r (hmay.trans hw)
    have hne : ∀ nh, (s.requests r).waited ≠ some (.ok nh) := by
      intro nh hwait
      cases (hmay.trans hw).symm.trans (h.waited hwait)
    obtain ⟨hfree, hapart⟩ := hi.alone (.inr (.inl hhold))
      (pc.next hip s.pipe.cfg.enableGpuStaging ans (s.pipe.slots (s.requests r).slot)).2
    refine h.update runThread_requests ?_ hapart ?_ ?_ h.unwatched ?_
    · exact fun hm ↦ (congrArg NpuDmaSlot.state (hfree hm)).trans (h.free hm)
    · exact fun _ hn ↦ absurd hhold hn
    · intro _ hs
      have hstate : (pc.next hip s.pipe.cfg.enableGpuStaging ans
          (s.pipe.slots (s.requests r).slot)).2.state = .ready := by
        simpa [runThread, setSlot, setRequest] using hs
      rcases EncodeThread.next_ready hstate with hold | hdone
      · cases (hmay.trans hw).symm.trans (h.ready hhold hold)
      · exact hdone
    · exact fun nh hwait ↦ absurd hwait (hne nh)

end NpuAsync

theorem AsyncStep.watched (hs : AsyncStep hip s e t) (hi : Issued s) (hq : Quiet s)
    (h : Watched s) : Watched t := by
  cases hs with
  | @acquire r i rest _ hfree =>
    have hidle : (s.pipe.slots i).state = .idle := h.free (by rw [hfree]; exact List.mem_cons_self)
    refine h.update rfl (fun {j} hm ↦ h.free ?_) (fun _ _ ↦ rfl) (fun _ _ ↦ hidle)
      (fun hn ↦ by cases hn) (fun _ ↦ rfl) (fun _ hn ↦ by cases hn)
    rw [hfree]
    exact List.mem_cons_of_mem _ hm
  | @spawn r hc =>
    have hidle := h.fresh (r := r) (.inl hc) (by simp [hc])
    refine h.update rfl h.free (fun _ _ ↦ rfl) (fun _ hn ↦ absurd rfl hn) (fun _ hs ↦ ?_)
      (fun hn ↦ by cases hn) (fun nh hw ↦ ?_)
    · cases hidle.symm.trans hs
    · cases (h.unwatched hc).symm.trans hw
  | run hpc => exact h.run hi hq hpc
  | @wait r inTime hc =>
    refine h.update rfl h.free (fun _ _ ↦ rfl) (fun _ hn ↦ absurd hc hn) h.ready
      (fun hn ↦ by cases hc.symm.trans hn) (fun nh hw ↦ ?_)
    exact h.ready hc (NpuDmaPipeline.Returns.ready (.inl ⟨inTime, Option.some.inj hw⟩))
  | @release r hc _ =>
    obtain ⟨hfree, hapart⟩ := hi.alone (.inr (.inl hc))
      { s.pipe.slots (s.requests r).slot with state := .idle }
    refine h.update rfl (fun hm ↦ ?_) hapart (fun _ _ ↦ ?_) (fun hn ↦ by cases hn)
      (fun hn ↦ by cases hn) (fun nh hw ↦ h.waited hw)
    · exact (congrArg NpuDmaSlot.state (hfree hm)).trans (h.free hm)
    · simp [setSlot]
  | @outOfRange r hc _ =>
    exact h.update rfl h.free (fun _ _ ↦ rfl) (fun hn ↦ by simp [Request.Owns] at hn)
      (fun hn ↦ by cases hn) (fun hn ↦ by cases hn) (fun nh hw ↦ h.waited hw)
  | @push r hc =>
    refine h.update rfl (fun {i} hm ↦ ?_) (fun _ _ ↦ rfl) (fun hn ↦ by simp [Request.Owns] at hn)
      (fun hn ↦ by cases hn) (fun hn ↦ by cases hn) (fun nh hw ↦ h.waited hw)
    rcases List.mem_append.mp hm with hm | hm
    · exact h.free hm
    · rw [List.mem_singleton.mp hm]
      exact h.fresh (.inr (.inr hc)) (by simp [hc])

theorem start_watched : Watched (.start hip cfg memory dev) where
  free := fun _ ↦ rfl
  fresh := fun _ _ ↦ rfl
  ready := fun _ _ ↦ rfl
  unwatched := fun _ ↦ rfl
  waited := fun h ↦ by cases h

/-- Callers that release a slot only after `wait_gpu_ready` has returned its handle keep the
discipline. -/
theorem ready_releases_disciplined (hr : Run (AsyncStep hip) (.start hip cfg memory dev) tr u)
    (hd : ∀ e ∈ tr, ReleasesReady e.1 e.2) : ∀ e ∈ tr, Disciplined e.1 e.2 := by
  have hall := hr.guarded (I := fun s ↦ Issued s ∧ Quiet s ∧ Watched s)
    (fun s e t ⟨hi, hq, hw⟩ (hok : ReleasesReady s e) hs ↦
      ⟨hs.issued hi, hs.quiet hq (hw.disciplined hok), hs.watched hi hq hw⟩)
    ⟨start_issued, start_quiet, start_watched⟩ hd
  exact fun e he ↦ (hall.1 e he).2.2.disciplined (hd e he)

def oneSlot : Config := { numSlots := 1, embeddingBytes := 4, enableGpuStaging := false }

def oneValue : Answer := { encoded := some { embeddings := [1] } }

theorem slot_ownership_in_turn :
    ∃ tr u, Run (AsyncStep false) (.start false oneSlot (fun _ _ ↦ 0) fun _ ↦ {}) tr u ∧
      tr.map (fun e ↦ e.2) = [.acquire 0, .spawn 0, .run 0 {}, .run 0 oneValue, .run 0 {},
        .release 0, .push 0, .acquire 1] ∧
      Throughout (fun s ↦ s.pipe.freeSlots.Nodup) tr u ∧ ∀ e ∈ tr, HandsOutClean e.1 e.2 := by
  have hr : Run (AsyncStep false) (.start false oneSlot (fun _ _ ↦ 0) fun _ ↦ {}) _ _ :=
    .cons (.acquire (r := 0) rfl rfl) (.cons (.spawn (r := 0) rfl)
      (.cons (@AsyncStep.run false _ 0 .starting {} rfl)
        (.cons (@AsyncStep.run false _ 0 .encoding oneValue rfl)
          (.cons (@AsyncStep.run false _ 0 (.copying { embeddings := [1] }) {} rfl)
            (.cons (.release (r := 0) rfl (by decide)) (.cons (.push (r := 0) rfl)
              (.cons (.acquire (r := 1) rfl rfl) (.nil _))))))))
  obtain ⟨hfree, hclean⟩ := slot_ownership hr
  refine ⟨_, _, hr, rfl, hfree, hclean ?_⟩
  simp only [List.forall_mem_cons, Disciplined, List.not_mem_nil, false_implies, implies_true,
    and_true, true_and]
  rfl

/-- A caller that has timed out releases its slot; the next request gets it while the encode
thread of the first still runs. -/
theorem slot_reused_while_encoding :
    ∃ tr u, Run (AsyncStep false) (.start false oneSlot (fun _ _ ↦ 0) fun _ ↦ {}) tr u ∧
      tr.map (fun e ↦ e.2) = [.acquire 0, .spawn 0, .run 0 {}, .wait 0 false, .release 0, .push 0,
        .acquire 1] ∧
      ¬ ∀ e ∈ tr, HandsOutClean e.1 e.2 := by
  refine ⟨_, _, .cons (.acquire (r := 0) rfl rfl) (.cons (.spawn (r := 0) rfl)
    (.cons (@AsyncStep.run false _ 0 .starting {} rfl) (.cons (.wait (r := 0) rfl)
      (.cons (.release (r := 0) rfl (by decide)) (.cons (.push (r := 0) rfl)
        (.cons (.acquire (r := 1) rfl rfl) (.nil _))))))), rfl, ?_⟩
  simp only [List.forall_mem_cons, HandsOutClean, List.not_mem_nil, false_implies, implies_true,
    and_true, true_and, not_and]
  intro _ h
  cases h 0 [] rfl 0 rfl

end

end Cerberus.Npu
