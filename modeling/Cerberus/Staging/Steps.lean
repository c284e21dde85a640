import Cerberus.Foundation.Accumulate
import Cerberus.Foundation.Trace
import Cerberus.Staging.Pinned

namespace Cerberus.Staging

open Foundation.Accumulate Foundation.Trace

inductive PoolCall
  | acquire (step : UInt32) (fault : Bool)
  | stage (step : UInt32) (memcpyOk recordOk : Bool)
  | get (step : UInt32) (fault : Bool)
  | synchronize (step : UInt32) (fault : Bool)
  | isReady (step : UInt32) (fault : Bool)
  | elapse

/-- The steps that were staged with success since the last acquire of their slot, each with the
number of its copy. -/
structure Traffic where
  station : Station
  staged : Nat → List (UInt32 × Nat) := fun _ ↦ []

namespace Traffic

def slot (t : Traffic) (step : UInt32) : Nat := t.station.pool.slotForStep step

def call (t : Traffic) : PoolCall → Traffic
  | .acquire step fault =>
    match t.station.acquireHostBuffer step fault with
    | (.ok _, w) => { station := w, staged := Function.update t.staged (t.slot step) [] }
    | (.error _, w) => { t with station := w }
  | .stage step memcpyOk recordOk =>
    match t.station.stageToGpu step memcpyOk recordOk with
    | (.ok _, w) =>
      { station := w
        staged := Function.update t.staged (t.slot step)
          ((step, w.device.submitted) :: t.staged (t.slot step)) }
    | (.error _, w) => { t with station := w }
  | .get step fault => { t with station := (t.station.getGpuBuffer step fault).2 }
  | .synchronize step fault => { t with station := (t.station.synchronizeStep step fault).2 }
  | .isReady step fault => { t with station := (t.station.isReady step fault).2 }
  | .elapse => { t with station := { t.station with device := t.station.device.elapse } }

def Staged (t : Traffic) (step : UInt32) : Prop := ∃ id, (step, id) ∈ t.staged (t.slot step)

def Transferred (t : Traffic) (step : UInt32) : Prop :=
  ∃ id, (step, id) ∈ t.staged (t.slot step) ∧ id ≤ t.station.device.completed

/-- A step is said to be there only if it was staged and its copy is done. -/
def Right (t : Traffic) : PoolCall → Prop
  | .isReady step fault => (t.station.isReady step fault).1 = true → t.Transferred step
  | .get step fault =>
    ∀ ptr, (t.station.getGpuBuffer step fault).1 = .ok ptr → ptr ≠ 0 → t.Transferred step
  | _ => True

def Pending (t : Traffic) (idx : Nat) (s : Slot) (fault : Bool) : Prop :=
  s.inFlight = true ∧ t.station.poll idx fault ≠ .success

/-- What is asked for was staged; or there is nothing that could be taken for it. -/
def Asked (t : Traffic) : PoolCall → Prop
  | .isReady step fault => ∀ idx s, t.station.pool.slotOf step = .ok (idx, s) →
      t.Staged step ∨ t.staged idx = [] ∨ t.Pending idx s fault
  | .get step fault => ∀ idx s, t.station.pool.slotOf step = .ok (idx, s) →
      t.Staged step ∨ s.devicePtr = 0 ∨ t.Pending idx s fault
  | _ => True

/-- The flags of a slot against what was staged on it, the record of its event and the copies that
are done. -/
structure Tracks (staged : List (UInt32 × Nat)) (recorded completed : Nat) (s : Slot) : Prop where
  flying : s.inFlight = true → staged ≠ [] ∧ ∀ e ∈ staged, e.2 ≤ recorded
  still : s.inFlight = false →
    (s.ready = true ↔ staged ≠ []) ∧ ∀ e ∈ staged, e.2 ≤ completed

structure Tracked (t : Traffic) : Prop where
  slots : ∀ (idx : Nat) (s : Slot), t.station.pool.slots[idx]? = some s →
    Tracks (t.staged idx) (t.station.device.recorded idx) t.station.device.completed s
  bound : ∀ idx, ∀ e ∈ t.staged idx, e.2 ≤ t.station.device.submitted
  cpu : t.station.hip = false → t.station.device.submitted = 0

variable {t u : Traffic} {idx : Nat} {s : Slot} {step : UInt32} {fault : Bool}

theorem slotOf_ok (h : t.station.pool.slotOf step = .ok (idx, s)) :
    idx = t.slot step ∧ t.station.pool.slots[idx]? = some s := by
  unfold PinnedStagingPool.slotOf at h
  split_ifs at h
  split at h
  · cases h
  · rename_i hs
    cases h
    exact ⟨rfl, hs⟩

theorem Tracked.change {staged : List (UInt32 × Nat)} {recorded : Nat} (h : t.Tracked)
    (hslots : u.station.pool.slots = t.station.pool.slots.set idx s)
    (hcompleted : t.station.device.completed ≤ u.station.device.completed)
    (hsubmitted : t.station.device.submitted ≤ u.station.device.submitted)
    (hrecorded : ∀ j, j ≠ idx → u.station.device.recorded j = t.station.device.recorded j)
    (hstaged : ∀ j, j ≠ idx → u.staged j = t.staged j)
    (hcpu : u.station.hip = false → u.station.device.submitted = 0)
    (hrecord : u.station.device.recorded idx = recorded) (hstage : u.staged idx = staged)
    (hbound : ∀ e ∈ staged, e.2 ≤ u.station.device.submitted)
    (hs : Tracks staged recorded u.station.device.completed s) : u.Tracked := by
  subst hrecord hstage
  refine ⟨?_, ?_, hcpu⟩
  · intro j r hr
    rw [hslots] at hr
    by_cases hj : j = idx
    · subst hj
      have hlt : j < t.station.pool.slots.length := by
        simpa using (List.getElem?_eq_some_iff.mp hr).choose
      rw [List.getElem?_set_self hlt, Option.some.injEq] at hr
      exact hr ▸ hs
    · rw [List.getElem?_set_ne (Ne.symm hj)] at hr
      rw [hrecorded j hj, hstaged j hj]
      obtain ⟨hflying, hstill⟩ := h.slots j r hr
      refine ⟨hflying, fun hf ↦ ⟨(hstill hf).1, fun e he ↦ ?_⟩⟩
      exact Nat.le_trans ((hstill hf).2 e he) hcompleted
  · intro j e he
    by_cases hj : j = idx
    · exact hbound e (hj ▸ he)
    · rw [hstaged j hj] at he
      exact Nat.le_trans (h.bound j e he) hsubmitted

theorem Tracked.later (h : t.Tracked) {device : HipStream}
    (hcompleted : t.station.device.completed ≤ device.completed)
    (hsubmitted : t.station.device.submitted ≤ device.submitted)
    (hrecorded : device.recorded = t.station.device.recorded)
    (hcpu : t.station.hip = false → device.submitted = 0) :
    Tracked { t with station := { t.station with device } } := by
  refine ⟨?_, ?_, hcpu⟩
  · intro j r hr
    obtain ⟨hflying, hstill⟩ := h.slots j r hr
    refine ⟨hrecorded ▸ hflying, fun hf ↦ ⟨(hstill hf).1, fun e he ↦ ?_⟩⟩
    exact Nat.le_trans ((hstill hf).2 e he) hcompleted
  · intro j e he
    exact Nat.le_trans (h.bound j e he) hsubmitted

def landed (s : Slot) : Slot := { s with inFlight := false, ready := true }

theorem Tracks.landed {staged : List (UInt32 × Nat)} {recorded completed : Nat}
    (h : Tracks staged recorded completed s) (hfly : s.inFlight = true)
    (hdone : ∀ e ∈ staged, e.2 ≤ completed) : Tracks staged recorded completed (landed s) where
  flying := fun hf ↦ absurd hf Bool.false_ne_true
  still := fun _ ↦ ⟨iff_of_true rfl (h.flying hfly).1, hdone⟩

theorem Tracked.done (h : t.Tracked) (hs : t.station.pool.slots[idx]? = some s)
    (hfly : s.inFlight = true) (hpoll : t.station.poll idx fault = .success) :
    ∀ e ∈ t.staged idx, e.2 ≤ t.station.device.completed := by
  intro e he
  rw [Station.poll] at hpoll
  split_ifs at hpoll with hhip
  · rw [HipStream.eventQuery] at hpoll
    split_ifs at hpoll with hfault hrec
    exact Nat.le_trans (((h.slots idx s hs).flying hfly).2 e he) hrec
  · have hzero := h.cpu (Bool.eq_false_iff.mpr hhip)
    have hle := h.bound idx e he
    omega

theorem Tracked.land (h : t.Tracked) (hs : t.station.pool.slots[idx]? = some s)
    (hfly : s.inFlight = true) (hpoll : t.station.poll idx fault = .success) :
    Tracked { t with station := t.station.put idx (landed s) } :=
  h.change rfl le_rfl le_rfl (fun _ _ ↦ rfl) (fun _ _ ↦ rfl) h.cpu rfl rfl (h.bound idx)
    ((h.slots idx s hs).landed hfly (h.done hs hfly hpoll))

theorem Tracked.get (h : t.Tracked) : (t.call (.get step fault)).Tracked := by
  rw [call, Station.getGpuBuffer]
  split
  · exact h
  · rename_i idx s hslot
    obtain ⟨-, hs⟩ := slotOf_ok hslot
    by_cases hfly : s.inFlight = false
    · rw [if_pos hfly]
      exact h
    · rw [if_neg hfly]
      split
      · rename_i hpoll
        exact h.land hs (by simpa using hfly) hpoll
      · exact h
      · exact h

theorem Tracked.isReady (h : t.Tracked) : (t.call (.isReady step fault)).Tracked := by
  rw [call, Station.isReady]
  split
  · exact h
  · rename_i idx s hslot
    obtain ⟨-, hs⟩ := slotOf_ok hslot
    by_cases hfly : s.inFlight = false
    · rw [if_pos hfly]
      exact h
    · rw [if_neg hfly]
      split
      · rename_i hpoll
        exact h.land hs (by simpa using hfly) hpoll
      · exact h

theorem Tracked.synchronize (h : t.Tracked) : (t.call (.synchronize step fault)).Tracked := by
  rw [call, Station.synchronizeStep]
  split
  · exact h
  · rename_i idx s hslot
    obtain ⟨-, hs⟩ := slotOf_ok hslot
    by_cases hfly : s.inFlight = false
    · rw [if_pos hfly]
      exact h
    · have hfly' : s.inFlight = true := by simpa using hfly
      have htracks := h.slots idx s hs
      rw [if_neg hfly]
      by_cases hhip : t.station.hip = true
      · rw [if_pos hhip, HipStream.eventSynchronize]
        by_cases hfault : fault = true
        · rw [if_pos hfault]
          exact h
        · rw [if_neg hfault]
          refine h.change (s := landed s) rfl (Nat.le_max_left _ _) le_rfl (fun _ _ ↦ rfl)
            (fun _ _ ↦ rfl) h.cpu rfl rfl (h.bound idx) ?_
          refine ⟨fun hf ↦ absurd hf Bool.false_ne_true,
            fun _ ↦ ⟨iff_of_true rfl (htracks.flying hfly').1, fun e he ↦ ?_⟩⟩
          exact Nat.le_trans ((htracks.flying hfly').2 e he) (Nat.le_max_right _ _)
      · rw [if_neg hhip]
        have hpoll : t.station.poll idx fault = .success := if_neg hhip
        exact h.land hs hfly' hpoll

theorem Tracked.acquire (h : t.Tracked) : (t.call (.acquire step fault)).Tracked := by
  rw [call, Station.acquireHostBuffer]
  cases hslot : t.station.pool.slotOf step with
  | error e => exact h
  | ok r =>
    obtain ⟨idx, s⟩ := r
    obtain ⟨rfl, hs⟩ := slotOf_ok hslot
    have hidle (recorded completed : Nat) (r : Slot) (hr : r.inFlight = false) :
        Tracks [] recorded completed { r with ready := false } :=
      ⟨fun hf ↦ absurd (hr.symm.trans hf) Bool.false_ne_true,
        fun _ ↦ ⟨by simp, fun e he ↦ by cases he⟩⟩
    have hnone (submitted : Nat) : ∀ e ∈ ([] : List (UInt32 × Nat)), e.2 ≤ submitted :=
      fun e he ↦ by cases he
    have hothers (j : Nat) (hj : j ≠ t.slot step) :
        Function.update t.staged (t.slot step) [] j = t.staged j := Function.update_of_ne hj ..
    by_cases hfly : s.inFlight = false
    · simp only [Station.drainSlot, if_pos hfly]
      exact h.change rfl le_rfl le_rfl (fun _ _ ↦ rfl) hothers h.cpu rfl (Function.update_self ..)
        (hnone _) (hidle _ _ s hfly)
    · simp only [Station.drainSlot, if_neg hfly]
      -- a drain can only let more copies be done
      have hdevice : ∃ completed, t.station.device.completed ≤ completed ∧
          (if t.station.hip = true then
              (t.station.device.eventSynchronize (t.slot step) fault).2
            else t.station.device) = { t.station.device with completed } := by
        rw [HipStream.eventSynchronize]
        split_ifs
        · exact ⟨_, le_rfl, rfl⟩
        · exact ⟨_, Nat.le_max_left _ _, rfl⟩
        · exact ⟨_, le_rfl, rfl⟩
      obtain ⟨completed, hle, hdevice⟩ := hdevice
      rw [hdevice]
      exact h.change rfl hle le_rfl (fun _ _ ↦ rfl) hothers h.cpu rfl (Function.update_self ..)
        (hnone _) (hidle _ _ (landed s) rfl)

theorem Tracked.stage (h : t.Tracked) {memcpyOk recordOk : Bool} :
    (t.call (.stage step memcpyOk recordOk)).Tracked := by
  rw [call, Station.stageToGpu]
  cases hslot : t.station.pool.slotOf step with
  | error e => exact h
  | ok r =>
    obtain ⟨idx, s⟩ := r
    obtain ⟨rfl, hs⟩ := slotOf_ok hslot
    have hothers (e : UInt32 × Nat) (j : Nat) (hj : j ≠ t.slot step) :
        Function.update t.staged (t.slot step) (e :: t.staged (t.slot step)) j = t.staged j :=
      Function.update_of_ne hj ..
    have hcopies (n : Nat) (hn : t.station.device.submitted ≤ n) (id : Nat) (hid : id ≤ n) :
        ∀ e ∈ (step, id) :: t.staged (t.slot step), e.2 ≤ n := by
      intro e he
      rcases List.mem_cons.mp he with rfl | he
      · exact hid
      · exact Nat.le_trans (h.bound _ e he) hn
    have hstaged (recorded completed id : Nat)
        (hall : ∀ e ∈ (step, id) :: t.staged (t.slot step), e.2 ≤ recorded) :
        Tracks ((step, id) :: t.staged (t.slot step)) recorded completed
          { s with inFlight := true, ready := false } :=
      ⟨fun _ ↦ ⟨List.cons_ne_nil _ _, hall⟩, fun hf ↦ absurd hf.symm Bool.false_ne_true⟩
    dsimp only
    split_ifs with hhost hhip hdev hmem hrec
    · exact h
    · exact h
    · exact h
    · exact h.later le_rfl (Nat.le_succ _) rfl (fun hcpu ↦ absurd (hhip.symm.trans hcpu) (by simp))
    · refine h.change rfl le_rfl (Nat.le_succ _) (fun j hj ↦ Function.update_of_ne hj ..)
        (hothers _) (fun hcpu ↦ absurd (hhip.symm.trans hcpu) (by simp)) (Function.update_self ..)
        (Function.update_self ..) ?_ ?_
      · exact hcopies _ (Nat.le_succ _) _ le_rfl
      · exact hstaged _ _ _ (hcopies _ (Nat.le_succ _) _ le_rfl)
    · refine h.change rfl le_rfl le_rfl (fun _ _ ↦ rfl) (hothers _) h.cpu rfl
        (Function.update_self ..) ?_ ?_
      · exact hcopies _ le_rfl _ le_rfl
      · refine hstaged _ _ _ ?_
        have hzero : t.station.device.submitted = 0 := h.cpu (by simpa using hhip)
        have hle (n : Nat) : t.station.device.submitted ≤ n := hzero ▸ Nat.zero_le n
        exact hcopies _ (hle _) _ (hle _)

theorem Tracked.elapse (h : t.Tracked) : (t.call .elapse).Tracked := by
  rw [Traffic.call, HipStream.elapse]
  split_ifs
  · exact h.later (Nat.le_succ _) le_rfl rfl h.cpu
  · exact h

theorem Tracked.call (h : t.Tracked) (c : PoolCall) : (t.call c).Tracked := by
  cases c with
  | acquire step fault => exact h.acquire
  | stage step memcpyOk recordOk => exact h.stage
  | get step fault => exact h.get
  | synchronize step fault => exact h.synchronize
  | isReady step fault => exact h.isReady
  | elapse => exact h.elapse

theorem transferred_iff
    (hdone : ∀ e ∈ t.staged (t.slot step), e.2 ≤ t.station.device.completed) :
    t.Transferred step ↔ t.Staged step := by
  constructor
  · rintro ⟨id, hid, -⟩
    exact ⟨id, hid⟩
  · rintro ⟨id, hid⟩
    exact ⟨id, hid, hdone _ hid⟩

theorem forall_slotOf {a : Nat} {P : Nat → Slot → Prop} :
    (∀ idx r, (.ok (a, s) : Except StagingErrorInfo (Nat × Slot)) = .ok (idx, r) → P idx r) ↔
      P a s := by
  constructor
  · exact fun hall ↦ hall _ _ rfl
  · rintro hone idx r he
    cases he
    exact hone

theorem Tracked.right_isReady (h : t.Tracked) :
    t.Right (.isReady step fault) ↔ t.Asked (.isReady step fault) := by
  rw [Right, Asked, Station.isReady]
  cases hslot : t.station.pool.slotOf step with
  | error e =>
    exact iff_of_true (fun hf ↦ absurd hf Bool.false_ne_true) (fun _ _ he ↦ by cases he)
  | ok r =>
    obtain ⟨idx, s⟩ := r
    obtain ⟨rfl, hs⟩ := slotOf_ok hslot
    rw [forall_slotOf]
    dsimp only
    by_cases hfly : s.inFlight = false
    · -- nothing is in flight: the flag says whether something was staged
      obtain ⟨hready, hdone⟩ := (h.slots _ s hs).still hfly
      have hpending : ¬ t.Pending (t.slot step) s fault := fun hp ↦ by simp [hp.1] at hfly
      rw [if_pos hfly, transferred_iff hdone, hready]
      by_cases hnone : t.staged (t.slot step) = []
      · exact iff_of_true (fun hne ↦ absurd hnone hne) (.inr (.inl hnone))
      · simp [hnone, hpending]
    · have hfly' : s.inFlight = true := by simpa using hfly
      have hsome := ((h.slots _ s hs).flying hfly').1
      rw [if_neg hfly]
      split
      · rename_i hpoll
        have hpending : ¬ t.Pending (t.slot step) s fault := fun hp ↦ hp.2 hpoll
        rw [transferred_iff (h.done hs hfly' hpoll)]
        simp [hsome, hpending]
      · rename_i hpoll
        exact iff_of_true (fun hf ↦ absurd hf Bool.false_ne_true) (.inr (.inr ⟨hfly', hpoll⟩))

theorem Tracked.right_get (h : t.Tracked) :
    t.Right (.get step fault) ↔ t.Asked (.get step fault) := by
  rw [Right, Asked, Station.getGpuBuffer]
  cases hslot : t.station.pool.slotOf step with
  | error e => exact iff_of_true (fun _ he ↦ by cases he) (fun _ _ he ↦ by cases he)
  | ok r =>
    obtain ⟨idx, s⟩ := r
    obtain ⟨rfl, hs⟩ := slotOf_ok hslot
    rw [forall_slotOf]
    dsimp only
    have hgiven (hpending : ¬ t.Pending (t.slot step) s fault)
        (hdone : ∀ e ∈ t.staged (t.slot step), e.2 ≤ t.station.device.completed) :
        (∀ ptr, (.ok s.devicePtr : Except StagingErrorInfo Nat) = .ok ptr → ptr ≠ 0 →
          t.Transferred step) ↔
          t.Staged step ∨ s.devicePtr = 0 ∨ t.Pending (t.slot step) s fault := by
      rw [transferred_iff hdone]
      by_cases hnull : s.devicePtr = 0
      · simp [hnull]
      · simp [hnull, hpending]
    by_cases hfly : s.inFlight = false
    · rw [if_pos hfly]
      refine hgiven (fun hp ↦ by simp [hp.1] at hfly) ((h.slots _ s hs).still hfly).2
    · have hfly' : s.inFlight = true := by simpa using hfly
      rw [if_neg hfly]
      split
      · rename_i hpoll
        exact hgiven (fun hp ↦ hp.2 hpoll) (h.done hs hfly' hpoll)
      · rename_i hpoll
        refine iff_of_true ?_ (.inr (.inr ⟨hfly', by simp [hpoll]⟩))
        rintro ptr he hne
        cases he
        exact absurd rfl hne
      · rename_i hpoll
        exact iff_of_true (fun _ he ↦ by cases he) (.inr (.inr ⟨hfly', by simp [hpoll]⟩))

theorem Tracked.right_iff (h : t.Tracked) (c : PoolCall) : t.Right c ↔ t.Asked c := by
  cases c with
  | acquire step fault => exact Iff.rfl
  | stage step memcpyOk recordOk => exact Iff.rfl
  | get step fault => exact h.right_get
  | synchronize step fault => exact Iff.rfl
  | isReady step fault => exact h.right_isReady
  | elapse => exact Iff.rfl

def fresh (hip : Bool) (memory : SlotMemory) (embeddingBytes : Nat) (numSlots : Int) : Traffic :=
  { station := { hip, pool := .make hip memory embeddingBytes numSlots } }

theorem makeSlot_idle {hip : Bool} {memory : SlotMemory} {i : Nat}
    (h : PinnedStagingPool.makeSlot hip memory i = some s) :
    s.inFlight = false ∧ s.ready = false := by
  rw [PinnedStagingPool.makeSlot] at h
  split_ifs at h
  · cases h
    exact ⟨rfl, rfl⟩
  · cases h
    exact ⟨rfl, rfl⟩

theorem make_idle {hip : Bool} {memory : SlotMemory} {embeddingBytes : Nat} {numSlots : Int}
    (h : s ∈ (PinnedStagingPool.make hip memory embeddingBytes numSlots).slots) :
    s.inFlight = false ∧ s.ready = false := by
  rw [PinnedStagingPool.make] at h
  split_ifs at h
  · cases h
  · rw [List.eq_of_mem_replicate h]
    exact ⟨rfl, rfl⟩
  · split at h
    · cases h
    · rename_i slots hslots
      obtain ⟨i, -, hi⟩ := mem_mapM hslots h
      exact makeSlot_idle hi

theorem fresh_tracked (hip : Bool) (memory : SlotMemory) (embeddingBytes : Nat)
    (numSlots : Int) : (fresh hip memory embeddingBytes numSlots).Tracked := by
  refine ⟨?_, fun _ _ he ↦ absurd he List.not_mem_nil, fun _ ↦ rfl⟩
  intro idx s hs
  obtain ⟨hfly, hready⟩ := make_idle (List.mem_of_getElem? hs)
  refine ⟨fun hf ↦ absurd (hfly.symm.trans hf) Bool.false_ne_true, fun _ ↦ ⟨?_, ?_⟩⟩
  · simp [hready, fresh]
  · exact fun _ he ↦ absurd he List.not_mem_nil

/-- Every answer that a step is there is right, for whatever calls and however fast the transfers
are, exactly if each question is about a step that was staged since the last acquire of its slot,
or is asked while there is nothing that could be taken for it. -/
theorem right_throughout_iff {hip : Bool} {memory : SlotMemory} {embeddingBytes : Nat}
    {numSlots : Int} {tr : List (Traffic × PoolCall)} {u : Traffic}
    (h : Run (fun t c u ↦ t.call c = u) (fresh hip memory embeddingBytes numSlots) tr u) :
    (∀ e ∈ tr, e.1.Right e.2) ↔ ∀ e ∈ tr, e.1.Asked e.2 := by
  have hstep (t : Traffic) (c : PoolCall) (u : Traffic) (ht : t.Tracked) (hc : t.call c = u) :
      u.Tracked := hc ▸ ht.call c
  obtain ⟨hall, -⟩ := h.invariant hstep (fresh_tracked hip memory embeddingBytes numSlots)
  exact forall₂_congr (fun e he ↦ (hall e he).right_iff e.2)

def oneSlot : Traffic := fresh true { host := fun _ ↦ 1, device := fun _ ↦ 2 } 4 1

/-- A step is acquired and staged, and after its copy has been done it is asked for. -/
theorem right_throughout_iff_staged : ∃ tr u,
    Run (fun t c u ↦ t.call c = u) oneSlot tr u ∧
      tr.map (fun e ↦ e.2) = [.acquire 0 false, .stage 0 true true, .isReady 0 false, .elapse,
        .isReady 0 false, .get 0 false] ∧
      u.Transferred 0 ∧ ∀ e ∈ tr, e.1.Right e.2 := by
  have hr : Run (fun t c u ↦ t.call c = u) oneSlot _ _ :=
    .cons (a := .acquire 0 false) rfl (.cons (a := .stage 0 true true) rfl
      (.cons (a := .isReady 0 false) rfl (.cons (a := .elapse) rfl
        (.cons (a := .isReady 0 false) rfl (.cons (a := .get 0 false) rfl (.nil _))))))
  refine ⟨_, _, hr, rfl, ⟨1, by decide, by decide⟩, (right_throughout_iff hr).mpr ?_⟩
  simp only [List.forall_mem_cons, Asked]
  refine ⟨trivial, trivial, ?_, trivial, ?_, ?_, by simp⟩ <;>
    exact fun _ _ _ ↦ .inl ⟨1, by decide⟩

/-- A buffer that nothing was ever staged to is handed out. -/
theorem unstaged_handed_out : ¬ ∀ (hip : Bool) (memory : SlotMemory) (embeddingBytes : Nat)
    (numSlots : Int) (tr : List (Traffic × PoolCall)) (u : Traffic),
    Run (fun t c u ↦ t.call c = u) (fresh hip memory embeddingBytes numSlots) tr u →
      ∀ e ∈ tr, e.1.Right e.2 := by
  intro h
  have hget := h true _ 4 1 [(oneSlot, .get 0 false)] _ (.cons rfl (.nil _)) (oneSlot, .get 0 false)
    (by simp)
  obtain ⟨id, hid, -⟩ := hget 2 rfl (by decide)
  cases hid

end Traffic

end Cerberus.Staging
