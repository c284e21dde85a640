import Cerberus.TieredMemory.Runs

namespace Cerberus.TieredMemory

open Std Function Foundation.FiniteMap Foundation.Trace

/-- The arguments of a call of `allocate`. -/
structure Request where
  size : UInt64
  preferred : MemoryTier
  alignment : UInt64 := 0

/-- Where a thread in `allocate` stands: the tiers it has not tried yet, the handle it has
taken, or the block it has got. -/
inductive AllocPc
  | walking (ts : List MemoryTier)
  | opening (ts : List MemoryTier)
  | spilling (ts : List MemoryTier) (h : Nat)
  | rollingBack (ts : List MemoryTier) (h : Nat)
  | numbering (a : TierAllocation)
  | charging (a : TierAllocation)
  | enrolling (a : TierAllocation)
  | done (r : Except TierError TierAllocation)

namespace AllocPc

def start (r : Request) : AllocPc :=
  if r.size = 0 then .done (.error .invalidSize) else .walking (kTiers.drop r.preferred.index)

/-- The atomic steps of `allocate`. Every tier that is passed over takes a serial number. -/
def advance (P : Platform) (r : Request) (m : Impl) : AllocPc → Option (AllocPc × Impl)
  | .walking [] => some (.done (.error .outOfMemory), m)
  | .walking (t :: ts) =>
    if !m.admits t r.size r.alignment then some (.walking ts, { m with os := m.os.tick })
    else
      match t with
      | .cold =>
        if !m.coldAvailable then some (.walking ts, { m with os := m.os.tick })
        else some (.opening ts, m)
      | t =>
        match m.acquire P t r.size (m.effectiveAlign t r.alignment) with
        | (none, m') => some (.walking ts, m')
        | (some a, m') => some (.numbering a, m')
  | .opening ts => some (.spilling ts m.nextHandle, m.takeHandle)
  | .spilling ts h =>
    match m.reserveSpill P h r.size with
    | (true, m') =>
      some (.charging { handle := h, tier := .cold, sizeBytes := r.size,
                        alignment := m.effectiveAlign .cold r.alignment }, m')
    | (false, m') => some (.rollingBack ts h, m')
  | .rollingBack ts _ => some (.walking ts, m.giveBackHandle)
  | .numbering a => some (.charging { a with handle := m.nextHandle }, m.takeHandle)
  | .charging a =>
    some (.enrolling a, m.charge a.tier (m.alignedSize a.tier a.sizeBytes a.alignment))
  | .enrolling a => some (.done (.ok a), m.enroll a)
  | .done _ => none

/-- The handle a thread has taken from the counter and not yet registered or given back. -/
def held : AllocPc → Option Nat
  | .spilling _ h | .rollingBack _ h => some h
  | .charging a | .enrolling a => some a.handle
  | .walking _ | .opening _ | .numbering _ | .done _ => none

end AllocPc

/-- Any number of threads, each in one call of `allocate`. -/
structure Crowd where
  m : Impl
  pc : Nat → AllocPc

namespace Crowd

def start (m : Impl) (reqs : Nat → Request) : Crowd := ⟨m, fun i ↦ .start (reqs i)⟩

/-- Thread `i` makes its next step. -/
def Step (P : Platform) (reqs : Nat → Request) (s : Crowd) (i : Nat) (s' : Crowd) : Prop :=
  ∃ pc m, (s.pc i).advance P (reqs i) s.m = some (pc, m) ∧ s' = ⟨m, update s.pc i pc⟩

variable {P : Platform} {reqs : Nat → Request} {m m' m₀ : Impl} {i : Nat} {pcs : Nat → AllocPc}
  {r : Request}

theorem thread_run {pc : AllocPc} (hi : pcs i = pc) {pc' : AllocPc}
    (hs : pc.advance P (reqs i) m = some (pc', m')) {u : Crowd} {tr : List (Crowd × Nat)}
    (hr : Run (Step P reqs) ⟨m', update pcs i pc'⟩ tr u) :
    Run (Step P reqs) ⟨m, pcs⟩ ((⟨m, pcs⟩, i) :: tr) u :=
  .cons (s := (⟨m, pcs⟩ : Crowd)) (a := i) ⟨pc', m', by rw [← hi] at hs; exact hs, rfl⟩ hr

theorem acquire_some {t : MemoryTier} {size align : UInt64} {a : TierAllocation}
    (ha : m.acquire P t size align = (some a, m')) :
    a.tier = t ∧ a.sizeBytes = size ∧ a.alignment = align ∧
      m'.alignedSize t size align = m.alignedSize t size align := by
  cases t with
  | hot =>
    simp only [Impl.acquire, allocHot, Os.hipMalloc] at ha
    cases hh : P.hasHip <;> cases hm : P.hipMalloc m.os.serial <;> simp [hh, hm] at ha
    obtain ⟨rfl, rfl⟩ := ha
    exact ⟨rfl, rfl, rfl, rfl⟩
  | warm =>
    simp only [Impl.acquire, PmrResource.doAllocate_eq] at ha
    cases hg : (m.warmRes.hasRoom size align && P.alignedAlloc m.os.serial) <;> simp [hg] at ha
    obtain ⟨rfl, rfl⟩ := ha
    exact ⟨rfl, rfl, rfl, rfl⟩
  | cool =>
    simp only [Impl.acquire, PmrResource.doAllocate_eq] at ha
    cases hg : (m.coolRes.hasRoom size align && P.alignedAlloc m.os.serial) <;> simp [hg] at ha
    obtain ⟨rfl, rfl⟩ := ha
    exact ⟨rfl, rfl, rfl, rfl⟩
  | cold => simp [Impl.acquire] at ha

def Arrives (P : Platform) (reqs : Nat → Request) (i : Nat) (s : Crowd) (ts : List MemoryTier) :
    Option TierAllocation × Impl → Prop
  | (none, m') => ∃ tr, Run (Step P reqs) s tr ⟨m', update s.pc i (.walking ts)⟩
  | (some a, m') => ∃ tr, Run (Step P reqs) s tr ⟨m', update s.pc i (.done (.ok a))⟩

theorem acquire_arrives {t : MemoryTier} {ts : List MemoryTier} (hi : pcs i = .walking (t :: ts))
    (ht : t ≠ .cold) (ha : m.admits t (reqs i).size (reqs i).alignment = true) :
    Arrives P reqs i ⟨m, pcs⟩ ts (m.tryTier P t (reqs i).size (reqs i).alignment) := by
  rcases hacq : m.acquire P t (reqs i).size (m.effectiveAlign t (reqs i).alignment) with
    ⟨_ | a, m₁⟩
  · have hstep : (AllocPc.walking (t :: ts)).advance P (reqs i) m = some (.walking ts, m₁) := by
      cases t <;> first | exact absurd rfl ht | simp [AllocPc.advance, ha, hacq]
    have htry : m.tryTier P t (reqs i).size (reqs i).alignment = (none, m₁) := by
      cases t <;> first | exact absurd rfl ht | simp [Impl.tryTier, ha, hacq]
    rw [htry]
    exact ⟨_, thread_run hi hstep (.nil _)⟩
  · obtain ⟨hat, hs, hal, hn⟩ := acquire_some hacq
    have hstep : (AllocPc.walking (t :: ts)).advance P (reqs i) m = some (.numbering a, m₁) := by
      cases t <;> first | exact absurd rfl ht | simp [AllocPc.advance, ha, hacq]
    have htry : m.tryTier P t (reqs i).size (reqs i).alignment =
        (some { a with handle := m₁.nextHandle }, (m₁.takeHandle.charge a.tier
          (m₁.takeHandle.alignedSize a.tier a.sizeBytes a.alignment)).enroll
            { a with handle := m₁.nextHandle }) := by
      have hcharge : m₁.takeHandle.alignedSize a.tier a.sizeBytes a.alignment =
          m.alignedSize t (reqs i).size (m.effectiveAlign t (reqs i).alignment) := by
        rw [hat, hs, hal, ← hn]
        rfl
      rw [hcharge]
      cases t <;> first | exact absurd rfl ht | simp [Impl.tryTier, ha, hacq, hat]
    have hr : Run (Step P reqs) ⟨m, pcs⟩ _ _ := thread_run hi hstep (thread_run (update_self ..) rfl
      (thread_run (update_self ..) rfl (thread_run (update_self ..) rfl (.nil _))))
    simp only [update_idem] at hr
    rw [htry]
    exact ⟨_, hr⟩

theorem spill_arrives {ts : List MemoryTier} (hi : pcs i = .walking (.cold :: ts))
    (ha : m.admits .cold (reqs i).size (reqs i).alignment = true) (hc : m.coldAvailable = true) :
    Arrives P reqs i ⟨m, pcs⟩ ts (m.tryTier P .cold (reqs i).size (reqs i).alignment) := by
  have hopen : (AllocPc.walking (.cold :: ts)).advance P (reqs i) m = some (.opening ts, m) := by
    simp [AllocPc.advance, ha, hc]
  rcases hres : m.takeHandle.reserveSpill P m.nextHandle (reqs i).size with ⟨_ | _, m₁⟩
  · have hspill : (AllocPc.spilling ts m.nextHandle).advance P (reqs i) m.takeHandle =
        some (.rollingBack ts m.nextHandle, m₁) := by simp [AllocPc.advance, hres]
    have htry : m.tryTier P .cold (reqs i).size (reqs i).alignment = (none, m₁.giveBackHandle) := by
      simp [Impl.tryTier, ha, hc, hres]
    have hr : Run (Step P reqs) ⟨m, pcs⟩ _ _ := thread_run hi hopen (thread_run (update_self ..) rfl
      (thread_run (update_self ..) hspill (thread_run (update_self ..) rfl (.nil _))))
    simp only [update_idem] at hr
    rw [htry]
    exact ⟨_, hr⟩
  · obtain ⟨a, hblock⟩ : ∃ a : TierAllocation, a = ⟨m.nextHandle, .cold, none, none, (reqs i).size,
        m.effectiveAlign .cold (reqs i).alignment⟩ := ⟨_, rfl⟩
    have hspill : (AllocPc.spilling ts m.nextHandle).advance P (reqs i) m.takeHandle =
        some (.charging a, m₁) := by
      simp only [AllocPc.advance, hres, hblock]
      rfl
    have htry : m.tryTier P .cold (reqs i).size (reqs i).alignment =
        (some a, (m₁.charge a.tier (m₁.alignedSize a.tier a.sizeBytes a.alignment)).enroll a) := by
      simp only [Impl.tryTier, ha, Bool.not_true, Bool.false_eq_true, ↓reduceIte, hc, hres, hblock]
      rfl
    have hr : Run (Step P reqs) ⟨m, pcs⟩ _ _ := thread_run hi hopen (thread_run (update_self ..) rfl
      (thread_run (update_self ..) hspill (thread_run (update_self ..) rfl
        (thread_run (update_self ..) rfl (.nil _)))))
    simp only [update_idem] at hr
    rw [htry]
    exact ⟨_, hr⟩

theorem tier_arrives {t : MemoryTier} {ts : List MemoryTier} (hi : pcs i = .walking (t :: ts)) :
    Arrives P reqs i ⟨m, pcs⟩ ts (m.tryTier P t (reqs i).size (reqs i).alignment) := by
  have hpass (hstep : (AllocPc.walking (t :: ts)).advance P (reqs i) m =
        some (.walking ts, { m with os := m.os.tick }))
      (htry : m.tryTier P t (reqs i).size (reqs i).alignment =
        (none, { m with os := m.os.tick })) :
      Arrives P reqs i ⟨m, pcs⟩ ts (m.tryTier P t (reqs i).size (reqs i).alignment) := by
    rw [htry]
    exact ⟨_, thread_run hi hstep (.nil _)⟩
  cases ha : m.admits t (reqs i).size (reqs i).alignment with
  | false => exact hpass (by simp [AllocPc.advance, ha]) (by simp [Impl.tryTier, ha])
  | true =>
    by_cases ht : t = .cold
    · subst ht
      by_cases hc : m.coldAvailable = true
      · exact spill_arrives hi ha hc
      · exact hpass (by simp [AllocPc.advance, ha, hc]) (by simp [Impl.tryTier, ha, hc])
    · exact acquire_arrives hi ht ha

theorem walk_run {ts : List MemoryTier} (hi : pcs i = .walking ts) :
    ∃ tr, Run (Step P reqs) ⟨m, pcs⟩ tr
      ⟨(Impl.allocateFrom P (reqs i).size (reqs i).alignment ts m).2,
        update pcs i (.done (Impl.allocateFrom P (reqs i).size (reqs i).alignment ts m).1)⟩ := by
  induction ts generalizing m pcs with
  | nil => exact ⟨_, thread_run hi rfl (.nil _)⟩
  | cons t ts ih =>
    have hone : Arrives P reqs i ⟨m, pcs⟩ ts (m.tryTier P t _ _) := tier_arrives hi
    simp only [Impl.allocateFrom]
    rcases htry : m.tryTier P t (reqs i).size (reqs i).alignment with ⟨_ | a, m₁⟩
    · rw [htry] at hone
      obtain ⟨tr, htr⟩ := hone
      obtain ⟨tr', htr'⟩ := ih (m := m₁) (update_self i (.walking ts) pcs)
      rw [update_idem] at htr'
      exact ⟨_, htr.append htr'⟩
    · rw [htry] at hone
      exact hone

theorem allocate_run (hi : pcs i = .start (reqs i)) (hs : (reqs i).size ≠ 0) :
    ∃ tr, Run (Step P reqs) ⟨m, pcs⟩ tr
      ⟨(m.allocate P (reqs i).size (reqs i).preferred (reqs i).alignment).2, update pcs i
        (.done (m.allocate P (reqs i).size (reqs i).preferred (reqs i).alignment).1)⟩ := by
  simp only [Impl.allocate, if_neg hs]
  refine walk_run ?_
  rw [hi, AllocPc.start, if_neg hs]

inductive Effect (m : Impl) : AllocPc → AllocPc → Impl → Prop
  | none {pc pc' : AllocPc} {m' : Impl} : m'.registry = m.registry →
      m'.nextHandle = m.nextHandle → pc'.held = pc.held → (∀ a, pc' ≠ .done (.ok a)) →
      Effect m pc pc' m'
  | take {pc pc' : AllocPc} : pc.held = .none → pc'.held = some m.nextHandle →
      (∀ a, pc' ≠ .done (.ok a)) → Effect m pc pc' m.takeHandle
  | giveBack (ts : List MemoryTier) (h : Nat) :
      Effect m (.rollingBack ts h) (.walking ts) m.giveBackHandle
  | enroll (a : TierAllocation) : Effect m (.enrolling a) (.done (.ok a)) (m.enroll a)

theorem acquire_frame (P : Platform) (m : Impl) (t : MemoryTier) (size align : UInt64) :
    (m.acquire P t size align).2.registry = m.registry ∧
      (m.acquire P t size align).2.nextHandle = m.nextHandle := by
  cases t with
  | hot =>
    simp only [Impl.acquire]
    rcases allocHot P m.os size with ⟨_ | _, _⟩ <;> exact ⟨rfl, rfl⟩
  | warm =>
    simp only [Impl.acquire]
    rcases m.warmRes.doAllocate P m.os size align with ⟨_ | _, _, _⟩ <;> exact ⟨rfl, rfl⟩
  | cool =>
    simp only [Impl.acquire]
    rcases m.coolRes.doAllocate P m.os size align with ⟨_ | _, _, _⟩ <;> exact ⟨rfl, rfl⟩
  | cold => exact ⟨rfl, rfl⟩

theorem reserveSpill_frame (P : Platform) (m : Impl) (h : Nat) (size : UInt64) :
    (m.reserveSpill P h size).2.registry = m.registry ∧
      (m.reserveSpill P h size).2.nextHandle = m.nextHandle := by
  simp only [Impl.reserveSpill]
  rcases m.os.createSpill P (m.spillPath h) size with ⟨_ | _, _⟩ <;> exact ⟨rfl, rfl⟩

theorem walk_effect {t : MemoryTier} {ts : List MemoryTier} {pc' : AllocPc}
    (ha : (AllocPc.walking (t :: ts)).advance P r m = some (pc', m')) :
    Effect m (.walking (t :: ts)) pc' m' := by
  have hacq (hn : t ≠ .cold) (ha : m.admits t r.size r.alignment = true)
      (hadv : (AllocPc.walking (t :: ts)).advance P r m = some (pc', m')) :
      Effect m (.walking (t :: ts)) pc' m' := by
    have hf := acquire_frame P m t r.size (m.effectiveAlign t r.alignment)
    rcases hq : m.acquire P t r.size (m.effectiveAlign t r.alignment) with ⟨_ | a, m₁⟩
    · have hs : (AllocPc.walking (t :: ts)).advance P r m = some (.walking ts, m₁) := by
        cases t <;> first | exact absurd rfl hn | simp [AllocPc.advance, ha, hq]
      rw [hs, Option.some.injEq, Prod.mk.injEq] at hadv
      obtain ⟨rfl, rfl⟩ := hadv
      rw [hq] at hf
      exact .none hf.1 hf.2 rfl nofun
    · have hs : (AllocPc.walking (t :: ts)).advance P r m = some (.numbering a, m₁) := by
        cases t <;> first | exact absurd rfl hn | simp [AllocPc.advance, ha, hq]
      rw [hs, Option.some.injEq, Prod.mk.injEq] at hadv
      obtain ⟨rfl, rfl⟩ := hadv
      rw [hq] at hf
      exact .none hf.1 hf.2 rfl nofun
  cases had : m.admits t r.size r.alignment with
  | false =>
    simp only [AllocPc.advance, had, Bool.not_false, ↓reduceIte, Option.some.injEq,
      Prod.mk.injEq] at ha
    obtain ⟨rfl, rfl⟩ := ha
    exact .none rfl rfl rfl nofun
  | true =>
    by_cases ht : t = .cold
    · subst ht
      by_cases hc : m.coldAvailable = true
      · simp only [AllocPc.advance, had, hc, Bool.not_true, Bool.false_eq_true, ↓reduceIte,
          Option.some.injEq, Prod.mk.injEq] at ha
        obtain ⟨rfl, rfl⟩ := ha
        exact .none rfl rfl rfl nofun
      · simp only [AllocPc.advance, had, Bool.not_true, Bool.false_eq_true, ↓reduceIte, hc,
          Bool.not_false, Option.some.injEq, Prod.mk.injEq] at ha
        obtain ⟨rfl, rfl⟩ := ha
        exact .none rfl rfl rfl nofun
    · exact hacq ht had ha

theorem advance_effect {pc pc' : AllocPc} (ha : pc.advance P r m = some (pc', m')) :
    Effect m pc pc' m' := by
  cases pc with
  | walking ts =>
    cases ts with
    | nil =>
      simp only [AllocPc.advance, Option.some.injEq, Prod.mk.injEq] at ha
      obtain ⟨rfl, rfl⟩ := ha
      exact .none rfl rfl rfl nofun
    | cons t ts => exact walk_effect ha
  | opening ts =>
    simp only [AllocPc.advance, Option.some.injEq, Prod.mk.injEq] at ha
    obtain ⟨rfl, rfl⟩ := ha
    exact .take rfl rfl nofun
  | spilling ts h =>
    have hf := reserveSpill_frame P m h r.size
    simp only [AllocPc.advance] at ha
    rcases hq : m.reserveSpill P h r.size with ⟨_ | _, m₁⟩ <;> rw [hq] at ha hf
    · simp only [Option.some.injEq, Prod.mk.injEq] at ha
      obtain ⟨rfl, rfl⟩ := ha
      exact .none hf.1 hf.2 rfl nofun
    · simp only [Option.some.injEq, Prod.mk.injEq] at ha
      obtain ⟨rfl, rfl⟩ := ha
      exact .none hf.1 hf.2 rfl nofun
  | rollingBack ts h =>
    simp only [AllocPc.advance, Option.some.injEq, Prod.mk.injEq] at ha
    obtain ⟨rfl, rfl⟩ := ha
    exact .giveBack ts h
  | numbering a =>
    simp only [AllocPc.advance, Option.some.injEq, Prod.mk.injEq] at ha
    obtain ⟨rfl, rfl⟩ := ha
    exact .take rfl rfl nofun
  | charging a =>
    simp only [AllocPc.advance, Option.some.injEq, Prod.mk.injEq] at ha
    obtain ⟨rfl, rfl⟩ := ha
    exact .none rfl rfl rfl nofun
  | enrolling a =>
    simp only [AllocPc.advance, Option.some.injEq, Prod.mk.injEq] at ha
    obtain ⟨rfl, rfl⟩ := ha
    exact .enroll a
  | done x => simp [AllocPc.advance] at ha

/-- The handles in the hands of the threads are below the counter, different from each other
and not registered; each allocation that has returned is registered under its own handle. -/
structure Apart (m₀ : Impl) (s : Crowd) : Prop where
  fresh : ∀ {k : Nat} {a}, s.m.registry[k]? = some a → k < s.m.nextHandle
  below : ∀ {i h}, (s.pc i).held = some h → h < s.m.nextHandle
  unique : ∀ {i j h}, (s.pc i).held = some h → (s.pc j).held = some h → i = j
  free : ∀ {i h}, (s.pc i).held = some h → s.m.registry[h]? = none
  earlier : ∀ {k : Nat} {a}, m₀.registry[k]? = some a → s.m.registry[k]? = some a
  entered : ∀ {i a}, s.pc i = .done (.ok a) →
    s.m.registry[a.handle]? = some a ∧ m₀.registry[a.handle]? = none
  distinct : ∀ {i j a b}, s.pc i = .done (.ok a) → s.pc j = .done (.ok b) → a.handle = b.handle →
    i = j

/-- A thread gives a handle back only while it is the newest one. -/
def rollsBackNewest (s : Crowd) (i : Nat) : Prop :=
  match s.pc i with
  | .rollingBack _ h => s.m.nextHandle = h + 1
  | _ => True

theorem start_apart (hc : Impl.Coherent P m) (reqs : Nat → Request) :
    Apart m (Crowd.start m reqs) := by
  have hstart (r : Request) : (AllocPc.start r).held = none ∧
      ∀ a, AllocPc.start r ≠ .done (.ok a) := by
    unfold AllocPc.start
    split <;> exact ⟨rfl, nofun⟩
  refine ⟨fun ha ↦ (hc.fresh ha).2, ?_, ?_, ?_, id, ?_, ?_⟩
  · intro i h hh
    simp [Crowd.start, (hstart _).1] at hh
  · intro i j h hh
    simp [Crowd.start, (hstart _).1] at hh
  · intro i h hh
    simp [Crowd.start, (hstart _).1] at hh
  · intro i a ha
    exact absurd ha ((hstart _).2 a)
  · intro i j a b ha
    exact absurd ha ((hstart _).2 a)

section Step

variable {s : Crowd} {pc' : AllocPc}

theorem held_update {j h : Nat} (hj : (update s.pc i pc' j).held = some h) :
    j = i ∧ pc'.held = some h ∨ j ≠ i ∧ (s.pc j).held = some h := by
  by_cases hji : j = i
  · rw [hji, update_self] at hj
    exact .inl ⟨hji, hj⟩
  · rw [update_of_ne hji] at hj
    exact .inr ⟨hji, hj⟩

theorem done_update (hn : ∀ a, pc' ≠ .done (.ok a)) {j : Nat} {a : TierAllocation}
    (hj : update s.pc i pc' j = .done (.ok a)) : s.pc j = .done (.ok a) := by
  by_cases hji : j = i
  · rw [hji, update_self] at hj
    exact absurd hj (hn a)
  · rwa [update_of_ne hji] at hj

theorem Apart.quiet (hs : Apart m₀ s) (hr : m'.registry = s.m.registry)
    (hn : m'.nextHandle = s.m.nextHandle) (hh : pc'.held = (s.pc i).held)
    (hd : ∀ a, pc' ≠ .done (.ok a)) : Apart m₀ ⟨m', update s.pc i pc'⟩ := by
  have hheld {j h : Nat} (hj : (update s.pc i pc' j).held = some h) : (s.pc j).held = some h := by
    rcases held_update hj with ⟨rfl, hmine⟩ | ⟨_, hother⟩
    · rw [← hh, hmine]
    · exact hother
  constructor
  case fresh => rw [hr, hn]; exact hs.fresh
  case below => rw [hn]; exact fun hj ↦ hs.below (hheld hj)
  case unique => exact fun hj hk ↦ hs.unique (hheld hj) (hheld hk)
  case free => rw [hr]; exact fun hj ↦ hs.free (hheld hj)
  case earlier => rw [hr]; exact hs.earlier
  case entered => rw [hr]; exact fun hj ↦ hs.entered (done_update hd hj)
  case distinct => exact fun hj hk ↦ hs.distinct (done_update hd hj) (done_update hd hk)

theorem Apart.take (hs : Apart m₀ s) (hh : pc'.held = some s.m.nextHandle)
    (hd : ∀ a, pc' ≠ .done (.ok a)) : Apart m₀ ⟨s.m.takeHandle, update s.pc i pc'⟩ := by
  have hnew {j h : Nat} (hj : (update s.pc i pc' j).held = some h) :
      j = i ∧ h = s.m.nextHandle ∨ j ≠ i ∧ (s.pc j).held = some h := by
    rcases held_update hj with ⟨hji, hj⟩ | hj
    · rw [hh, Option.some.injEq] at hj
      exact .inl ⟨hji, hj.symm⟩
    · exact .inr hj
  constructor
  case fresh =>
    intro k a hk
    exact (hs.fresh hk).trans (Nat.lt_succ_self _)
  case below =>
    intro j h hj
    rcases hnew hj with ⟨_, rfl⟩ | ⟨_, hj⟩
    · exact Nat.lt_succ_self _
    · exact (hs.below hj).trans (Nat.lt_succ_self _)
  case unique =>
    intro j k h hj hk
    rcases hnew hj with ⟨hji, he⟩ | ⟨_, hj'⟩ <;> rcases hnew hk with ⟨hki, he'⟩ | ⟨_, hk'⟩
    · rw [hji, hki]
    · exact absurd (he ▸ hs.below hk') (Nat.lt_irrefl _)
    · exact absurd (he' ▸ hs.below hj') (Nat.lt_irrefl _)
    · exact hs.unique hj' hk'
  case free =>
    intro j h hj
    rcases hnew hj with ⟨_, rfl⟩ | ⟨_, hj⟩
    · by_contra hk
      obtain ⟨a, ha⟩ := Option.ne_none_iff_exists'.mp hk
      exact absurd (hs.fresh ha) (Nat.lt_irrefl _)
    · exact hs.free hj
  case earlier => exact hs.earlier
  case entered => exact fun hj ↦ hs.entered (done_update hd hj)
  case distinct => exact fun hj hk ↦ hs.distinct (done_update hd hj) (done_update hd hk)

theorem Apart.giveBack {ts : List MemoryTier} {h : Nat} (hs : Apart m₀ s)
    (hi : s.pc i = .rollingBack ts h) (hnew : s.m.nextHandle = h + 1) :
    Apart m₀ ⟨s.m.giveBackHandle, update s.pc i (.walking ts)⟩ := by
  have hmine : (s.pc i).held = some h := by rw [hi]; rfl
  have hnext : s.m.giveBackHandle.nextHandle = h := by
    simp only [Impl.giveBackHandle, hnew]
    omega
  have hd (a : TierAllocation) : AllocPc.walking ts ≠ .done (.ok a) := nofun
  have hother {j k : Nat} (hj : (update s.pc i (.walking ts) j).held = some k) :
      j ≠ i ∧ (s.pc j).held = some k := by
    rcases held_update hj with ⟨_, hj⟩ | hj
    · simp [AllocPc.held] at hj
    · exact hj
  constructor
  case fresh =>
    intro k a hk
    have hlt := hs.fresh hk
    have hne : k ≠ h := by
      rintro rfl
      exact absurd ((hs.free hmine).symm.trans hk) (by simp)
    rw [hnext]
    omega
  case below =>
    intro j k hj
    obtain ⟨hji, hj⟩ := hother hj
    have hlt := hs.below hj
    have hne : k ≠ h := by
      rintro rfl
      exact hji (hs.unique hj hmine)
    rw [hnext]
    omega
  case unique => exact fun hj hk ↦ hs.unique (hother hj).2 (hother hk).2
  case free => exact fun hj ↦ hs.free (hother hj).2
  case earlier => exact hs.earlier
  case entered => exact fun hj ↦ hs.entered (done_update hd hj)
  case distinct => exact fun hj hk ↦ hs.distinct (done_update hd hj) (done_update hd hk)

theorem Apart.enroll {a : TierAllocation} (hs : Apart m₀ s) (hi : s.pc i = .enrolling a) :
    Apart m₀ ⟨s.m.enroll a, update s.pc i (.done (.ok a))⟩ := by
  have hmine : (s.pc i).held = some a.handle := by rw [hi]; rfl
  have hfree := hs.free hmine
  have hlook (k : Nat) : (s.m.enroll a).registry[k]? =
      if a.handle = k then some a else s.m.registry[k]? := by
    rw [Impl.enroll, insertIfNew_fresh _ _ hfree, get_insert]
  have hkeep {k : Nat} {b : TierAllocation} (hk : s.m.registry[k]? = some b) :
      a.handle ≠ k ∧ (s.m.enroll a).registry[k]? = some b := by
    have hne : a.handle ≠ k := by
      rintro rfl
      simp [hfree] at hk
    exact ⟨hne, by rw [hlook, if_neg hne, hk]⟩
  have hother {j k : Nat} (hj : (update s.pc i (.done (.ok a)) j).held = some k) :
      j ≠ i ∧ (s.pc j).held = some k := by
    rcases held_update hj with ⟨_, hj⟩ | hj
    · simp [AllocPc.held] at hj
    · exact hj
  have hdone {j : Nat} {b : TierAllocation}
      (hj : update s.pc i (.done (.ok a)) j = .done (.ok b)) :
      j = i ∧ b = a ∨ s.pc j = .done (.ok b) := by
    by_cases hji : j = i
    · rw [hji, update_self] at hj
      exact .inl ⟨hji, by simpa using hj.symm⟩
    · rw [update_of_ne hji] at hj
      exact .inr hj
  constructor
  case fresh =>
    intro k b hk
    rw [hlook] at hk
    split at hk
    · next he => exact he ▸ hs.below hmine
    · exact hs.fresh hk
  case below => exact fun hj ↦ hs.below (hother hj).2
  case unique => exact fun hj hk ↦ hs.unique (hother hj).2 (hother hk).2
  case free =>
    intro j k hj
    obtain ⟨hji, hj⟩ := hother hj
    have hne : a.handle ≠ k := by
      rintro rfl
      exact hji (hs.unique hj hmine)
    rw [hlook, if_neg hne]
    exact hs.free hj
  case earlier => exact fun hk ↦ (hkeep (hs.earlier hk)).2
  case entered =>
    intro j b hj
    rcases hdone hj with ⟨_, rfl⟩ | hj
    · refine ⟨by rw [hlook, if_pos rfl], ?_⟩
      by_contra hk
      obtain ⟨c, hc⟩ := Option.ne_none_iff_exists'.mp hk
      exact absurd (hfree.symm.trans (hs.earlier hc)) (by simp)
    · exact ⟨(hkeep (hs.entered hj).1).2, (hs.entered hj).2⟩
  case distinct =>
    intro j k b c hj hk he
    rcases hdone hj with ⟨hji, hb⟩ | hj' <;> rcases hdone hk with ⟨hki, hc⟩ | hk'
    · rw [hji, hki]
    · exact absurd (hb ▸ he) (hkeep (hs.entered hk').1).1
    · exact absurd (hc ▸ he.symm) (hkeep (hs.entered hj').1).1
    · exact hs.distinct hj' hk' he

theorem step_apart (s : Crowd) (i : Nat) (s' : Crowd) (hs : Apart m₀ s)
    (hok : s.rollsBackNewest i) (hstep : Crowd.Step P reqs s i s') : Apart m₀ s' := by
  obtain ⟨pc', m', ha, rfl⟩ := hstep
  unfold rollsBackNewest at hok
  generalize hpc : s.pc i = pc at ha hok
  cases advance_effect ha with
  | none hr hn hh hd => exact hs.quiet hr hn (hh.trans (by rw [hpc])) hd
  | take _ hh hd => exact hs.take hh hd
  | giveBack ts h => exact hs.giveBack hpc hok
  | enroll a => exact hs.enroll hpc

end Step

end Crowd

variable {P : Platform}

/-- Any number of threads allocate at the same time. If a thread gives a handle back only
while it is the newest one, no two allocations get the same handle, none gets one that was
in use before, and each that succeeds has its own registry entry. -/
theorem handles_unique {cfg : TieredMemoryConfig} {hook : Option MigrationComputeHook}
    {pre : List (Impl × Call)} {m : Impl} {reqs : Nat → Request} {tr : List (Crowd × Nat)}
    {u : Crowd} (hm : Run (Step P) (construct P cfg hook) pre m)
    (hr : Run (Crowd.Step P reqs) (Crowd.start m reqs) tr u)
    (hok : ∀ e ∈ tr, e.1.rollsBackNewest e.2) :
    Throughout (fun s ↦
      (∀ i j a b, s.pc i = .done (.ok a) → s.pc j = .done (.ok b) → i ≠ j →
        a.handle ≠ b.handle) ∧
      (∀ i a, s.pc i = .done (.ok a) →
        s.m.registry[a.handle]? = some a ∧ m.registry[a.handle]? = none) ∧
      (∀ (k : Nat) a, m.registry[k]? = some a → s.m.registry[k]? = some a)) tr u := by
  obtain ⟨hmid, hend⟩ := hr.guarded Crowd.step_apart
    (Crowd.start_apart (run_coherent hm).2 reqs) hok
  have hall {s : Crowd} (hs : Crowd.Apart m s) :
      (∀ i j a b, s.pc i = .done (.ok a) → s.pc j = .done (.ok b) → i ≠ j →
        a.handle ≠ b.handle) ∧
      (∀ i a, s.pc i = .done (.ok a) →
        s.m.registry[a.handle]? = some a ∧ m.registry[a.handle]? = none) ∧
      (∀ (k : Nat) a, m.registry[k]? = some a → s.m.registry[k]? = some a) :=
    ⟨fun i j a b hi hj hne he ↦ hne (hs.distinct hi hj he), fun i a hi ↦ hs.entered hi,
      fun k a hk ↦ hs.earlier hk⟩
  exact ⟨fun e he ↦ hall (hmid e he), hall hend⟩

/-- Two threads whose steps alternate. -/
theorem handles_unique_two_threads :
    ∃ m tr u a b, Run (Crowd.Step plainHost (fun _ ↦ ⟨1, .cold, 0⟩))
        (Crowd.start m (fun _ ↦ ⟨1, .cold, 0⟩)) tr u ∧
      tr.map (fun e ↦ e.2) = [0, 1, 0, 1, 0, 1, 0, 1, 0, 1] ∧
      u.pc 0 = .done (.ok a) ∧ u.pc 1 = .done (.ok b) ∧ a.handle ≠ b.handle := by
  have hm : Run (Step plainHost) (construct plainHost {}) _ _ := .nil _
  have hr : Run (Crowd.Step plainHost (fun _ ↦ ⟨1, .cold, 0⟩))
      (Crowd.start (construct plainHost {}) (fun _ ↦ ⟨1, .cold, 0⟩)) _ _ :=
    Crowd.thread_run (i := 0) rfl rfl (Crowd.thread_run (i := 1) rfl rfl (Crowd.thread_run (i := 0) rfl rfl
      (Crowd.thread_run (i := 1) rfl rfl (Crowd.thread_run (i := 0) rfl rfl (Crowd.thread_run (i := 1) rfl rfl
        (Crowd.thread_run (i := 0) rfl rfl (Crowd.thread_run (i := 1) rfl rfl (Crowd.thread_run (i := 0) rfl rfl
          (Crowd.thread_run (i := 1) rfl rfl (.nil _))))))))))
  have hall := handles_unique hm hr (by
    simp only [List.forall_mem_cons]
    exact ⟨trivial, trivial, trivial, trivial, trivial, trivial, trivial, trivial, trivial, trivial,
      by simp⟩)
  exact ⟨_, _, _, _, _, hr, rfl, rfl, rfl, hall.2.1 0 1 _ _ rfl rfl (by decide)⟩

def flakySpill : Platform := { plainHost with openSpill := fun n ↦ n != 0 }

/-- Thread 0 takes handle 1 and cannot create its spill file; before it decrements the
counter thread 1 has taken handle 2. Thread 2 is then given handle 2 once more, and its
`emplace` does nothing. -/
theorem handle_given_twice :
    ∃ tr u a b, Run (Crowd.Step flakySpill (fun _ ↦ ⟨1, .cold, 0⟩))
        (Crowd.start (construct flakySpill {}) (fun _ ↦ ⟨1, .cold, 0⟩)) tr u ∧
      tr.map (fun e ↦ e.2) = [0, 0, 1, 1, 0, 0, 1, 1, 1, 2, 2, 2, 2, 2] ∧
      u.pc 1 = .done (.ok a) ∧ u.pc 2 = .done (.ok b) ∧ a.handle = b.handle := by
  have hr : Run (Crowd.Step flakySpill (fun _ ↦ ⟨1, .cold, 0⟩))
      (Crowd.start (construct flakySpill {}) (fun _ ↦ ⟨1, .cold, 0⟩)) _ _ :=
    Crowd.thread_run (i := 0) rfl rfl (Crowd.thread_run (i := 0) rfl rfl (Crowd.thread_run (i := 1) rfl rfl
      (Crowd.thread_run (i := 1) rfl rfl (Crowd.thread_run (i := 0) rfl rfl (Crowd.thread_run (i := 0) rfl rfl
        (Crowd.thread_run (i := 1) rfl rfl (Crowd.thread_run (i := 1) rfl rfl (Crowd.thread_run (i := 1) rfl rfl
          (Crowd.thread_run (i := 2) rfl rfl (Crowd.thread_run (i := 2) rfl rfl (Crowd.thread_run (i := 2) rfl rfl
            (Crowd.thread_run (i := 2) rfl rfl (Crowd.thread_run (i := 2) rfl rfl (.nil _))))))))))))))
  exact ⟨_, _, _, _, hr, rfl, rfl, rfl, rfl⟩

end Cerberus.TieredMemory
