import Cerberus.Graph.Coordinator
import Cerberus.Graph.Listing

namespace Cerberus.Graph.Coordinator

open Std Function Foundation Foundation.Bytes Foundation.FiniteMap Foundation.Trace TieredMemory
  TieredMemory.Impl

variable {F : Type} {P : Platform} {m m' m₀ : Impl} {size : UInt64} {user : Option (Nat → UInt8)}
  {a : TierAllocation} {s s' : Staging} {tier : MemoryTier}

def Request.landing (P : Platform) (e : Request) : Option MemoryTier :=
  e.manager.landingTier P e.size e.tier 0

def Staging.taken (s : Staging) (size : UInt64) (tier : MemoryTier) (a : TierAllocation)
    (m : Impl) : Staging :=
  { s with
    manager := m
    allocs := s.allocs ++ [a]
    requests := s.requests ++ [⟨s.manager, size, tier⟩] }

theorem stageOne_cases (hc : Coherent P s.manager) (tier : MemoryTier) (size : UInt64)
    (user : Option (Nat → UInt8)) :
    (s.manager.landingTier P size tier 0 = none ∧ ∃ e l m', Passed s.manager l m' ∧
      stageOne P tier size user s = (.failed e,
        { s with manager := m', requests := s.requests ++ [⟨s.manager, size, tier⟩] })) ∨
    ∃ a m', s.manager.landingTier P size tier 0 = some a.tier ∧
      s.manager.allocate P size tier 0 = (.ok a, m') ∧ Impl.Placed P s.manager size 0 a m' ∧
      stageOne P tier size user s = fill size user a (s.taken size tier a m') := by
  rcases hal : s.manager.allocate P size tier 0 with ⟨r, m'⟩
  cases hl : s.manager.landingTier P size tier 0 with
  | none =>
    obtain ⟨⟨e, he⟩, hp⟩ := allocate_passed hl
    rw [hal] at he hp
    obtain rfl : r = .error e := he
    exact .inl ⟨rfl, mapTierError e, _, m', hp, by simp [stageOne, hal]⟩
  | some t =>
    obtain ⟨a, ha, rfl, -, hp⟩ := allocate_placed hl
    rw [hal] at ha hp
    obtain rfl : r = .ok a := ha
    have hvalid : a.handle ≠ kInvalidTierHandle := by
      rw [hp.handle]
      exact Nat.pos_iff_ne_zero.mp hc.next
    exact .inr ⟨a, m', rfl, rfl, hp, by simp [stageOne, hal, hvalid, Staging.taken]⟩

def charged (m : Impl) (t : MemoryTier) (allocs : List TierAllocation) : Nat :=
  (allocs.map (m.weight t)).sum

def Request.Fits (P : Platform) (t : MemoryTier) (e : Request) : Prop :=
  e.landing P = some t → e.manager.fitsTier t e.size 0

structure Holds (P : Platform) (m₀ : Impl) (allocs : List TierAllocation)
    (requests : List Request) (m : Impl) : Prop where
  coherent : Coherent P m
  nodup : (allocs.map (fun a ↦ a.handle)).Nodup
  live : ∀ a ∈ allocs, m.registry[a.handle]? = some a
  unused : ∀ a ∈ allocs, m₀.registry[a.handle]? = none
  others : ∀ h, h ∉ allocs.map (fun a ↦ a.handle) → m.registry[h]? = m₀.registry[h]?
  allocated : ∀ t, (m.acct t).allocated.toNat =
    ((m₀.acct t).allocated.toNat + charged m₀ t allocs) % 2 ^ 64
  fits : ∀ t, (∀ e ∈ requests, e.Fits P t) ↔
    (m₀.acct t).allocated.toNat + charged m₀ t allocs < 2 ^ 64
  warm : m.warmRes.defaultAlign = m₀.warmRes.defaultAlign
  cool : m.coolRes.defaultAlign = m₀.coolRes.defaultAlign

section

variable {allocs : List TierAllocation} {requests : List Request}

theorem Holds.start (hc : Coherent P m) : Holds P m [] [] m where
  coherent := hc
  nodup := by simp
  live := by simp
  unused := by simp
  others := by simp
  allocated t := by
    have hlt := (m.acct t).allocated.toNat_lt
    rw [charged, List.map_nil, List.sum_nil, Nat.add_zero, Nat.mod_eq_of_lt hlt]
  fits t := by
    have hlt := (m.acct t).allocated.toNat_lt
    simpa [charged] using hlt
  warm := rfl
  cool := rfl

theorem Holds.refill (hh : Holds P m₀ allocs requests m) (os : Os)
    (hs : m.os.serial ≤ os.serial) (hhost : ∀ p, (os.host p).isSome = (m.os.host p).isSome)
    (hdevice : os.device = m.os.device) : Holds P m₀ allocs requests { m with os := os } where
  coherent := hh.coherent.refill rfl rfl rfl rfl rfl hs hhost (fun p ↦ by rw [hdevice])
  nodup := hh.nodup
  live := hh.live
  unused := hh.unused
  others := hh.others
  allocated := hh.allocated
  fits := hh.fits
  warm := hh.warm
  cool := hh.cool

theorem Holds.passed {l : Bool} {e : Request} (hh : Holds P m₀ allocs requests m)
    (hp : Passed m l m') (he : e.landing P = none) :
    Holds P m₀ allocs (requests ++ [e]) m' := by
  have hf := hp.frame
  have hr : m'.registry = m.registry := by rw [hf]
  have ha : m'.acct = m.acct := by rw [hf]
  constructor
  case coherent => exact hp.coherent hh.coherent
  case nodup => exact hh.nodup
  case live => rw [hr]; exact hh.live
  case unused => exact hh.unused
  case others => rw [hr]; exact hh.others
  case allocated => rw [ha]; exact hh.allocated
  case fits =>
    intro t
    have hnone : e.Fits P t := by
      intro hl
      rw [he] at hl
      simp at hl
    rw [← hh.fits t, List.forall_mem_append, List.forall_mem_singleton]
    exact and_iff_left hnone
  case warm => rw [hf]; exact hh.warm
  case cool => rw [hf]; exact hh.cool

theorem charged_append (t : MemoryTier) (as bs : List TierAllocation) :
    charged m t (as ++ bs) = charged m t as + charged m t bs := by
  simp [charged]

theorem charged_singleton (t : MemoryTier) : charged m t [a] = m.weight t a := by
  simp [charged]

theorem placed_allocated (hp : Impl.Placed P m size 0 a m') (t : MemoryTier) :
    (m'.acct t).allocated.toNat = ((m.acct t).allocated.toNat + m.weight t a) % 2 ^ 64 := by
  have hacct : m'.acct = (m.charge a.tier (m.alignedSize a.tier a.sizeBytes a.alignment)).acct := by
    rw [hp.frame]
  rw [hacct]
  by_cases ht : a.tier = t
  · subst ht
    rw [weight_self]
    simp [charge, UInt64.toNat_add]
  · have hlt := (m.acct t).allocated.toNat_lt
    simp only [charge, update_of_ne (Ne.symm ht), weight, if_neg ht]
    rw [Nat.add_zero, Nat.mod_eq_of_lt hlt]

theorem Holds.placed {e : Request} (hh : Holds P m₀ allocs requests m)
    (hp : Impl.Placed P m size 0 a m') (hm : e.manager = m) (hsize : e.size = size)
    (he : e.landing P = some a.tier) : Holds P m₀ (allocs ++ [a]) (requests ++ [e]) m' := by
  have hweight (t : MemoryTier) : m.weight t = m₀.weight t := weight_congr hh.warm hh.cool
  have hr : m'.registry = m.registry.insert a.handle a := by
    rw [hp.frame]
    refine insertIfNew_fresh _ _ ?_
    rw [hp.handle]
    exact hh.coherent.unused
  have hnew : a.handle ∉ allocs.map (fun a ↦ a.handle) := by
    intro hmem
    obtain ⟨b, hb, heq⟩ := List.mem_map.mp hmem
    have hlive := hh.live b hb
    rw [heq, hp.handle, hh.coherent.unused] at hlive
    simp at hlive
  constructor
  case coherent => exact hp.coherent hh.coherent
  case nodup =>
    rw [List.map_append]
    refine List.nodup_append.mpr ⟨hh.nodup, by simp, fun h hmem h' hmem' heq ↦ hnew ?_⟩
    rw [List.map_singleton, List.mem_singleton] at hmem'
    rwa [← hmem', ← heq]
  case live =>
    intro b hb
    rw [hr, get_insert]
    rcases List.mem_append.mp hb with hb | hb
    · have hne : a.handle ≠ b.handle := fun heq ↦
        hnew (List.mem_map.mpr ⟨b, hb, heq.symm⟩)
      simp [hne, hh.live b hb]
    · obtain rfl := List.mem_singleton.mp hb
      simp
  case unused =>
    intro b hb
    rcases List.mem_append.mp hb with hb | hb
    · exact hh.unused b hb
    · obtain rfl := List.mem_singleton.mp hb
      rw [← hh.others _ hnew, hp.handle, hh.coherent.unused]
  case others =>
    intro h hmem
    rw [List.map_append, List.mem_append, not_or, List.map_singleton, List.mem_singleton] at hmem
    rw [hr, get_insert, if_neg (fun heq ↦ hmem.2 heq.symm), hh.others h hmem.1]
  case allocated =>
    intro t
    rw [placed_allocated hp, hh.allocated, charged_append, charged_singleton, hweight,
      Nat.mod_add_mod, Nat.add_assoc]
  case fits =>
    intro t
    rw [charged_append, charged_singleton, ← Nat.add_assoc, List.forall_mem_append, hh.fits t,
      List.forall_mem_singleton]
    have hcount := hh.allocated t
    by_cases ht : a.tier = t
    · subst ht
      have hfit : e.Fits P a.tier ↔
          (m.acct a.tier).allocated.toNat + m₀.weight a.tier a < 2 ^ 64 := by
        rw [Request.Fits, he, fitsTier, hm, hsize, ← hweight, weight_self, hp.size, hp.align]
        simp
      rw [hfit]
      constructor
      · rintro ⟨hold, hnow⟩
        rw [Nat.mod_eq_of_lt hold] at hcount
        omega
      · intro hsum
        rw [Nat.mod_eq_of_lt (by omega)] at hcount
        omega
    · have hfit : e.Fits P t := by
        intro hl
        rw [he] at hl
        exact absurd (Option.some.inj hl) ht
      simp [hfit, weight, ht]
  case warm =>
    have hwr : m'.warmRes = m.chargeRes .warm a m.warmRes := by rw [hp.frame]
    rw [hwr, chargeRes_defaultAlign, hh.warm]
  case cool =>
    have hcr : m'.coolRes = m.chargeRes .cool a m.coolRes := by rw [hp.frame]
    rw [hcr, chargeRes_defaultAlign, hh.cool]

theorem writeHost_isSome (os : Os) (p n : Nat) (src : Nat → UInt8) (q : Nat) :
    ((os.writeHost p n src).host q).isSome = (os.host q).isSome := by
  simp only [Os.writeHost, update_apply]
  split
  · rename_i hq
    simp [hq]
  · rfl

theorem copyIn_eq_some {os os' : Os} {p : Option Nat} {data : Nat → UInt8} :
    copyIn os p size data = some os' ↔ ∃ q b, p = some q ∧ os.host q = some b ∧
      size.toNat ≤ b.size ∧ os' = os.writeHost q size.toNat data := by
  simp only [copyIn, Option.bind_eq_some_iff]
  constructor
  · rintro ⟨q, rfl, b, hb, h⟩
    split at h
    · rename_i hle
      exact ⟨q, b, rfl, hb, hle, (Option.some.inj h).symm⟩
    · simp at h
  · rintro ⟨q, b, rfl, hb, hle, rfl⟩
    exact ⟨q, rfl, b, hb, if_pos hle⟩

theorem Holds.fill (hh : Holds P m₀ allocs requests s.manager) :
    Holds P m₀ allocs requests (fill size user a s).2.manager := by
  unfold Coordinator.fill
  cases user with
  | none => exact hh
  | some data =>
    dsimp only
    cases hcopy : copyIn s.manager.os a.ptr size data with
    | none => exact hh
    | some os =>
      obtain ⟨q, b, -, -, -, rfl⟩ := copyIn_eq_some.mp hcopy
      exact hh.refill _ le_rfl (writeHost_isSome _ _ _ _) rfl

theorem fill_allocs : (fill size user a s).2.allocs = s.allocs := by
  unfold fill
  cases user with
  | none => rfl
  | some data =>
    dsimp only
    cases copyIn s.manager.os a.ptr size data with
    | none => rfl
    | some os => rfl

theorem fill_requests : (fill size user a s).2.requests = s.requests := by
  unfold fill
  cases user with
  | none => rfl
  | some data =>
    dsimp only
    cases copyIn s.manager.os a.ptr size data with
    | none => rfl
    | some os => rfl

/-- `allocs` and `requests` are those of the vectors that are complete. -/
theorem Holds.stageOne (tier : MemoryTier) (size : UInt64) (user : Option (Nat → UInt8))
    (hh : Holds P m₀ (allocs ++ s.allocs) (requests ++ s.requests) s.manager) :
    Holds P m₀ (allocs ++ (stageOne P tier size user s).2.allocs)
      (requests ++ (stageOne P tier size user s).2.requests)
      (stageOne P tier size user s).2.manager := by
  rcases stageOne_cases hh.coherent tier size user with
    ⟨hl, e, l, m', hp, heq⟩ | ⟨a, m', hl, -, hp, heq⟩
  · rw [heq, ← List.append_assoc]
    exact hh.passed hp hl
  · rw [heq, fill_allocs, fill_requests]
    refine Holds.fill ?_
    change Holds P m₀ (allocs ++ (s.allocs ++ [a])) (requests ++ (s.requests ++ [_])) m'
    rw [← List.append_assoc, ← List.append_assoc]
    exact hh.placed hp rfl rfl hl

theorem stageAll_cons (tiers : Nat → MemoryTier) (i : Nat)
    (rest : List (UInt64 × Option (Nat → UInt8))) :
    stageAll P tiers i ((size, user) :: rest) s =
      if (stageOne P (tiers i) size user s).1 = .ok () then
        stageAll P tiers (i + 1) rest (stageOne P (tiers i) size user s).2
      else stageOne P (tiers i) size user s := by
  rw [stageAll]
  rcases stageOne P (tiers i) size user s with ⟨r, s'⟩
  cases r with
  | ok u => rfl
  | failed e => rfl
  | undefined => rfl
  | threw => rfl

theorem Holds.stageAll (tiers : Nat → MemoryTier) (i : Nat)
    (l : List (UInt64 × Option (Nat → UInt8)))
    (hh : Holds P m₀ (allocs ++ s.allocs) (requests ++ s.requests) s.manager) :
    Holds P m₀ (allocs ++ (stageAll P tiers i l s).2.allocs)
      (requests ++ (stageAll P tiers i l s).2.requests) (stageAll P tiers i l s).2.manager := by
  induction l generalizing i s with
  | nil => exact hh
  | cons e rest ih =>
    obtain ⟨size, user⟩ := e
    rw [stageAll_cons]
    split
    · exact ih (i + 1) (hh.stageOne (tiers i) size user)
    · exact hh.stageOne (tiers i) size user

end

section

variable {allocs : List TierAllocation} {requests : List Request}

structure Released (m : Impl) (allocs : List TierAllocation) (m' : Impl) : Prop where
  registry : ∀ h, m'.registry[h]? =
    if h ∈ allocs.map (fun a ↦ a.handle) then none else m.registry[h]?
  allocated : ∀ t, (m'.acct t).allocated.toNat = (m.acct t).allocated.toNat - charged m t allocs

theorem freed_allocated (hf : Freed P m a.handle a m') (t : MemoryTier) :
    (m'.acct t).allocated.toNat = (m.acct t).allocated.toNat - m.weight t a := by
  have hacct : m'.acct =
      (m.discharge a.tier (m.alignedSize a.tier a.sizeBytes a.alignment)).acct := by rw [hf.frame]
  rw [hacct]
  by_cases ht : a.tier = t
  · subst ht
    simp only [discharge, update_self, weight_self]
    split
    · rename_i hge
      rw [UInt64.toNat_sub_of_le _ _ hge]
    · rename_i hlt
      have hlt' := UInt64.lt_iff_toNat_lt.mp (UInt64.not_le.mp hlt)
      rw [UInt64.toNat_zero]
      omega
  · simp [discharge, update_of_ne (Ne.symm ht), weight, ht]

theorem release_released (hc : Coherent P m) (hd : (allocs.map (fun a ↦ a.handle)).Nodup)
    (hlive : ∀ a ∈ allocs, m.registry[a.handle]? = some a) :
    Released m allocs (release P allocs m) := by
  induction allocs generalizing m with
  | nil => exact ⟨fun h ↦ by simp [release], fun t ↦ by simp [release, charged]⟩
  | cons a rest ih =>
    have ha := hlive a (by simp)
    have hvalid : a.handle ≠ kInvalidTierHandle := Nat.pos_iff_ne_zero.mp (hc.fresh ha).1
    have hf := (free_spec hc ha).2
    have hstep : release P (a :: rest) m = release P rest (m.free P a.handle).2 := by
      simp [release, hvalid]
    rw [hstep]
    generalize (m.free P a.handle).2 = m₁ at hf ⊢
    rw [List.map_cons, List.nodup_cons] at hd
    have hr : m₁.registry = m.registry.erase a.handle := by rw [hf.frame]
    have hweight (t : MemoryTier) : m₁.weight t = m.weight t := by
      refine weight_congr ?_ ?_
      · have hwr : m₁.warmRes = m.dischargeRes .warm a m.warmRes := by rw [hf.frame]
        rw [hwr, dischargeRes_defaultAlign]
      · have hcr : m₁.coolRes = m.dischargeRes .cool a m.coolRes := by rw [hf.frame]
        rw [hcr, dischargeRes_defaultAlign]
    have hrest := ih (hf.coherent ha hc) hd.2 (fun b hb ↦ by
      have hne : a.handle ≠ b.handle := fun heq ↦
        hd.1 (List.mem_map.mpr ⟨b, hb, heq.symm⟩)
      rw [hr, get_erase, if_neg hne, hlive b (by simp [hb])])
    refine ⟨fun h ↦ ?_, fun t ↦ ?_⟩
    · rw [hrest.registry, hr, get_erase, List.map_cons]
      by_cases hh : a.handle = h
      · simp [hh]
      · simp [hh, Ne.symm hh]
    · rw [hrest.allocated, freed_allocated hf]
      simp only [charged, hweight, List.map_cons, List.sum_cons]
      omega

/-- The counter of a tier is back where it was, unless it wrapped and was not zero. -/
theorem back_iff {x y total : Nat} (hx : x < 2 ^ 64) (hy : y = (x + total) % 2 ^ 64) :
    y - total = x ↔ x = 0 ∨ x + total < 2 ^ 64 := by
  constructor
  · intro h
    by_contra hnot
    rw [not_or] at hnot
    have hlt : y < total ∨ y = 0 := by omega
    omega
  · rintro (rfl | h)
    · omega
    · rw [Nat.mod_eq_of_lt h] at hy
      omega

/-- The manager has the live handles and the bytes that it had. -/
def Restored (m m' : Impl) : Prop :=
  m'.registry = m.registry ∧ ∀ t, (m'.acct t).allocated = (m.acct t).allocated

theorem Holds.released_iff {allocs' : List TierAllocation} (hh : Holds P m₀ allocs requests m)
    (hperm : allocs'.Perm allocs) :
    Restored m₀ (release P allocs' m) ↔ ∀ t, (m₀.acct t).allocated = 0 ∨
      ∀ e ∈ requests, e.Fits P t := by
  have hhandles := hperm.map (fun a : TierAllocation ↦ a.handle)
  have hr := release_released hh.coherent (hhandles.nodup_iff.mpr hh.nodup)
    (fun a ha ↦ hh.live a (hperm.subset ha))
  have hreg : (release P allocs' m).registry = m₀.registry := by
    refine ExtTreeMap.ext_getElem? (fun h ↦ ?_)
    rw [hr.registry]
    split
    · rename_i hmem
      obtain ⟨b, hb, rfl⟩ := List.mem_map.mp (hhandles.subset hmem)
      exact (hh.unused b hb).symm
    · rename_i hmem
      exact hh.others h (fun hmem' ↦ hmem (hhandles.mem_iff.mpr hmem'))
  have hcharged (t : MemoryTier) : charged m t allocs' = charged m₀ t allocs := by
    rw [charged, charged, weight_congr hh.warm hh.cool]
    exact (hperm.map _).sum_eq
  rw [Restored, and_iff_right hreg]
  refine forall_congr' (fun t ↦ ?_)
  rw [← UInt64.toNat_inj, hr.allocated, hcharged, ← UInt64.toNat_inj, UInt64.toNat_zero, hh.fits t]
  exact back_iff (m₀.acct t).allocated.toNat_lt (hh.allocated t)

end

section

variable {backend : Backend F} {kernel : CompiledKernel F}
  {userInputs userOutputs : List (Option (Nat → UInt8))}

def given (kernel : CompiledKernel F) (userInputs : List (Option (Nat → UInt8))) :
    List (UInt64 × Option (Nat → UInt8)) :=
  (kernel.inputs.map TensorDesc.sizeBytes).zip userInputs

def wanted (kernel : CompiledKernel F) : List (UInt64 × Option (Nat → UInt8)) :=
  kernel.outputs.map (fun d ↦ (d.sizeBytes, none))

inductive Reaches (P : Platform) (backend : Backend F) (kernel : CompiledKernel F) (m : Impl)
    (userInputs userOutputs : List (Option (Nat → UInt8))) : Report → Prop
  | refused : Reaches P backend kernel m userInputs userOutputs
      ⟨.failed .invalidArgument, m, userOutputs, [], [], []⟩
  | inputs (r : Outcome CerberusError Unit) (ins : Staging) : none ∉ userInputs →
      stageAll P kernel.pickInputTier 0 (given kernel userInputs) { manager := m } = (r, ins) →
      r ≠ .ok () → Reaches P backend kernel m userInputs userOutputs
        ⟨r, release P ins.allocs ins.manager, userOutputs, ins.requests, [], ins.moments⟩
  | outputs (r : Outcome CerberusError Unit) (ins outs : Staging) : none ∉ userInputs →
      stageAll P kernel.pickInputTier 0 (given kernel userInputs) { manager := m } =
        (.ok (), ins) →
      stageAll P kernel.pickOutputTier 0 (wanted kernel) { manager := ins.manager } = (r, outs) →
      r ≠ .ok () → Reaches P backend kernel m userInputs userOutputs
        ⟨r, release P ins.allocs (release P outs.allocs outs.manager), userOutputs, ins.requests,
          outs.requests, ins.moments⟩
  | dispatched (users : List (Nat → UInt8)) (ins outs : Staging) : none ∉ userInputs →
      userOutputs = users.map some →
      stageAll P kernel.pickInputTier 0 (given kernel userInputs) { manager := m } =
        (.ok (), ins) →
      stageAll P kernel.pickOutputTier 0 (wanted kernel) { manager := ins.manager } =
        (.ok (), outs) →
      Reaches P backend kernel m userInputs userOutputs (dispatch P backend kernel users ins outs)

theorem none_notMem_of_any {l : List (Option (Nat → UInt8))} (h : ¬l.any Option.isNone) :
    none ∉ l := by
  intro hmem
  exact h (List.any_eq_true.mpr ⟨none, hmem, rfl⟩)

theorem eq_map_some {l : List (Option (Nat → UInt8))} (h : none ∉ l) :
    l = (l.filterMap id).map some := by
  induction l with
  | nil => rfl
  | cons x l ih =>
    obtain ⟨hx, hl⟩ := List.mem_cons.not.mp h |> not_or.mp
    cases x with
    | none => exact absurd rfl hx
    | some data => simpa using ih hl

theorem run_reaches (P : Platform) (backend : Backend F) (kernel : CompiledKernel F) (m : Impl)
    (userInputs userOutputs : List (Option (Nat → UInt8))) :
    Reaches P backend kernel m userInputs userOutputs
      (run P backend kernel m userInputs userOutputs) := by
  unfold run
  dsimp only
  split
  · exact .refused
  split
  · exact .refused
  split
  · exact .refused
  split
  · exact .refused
  rename_i hin hout
  have hin' := none_notMem_of_any hin
  split
  · rename_i ins hins
    split
    · rename_i outs houts
      exact .dispatched _ ins outs hin' (eq_map_some (none_notMem_of_any hout)) hins houts
    · rename_i r outs hne houts
      exact .outputs r ins outs hin' hins houts hne
  · rename_i r ins hne hins
    exact .inputs r ins hin' hins hne

theorem rewrite_isSome (os : Os) (bytes : Nat → Nat → UInt8) (p : Nat) :
    ((rewrite os bytes).host p).isSome = (os.host p).isSome := by
  simp [rewrite]

/-- However the backend ends, both vectors are destroyed, and the caller's memory changes only if
the call succeeds. -/
theorem dispatch_frame (P : Platform) (backend : Backend F) (kernel : CompiledKernel F)
    (users : List (Nat → UInt8)) (ins outs : Staging) :
    ∃ bytes, (dispatch P backend kernel users ins outs).manager =
      release P ins.allocs (release P outs.allocs
        { outs.manager with os := rewrite outs.manager.os bytes }) ∧
    ((dispatch P backend kernel users ins outs).outcome ≠ .ok () →
      (dispatch P backend kernel users ins outs).outputs = users.map some) ∧
    (dispatch P backend kernel users ins outs).inputRequests = ins.requests ∧
    (dispatch P backend kernel users ins outs).outputRequests = outs.requests ∧
    (dispatch P backend kernel users ins outs).moments =
      ins.moments ++ [⟨outs.manager.os, ins.buffers ++ outs.buffers⟩] := by
  unfold dispatch
  dsimp only
  generalize backend kernel (ins.buffers.map (fun b ↦ b.ptr)) (outs.buffers.map (fun b ↦ b.ptr))
    outs.manager.os = called
  obtain ⟨outcome, bytes⟩ := called
  refine ⟨bytes, ?_⟩
  dsimp only
  cases outcome with
  | failed error => exact ⟨rfl, fun _ ↦ rfl, rfl, rfl, rfl⟩
  | undefined => exact ⟨rfl, fun _ ↦ rfl, rfl, rfl, rfl⟩
  | threw => exact ⟨rfl, fun _ ↦ rfl, rfl, rfl, rfl⟩
  | ok u =>
    dsimp only
    split
    · exact ⟨rfl, fun h ↦ absurd rfl h, rfl, rfl, rfl⟩
    · exact ⟨rfl, fun _ ↦ rfl, rfl, rfl, rfl⟩

theorem release_release (allocs allocs' : List TierAllocation) :
    release P allocs (release P allocs' m) = release P (allocs' ++ allocs) m := by
  rw [release, release, release, List.foldl_append]

theorem run_outputs (h : (run P backend kernel m userInputs userOutputs).outcome ≠ .ok ()) :
    (run P backend kernel m userInputs userOutputs).outputs = userOutputs := by
  have hreaches := run_reaches P backend kernel m userInputs userOutputs
  generalize run P backend kernel m userInputs userOutputs = report at hreaches h
  cases hreaches with
  | refused => rfl
  | inputs r ins hin hins hne => rfl
  | outputs r ins outs hin hins houts hne => rfl
  | dispatched users ins outs hin husers hins houts =>
    obtain ⟨bytes, -, houtputs, -⟩ := dispatch_frame P backend kernel users ins outs
    rw [houtputs h, husers]

theorem run_restored_iff (hc : Coherent P m) :
    Restored m (run P backend kernel m userInputs userOutputs).manager ↔
      ∀ t, (m.acct t).allocated = 0 ∨
        ∀ e ∈ (run P backend kernel m userInputs userOutputs).inputRequests ++
          (run P backend kernel m userInputs userOutputs).outputRequests, e.Fits P t := by
  have hreaches := run_reaches P backend kernel m userInputs userOutputs
  generalize run P backend kernel m userInputs userOutputs = report at hreaches
  have hstart : Holds P m ([] ++ (Staging.mk m [] [] [] []).allocs)
      ([] ++ (Staging.mk m [] [] [] []).requests) (Staging.mk m [] [] [] []).manager := .start hc
  have hinputs := hstart.stageAll kernel.pickInputTier 0 (given kernel userInputs)
  have houtputs {ins outs : Staging} {r : Outcome CerberusError Unit}
      (hins : stageAll P kernel.pickInputTier 0 (given kernel userInputs) { manager := m } =
        (.ok (), ins))
      (houts : stageAll P kernel.pickOutputTier 0 (wanted kernel) { manager := ins.manager } =
        (r, outs)) :
      Holds P m (ins.allocs ++ outs.allocs) (ins.requests ++ outs.requests) outs.manager := by
    rw [hins] at hinputs
    have hnext : Holds P m (ins.allocs ++ (Staging.mk ins.manager [] [] [] []).allocs)
        (ins.requests ++ (Staging.mk ins.manager [] [] [] []).requests)
        (Staging.mk ins.manager [] [] [] []).manager := by
      rw [List.append_nil, List.append_nil]
      exact hinputs
    have hdone := hnext.stageAll kernel.pickOutputTier 0 (wanted kernel)
    rwa [houts] at hdone
  cases hreaches with
  | refused => simp [Restored]
  | inputs r ins hin hins hne =>
    rw [hins] at hinputs
    rw [List.append_nil]
    exact hinputs.released_iff (.refl _)
  | outputs r ins outs hin hins houts hne =>
    rw [release_release]
    exact (houtputs hins houts).released_iff List.perm_append_comm
  | dispatched users ins outs hin husers hins houts =>
    obtain ⟨bytes, hmanager, -, hreqs, hreqs', -⟩ := dispatch_frame P backend kernel users ins outs
    rw [hmanager, hreqs, hreqs', release_release]
    refine Holds.released_iff ?_ List.perm_append_comm
    exact (houtputs hins houts).refill _ le_rfl (rewrite_isSome _ _) rfl

def Report.Clean (m : Impl) (userOutputs : List (Option (Nat → UInt8))) (r : Report) : Prop :=
  Restored m r.manager ∧ (r.outcome ≠ .ok () → r.outputs = userOutputs)

/-- A call gives back all it took exactly when none of its requests wraps the counter of its tier,
unless that counter was at zero. -/
theorem staging_released_iff {cfg : TieredMemoryConfig} {hook : Option MigrationComputeHook}
    {tr : List (Impl × Call)} (hr : Run (Step P) (construct P cfg hook) tr m) :
    (run P backend kernel m userInputs userOutputs).Clean m userOutputs ↔
      ∀ t, (m.acct t).allocated = 0 ∨
        ∀ e ∈ (run P backend kernel m userInputs userOutputs).inputRequests ++
          (run P backend kernel m userInputs userOutputs).outputRequests, e.Fits P t := by
  rw [Report.Clean, run_restored_iff (run_coherent hr).2]
  exact and_iff_left run_outputs

end

instance (P : Platform) (t : MemoryTier) (e : Request) : Decidable (e.Fits P t) :=
  inferInstanceAs (Decidable (_ → _))

def copyGraph (input output : Int) : KernelGraph Int where
  nodes := [scalarNode .relu ["x"] "y"]
  graphInputs := [{ name := lit "x", shape := [input] }]
  graphOutputs := [{ name := lit "y", shape := [output], dtype := .u8 }]

def refusing : Backend Int := fun _ _ _ _ ↦ (.failed (lit "no device"), fun _ _ ↦ 0)

def attempt (m : Impl) (input output : Int) : Report :=
  run plainHost refusing (compile (copyGraph input output)) m [some (fun _ ↦ 0)] [some (fun _ ↦ 0)]

theorem staging_released_iff_busy : ∃ tr m, Run (Step plainHost) (construct plainHost {}) tr m ∧
    tr.map (fun e ↦ e.2) = [.allocate 100 .cool 0] ∧ (attempt m 1 8).inputRequests ≠ [] ∧
    (attempt m 1 8).outputRequests ≠ [] ∧ (attempt m 1 8).outcome = .failed .backendExecuteFailed ∧
    (attempt m 1 8).Clean m [some (fun _ ↦ 0)] := by
  have hr : Run (Step plainHost) (construct plainHost {}) _ _ :=
    .cons (step_allocate 100 .cool 0) (.nil _)
  refine ⟨_, _, hr, rfl, ?_, ?_, ?_, (staging_released_iff hr).mpr ?_⟩
  · decide
  · decide
  · decide
  · intro t
    cases t <;> decide

/-- The spill file of the output wraps the counter of the Cold tier, which then stays at zero. -/
theorem wrapped_counter_lost :
    ∃ tr m, Run (Step plainHost) (construct plainHost { coldCapacityBytes := 0 }) tr m ∧
      tr.map (fun e ↦ e.2) = [.allocate 9223372036854775807 .cold 0] ∧
      (m.acct .cold).allocated = 9223372036854775808 ∧
      (attempt m 1 9223372036854775807).outcome = .failed .backendExecuteFailed ∧
      ((attempt m 1 9223372036854775807).manager.acct .cold).allocated = 0 ∧
      ¬(attempt m 1 9223372036854775807).Clean m [some (fun _ ↦ 0)] := by
  have hlost (m : Impl) (hbefore : (m.acct .cold).allocated = 9223372036854775808)
      (hafter : ((attempt m 1 9223372036854775807).manager.acct .cold).allocated = 0) :
      ¬(attempt m 1 9223372036854775807).Clean m [some (fun _ ↦ 0)] := by
    intro hclean
    have hcold := hclean.1.2 .cold
    rw [hbefore, hafter] at hcold
    exact absurd hcold (by decide)
  refine ⟨_, _, .cons (step_allocate 9223372036854775807 .cold 0) (.nil _), rfl, ?_, ?_, ?_,
    hlost _ ?_ ?_⟩
  · decide
  · decide
  · decide
  · decide
  · decide

end Cerberus.Graph.Coordinator
