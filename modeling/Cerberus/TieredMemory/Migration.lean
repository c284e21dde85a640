import Cerberus.TieredMemory.Copy

namespace Cerberus.TieredMemory

open Std Function Foundation.FiniteMap Foundation.Ownership

/-- A memory gives one block back and gains another one, at a new address. -/
def Replaces (lo hi : Nat) (mem mem' : Nat → Option Buffer) (old new : Option Nat) : Prop :=
  ∃ mem₁, Shrinks mem mem₁ old ∧ Grows lo hi mem₁ mem' new

theorem Grows.replaces {lo hi hi' : Nat} {mem mem₁ mem' : Nat → Option Buffer}
    {old new : Option Nat} (hg : Grows lo hi mem mem₁ new) (hs : Shrinks mem₁ mem' old)
    (hold : ∀ p, old = some p → p < lo) (hle : hi ≤ hi') : Replaces lo hi' mem mem' old new := by
  cases old with
  | none =>
    rw [Shrinks] at hs
    exact ⟨mem, rfl, hs ▸ hg.refill (refills_self _ _) hle⟩
  | some p =>
    rw [Shrinks] at hs
    refine ⟨update mem p none, rfl, ?_⟩
    cases new with
    | none =>
      rw [Grows] at hg
      rw [Grows, hs, hg]
    | some q =>
      obtain ⟨hlo, hhi, b, rfl⟩ := hg
      have hne : p ≠ q := by
        have := hold p rfl
        omega
      exact ⟨hlo, hhi.trans_le hle, b, hs.trans (update_comm hne.symm _ _ _)⟩

theorem Grows.old {lo hi : Nat} {mem mem' : Nat → Option Buffer} {p : Option Nat} {q : Nat}
    (hg : Grows lo hi mem mem' p) (hq : q < lo) : mem' q = mem q := by
  cases p with
  | none => rw [hg]
  | some p =>
    obtain ⟨hlo, _, b, rfl⟩ := hg
    exact update_of_ne (by omega) _ _

theorem Grows.live {lo hi : Nat} {mem mem' : Nat → Option Buffer} {p : Option Nat} {q : Nat}
    (hg : Grows lo hi mem mem' p) (hq : p = some q) : lo ≤ q ∧ (mem' q).isSome := by
  subst hq
  obtain ⟨hlo, _, b, rfl⟩ := hg
  simp [hlo]

theorem Shrinks.other {mem mem' : Nat → Option Buffer} {p : Option Nat} {q : Nat}
    (hs : Shrinks mem mem' p) (hq : p ≠ some q) : mem' q = mem q := by
  cases p with
  | none => rw [hs]
  | some p =>
    rw [hs]
    exact update_of_ne (fun he ↦ hq (by rw [he])) _ _

theorem Replaces.other {lo hi : Nat} {mem mem' : Nat → Option Buffer} {old new : Option Nat}
    {p : Nat} (hr : Replaces lo hi mem mem' old new) (hold : old ≠ some p) (hp : p < lo) :
    mem' p = mem p := by
  obtain ⟨mem₁, hs, hg⟩ := hr
  rw [hg.old hp, hs.other hold]

namespace Impl

variable {P : Platform} {m m' m₁ m₂ : Impl} {h : Nat} {a src dst : TierAllocation}
  {size align : UInt64}

/-- What a migration that runs to its end does to the manager: the block `src` of the
handle is replaced by `dst`, which was placed under the next handle. -/
structure Migrated (P : Platform) (m : Impl) (h : Nat) (src dst : TierAllocation) (m' : Impl) :
    Prop where
  handle : dst.handle = m.nextHandle
  size : dst.sizeBytes = src.sizeBytes
  align : dst.alignment = m.effectiveAlign dst.tier src.alignment
  room : m.admits dst.tier src.sizeBytes src.alignment = true
  shaped : dst.Shaped
  hip : dst.tier = .hot → P.hasHip = true
  frame : m' = { m with
    registry := m.registry.insert h { dst with handle := h }
    nextHandle := m.nextHandle + 1
    acct := (((m.charge dst.tier (m.alignedSize dst.tier dst.sizeBytes dst.alignment)).announce h
      src.tier dst.tier).discharge src.tier
        (m.alignedSize src.tier src.sizeBytes src.alignment)).acct
    lru := update m.lru src.tier ((m.lru src.tier).filter (· ≠ h))
    coldFiles := (if dst.tier = .cold then
      m.coldFiles.insert m.nextHandle (m.spillPath m.nextHandle) else m.coldFiles).erase h
    warmRes := m.dischargeRes .warm src (m.chargeRes .warm dst m.warmRes)
    coolRes := m.dischargeRes .cool src (m.chargeRes .cool dst m.coolRes)
    migrations := (h, src.tier, dst.tier) :: m.migrations
    os := m'.os }
  serial : m.os.serial ≤ m'.os.serial
  host : Replaces m.os.serial m'.os.serial m.os.host m'.os.host src.ptr dst.ptr
  device : Replaces m.os.serial m'.os.serial m.os.device m'.os.device src.devicePtr dst.devicePtr
  disk : dst.tier ≠ .cold → m'.os.disk = m.diskWithout P h
  content : PlainCopies P m → src.tier ≠ .cold → ∀ data,
    m.Holds src src.sizeBytes.toNat data → m'.Holds dst src.sizeBytes.toNat data

/-- The manager between the registry swap of a migration and the release of the old block. -/
def swapped (m : Impl) (h : Nat) (src dst : TierAllocation) (os : Os) : Impl :=
  { m with
    registry := m.registry.insert h { dst with handle := h }
    nextHandle := m.nextHandle + 1
    acct := ((m.charge dst.tier (m.alignedSize dst.tier dst.sizeBytes dst.alignment)).announce h
      src.tier dst.tier).acct
    lru := update m.lru src.tier ((m.lru src.tier).filter (· ≠ h))
    coldFiles := if dst.tier = .cold then
      m.coldFiles.insert m.nextHandle (m.spillPath m.nextHandle) else m.coldFiles
    warmRes := m.chargeRes .warm dst m.warmRes
    coolRes := m.chargeRes .cool dst m.coolRes
    migrations := (h, src.tier, dst.tier) :: m.migrations
    os := os }

theorem Coherent.ne_next (hc : Coherent P m) (ha : m.registry[h]? = some a) : h ≠ m.nextHandle :=
  (hc.fresh ha).2.ne

theorem filter_update_unlisted {lru : MemoryTier → List Nat} {n h : Nat} {s d : MemoryTier}
    (hn : ∀ t, n ∉ lru t) (hne : h ≠ n) :
    (let l := update lru d (n :: lru d)
     let l := update l s ((l s).filter (· ≠ h))
     update l d ((l d).filter (· ≠ n))) = update lru s ((lru s).filter (· ≠ h)) := by
  have hkeep (t : MemoryTier) : (lru t).filter (· ≠ n) = lru t := by
    rw [List.filter_eq_self]
    intro x hx
    have : x ≠ n := fun he ↦ hn t (he ▸ hx)
    simpa using this
  funext t
  by_cases hsd : s = d
  · subst hsd
    by_cases ht : t = s
    · subst ht
      have hcomm : ((lru t).filter (· ≠ h)).filter (· ≠ n) = (lru t).filter (· ≠ h) := by
        rw [List.filter_comm, hkeep]
      simpa [List.filter_cons, hne.symm] using hcomm
    · simp [update_of_ne ht]
  · by_cases hts : t = s
    · subst hts
      simp [update_of_ne hsd]
    · by_cases htd : t = d
      · subst htd
        have := hkeep t
        simpa [update_of_ne hts, List.filter_cons] using this
      · simp [update_of_ne hts, update_of_ne htd]

theorem swapEntry_spec (hc : Coherent P m) (ha : m.registry[h]? = some src)
    (hp : Placed P m size align dst m₁) (hcp : Copied P m₁ src dst m₂) :
    (m₂.announce h src.tier dst.tier).swapEntry h dst = (src, m.swapped h src dst m₂.os) := by
  have hne := hc.ne_next ha
  have hreg : m.registry.insertIfNew dst.handle dst = m.registry.insert m.nextHandle dst := by
    rw [hp.handle]
    exact insertIfNew_fresh _ _ hc.unused
  obtain ⟨os₁, rfl⟩ : ∃ os, m₁ = _ := ⟨m₁.os, hp.frame⟩
  obtain ⟨os₂, rfl⟩ : ∃ os, m₂ = _ := ⟨m₂.os, hcp.frame⟩
  have hold : (m.registry.insertIfNew dst.handle dst)[h]? = some src := by
    rw [hreg, get_insert, if_neg hne.symm, ha]
  have hnew : ((m.registry.insertIfNew dst.handle dst).insert h { dst with handle := h }).erase
      dst.handle = m.registry.insert h { dst with handle := h } := by
    rw [hreg, hp.handle]
    apply ExtTreeMap.ext_getElem?
    intro k
    rw [get_erase, get_insert, get_insert, get_insert]
    by_cases hk : m.nextHandle = k
    · subst hk
      simp [hne, hc.unused]
    · simp [hk]
  have hlru := filter_update_unlisted (s := src.tier) (d := dst.tier) hc.unlisted hne
  simp only [swapEntry, announce, hold, Option.getD_some, hnew, swapped]
  rw [hp.handle]
  dsimp only at hlru
  simp only [hlru]

theorem Coherent.ptr_below (hc : Coherent P m) (ha : m.registry[h]? = some a) {p : Nat}
    (hp : a.ptr = some p) : p < m.os.serial :=
  hc.hostBelow (hc.host.live (k := h) (by simp [ref, ha, hp]))

theorem Coherent.devicePtr_below (hc : Coherent P m) (ha : m.registry[h]? = some a) {p : Nat}
    (hp : a.devicePtr = some p) : p < m.os.serial :=
  hc.deviceBelow (hc.device.live (k := h) (by simp [ref, ha, hp]))

theorem Coherent.live (hc : Coherent P m) (ha : m.registry[h]? = some a) : m.Live a :=
  ⟨fun _ hp ↦ hc.host.live (k := h) (by simp [ref, ha, hp]),
    fun _ hp ↦ hc.device.live (k := h) (by simp [ref, ha, hp])⟩

theorem Placed.holds (hp : Placed P m size align dst m₁) (hc : Coherent P m)
    (ha : m.registry[h]? = some a) {n : Nat} {data : Nat → UInt8} (hd : m.Holds a n data) :
    m₁.Holds a n data := by
  refine ⟨fun p hp' ↦ ?_, fun p hp' ↦ ?_⟩
  · rw [Grows.old hp.host (hc.ptr_below ha hp')]
    exact hd.1 p hp'
  · rw [Grows.old hp.device (hc.devicePtr_below ha hp')]
    exact hd.2 p hp'

theorem Placed.hookThrows_eq (hp : Placed P m size align dst m₁) (hc : Coherent P m)
    (ha : m.registry[h]? = some src) {t : MemoryTier} :
    m₁.hookThrows src t = m.hookThrows src t := by
  have hk : m₁.computeHook = m.computeHook := by rw [hp.frame]
  cases hsp : src.ptr with
  | none => rw [hookThrows_device hsp, hookThrows_device hsp]
  | some p =>
    have hb : m₁.os.hostBytes p = m.os.hostBytes p := by
      simp only [Os.hostBytes, Grows.old hp.host (hc.ptr_below ha hsp)]
    simp only [hookThrows, hk, hsp]
    cases m.computeHook <;> cases t <;> simp only [hb]

theorem swapped_alignedSize {os : Os} (t : MemoryTier) (size align : UInt64) :
    (m.swapped h src dst os).alignedSize t size align = m.alignedSize t size align :=
  alignedSize_congr chargeRes_defaultAlign chargeRes_defaultAlign

theorem swapped_dischargeRes {os : Os} (t : MemoryTier) (r : PmrResource) :
    (m.swapped h src dst os).dischargeRes t src r = m.dischargeRes t src r := by
  simp only [dischargeRes, swapped_alignedSize]

theorem migrated_of_release (hc : Coherent P m) (ha : m.registry[h]? = some src)
    (hp : Placed P m src.sizeBytes src.alignment dst m₁) (hcp : Copied P m₁ src dst m₂)
    (hrel : src.tier ≠ .cold ∧ Deallocated (m.swapped h src dst m₂.os) src m' ∨
      src.tier = .cold ∧ SpillErased P (m.swapped h src dst m₂.os) h m') :
    Migrated P m h src dst (m'.settle src.tier src) := by
  have hne := hc.ne_next ha
  have hsrc := hc.shaped ha
  have hfile : (m.swapped h src dst m₂.os).coldFiles[h]? = m.coldFiles[h]? := by
    simp only [swapped]
    split
    · rw [get_insert, if_neg hne.symm]
    · rfl
  have hser := hp.serial.trans hcp.serial
  have hhost := hp.host.refill hcp.host hcp.serial
  have hdev := hp.device.refill hcp.device hcp.serial
  have hold : ∀ p, src.ptr = some p → p < m.os.serial := fun p ↦ hc.ptr_below ha
  have holdv : ∀ p, src.devicePtr = some p → p < m.os.serial := fun p ↦ hc.devicePtr_below ha
  have hdisk (hd : dst.tier ≠ .cold) : m₂.os.disk = m.os.disk := by
    rw [hcp.disk hd, hp.disk, if_neg hd]
  have hmove : m₁.Live dst := ⟨fun p h ↦ (Grows.live hp.host h).2, fun p h ↦ (Grows.live hp.device h).2⟩
  have hplain (hpl : PlainCopies P m) : PlainCopies P m₁ := ⟨by rw [hp.frame]; exact hpl.noHook, hpl.hip⟩
  have hcont {os : Os} (hs : Shrinks m₂.os.host os.host src.ptr)
      (hv : Shrinks m₂.os.device os.device src.devicePtr) (hpl : PlainCopies P m)
      (htc : src.tier ≠ .cold) (data : Nat → UInt8) (hd : m.Holds src src.sizeBytes.toNat data) :
      Impl.Holds { m with os := os } dst src.sizeBytes.toNat data := by
    have h₂ := hcp.content (hplain hpl) htc hmove data (hp.holds hc ha hd)
    refine ⟨fun p hq ↦ ?_, fun p hq ↦ ?_⟩
    · rw [hs.other fun he ↦ by have := hold p he; have := (Grows.live hhost hq).1; omega]
      exact h₂.1 p hq
    · rw [hv.other fun he ↦ by have := holdv p he; have := (Grows.live hdev hq).1; omega]
      exact h₂.2 p hq
  rcases hrel with ⟨htc, hr⟩ | ⟨htc, hr⟩
  · obtain ⟨os, rfl⟩ : ∃ os, m' = _ := ⟨m'.os, hr.frame⟩
    have hnf := hc.not_filed ha htc
    refine ⟨hp.handle, hp.size, hp.align, hp.room, hp.shaped, hp.hip, ?_, hser.trans hr.serial,
      Grows.replaces hhost hr.host hold hr.serial, Grows.replaces hdev hr.device holdv hr.serial,
      fun hd ↦ ?_, hcont hr.host hr.device⟩
    · have hcf : (if dst.tier = .cold then m.coldFiles.insert m.nextHandle (m.spillPath m.nextHandle)
          else m.coldFiles).erase h = (m.swapped h src dst m₂.os).coldFiles :=
        erase_absent (hfile.trans hnf)
      rw [hcf]
      simp only [settle, swapped_dischargeRes]
      rw [alignedSize_congr (m := m) (by simp [swapped]) (by simp [swapped])]
      rfl
    · rw [diskWithout_absent hnf]
      exact hr.disk.trans (hdisk hd)
  · obtain ⟨os, rfl⟩ : ∃ os, m' = _ := ⟨m'.os, hr.frame⟩
    obtain ⟨hsp, hsv⟩ : src.ptr = none ∧ src.devicePtr = none := by
      simpa only [TierAllocation.Shaped, htc] using hsrc
    have hsh : Shrinks m₂.os.host os.host src.ptr := by rw [hsp]; exact hr.host
    have hsd : Shrinks m₂.os.device os.device src.devicePtr := by rw [hsv]; exact hr.device
    refine ⟨hp.handle, hp.size, hp.align, hp.room, hp.shaped, hp.hip, ?_, hser.trans hr.serial,
      hhost.replaces hsh hold hr.serial, hdev.replaces hsd holdv hr.serial,
      fun hd ↦ ?_, fun _ hn ↦ absurd htc hn⟩
    · rw [dischargeRes_other (by simp [htc]), dischargeRes_other (by simp [htc])]
      simp only [settle]
      rw [alignedSize_congr (m := m) (by simp [swapped]) (by simp [swapped])]
      rfl
    · refine hr.disk.trans ?_
      simp only [diskWithout, hfile]
      rw [← hdisk hd]
      rfl

theorem landing_mem {t : MemoryTier} {ts : List MemoryTier} {n : Nat}
    (hl : m.landing P size align ts n = some t) : t ∈ ts := by
  induction ts generalizing n with
  | nil => simp [landing] at hl
  | cons t' ts ih =>
    simp only [landing] at hl
    split at hl
    · simp [Option.some.inj hl]
    · exact List.mem_cons_of_mem _ (ih hl)

/-- A request never ends in a hotter tier than the one asked for. -/
theorem landingTier_index {t target : MemoryTier}
    (hl : m.landingTier P size target align = some t) : target.index ≤ t.index := by
  unfold landingTier at hl
  split at hl
  · simp at hl
  · have hmem := landing_mem hl
    revert hmem
    cases target <;> cases t <;> decide

/-- What an attempt to move the block `src` to the tier `target` comes to: no tier takes
it, the compute hook throws and the new block stays under its temporary handle, or the
migration runs to its end. -/
inductive Moved (P : Platform) (m : Impl) (h : Nat) (src : TierAllocation) (target : MemoryTier)
    (m' : Impl) : Prop
  | passed : m.landingTier P src.sizeBytes target src.alignment = none →
      Passed m (m.littersSpill P src.sizeBytes target src.alignment) m' → Moved P m h src target m'
  | aborted (dst : TierAllocation) :
      m.landingTier P src.sizeBytes target src.alignment = some dst.tier →
      m.hookThrows src dst.tier = true →
      Placed P m src.sizeBytes src.alignment dst m' → Moved P m h src target m'
  | migrated (dst : TierAllocation) :
      m.landingTier P src.sizeBytes target src.alignment = some dst.tier →
      m.hookThrows src dst.tier = false →
      Migrated P m h src dst m' → Moved P m h src target m'

inductive Ended (P : Platform) (m : Impl) (h : Nat) (src : TierAllocation) (target : MemoryTier) :
    Except Abort TierAllocation × Impl → Prop
  | passed {m' : Impl} : m.landingTier P src.sizeBytes target src.alignment = none →
      Passed m (m.littersSpill P src.sizeBytes target src.alignment) m' →
      Ended P m h src target (.error (.error .migrationFailed), m')
  | aborted {m' : Impl} (dst : TierAllocation) :
      m.landingTier P src.sizeBytes target src.alignment = some dst.tier →
      m.hookThrows src dst.tier = true →
      Placed P m src.sizeBytes src.alignment dst m' →
      Ended P m h src target (.error .hookThrew, m')
  | migrated {m' : Impl} (dst : TierAllocation) :
      m.landingTier P src.sizeBytes target src.alignment = some dst.tier →
      m.hookThrows src dst.tier = false →
      Migrated P m h src dst m' → Ended P m h src target (.ok { dst with handle := h }, m')

theorem Ended.moved {target : MemoryTier} {r : Except Abort TierAllocation × Impl}
    (he : Ended P m h src target r) : Moved P m h src target r.2 := by
  cases he with
  | passed hl hp => exact .passed hl hp
  | aborted dst hl ht hp => exact .aborted dst hl ht hp
  | migrated dst hl ht hg => exact .migrated dst hl ht hg

theorem Migrated.registered (hg : Migrated P m h src dst m') :
    m'.registry[h]? = some { dst with handle := h } := by
  rw [hg.frame]
  simp

theorem Migrated.ended {target : MemoryTier} (hg : Migrated P m h src dst m')
    (hl : m.landingTier P src.sizeBytes target src.alignment = some dst.tier)
    (ht : m.hookThrows src dst.tier = false) : Ended P m h src target (m'.answer h, m') := by
  have ha : m'.answer h = .ok { dst with handle := h } := by
    simp only [answer, query, hg.registered]
  rw [ha]
  exact .migrated dst hl ht hg

/-- In `promote` too a block with an address is released as such. -/
theorem releaseUp_addressed (hs : a.Shaped) (ht : a.tier ≠ .cold) :
    m.releaseUp P h a = m.deallocate P a := by
  rcases hs.cases with ⟨p, hp, _, ht' | ht'⟩ | ⟨_, ht', _⟩ | ⟨ht', _⟩
  · simp only [releaseUp, ht', hp]
  · simp only [releaseUp, ht', hp]
  · simp only [releaseUp, ht']
  · exact absurd ht' ht

theorem promote_ended (hc : Coherent P m) (ha : m.registry[h]? = some src)
    (hne : src.tier ≠ .hot) : Ended P m h src src.tier.hotter (m.promote P h) := by
  unfold promote
  simp only [ha, if_neg hne]
  cases hl : m.landingTier P src.sizeBytes src.tier.hotter src.alignment with
  | none =>
    obtain ⟨⟨e, he⟩, hp⟩ := allocate_passed hl
    rw [← Prod.mk.eta (p := m.allocate P _ _ _), he]
    exact .passed hl hp
  | some t =>
    obtain ⟨dst, hd, rfl, _, hp⟩ := allocate_placed hl
    rw [← Prod.mk.eta (p := m.allocate P _ _ _), hd]
    generalize (m.allocate P src.sizeBytes src.tier.hotter src.alignment).2 = m₁ at hp ⊢
    rcases copyUp_spec (P := P) (m := m₁) (h := h) (hc.shaped ha) hp.shaped hne hp.hip with
      ⟨he, hk⟩ | ⟨m₂, he, hk, hcp⟩
    · simp only [he]
      exact .aborted dst hl (hp.hookThrows_eq hc ha ▸ hk) hp
    · simp only [he, swapEntry_spec hc ha hp hcp]
      refine (migrated_of_release hc ha hp hcp ?_).ended hl (hp.hookThrows_eq hc ha ▸ hk)
      by_cases htc : src.tier = .cold
      · refine .inr ⟨htc, ?_⟩
        simp only [releaseUp, htc]
        exact eraseSpill_spec P _ h
      · refine .inl ⟨htc, ?_⟩
        rw [releaseUp_addressed (hc.shaped ha) htc]
        exact deallocate_spec (hc.shaped ha) (hc.hip ha)

theorem demote_ended (hc : Coherent P m) (ha : m.registry[h]? = some src)
    (hne : src.tier ≠ .cold) (hav : m.tierAvailable src.tier.colder = true) :
    Ended P m h src src.tier.colder (m.demote P h) := by
  unfold demote
  simp only [ha, if_neg hne, hav, Bool.not_true, Bool.false_eq_true, ↓reduceIte]
  cases hl : m.landingTier P src.sizeBytes src.tier.colder src.alignment with
  | none =>
    obtain ⟨⟨e, he⟩, hp⟩ := allocate_passed hl
    rw [← Prod.mk.eta (p := m.allocate P _ _ _), he]
    exact .passed hl hp
  | some t =>
    obtain ⟨dst, hd, rfl, _, hp⟩ := allocate_placed hl
    have hidx := landingTier_index hl
    rw [← Prod.mk.eta (p := m.allocate P _ _ _), hd]
    generalize (m.allocate P src.sizeBytes src.tier.colder src.alignment).2 = m₁ at hp ⊢
    rcases copyDown_spec (P := P) (m := m₁) (hc.shaped ha) hp.shaped hne (hc.hip ha) hidx with
      ⟨he, hk⟩ | ⟨m₂, he, hk, hcp⟩
    · simp only [he]
      exact .aborted dst hl (hp.hookThrows_eq hc ha ▸ hk) hp
    · simp only [he, swapEntry_spec hc ha hp hcp]
      refine (migrated_of_release hc ha hp hcp (.inl ⟨hne, ?_⟩)).ended hl
        (hp.hookThrows_eq hc ha ▸ hk)
      exact deallocate_spec (hc.shaped ha) (hc.hip ha)

/-- The block a call of `promote` tries to move, and the tier it asks for. -/
def promoteRequest (m : Impl) (h : Nat) : Option (TierAllocation × MemoryTier) :=
  match m.registry[h]? with
  | none => none
  | some src => if src.tier = .hot then none else some (src, src.tier.hotter)

/-- The block a call of `demote` tries to move, and the tier it asks for. -/
def demoteRequest (m : Impl) (h : Nat) : Option (TierAllocation × MemoryTier) :=
  match m.registry[h]? with
  | none => none
  | some src =>
    if src.tier = .cold || !m.tierAvailable src.tier.colder then none
    else some (src, src.tier.colder)

def movesTo (P : Platform) (m : Impl) : Option (TierAllocation × MemoryTier) → Option MemoryTier
  | none => none
  | some (src, target) =>
    (m.landingTier P src.sizeBytes target src.alignment).filter (!m.hookThrows src ·)

/-- Whether serving a request leaves a spill file that could not be filled. -/
def strews (P : Platform) (m : Impl) : Option (TierAllocation × MemoryTier) → Bool
  | none => false
  | some (src, target) =>
    (m.landingTier P src.sizeBytes target src.alignment).isNone &&
      m.littersSpill P src.sizeBytes target src.alignment

/-- What serving a request to move the block of `h` does. -/
def Served (P : Platform) (m : Impl) (h : Nat) (m' : Impl) :
    Option (TierAllocation × MemoryTier) → Prop
  | none => m' = m
  | some (src, target) => m.registry[h]? = some src ∧ Moved P m h src target m'

theorem promote_served (hc : Coherent P m) (h : Nat) :
    Served P m h (m.promote P h).2 (m.promoteRequest h) := by
  unfold promoteRequest
  rcases hr : m.registry[h]? with _ | src
  · simp [promote, hr, Served]
  · by_cases ht : src.tier = .hot
    · simp [promote, hr, ht, Served]
    · simp only [if_neg ht]
      exact ⟨hr, (promote_ended hc hr ht).moved⟩

theorem demote_served (hc : Coherent P m) (h : Nat) :
    Served P m h (m.demote P h).2 (m.demoteRequest h) := by
  unfold demoteRequest
  rcases hr : m.registry[h]? with _ | src
  · simp [demote, hr, Served]
  · by_cases ht : src.tier = .cold
    · simp [demote, hr, ht, Served]
    · cases hav : m.tierAvailable src.tier.colder with
      | false => simp [demote, hr, ht, hav, Served]
      | true =>
        simp only [ht, hav, decide_false, Bool.not_true, Bool.or_self, Bool.false_eq_true,
          ↓reduceIte]
        exact ⟨hr, (demote_ended hc hr ht hav).moved⟩

/-- A request that is not carried out leaves the manager as it is, passes over every tier,
or stops with the new block under its temporary handle. -/
theorem Served.stays {req : Option (TierAllocation × MemoryTier)} (hs : Served P m h m' req)
    (hn : m.movesTo P req = none) :
    m' = m ∨ Passed m (m.strews P req) m' ∨ ∃ size align a, Placed P m size align a m' := by
  rcases req with _ | ⟨src, target⟩
  · exact .inl hs
  · cases hs.2 with
    | passed hl hp =>
      have hlit : m.strews P (some (src, target)) =
          m.littersSpill P src.sizeBytes target src.alignment := by simp [strews, hl]
      exact .inr (.inl (hlit ▸ hp))
    | aborted dst _ _ hp => exact .inr (.inr ⟨_, _, dst, hp⟩)
    | migrated dst hl ht _ => simp [movesTo, hl, Option.filter_some, ht] at hn

theorem Served.moves {req : Option (TierAllocation × MemoryTier)} {t : MemoryTier}
    (hs : Served P m h m' req) (hn : m.movesTo P req = some t) :
    ∃ src dst, m.registry[h]? = some src ∧ dst.tier = t ∧ Migrated P m h src dst m' := by
  rcases req with _ | ⟨src, target⟩
  · simp [movesTo] at hn
  · cases hs.2 with
    | passed hl _ => simp [movesTo, hl] at hn
    | aborted dst hl ht _ => simp [movesTo, hl, Option.filter_some, ht] at hn
    | migrated dst hl ht hg =>
      simp only [movesTo, hl, Option.filter_some, ht, Bool.not_false, ↓reduceIte,
        Option.some.injEq] at hn
      exact ⟨src, dst, hs.1, hn, hg⟩

theorem Migrated.registry (hg : Migrated P m h src dst m') :
    m'.registry = m.registry.insert h { dst with handle := h } := by
  rw [hg.frame]

theorem Migrated.lookup (hg : Migrated P m h src dst m') (k : Nat) : m'.registry[k]? =
    if h = k then some { dst with handle := h } else m.registry[k]? := by
  rw [hg.registry, get_insert]

theorem Migrated.filed (hg : Migrated P m h src dst m') {k : Nat}
    {path : Foundation.Bytes.ByteString} (hk : m'.coldFiles[k]? = some path) :
    k ≠ h ∧ (k = m.nextHandle ∧ path = m.spillPath k ∨ m.coldFiles[k]? = some path) := by
  have hfiles : m'.coldFiles = (if dst.tier = .cold then
      m.coldFiles.insert m.nextHandle (m.spillPath m.nextHandle) else m.coldFiles).erase h := by
    rw [hg.frame]
  rw [hfiles, get_erase] at hk
  split at hk
  · simp at hk
  · next he =>
    refine ⟨Ne.symm he, ?_⟩
    split at hk
    · rw [get_insert] at hk
      split at hk
      · next hkn => exact .inl ⟨hkn.symm, by rw [← hkn]; simpa using hk.symm⟩
      · exact .inr hk
    · exact .inr hk

theorem Migrated.owns (hg : Migrated P m h src dst m') (ha : m.registry[h]? = some src)
    {addr : TierAllocation → Option Nat} {mem mem' : Nat → Option Buffer}
    (ho : Owns (m.ref addr) mem) (hb : ∀ {p}, (mem p).isSome → p < m.os.serial)
    (hrep : Replaces m.os.serial m'.os.serial mem mem' (addr src) (addr dst))
    (haddr : addr { dst with handle := h } = addr dst) :
    Owns (m'.ref addr) mem' ∧ ∀ {p}, (mem' p).isSome → p < m'.os.serial := by
  have href : m.ref addr h = addr src := by simp [ref, ha]
  obtain ⟨mem₁, hs, hgr⟩ := hrep
  have hb₁ : ∀ q, (mem₁ q).isSome → q < m.os.serial := fun q hq ↦ hb (hs.isSome hq)
  have hdrop := Owns.shrink ho (href ▸ hs)
  have hadd := Owns.grow hdrop (k := h) (by simp) hb₁ hgr
  rw [ref_insert hg.registry, haddr]
  refine ⟨?_, fun hq ↦ Grows.below hgr (hb₁ _) hg.serial hq⟩
  rwa [update_idem] at hadd

theorem Migrated.coherent (hg : Migrated P m h src dst m') (ha : m.registry[h]? = some src)
    (hc : Coherent P m) : Coherent P m' := by
  have hfr := hg.frame
  have hne := hc.ne_next ha
  have hlook := hg.lookup
  have hn : m'.nextHandle = m.nextHandle + 1 := by rw [hfr]
  have hl : m'.lru = update m.lru src.tier ((m.lru src.tier).filter (· ≠ h)) := by rw [hfr]
  have hlive := hg.owns ha hc.host hc.hostBelow hg.host rfl
  have hlived := hg.owns ha hc.device hc.deviceBelow hg.device rfl
  constructor
  case next => omega
  case fresh =>
    intro k c hk
    rw [hlook] at hk
    split at hk
    · next he =>
      have := hc.fresh ha
      rw [← he]
      exact ⟨this.1, by omega⟩
    · have := hc.fresh hk
      exact ⟨this.1, by omega⟩
  case handle =>
    intro k c hk
    rw [hlook] at hk
    split at hk
    · next he => exact (Option.some.inj hk) ▸ he
    · exact hc.handle hk
  case shaped =>
    intro k c hk
    rw [hlook] at hk
    split at hk
    · exact (Option.some.inj hk) ▸ hg.shaped
    · exact hc.shaped hk
  case hip =>
    intro k c hk
    rw [hlook] at hk
    split at hk
    · exact (Option.some.inj hk) ▸ hg.hip
    · exact hc.hip hk
  case lruLive =>
    intro t k hk
    have hmem : k ∈ m.lru t ∧ k ≠ h := by
      rw [hl, update_apply] at hk
      split at hk
      · next ht => simpa [ht] using hk
      · next ht =>
        refine ⟨hk, ?_⟩
        rintro rfl
        obtain ⟨c, hc', htc⟩ := hc.lruLive hk
        rw [ha, Option.some.injEq] at hc'
        exact ht (hc' ▸ htc).symm
    obtain ⟨c, hc', htc⟩ := hc.lruLive hmem.1
    exact ⟨c, by simp [hlook, hmem.2.symm, hc'], htc⟩
  case lruNodup =>
    intro t
    rw [hl, update_apply]
    split
    · exact (hc.lruNodup _).filter _
    · exact hc.lruNodup t
  case filed =>
    intro k path hk
    have hpath : m'.spillPath k = m.spillPath k := by rw [hfr]; rfl
    rw [hpath, hn]
    rcases (hg.filed hk).2 with ⟨rfl, hp⟩ | hk
    · exact ⟨hp, by omega⟩
    · have := hc.filed hk
      exact ⟨this.1, by omega⟩
  case filedCold =>
    intro k path c hk hkc
    obtain ⟨hkh, hk⟩ := hg.filed hk
    rw [hlook, if_neg hkh.symm] at hkc
    rcases hk with ⟨rfl, _⟩ | hk
    · simp [hc.unused] at hkc
    · exact hc.filedCold hk hkc
  case host => exact hlive.1
  case device => exact hlived.1
  case hostBelow => exact hlive.2
  case deviceBelow => exact hlived.2

theorem Served.coherent {req : Option (TierAllocation × MemoryTier)} (hs : Served P m h m' req)
    (hc : Coherent P m) : Coherent P m' := by
  cases ht : m.movesTo P req with
  | none =>
    rcases hs.stays ht with rfl | hp | ⟨_, _, a, hp⟩
    · exact hc
    · exact hp.coherent hc
    · exact hp.coherent hc
  | some t =>
    obtain ⟨src, dst, ha, _, hg⟩ := hs.moves ht
    exact hg.coherent ha hc

theorem promote_coherent (hc : Coherent P m) (h : Nat) : Coherent P (m.promote P h).2 :=
  (promote_served hc h).coherent hc

theorem demote_coherent (hc : Coherent P m) (h : Nat) : Coherent P (m.demote P h).2 :=
  (demote_served hc h).coherent hc

end Impl

end Cerberus.TieredMemory
