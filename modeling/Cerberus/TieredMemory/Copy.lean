import Cerberus.TieredMemory.Release

namespace Cerberus.TieredMemory

open Function

def Refills (mem mem' : Nat → Option Buffer) : Option Nat → Prop
  | none => mem' = mem
  | some p => (∀ q, q ≠ p → mem' q = mem q) ∧ (mem' p).isSome = (mem p).isSome

theorem refills_self (mem : Nat → Option Buffer) (p : Option Nat) : Refills mem mem p := by
  cases p with
  | none => rfl
  | some p => exact ⟨fun _ _ ↦ rfl, rfl⟩

theorem refills_update (mem : Nat → Option Buffer) {p : Nat} (b : Option Buffer)
    (hb : b.isSome = (mem p).isSome) : Refills mem (update mem p b) (some p) :=
  ⟨fun _ hq ↦ update_of_ne hq _ _, by rw [update_self, hb]⟩

theorem Grows.refill {lo hi hi' : Nat} {mem mem₁ mem₂ : Nat → Option Buffer} {p : Option Nat}
    (hg : Grows lo hi mem mem₁ p) (hr : Refills mem₁ mem₂ p) (hle : hi ≤ hi') :
    Grows lo hi' mem mem₂ p := by
  cases p with
  | none => exact Eq.trans hr hg
  | some p =>
    obtain ⟨hlo, hhi, b, rfl⟩ := hg
    obtain ⟨hne, hsome⟩ := hr
    rw [update_self] at hsome
    obtain ⟨c, hc⟩ := Option.isSome_iff_exists.mp hsome
    refine ⟨hlo, hhi.trans_le hle, c, ?_⟩
    funext q
    by_cases hq : q = p
    · simp [hq, hc]
    · rw [hne q hq, update_of_ne hq, update_of_ne hq]

namespace Impl

variable {P : Platform} {m m' : Impl} {h : Nat} {src dst : TierAllocation}

/-- Whether the compute hook refuses the bytes of `src` on their way to tier `t`. -/
def hookThrows (m : Impl) (src : TierAllocation) (t : MemoryTier) : Bool :=
  match m.computeHook, src.ptr, t with
  | some hook, some p, .warm | some hook, some p, .cool =>
    (hook (m.os.hostBytes p) src.sizeBytes src.tier t).isNone
  | _, _, _ => false

def Holds (m : Impl) (a : TierAllocation) (n : Nat) (data : Nat → UInt8) : Prop :=
  (∀ p, a.ptr = some p → ∃ b, m.os.host p = some b ∧ ∀ i < n, b.byte i = data i) ∧
  (∀ p, a.devicePtr = some p → ∃ b, m.os.device p = some b ∧ ∀ i < n, b.byte i = data i)

def Live (m : Impl) (a : TierAllocation) : Prop :=
  (∀ p, a.ptr = some p → (m.os.host p).isSome) ∧
  (∀ p, a.devicePtr = some p → (m.os.device p).isSome)

/-- Nothing but `memcpy` and `hipMemcpy` moves bytes, and the latter does not fail. -/
structure PlainCopies (P : Platform) (m : Impl) : Prop where
  noHook : m.computeHook = none
  hip : P.hasHip = true → ∀ p, P.hipMemcpy p = true

structure Copied (P : Platform) (m : Impl) (src dst : TierAllocation) (m' : Impl) : Prop where
  frame : m' = { m with os := m'.os }
  serial : m.os.serial ≤ m'.os.serial
  host : Refills m.os.host m'.os.host dst.ptr
  device : Refills m.os.device m'.os.device dst.devicePtr
  disk : dst.tier ≠ .cold → m'.os.disk = m.os.disk
  released : m'.os.released = m.os.released
  content : PlainCopies P m → src.tier ≠ .cold → m.Live dst → ∀ data,
    m.Holds src src.sizeBytes.toNat data → m'.Holds dst src.sizeBytes.toNat data

theorem Os.hostBytes_eq {os : Os} {p : Nat} {b : Buffer} (hb : os.host p = some b) :
    os.hostBytes p = b.byte := by
  simp [Os.hostBytes, hb]

theorem Os.deviceBytes_eq {os : Os} {p : Nat} {b : Buffer} (hb : os.device p = some b) :
    os.deviceBytes p = b.byte := by
  simp [Os.deviceBytes, hb]

/-- A full blit of bytes that agree with `data` leaves bytes that agree with `data`. -/
theorem blit_holds {mem : Nat → Option Buffer} {q n : Nat} {f data : Nat → UInt8}
    (hq : (mem q).isSome) (hf : ∀ i < n, f i = data i) :
    ∃ b, update mem q ((mem q).map (·.blit n f)) q = some b ∧ ∀ i < n, b.byte i = data i := by
  obtain ⟨b, hb⟩ := Option.isSome_iff_exists.mp hq
  refine ⟨b.blit n f, by simp [hb], fun i hi ↦ ?_⟩
  simp [Buffer.blit, hi, hf i hi]

theorem Copied.nothing (hd : dst.ptr = none) (hv : dst.devicePtr = none) {os : Os}
    (hs : m.os.serial ≤ os.serial) (hh : os.host = m.os.host) (hw : os.device = m.os.device)
    (hk : dst.tier ≠ .cold → os.disk = m.os.disk) (hr : os.released = m.os.released) :
    Copied P m src dst { m with os := os } where
  frame := rfl
  serial := hs
  host := by rw [hd]; exact hh
  device := by rw [hv]; exact hw
  disk := hk
  released := hr
  content := by
    intro _ _ _ _ _
    exact ⟨by simp [hd], by simp [hv]⟩

theorem hookThrows_unaddressed (m : Impl) (src : TierAllocation) {t : MemoryTier}
    (ht : t ≠ .warm) (ht' : t ≠ .cool) : m.hookThrows src t = false := by
  cases t <;> simp_all [hookThrows]

theorem hookThrows_device {t : MemoryTier} (hp : src.ptr = none) : m.hookThrows src t = false := by
  cases t <;> simp [hookThrows, hp]

def CopyOutcome (P : Platform) (m : Impl) (src dst : TierAllocation) (r : Except Abort Impl) :
    Prop :=
  (r = .error .hookThrew ∧ m.hookThrows src dst.tier = true) ∨
    ∃ m', r = .ok m' ∧ m.hookThrows src dst.tier = false ∧ Copied P m src dst m'

theorem copyHost_spec {p q : Nat} (hp : src.ptr = some p) (hq : dst.ptr = some q)
    (hv : dst.devicePtr = none) (ht : dst.tier = .warm ∨ dst.tier = .cool) :
    CopyOutcome P m src dst (m.copyHost src dst p q) := by
  have hdone (f : Nat → UInt8) (hf : m.computeHook = none → f = m.os.hostBytes p) :
      Copied P m src dst { m with os := m.os.writeHost q src.sizeBytes.toNat f } := by
    refine ⟨rfl, le_rfl, ?_, by rw [hv]; rfl, fun _ ↦ rfl, rfl, ?_⟩
    · rw [hq]
      exact refills_update _ _ (by simp)
    · intro hplain _ hlive data hd
      obtain ⟨b, hb, hbd⟩ := hd.1 p hp
      refine ⟨?_, by simp [hv]⟩
      intro q' hq'
      obtain rfl : q = q' := by simpa [hq] using hq'
      refine blit_holds (hlive.1 q hq) ?_
      rw [hf hplain.noHook, Os.hostBytes_eq hb]
      exact hbd
  have hthrow {hook : MigrationComputeHook} (hk : m.computeHook = some hook) :
      m.hookThrows src dst.tier =
        (hook (m.os.hostBytes p) src.sizeBytes src.tier dst.tier).isNone := by
    rcases ht with ht | ht <;> simp [hookThrows, hk, hp, ht]
  rcases Option.eq_none_or_eq_some m.computeHook with hk | ⟨hook, hk⟩
  · refine .inr ⟨_, ?_, by simp [hookThrows, hk], hdone _ (fun _ ↦ rfl)⟩
    simp [copyHost, hk]
  · cases ho : hook (m.os.hostBytes p) src.sizeBytes src.tier dst.tier with
    | none => exact .inl ⟨by simp [copyHost, hk, ho], by simp [hthrow hk, ho]⟩
    | some out =>
      refine .inr ⟨_, ?_, by simp [hthrow hk, ho], hdone out (by simp [hk])⟩
      simp [copyHost, hk, ho]

theorem Copied.toDevice (hq : dst.ptr = none) {d n : Nat} (hd : dst.devicePtr = some d)
    {f : Nat → UInt8} (hn : n = src.sizeBytes.toNat)
    (hf : ∀ data, m.Holds src n data → ∀ i < n, f i = data i) :
    Copied P m src dst { m with os := (m.os.writeDevice d n f).tick } where
  frame := rfl
  serial := Nat.le_succ _
  host := by rw [hq]; rfl
  device := by
    rw [hd]
    exact refills_update _ _ (by simp)
  disk := fun _ ↦ rfl
  released := rfl
  content := by
    intro _ _ hlive data hsrc
    subst hn
    refine ⟨by simp [hq], ?_⟩
    intro d' hd'
    obtain rfl : d = d' := by simpa [hd] using hd'
    exact blit_holds (hlive.2 d hd) (hf data hsrc)

theorem Copied.tick (hip : PlainCopies P m → False) : Copied P m src dst { m with os := m.os.tick } where
  frame := rfl
  serial := Nat.le_succ _
  host := refills_self _ _
  device := refills_self _ _
  disk := fun _ ↦ rfl
  released := rfl
  content := fun hp ↦ (hip hp).elim

theorem copyUp_spec (hs : src.Shaped) (hd : dst.Shaped) (hne : src.tier ≠ .hot)
    (hh : dst.tier = .hot → P.hasHip = true) :
    CopyOutcome P m src dst (m.copyUp P h src dst) := by
  rcases hs.cases with ⟨p, hp, hv, ht⟩ | ⟨_, ht, _⟩ | ⟨ht, hp, hv⟩
  · rcases hd.cases with ⟨q, hq, hw, hdt⟩ | ⟨d, hdt, hq, hw⟩ | ⟨hdt, hq, hw⟩
    · have hup : m.copyUp P h src dst = m.copyHost src dst p q := by
        rcases ht with ht | ht <;> simp only [copyUp, ht, hp, hq]
      rw [hup]
      exact copyHost_spec hp hq hw hdt
    · have hthr := hookThrows_unaddressed m src (t := dst.tier) (by simp [hdt]) (by simp [hdt])
      have hup : m.copyUp P h src dst = if P.hipMemcpy d then
          .ok { m with os := (m.os.writeDevice d src.sizeBytes.toNat (m.os.hostBytes p)).tick }
          else .ok { m with os := m.os.tick } := by
        rcases ht with ht | ht <;> simp only [copyUp, ht, hp, hq, hw, hh hdt, ↓reduceIte]
      rw [hup]
      split
      · refine .inr ⟨_, rfl, hthr, .toDevice hq hw rfl ?_⟩
        intro data hsrc
        obtain ⟨b, hb, hbd⟩ := hsrc.1 p hp
        rw [Os.hostBytes_eq hb]
        exact hbd
      · next hf => exact .inr ⟨_, rfl, hthr, .tick (fun hpl ↦ hf (hpl.hip (hh hdt) d))⟩
    · have hup : m.copyUp P h src dst = .ok m := by
        rcases ht with ht | ht <;> simp only [copyUp, ht, hp, hq, hw]
      rw [hup]
      exact .inr ⟨m, rfl, hookThrows_unaddressed _ _ (by simp [hdt]) (by simp [hdt]),
        .nothing hq hw le_rfl rfl rfl (fun _ ↦ rfl) rfl⟩
  · exact absurd ht hne
  · have hcopied {os : Os} (hos : m.os.serial ≤ os.serial) (hr : Refills m.os.host os.host dst.ptr)
        (hw : os.device = m.os.device) (hk : os.disk = m.os.disk)
        (hl : os.released = m.os.released) : Copied P m src dst { m with os := os } :=
      ⟨rfl, hos, hr, by rw [hw]; exact refills_self _ _, fun _ ↦ hk, hl, fun _ hc ↦ absurd ht hc⟩
    right
    simp only [copyUp, ht]
    split
    · next path q _ hq =>
      refine ⟨_, rfl, hookThrows_device hp, ?_⟩
      unfold Os.readSpill
      split
      · exact hcopied (Nat.le_succ _) (refills_self _ _) rfl rfl rfl
      · refine hcopied (Nat.le_succ _) ?_ rfl rfl rfl
        rw [hq]
        exact refills_update _ _ (by simp)
    · exact ⟨m, rfl, hookThrows_device hp, hcopied le_rfl (refills_self _ _) rfl rfl rfl⟩

theorem Os.stage_spec (P : Platform) (os : Os) (src : TierAllocation) :
    os.serial ≤ (os.stage P src).2.serial ∧ (os.stage P src).2.host = os.host ∧
      (os.stage P src).2.device = os.device ∧ (os.stage P src).2.released = os.released := by
  unfold Os.stage
  split
  · exact ⟨le_rfl, rfl, rfl, rfl⟩
  · exact ⟨Nat.le_succ _, rfl, rfl, rfl⟩
  · exact ⟨le_rfl, rfl, rfl, rfl⟩

theorem copyDown_cold (hd : dst.Shaped) (hdt : dst.tier = .cold) :
    CopyOutcome P m src dst (m.copyDown P .cold src dst) := by
  obtain ⟨hq, hw⟩ : dst.ptr = none ∧ dst.devicePtr = none := by
    simpa only [TierAllocation.Shaped, hdt] using hd
  have hthr := hookThrows_unaddressed m src (t := dst.tier) (by simp [hdt]) (by simp [hdt])
  obtain ⟨hser, hhost, hdev, hrel⟩ := Os.stage_spec P m.os src
  right
  simp only [copyDown, hq]
  split
  · refine ⟨_, rfl, hthr, ?_⟩
    unfold Os.rewriteSpill
    split
    · exact .nothing hq hw (hser.trans (Nat.le_succ _)) hhost hdev (absurd hdt) hrel
    · exact .nothing hq hw (hser.trans (Nat.le_succ _)) hhost hdev (absurd hdt) hrel
  · exact ⟨_, rfl, hthr, .nothing hq hw hser hhost hdev (absurd hdt) hrel⟩

theorem copyDown_addressed {target : MemoryTier} (hs : src.Shaped) (hd : dst.Shaped)
    (hne : src.tier ≠ .cold) (hh : src.tier = .hot → P.hasHip = true) (hdt : dst.tier ≠ .hot)
    (ht : target = .warm ∨ target = .cool) :
    CopyOutcome P m src dst (m.copyDown P target src dst) := by
  rcases hd.cases with ⟨q, hq, hw, hdt'⟩ | ⟨_, ht', _⟩ | ⟨hdt', hq, hw⟩
  · rcases hs.cases with ⟨p, hp, hv, _⟩ | ⟨d, hst, hp, hv⟩ | ⟨hst, _⟩
    · have hdown : m.copyDown P target src dst = m.copyHost src dst p q := by
        rcases ht with rfl | rfl <;> simp only [copyDown, hv, hp, hq] <;> cases P.hasHip <;> rfl
      rw [hdown]
      exact copyHost_spec hp hq hw hdt'
    · have hdown : m.copyDown P target src dst = if P.hipMemcpy q then
          .ok { m with os := (m.os.writeHost q src.sizeBytes.toNat (m.os.deviceBytes d)).tick }
          else .ok { m with os := m.os.tick } := by
        rcases ht with rfl | rfl <;> simp only [copyDown, hv, hp, hq, hh hst]
      right
      rw [hdown]
      split
      · refine ⟨_, rfl, hookThrows_device hp, rfl, Nat.le_succ _, ?_, by rw [hw]; rfl,
          fun _ ↦ rfl, rfl, ?_⟩
        · rw [hq]
          exact refills_update _ _ (by simp)
        · intro _ _ hlive data hsrc
          obtain ⟨b, hb, hbd⟩ := hsrc.2 d hv
          refine ⟨?_, by simp [hw]⟩
          intro q' hq'
          obtain rfl : q = q' := by simpa [hq] using hq'
          refine blit_holds (hlive.1 q hq) ?_
          rw [Os.deviceBytes_eq hb]
          exact hbd
      · next hf =>
        exact ⟨_, rfl, hookThrows_device hp, .tick (fun hpl ↦ hf (hpl.hip (hh hst) q))⟩
    · exact absurd hst hne
  · exact absurd ht' hdt
  · right
    refine ⟨m, ?_, hookThrows_unaddressed _ _ (by simp [hdt']) (by simp [hdt']),
      .nothing hq hw le_rfl rfl rfl (fun _ ↦ rfl) rfl⟩
    rcases ht with rfl | rfl <;> simp only [copyDown, hq] <;>
      cases P.hasHip <;> cases src.devicePtr <;> cases src.ptr <;> rfl

theorem copyDown_spec (hs : src.Shaped) (hd : dst.Shaped) (hne : src.tier ≠ .cold)
    (hh : src.tier = .hot → P.hasHip = true) (hidx : src.tier.colder.index ≤ dst.tier.index) :
    CopyOutcome P m src dst (m.copyDown P src.tier.colder src dst) := by
  have hdt : dst.tier ≠ .hot := by
    intro hd
    rw [hd] at hidx
    cases hs : src.tier <;> simp [hs, MemoryTier.colder, MemoryTier.index] at hidx
  cases ht : src.tier.colder with
  | hot => cases hst : src.tier <;> simp [hst, MemoryTier.colder] at ht
  | warm => exact copyDown_addressed hs hd hne hh hdt (.inl rfl)
  | cool => exact copyDown_addressed hs hd hne hh hdt (.inr rfl)
  | cold =>
    refine copyDown_cold hd ?_
    rw [ht] at hidx
    cases hdt : dst.tier <;> simp [hdt, MemoryTier.index] at hidx
    rfl

end Impl

end Cerberus.TieredMemory
