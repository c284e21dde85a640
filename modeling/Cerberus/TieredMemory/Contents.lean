import Cerberus.TieredMemory.Runs

namespace Cerberus.TieredMemory

open Std Function Foundation.FiniteMap Foundation.Ownership Foundation.Trace

namespace Impl

variable {P : Platform} {m m' : Impl} {h k : Nat} {a src dst : TierAllocation}
  {size align : UInt64} {data : Nat → UInt8}

/-- What is left of the bytes a caller wrote to the block of `h`: while the block is in
addressable memory it holds them. A Cold block has no spill file under its own handle. -/
structure Keeps (m : Impl) (h : Nat) (size : UInt64) (data : Nat → UInt8) : Prop where
  noHook : m.computeHook = none
  issued : h < m.nextHandle
  unfiled : m.coldFiles[h]? = none
  sized : ∀ {a}, m.registry[h]? = some a → a.sizeBytes = size
  holds : ∀ {a}, m.registry[h]? = some a → m.Holds a size.toNat data

theorem Holds.congr {n : Nat} (hd : m.Holds a n data)
    (hh : ∀ p, a.ptr = some p → m'.os.host p = m.os.host p)
    (hv : ∀ p, a.devicePtr = some p → m'.os.device p = m.os.device p) : m'.Holds a n data :=
  ⟨fun p hp ↦ by rw [hh p hp]; exact hd.1 p hp, fun p hp ↦ by rw [hv p hp]; exact hd.2 p hp⟩

theorem holds_cold {n : Nat} (hs : a.Shaped) (ht : a.tier = .cold) : m.Holds a n data := by
  obtain ⟨hp, hv⟩ : a.ptr = none ∧ a.devicePtr = none := by
    simpa only [TierAllocation.Shaped, ht] using hs
  exact ⟨by simp [hp], by simp [hv]⟩

theorem Coherent.ptr_ne (hc : Coherent P m) (ha : m.registry[h]? = some a)
    (hs : m.registry[k]? = some src) (hne : k ≠ h) {p : Nat} (hp : a.ptr = some p) :
    src.ptr ≠ some p := by
  intro hsp
  have hk : m.ref (·.ptr) k = some p := by simp [ref, hs, hsp]
  have hh : m.ref (·.ptr) h = some p := by simp [ref, ha, hp]
  exact hne (hc.host.unique hk hh)

theorem Coherent.devicePtr_ne (hc : Coherent P m) (ha : m.registry[h]? = some a)
    (hs : m.registry[k]? = some src) (hne : k ≠ h) {p : Nat} (hp : a.devicePtr = some p) :
    src.devicePtr ≠ some p := by
  intro hsp
  have hk : m.ref (·.devicePtr) k = some p := by simp [ref, hs, hsp]
  have hh : m.ref (·.devicePtr) h = some p := by simp [ref, ha, hp]
  exact hne (hc.device.unique hk hh)

theorem Passed.keeps {l : Bool} (hp : Passed m l m') (hk : Keeps m h size data) :
    Keeps m' h size data := by
  have hf := hp.frame
  have hr : m'.registry = m.registry := by rw [hf]
  refine ⟨by rw [hf]; exact hk.noHook, by rw [hf]; exact hk.issued, by rw [hf]; exact hk.unfiled,
    fun ha ↦ hk.sized (hr ▸ ha), fun ha ↦ ?_⟩
  exact (hk.holds (hr ▸ ha)).congr (fun _ _ ↦ by rw [hp.host]) (fun _ _ ↦ by rw [hp.device])

theorem Placed.keeps {s : UInt64} (hp : Placed P m s align a m') (hc : Coherent P m)
    (hk : Keeps m h size data) : Keeps m' h size data := by
  have hf := hp.frame
  have hne : m.nextHandle ≠ h := hk.issued.ne'
  have hr {b : TierAllocation} (hb : m'.registry[h]? = some b) : m.registry[h]? = some b := by
    rw [hf, hp.handle] at hb
    rwa [insertIfNew_fresh _ _ hc.unused, get_insert, if_neg hne] at hb
  refine ⟨by rw [hf]; exact hk.noHook, ?_, ?_, fun hb ↦ hk.sized (hr hb),
    fun hb ↦ hp.holds hc (hr hb) (hk.holds (hr hb))⟩
  · rw [hf]
    exact hk.issued.trans (Nat.lt_succ_self _)
  · rw [hf, hp.handle]
    dsimp only
    split
    · rw [get_insert, if_neg hne, hk.unfiled]
    · exact hk.unfiled

theorem Freed.keeps (hf : Freed P m k a m') (ha : m.registry[k]? = some a) (hc : Coherent P m)
    (hk : Keeps m h size data) : Keeps m' h size data := by
  have hfr := hf.frame
  have hr {b : TierAllocation} (hb : m'.registry[h]? = some b) :
      k ≠ h ∧ m.registry[h]? = some b := by
    rw [hfr] at hb
    simp only [get_erase] at hb
    split at hb
    · simp at hb
    · next hne => exact ⟨hne, hb⟩
  refine ⟨by rw [hfr]; exact hk.noHook, by rw [hfr]; exact hk.issued, ?_, fun hb ↦ hk.sized (hr hb).2,
    fun hb ↦ ?_⟩
  · rw [hfr]
    simp [get_erase, hk.unfiled]
  · obtain ⟨hne, hb⟩ := hr hb
    exact (hk.holds hb).congr (fun p hp ↦ hf.host.other (hc.ptr_ne hb ha hne hp))
      (fun p hp ↦ hf.device.other (hc.devicePtr_ne hb ha hne hp))

theorem Migrated.keeps (hg : Migrated P m k src dst m') (ha : m.registry[k]? = some src)
    (hc : Coherent P m) (hpl : PlainCopies P m)
    (hcold : k = h → src.tier = .cold → dst.tier = .cold)
    (hk : Keeps m h size data) : Keeps m' h size data := by
  have hfr := hg.frame
  have hne : m.nextHandle ≠ h := hk.issued.ne'
  have hreg : m'.registry = m.registry.insert k { dst with handle := k } := hg.registry
  refine ⟨by rw [hfr]; exact hk.noHook, ?_, ?_, fun {b} hb ↦ ?_, fun {b} hb ↦ ?_⟩
  · rw [hfr]
    exact hk.issued.trans (Nat.lt_succ_self _)
  · rw [hfr]
    simp only [get_erase]
    split
    · rfl
    · split
      · rw [get_insert, if_neg hne, hk.unfiled]
      · exact hk.unfiled
  · rw [hreg, get_insert] at hb
    split at hb
    · next he =>
      subst he
      obtain rfl := Option.some.inj hb
      exact hg.size.trans (hk.sized ha)
    · exact hk.sized hb
  · rw [hreg, get_insert] at hb
    split at hb
    · next he =>
      subst he
      obtain rfl := Option.some.inj hb
      by_cases hsc : src.tier = .cold
      · exact holds_cold (a := { dst with handle := k }) hg.shaped (hcold rfl hsc)
      · have hd := hk.holds ha
        rw [← hk.sized ha] at hd ⊢
        exact hg.content hpl hsc data hd
    · next hkh =>
      exact (hk.holds hb).congr
        (fun p hp ↦ hg.host.other (hc.ptr_ne hb ha hkh hp) (hc.ptr_below hb hp))
        (fun p hp ↦ hg.device.other (hc.devicePtr_ne hb ha hkh hp) (hc.devicePtr_below hb hp))

theorem Served.keeps {req : Option (TierAllocation × MemoryTier)} (hs : Served P m k m' req)
    (hc : Coherent P m) (hip : P.hasHip = true → ∀ p, P.hipMemcpy p = true)
    (hcold : k = h → ∀ src, m.registry[k]? = some src → src.tier = .cold →
      ∀ t ∈ m.movesTo P req, t = .cold)
    (hk : Keeps m h size data) : Keeps m' h size data := by
  cases ht : m.movesTo P req with
  | none =>
    rcases hs.stays ht with rfl | hp | ⟨_, _, a, hp⟩
    · exact hk
    · exact hp.keeps hk
    · exact hp.keeps hc hk
  | some t =>
    obtain ⟨src, dst, ha, rfl, hg⟩ := hs.moves ht
    exact hg.keeps ha hc ⟨hk.noHook, hip⟩ (fun hkh hsc ↦ hcold hkh src ha hsc _ ht) hk

/-- A call that neither overwrites the block of `h` nor brings it back from the Cold tier. -/
def spares (P : Platform) (h : Nat) (m : Impl) : Call → Prop
  | .write k _ => k ≠ h
  | .promote k => k = h → ∀ a, m.registry[h]? = some a → a.tier = .cold →
      ∀ t ∈ m.movesTo P (m.promoteRequest h), t = .cold
  | _ => True

theorem demote_keeps (hc : Coherent P m) (hip : P.hasHip = true → ∀ p, P.hipMemcpy p = true)
    (hk : Keeps m h size data) (v : Nat) : Keeps (m.demote P v).2 h size data := by
  refine (demote_served hc v).keeps hc hip ?_ hk
  intro _ src ha hsc t ht
  simp [demoteRequest, ha, hsc, movesTo] at ht

theorem write_keeps (hc : Coherent P m) (hne : k ≠ h) (other : Nat → UInt8)
    (hk : Keeps m h size data) : Keeps (m.write k other) h size data := by
  unfold write
  rcases ha : m.registry[k]? with _ | b
  · exact hk
  · rcases hp : b.ptr with _ | p
    · simpa only [hp] using hk
    · simp only [hp]
      refine ⟨hk.noHook, hk.issued, hk.unfiled, hk.sized, fun {c} hcr ↦ ?_⟩
      refine (hk.holds hcr).congr (fun q hq ↦ ?_) (fun _ _ ↦ rfl)
      have hpq : q ≠ p := by
        rintro rfl
        exact hc.ptr_ne hcr ha hne hq hp
      exact update_of_ne hpq _ _

theorem write_holds (hc : Coherent P m) (ha : m.registry[h]? = some a) (hp : a.ptr ≠ none)
    (hk : m.computeHook = none) : Keeps (m.write h data) h a.sizeBytes data := by
  obtain ⟨p, hp⟩ := Option.ne_none_iff_exists'.mp hp
  have hsh := hc.shaped ha
  have hw : m.write h data = { m with os := m.os.writeHost p a.sizeBytes.toNat data } := by
    simp [write, ha, hp]
  have hnc : a.tier ≠ .cold := by
    intro ht
    simp [TierAllocation.Shaped, ht, hp] at hsh
  have hv : a.devicePtr = none := by
    rcases hsh.cases with ⟨_, _, hv, _⟩ | ⟨_, _, hn, _⟩ | ⟨ht, _⟩
    · exact hv
    · simp [hp] at hn
    · exact absurd ht hnc
  rw [hw]
  refine ⟨hk, (hc.fresh ha).2, hc.not_filed ha hnc, fun {b} hb ↦ ?_, fun {b} hb ↦ ?_⟩
  · rw [ha, Option.some.injEq] at hb
    rw [hb]
  · rw [ha, Option.some.injEq] at hb
    subst hb
    refine ⟨fun q hq ↦ ?_, by simp [hv]⟩
    obtain rfl : p = q := by simpa [hp] using hq
    exact blit_holds ((hc.live ha).1 p hp) (fun _ _ ↦ rfl)

end Impl

open Impl

variable {P : Platform}

theorem step_keeps {h : Nat} {size : UInt64} {data : Nat → UInt8}
    (hip : P.hasHip = true → ∀ p, P.hipMemcpy p = true) (m : Impl) (call : Call) (m' : Impl)
    (hi : Coherent P m ∧ Keeps m h size data) (hok : spares P h m call)
    (hs : Step P m call m') : Coherent P m' ∧ Keeps m' h size data := by
  obtain ⟨hc, hk⟩ := hi
  refine ⟨step_coherent m call m' hc hs, ?_⟩
  cases call with
  | allocate size preferred align =>
    obtain rfl := hs
    rcases allocate_cases P m size preferred align with ⟨_, hp⟩ | ⟨a, _, hp⟩
    · exact hp.keeps hk
    · exact hp.keeps hc hk
  | free k =>
    obtain rfl := hs
    rcases free_cases hc k with ⟨he, _⟩ | ⟨a, ha, hf⟩
    · rwa [he]
    · exact hf.keeps ha hc hk
  | promote k =>
    obtain rfl := hs
    refine (promote_served hc k).keeps hc hip ?_ hk
    rintro rfl
    exact hok rfl
  | demote k =>
    obtain rfl := hs
    exact demote_keeps hc hip hk k
  | pressureEvict tier within =>
    obtain ⟨fuel, r, he⟩ := hs
    refine (pressureEvict_preserves (I := fun m ↦ Coherent P m ∧ Keeps m h size data)
      (G := fun _ _ ↦ True) ?_ ⟨hc, hk⟩ (fun _ _ _ _ _ ↦ trivial) he).2
    intro m v hi _
    exact ⟨demote_coherent hi.1 v, demote_keeps hi.1 hip hi.2 v⟩
  | resetForTesting =>
    obtain rfl := hs
    have hd := hc.drained
    unfold resetForTesting
    generalize m.registry.toList.foldl (drain P) m = m₁ at hd ⊢
    exact ⟨by rw [hd.frame]; exact hk.noHook, by rw [hd.frame]; exact hk.issued, by simp, by simp,
      by simp⟩
  | write k other =>
    obtain rfl := hs
    exact write_keeps hc hok other hk

theorem Impl.Served.computeHook {m m' : Impl} {h : Nat}
    {req : Option (TierAllocation × MemoryTier)} (hs : Served P m h m' req) :
    m'.computeHook = m.computeHook := by
  cases ht : m.movesTo P req with
  | none =>
    rcases hs.stays ht with rfl | hp | ⟨_, _, a, hp⟩
    · rfl
    · rw [hp.frame]
    · rw [hp.frame]
  | some t =>
    obtain ⟨src, dst, _, _, hg⟩ := hs.moves ht
    rw [hg.frame]

theorem step_computeHook {hook : Option MigrationComputeHook} (m : Impl) (call : Call) (m' : Impl)
    (hi : Coherent P m ∧ m.computeHook = hook) (hs : Step P m call m') :
    Coherent P m' ∧ m'.computeHook = hook := by
  obtain ⟨hc, rfl⟩ := hi
  refine ⟨step_coherent m call m' hc hs, ?_⟩
  cases call with
  | allocate size preferred align =>
    obtain rfl := hs
    rcases allocate_cases P m size preferred align with ⟨_, hp⟩ | ⟨a, _, hp⟩
    · rw [hp.frame]
    · rw [hp.frame]
  | free k =>
    obtain rfl := hs
    rcases free_cases hc k with ⟨he, _⟩ | ⟨a, _, hf⟩
    · rw [he]
    · rw [hf.frame]
  | promote k =>
    obtain rfl := hs
    exact (promote_served hc k).computeHook
  | demote k =>
    obtain rfl := hs
    exact (demote_served hc k).computeHook
  | pressureEvict tier within =>
    obtain ⟨fuel, r, he⟩ := hs
    refine (pressureEvict_preserves (I := fun n ↦ Coherent P n ∧ n.computeHook = m.computeHook)
      (G := fun _ _ ↦ True) ?_ ⟨hc, rfl⟩ (fun _ _ _ _ _ ↦ trivial) he).2
    intro n v hi _
    exact ⟨demote_coherent hi.1 v, (demote_served hi.1 v).computeHook.trans hi.2⟩
  | resetForTesting =>
    obtain rfl := hs
    have hd := hc.drained
    unfold resetForTesting
    generalize m.registry.toList.foldl (drain P) m = m₁ at hd ⊢
    rw [hd.frame]
  | write k other =>
    obtain rfl := hs
    unfold write
    split
    · rfl
    · split <;> rfl

theorem query_ok {m : Impl} {h : Nat} {a : TierAllocation} :
    m.query h = .ok a ↔ m.registry[h]? = some a := by
  unfold query
  split
  · next hn => simp [hn]
  · next hs => simp [hs]

/-- Bytes written to a block are read back from it whenever it is in addressable memory,
as long as it is not brought back from the Cold tier. -/
theorem contents_kept {cfg : TieredMemoryConfig} {pre post : List (Impl × Call)} {s u : Impl}
    {h : Nat} {a b : TierAllocation} {data : Nat → UInt8}
    (hr : Run (Step P) (construct P cfg) (pre ++ (s, .write h data) :: post) u)
    (hip : P.hasHip = true → ∀ p, P.hipMemcpy p = true)
    (hw : s.query h = .ok a) (hp : a.ptr ≠ none) (hok : ∀ e ∈ post, spares P h e.1 e.2)
    (hq : u.query h = .ok b) (ht : b.tier = .warm ∨ b.tier = .cool) :
    b.sizeBytes = a.sizeBytes ∧ ∃ p c, b.ptr = some p ∧ u.os.host p = some c ∧
      ∀ i < a.sizeBytes.toNat, c.byte i = data i := by
  obtain ⟨v, hpre, hv, hpost⟩ := hr.cut
  obtain ⟨hc, hk⟩ := (hpre.invariant (step_computeHook (P := P))
    ⟨construct_coherent P cfg none, rfl⟩).2
  have hstart : Keeps (s.write h data) h a.sizeBytes data :=
    write_holds hc (query_ok.mp hw) hp hk
  obtain ⟨hcu, hku⟩ := (hpost.guarded (step_keeps hip)
    ⟨step_coherent _ _ _ hc hv, hv ▸ hstart⟩ hok).2
  have hb := query_ok.mp hq
  obtain ⟨p, hpb⟩ : ∃ p, b.ptr = some p := by
    have hsh := hcu.shaped hb
    rcases ht with ht | ht <;> simp only [TierAllocation.Shaped, ht] at hsh <;> exact hsh.1
  obtain ⟨c, hc', hd⟩ := (hku.holds hb).1 p hpb
  exact ⟨hku.sized hb, p, c, hpb, hc', hd⟩

theorem contents_kept_warm_and_back :
    ∃ tr u b p c, Run (Step plainHost) (construct plainHost {}) tr u ∧
      tr.map (fun e ↦ e.2) =
        [.allocate 1 .cool 0, .write 1 (fun _ ↦ 7), .promote 1, .demote 1] ∧
      u.query 1 = .ok b ∧ b.ptr = some p ∧ u.os.host p = some c ∧ c.byte 0 = 7 := by
  have hr : Run (Step plainHost) (construct plainHost {}) ([_] ++ _ :: [_, _]) _ :=
    .cons (step_allocate 1 .cool 0) (.cons (step_write 1 (fun _ ↦ 7))
      (.cons (step_promote 1) (.cons (step_demote 1) (.nil _))))
  obtain ⟨_, p, c, hp, hc, hd⟩ := contents_kept hr (fun h ↦ nomatch h)
    (a := ⟨1, .cool, some 0, none, 1, 64⟩) (b := ⟨1, .cool, some 3, none, 1, 64⟩)
    (by decide) (by decide)
    (by
      simp only [List.forall_mem_cons, spares]
      refine ⟨fun _ a ha hcold ↦ ?_, trivial, by simp⟩
      have hcool := Option.some.inj (ha.symm.trans
        (c := some ⟨1, .cool, some 0, none, 1, 64⟩) (by decide))
      subst hcool
      simp at hcold)
    (by decide) (.inr rfl)
  exact ⟨_, _, _, p, c, hr, rfl, by decide, hp, hc, hd 0 (by decide)⟩

/-- A byte written to a Cool block is gone after the way through the Cold tier: the spill
file is under the temporary handle of the demotion, and the promotion looks for it under
the handle of the block. -/
theorem byte_lost_in_cold_tier :
    ∃ tr u b p c, Run (Step plainHost) (construct plainHost {}) tr u ∧
      tr.map (fun e ↦ e.2) =
        [.allocate 1 .cool 0, .write 1 (fun _ ↦ 7), .demote 1, .promote 1] ∧
      u.query 1 = .ok b ∧ b.tier = .cool ∧ b.ptr = some p ∧ u.os.host p = some c ∧
      c.byte 0 ≠ 7 := by
  refine ⟨_, _, ⟨1, .cool, some 4, none, 1, 64⟩, 4, ⟨64, fun _ ↦ 0⟩,
    .cons (step_allocate 1 .cool 0) (.cons (step_write 1 (fun _ ↦ 7))
      (.cons (step_demote 1) (.cons (step_promote 1) (.nil _)))), rfl, by decide, rfl, rfl, ?_,
    by decide⟩
  rfl

end Cerberus.TieredMemory
