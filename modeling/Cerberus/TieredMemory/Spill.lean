import Cerberus.TieredMemory.Runs

namespace Cerberus.TieredMemory

open Std Function Foundation.Bytes Foundation.FiniteMap Foundation.Trace

namespace Impl

variable {P : Platform} {m m' : Impl} {h : Nat} {a : TierAllocation} {size align : UInt64}

/-- The keys of `cold_files` are the live Cold handles, and its values are the files on disk. -/
structure Spilled (m : Impl) : Prop where
  keys : ∀ h : Nat, (m.coldFiles[h]?).isSome ↔ ∃ a, m.registry[h]? = some a ∧ a.tier = .cold
  files : ∀ path, (m.os.disk path).isSome ↔ ∃ h : Nat, m.coldFiles[h]? = some path

theorem Spilled.clean (hs : Spilled m) (hr : m.registry = ∅) (path : ByteString) :
    m.os.disk path = none := by
  by_contra hd
  obtain ⟨h, hh⟩ := (hs.files path).mp (Option.isSome_iff_ne_none.mpr hd)
  obtain ⟨a, ha, _⟩ := (hs.keys h).mp (by simp [hh])
  simp [hr] at ha

/-- The removal of the spill file of `h`, if there is one, succeeds. -/
def removes (P : Platform) (m : Impl) (h : Nat) : Prop :=
  ∀ path, m.coldFiles[h]? = some path → P.removeSpill path = true

theorem Coherent.path_unique (hc : Coherent P m) {k : Nat} {path : ByteString}
    (hh : m.coldFiles[h]? = some path) (hk : m.coldFiles[k]? = some path) : h = k := by
  refine spillPath_injective m ?_
  rw [← (hc.filed hh).1, ← (hc.filed hk).1]

theorem Spilled.files_without (hs : Spilled m) (hc : Coherent P m) (hr : m.removes P h)
    (path : ByteString) :
    (m.diskWithout P h path).isSome ↔ ∃ k : Nat, (m.coldFiles.erase h)[k]? = some path := by
  simp only [get_erase]
  rcases hf : m.coldFiles[h]? with _ | own
  · rw [diskWithout_absent hf, hs.files]
    constructor
    · rintro ⟨k, hk⟩
      have hne : h ≠ k := by rintro rfl; simp [hf] at hk
      exact ⟨k, by rwa [if_neg hne]⟩
    · rintro ⟨k, hk⟩
      split at hk
      · simp at hk
      · exact ⟨k, hk⟩
  · simp only [diskWithout, hf, hr own hf, ↓reduceIte, update_apply]
    split
    · next he =>
      refine iff_of_false (by simp) ?_
      rintro ⟨k, hk⟩
      split at hk
      · simp at hk
      · next hne => exact hne (hc.path_unique (he ▸ hf) hk)
    · next hp =>
      rw [hs.files]
      constructor
      · rintro ⟨k, hk⟩
        have hne : h ≠ k := by
          rintro rfl
          rw [hf, Option.some.injEq] at hk
          exact hp hk.symm
        exact ⟨k, by rwa [if_neg hne]⟩
      · rintro ⟨k, hk⟩
        split at hk
        · simp at hk
        · exact ⟨k, hk⟩

theorem Passed.spilled (hp : Passed m false m') (hs : Spilled m) : Spilled m' := by
  have hd : m'.os.disk = m.os.disk := hp.disk
  refine ⟨?_, ?_⟩
  · rw [hp.frame]
    exact hs.keys
  · rw [hd, hp.frame]
    exact hs.files

theorem Placed.spilled (hp : Placed P m size align a m') (hc : Coherent P m) (hs : Spilled m) :
    Spilled m' := by
  have hr : m'.registry = m.registry.insert m.nextHandle a := by
    rw [hp.frame, hp.handle]
    exact insertIfNew_fresh _ _ hc.unused
  have hf : m'.coldFiles = if a.tier = .cold then
      m.coldFiles.insert m.nextHandle (m.spillPath m.nextHandle) else m.coldFiles := by
    rw [hp.frame, hp.handle]
  have hd := hp.disk
  rw [hp.handle] at hd
  by_cases ht : a.tier = .cold
  · rw [if_pos ht] at hf hd
    refine ⟨fun k ↦ ?_, fun path ↦ ?_⟩
    · rw [hf, hr, get_insert, get_insert]
      split
      · simp [ht]
      · exact hs.keys k
    · rw [hd, hf, update_apply]
      split
      · next he => exact iff_of_true (by simp) ⟨m.nextHandle, by simp [he]⟩
      · next he =>
        rw [hs.files]
        constructor
        · rintro ⟨k, hk⟩
          have hne : m.nextHandle ≠ k := by rintro rfl; simp [hc.unfiled] at hk
          exact ⟨k, by rw [get_insert, if_neg hne, hk]⟩
        · rintro ⟨k, hk⟩
          rw [get_insert] at hk
          split at hk
          · exact absurd (Option.some.inj hk).symm he
          · exact ⟨k, hk⟩
  · rw [if_neg ht] at hf hd
    refine ⟨fun k ↦ ?_, fun path ↦ by rw [hd, hf]; exact hs.files path⟩
    rw [hf, hr, get_insert]
    split
    · next he =>
      subst he
      simp [hc.unfiled, ht]
    · exact hs.keys k

theorem Freed.spilled (hf : Freed P m h a m') (hc : Coherent P m) (hr : m.removes P h)
    (hs : Spilled m) : Spilled m' := by
  have hd := hf.disk
  refine ⟨fun k ↦ ?_, fun path ↦ ?_⟩
  · rw [hf.frame]
    simp only [get_erase]
    split
    · simp
    · exact hs.keys k
  · rw [hd, hf.frame]
    exact hs.files_without hc hr path

theorem Migrated.spilled {src dst : TierAllocation} (hg : Migrated P m h src dst m')
    (hc : Coherent P m) (ht : dst.tier ≠ .cold) (hr : m.removes P h) (hs : Spilled m) :
    Spilled m' := by
  have hd := hg.disk ht
  have hf : m'.coldFiles = m.coldFiles.erase h := by rw [hg.frame, if_neg ht]
  have hreg : m'.registry = m.registry.insert h { dst with handle := h } := by rw [hg.frame]
  refine ⟨fun k ↦ ?_, fun path ↦ ?_⟩
  · rw [hf, hreg, get_erase, get_insert]
    split
    · simp [ht]
    · exact hs.keys k
  · rw [hd, hf]
    exact hs.files_without hc hr path

/-- A request to move the block of `h` that does not end in the Cold tier, leaves no file it
could not fill, and removes the file the block leaves. -/
structure TidyMove (P : Platform) (m : Impl) (h : Nat) (req : Option (TierAllocation × MemoryTier)) :
    Prop where
  notCold : m.movesTo P req ≠ some .cold
  noLitter : m.strews P req = false
  removed : m.movesTo P req ≠ none → m.removes P h

theorem Served.spilled {req : Option (TierAllocation × MemoryTier)} (hv : Served P m h m' req)
    (hc : Coherent P m) (ht : TidyMove P m h req) (hs : Spilled m) : Spilled m' := by
  cases hm : m.movesTo P req with
  | none =>
    rcases hv.stays hm with rfl | hp | ⟨_, _, a, hp⟩
    · exact hs
    · rw [ht.noLitter] at hp
      exact hp.spilled hs
    · exact hp.spilled hc hs
  | some t =>
    obtain ⟨src, dst, _, rfl, hg⟩ := hv.moves hm
    have hne : dst.tier ≠ .cold := fun he ↦ ht.notCold (by rw [hm, he])
    exact hg.spilled hc hne (ht.removed (by simp [hm])) hs

def tidy (P : Platform) (m : Impl) : Call → Prop
  | .allocate size preferred align =>
    m.landingTier P size preferred align = none → m.littersSpill P size preferred align = false
  | .free h => (m.registry[h]?).isSome → m.removes P h
  | .promote h => TidyMove P m h (m.promoteRequest h)
  | .demote h => TidyMove P m h (m.demoteRequest h)
  | .pressureEvict tier within =>
    EvictsOnly P (fun m v ↦ TidyMove P m v (m.demoteRequest v)) m tier within
  | .resetForTesting => False
  | .write _ _ => True

end Impl

open Impl

variable {P : Platform}

theorem step_keeps_spilled (m : Impl) (call : Call) (m' : Impl)
    (hi : Coherent P m ∧ Spilled m) (hok : m.tidy P call) (hs : Step P m call m') :
    Coherent P m' ∧ Spilled m' := by
  obtain ⟨hc, hl⟩ := hi
  refine ⟨step_coherent m call m' hc hs, ?_⟩
  cases call with
  | allocate size preferred align =>
    obtain rfl := hs
    rcases allocate_cases P m size preferred align with ⟨hn, hp⟩ | ⟨a, _, hp⟩
    · rw [hok hn] at hp
      exact hp.spilled hl
    · exact hp.spilled hc hl
  | free h =>
    obtain rfl := hs
    rcases free_cases hc h with ⟨he, _⟩ | ⟨a, ha, hf⟩
    · rwa [he]
    · exact hf.spilled hc (hok (by simp [ha])) hl
  | promote h =>
    obtain rfl := hs
    exact (promote_served hc h).spilled hc hok hl
  | demote h =>
    obtain rfl := hs
    exact (demote_served hc h).spilled hc hok hl
  | pressureEvict tier within =>
    obtain ⟨fuel, r, he⟩ := hs
    refine (pressureEvict_preserves (I := fun m ↦ Coherent P m ∧ Spilled m) ?_ ⟨hc, hl⟩ hok he).2
    intro m v hi hv
    exact ⟨demote_coherent hi.1 v, (demote_served hi.1 v).spilled hi.1 hv hi.2⟩
  | resetForTesting => exact hok.elim
  | write h data =>
    obtain rfl := hs
    unfold write
    split
    · exact hl
    · split
      · exact hl
      · exact ⟨hl.keys, hl.files⟩

theorem construct_spilled (P : Platform) (cfg : TieredMemoryConfig)
    (hook : Option MigrationComputeHook) : Spilled (construct P cfg hook) :=
  ⟨by simp [construct], by simp [construct]⟩

/-- In a run whose calls are tidy, `cold_files` and the disk agree with the registry in
every state, so that no file is left when no block is. -/
theorem spill_files_in_order {cfg : TieredMemoryConfig} {hook : Option MigrationComputeHook}
    {tr : List (Impl × Call)} {u : Impl} (hr : Run (Step P) (construct P cfg hook) tr u)
    (hok : ∀ e ∈ tr, e.1.tidy P e.2) :
    Throughout Spilled tr u ∧ (u.registry = ∅ → ∀ path, u.os.disk path = none) := by
  obtain ⟨hmid, hend⟩ := hr.guarded step_keeps_spilled
    ⟨construct_coherent P cfg hook, construct_spilled P cfg hook⟩ hok
  exact ⟨⟨fun e he ↦ (hmid e he).2, hend.2⟩, fun hu ↦ hend.2.clean hu⟩

theorem spill_files_in_order_cold_block :
    ∃ tr u, Run (Step plainHost) (construct plainHost {}) tr u ∧
      tr.map (fun e ↦ e.2) = [.allocate 1 .cold 0, .promote 1, .free 1] ∧
      Throughout Spilled tr u := by
  have hr : Run (Step plainHost) (construct plainHost {}) _ _ :=
    .cons (step_allocate 1 .cold 0) (.cons (step_promote 1) (.cons (step_free 1) (.nil _)))
  refine ⟨_, _, hr, rfl, (spill_files_in_order hr ?_).1⟩
  simp only [List.forall_mem_cons, tidy]
  exact ⟨by decide, ⟨by decide, by decide, fun _ _ _ ↦ rfl⟩, fun _ _ _ ↦ rfl, by simp⟩

/-- A block demoted into the Cold tier has its spill file under the temporary handle 2, and
the file outlives the block. -/
theorem demoted_block_leaves_file :
    ∃ tr u, Run (Step plainHost) (construct plainHost {}) tr u ∧
      tr.map (fun e ↦ e.2) = [.allocate 1 .cool 0, .demote 1, .free 1] ∧ ¬ Spilled u ∧
      u.registry[1]? = none ∧ u.registry[2]? = none ∧ u.coldFiles[2]? = some (u.spillPath 2) ∧
      (u.os.disk (u.spillPath 2)).isSome := by
  refine ⟨_, _, .cons (step_allocate 1 .cool 0)
    (.cons (step_demote 1) (.cons (step_free 1) (.nil _))), rfl, ?_, by decide, by decide,
    by decide, by decide⟩
  intro hs
  obtain ⟨a, ha, _⟩ := (hs.keys 2).mp (by decide)
  exact absurd (ha.symm.trans (c := none) (by decide)) (by simp)

end Cerberus.TieredMemory
