import Cerberus.TieredMemory.Books
import Cerberus.TieredMemory.Spill

namespace Cerberus.TieredMemory

open Std Function Foundation.Bytes Foundation.FiniteMap Foundation.Ownership Foundation.Trace

inductive Direction
  | up
  | down
  deriving DecidableEq

namespace Direction

def edge : Direction → MemoryTier
  | .up => .hot
  | .down => .cold

def target : Direction → MemoryTier → MemoryTier
  | .up => MemoryTier.hotter
  | .down => MemoryTier.colder

def copy (P : Platform) (m : Impl) (h : Nat) (src dst : TierAllocation) :
    Direction → Except Abort Impl
  | .up => m.copyUp P h src dst
  | .down => m.copyDown P src.tier.colder src dst

def release (P : Platform) (m : Impl) (h : Nat) (old : TierAllocation) : Direction → Impl
  | .up => m.releaseUp P h old
  | .down => m.deallocate P old

end Direction

/-- Where a thread in `promote` or `demote` stands, with its local variables. -/
inductive MigratorPc
  | lookup
  | allocating (src : TierAllocation)
  | copying (src dst : TierAllocation)
  | announcing (src dst : TierAllocation)
  | swapping (src dst : TierAllocation)
  | releasing (src old : TierAllocation)
  | settling (src old : TierAllocation)
  | querying
  | done (r : Except Abort TierAllocation)

/-- Where a thread in `free` stands. -/
inductive FreerPc
  | start
  | settling (a : TierAllocation)
  | done (r : Except TierError Unit)

/-- The steps of `promote` and `demote` between which the registry is unlocked. -/
def MigratorPc.advance (P : Platform) (dir : Direction) (h : Nat) (m : Impl) :
    MigratorPc → Option (MigratorPc × Impl)
  | .lookup =>
    match m.registry[h]? with
    | none => some (.done (.error (.error .invalidHandle)), m)
    | some src =>
      if src.tier = dir.edge then some (.done (.ok src), m)
      else if dir = .down ∧ m.tierAvailable src.tier.colder = false then
        some (.done (.error (.error .tierUnavailable)), m)
      else some (.allocating src, m)
  | .allocating src =>
    match m.allocate P src.sizeBytes (dir.target src.tier) src.alignment with
    | (.error _, m) => some (.done (.error (.error .migrationFailed)), m)
    | (.ok dst, m) => some (.copying src dst, m)
  | .copying src dst =>
    match dir.copy P m h src dst with
    | .error e => some (.done (.error e), m)
    | .ok m => some (.announcing src dst, m)
  | .announcing src dst => some (.swapping src dst, m.announce h src.tier dst.tier)
  | .swapping src dst => some (.releasing src (m.swapEntry h dst).1, (m.swapEntry h dst).2)
  | .releasing src old => some (.settling src old, dir.release P m h old)
  | .settling src old => some (.querying, m.settle src.tier old)
  | .querying => some (.done (m.answer h), m)
  | .done _ => none

/-- The steps of `free`: the part under the lock, and the accounting after it. -/
def FreerPc.advance (P : Platform) (h : Nat) (m : Impl) : FreerPc → Option (FreerPc × Impl)
  | .start =>
    match m.registry[h]? with
    | none => some (.done (.error .invalidHandle), m)
    | some a => some (.settling a, m.unlink P h a)
  | .settling a =>
    some (.done (.ok ()), m.discharge a.tier (m.alignedSize a.tier a.sizeBytes a.alignment))
  | .done _ => none

inductive Thread
  | migrator
  | freer

/-- One thread migrates the block of a handle while another one frees it. -/
structure Duel where
  m : Impl
  migrator : MigratorPc := .lookup
  freer : FreerPc := .start

def Duel.Step (P : Platform) (dir : Direction) (h : Nat) (s : Duel) : Thread → Duel → Prop
  | .migrator, s' => ∃ pc m, s.migrator.advance P dir h s.m = some (pc, m) ∧
      s' = { s with migrator := pc, m := m }
  | .freer, s' => ∃ pc m, s.freer.advance P h s.m = some (pc, m) ∧
      s' = { s with freer := pc, m := m }

section Sequential

variable {P : Platform} {dir : Direction} {h : Nat} {m : Impl} {f : FreerPc}

theorem Duel.freer_run {pc : MigratorPc} {f' : FreerPc} {m' : Impl}
    (hs : f.advance P h m = some (f', m')) {u : Duel} {tr : List (Duel × Thread)}
    (hr : Run (Duel.Step P dir h) ⟨m', pc, f'⟩ tr u) :
    Run (Duel.Step P dir h) ⟨m, pc, f⟩ ((⟨m, pc, f⟩, .freer) :: tr) u :=
  .cons (s := (⟨m, pc, f⟩ : Duel)) (a := Thread.freer) ⟨f', m', hs, rfl⟩ hr

theorem Duel.migrator_run {pc pc' : MigratorPc} {m' : Impl}
    (hs : pc.advance P dir h m = some (pc', m')) {u : Duel} {tr : List (Duel × Thread)}
    (hr : Run (Duel.Step P dir h) ⟨m', pc', f⟩ tr u) :
    Run (Duel.Step P dir h) ⟨m, pc, f⟩ ((⟨m, pc, f⟩, .migrator) :: tr) u :=
  .cons (s := (⟨m, pc, f⟩ : Duel)) (a := Thread.migrator) ⟨pc', m', hs, rfl⟩ hr

def Direction.move (P : Platform) (dir : Direction) (m : Impl) (h : Nat) (src : TierAllocation) :
    Except Abort TierAllocation × Impl :=
  match m.allocate P src.sizeBytes (dir.target src.tier) src.alignment with
  | (.error _, m) => (.error (.error .migrationFailed), m)
  | (.ok dst, m) =>
    match dir.copy P m h src dst with
    | .error e => (.error e, m)
    | .ok m =>
      let (old, m) := (m.announce h src.tier dst.tier).swapEntry h dst
      let m := (dir.release P m h old).settle src.tier old
      (m.answer h, m)

theorem Duel.move_run (dir : Direction) (src : TierAllocation) : ∃ tr, Run (Duel.Step P dir h)
    ⟨m, .allocating src, f⟩ tr ⟨(dir.move P m h src).2, .done (dir.move P m h src).1, f⟩ := by
  unfold Direction.move
  rcases ha : m.allocate P src.sizeBytes (dir.target src.tier) src.alignment with ⟨_ | dst, m₁⟩
  · exact ⟨_, migrator_run (by simp only [MigratorPc.advance, ha]) (.nil _)⟩
  · have halloc : (MigratorPc.allocating src).advance P dir h m = some (.copying src dst, m₁) := by
      simp only [MigratorPc.advance, ha]
    rcases hc : dir.copy P m₁ h src dst with e | m₂
    · have hcopy : (MigratorPc.copying src dst).advance P dir h m₁ =
          some (.done (.error e), m₁) := by
        simp only [MigratorPc.advance, hc]
      simp only [hc]
      exact ⟨_, migrator_run halloc (migrator_run hcopy (.nil _))⟩
    · have hcopy : (MigratorPc.copying src dst).advance P dir h m₁ =
          some (.announcing src dst, m₂) := by
        simp only [MigratorPc.advance, hc]
      simp only [hc]
      exact ⟨_, migrator_run halloc (migrator_run hcopy (migrator_run rfl (migrator_run rfl
        (migrator_run rfl (migrator_run rfl (migrator_run rfl (.nil _)))))))⟩

/-- With nobody in between, the steps make up a call of `promote`. -/
theorem Duel.promote_run (P : Platform) (h : Nat) (m : Impl) (f : FreerPc) :
    ∃ tr, Run (Duel.Step P .up h) ⟨m, .lookup, f⟩ tr
      ⟨(m.promote P h).2, .done (m.promote P h).1, f⟩ := by
  rcases hr : m.registry[h]? with _ | src
  · rw [show m.promote P h = (.error (.error .invalidHandle), m) by simp only [Impl.promote, hr]]
    exact ⟨_, migrator_run (by simp only [MigratorPc.advance, hr]) (.nil _)⟩
  · by_cases ht : src.tier = .hot
    · rw [show m.promote P h = (.ok src, m) by simp only [Impl.promote, hr, if_pos ht]]
      exact ⟨_, migrator_run (by simp [MigratorPc.advance, hr, Direction.edge, ht]) (.nil _)⟩
    · have hmove : m.promote P h = Direction.up.move P m h src := by
        simp only [Impl.promote, hr, if_neg ht]
        rfl
      obtain ⟨tr, htr⟩ := move_run (P := P) (h := h) (m := m) (f := f) .up src
      rw [hmove]
      exact ⟨_, migrator_run (by simp [MigratorPc.advance, hr, Direction.edge, ht]) htr⟩

theorem Duel.demote_run (P : Platform) (h : Nat) (m : Impl) (f : FreerPc) :
    ∃ tr, Run (Duel.Step P .down h) ⟨m, .lookup, f⟩ tr
      ⟨(m.demote P h).2, .done (m.demote P h).1, f⟩ := by
  rcases hr : m.registry[h]? with _ | src
  · rw [show m.demote P h = (.error (.error .invalidHandle), m) by simp only [Impl.demote, hr]]
    exact ⟨_, migrator_run (by simp only [MigratorPc.advance, hr]) (.nil _)⟩
  · by_cases ht : src.tier = .cold
    · rw [show m.demote P h = (.ok src, m) by simp only [Impl.demote, hr, if_pos ht]]
      exact ⟨_, migrator_run (by simp [MigratorPc.advance, hr, Direction.edge, ht]) (.nil _)⟩
    · cases hav : m.tierAvailable src.tier.colder with
      | false =>
        rw [show m.demote P h = (.error (.error .tierUnavailable), m) by
          simp [Impl.demote, hr, ht, hav]]
        exact ⟨_, migrator_run (by simp [MigratorPc.advance, hr, Direction.edge, ht, hav]) (.nil _)⟩
      | true =>
        have hmove : m.demote P h = Direction.down.move P m h src := by
          simp only [Impl.demote, hr, if_neg ht, hav, Bool.not_true, Bool.false_eq_true, ↓reduceIte]
          rfl
        obtain ⟨tr, htr⟩ := move_run (P := P) (h := h) (m := m) (f := f) .down src
        rw [hmove]
        exact ⟨_, migrator_run (by simp [MigratorPc.advance, hr, Direction.edge, ht, hav]) htr⟩

/-- With nobody in between, the steps make up a call of `free`. -/
theorem Duel.free_run (P : Platform) (dir : Direction) (h : Nat) (m : Impl) (pc : MigratorPc) :
    ∃ tr, Run (Duel.Step P dir h) ⟨m, pc, .start⟩ tr
      ⟨(m.free P h).2, pc, .done (m.free P h).1⟩ := by
  rcases hr : m.registry[h]? with _ | a
  · rw [show m.free P h = (.error .invalidHandle, m) by simp only [Impl.free, hr]]
    exact ⟨_, freer_run (by simp only [FreerPc.advance, hr]) (.nil _)⟩
  · have hstart : FreerPc.start.advance P h m = some (.settling a, m.unlink P h a) := by
      simp only [FreerPc.advance, hr]
    simp only [Impl.free, hr]
    exact ⟨_, freer_run hstart (freer_run rfl (.nil _))⟩

end Sequential

section Safety

open Impl

variable {P : Platform} {dir : Direction} {h : Nat} {m m' : Impl} {base : List Backing}
  {src dst : TierAllocation}

theorem Direction.copy_spec (hs : src.Shaped) (hd : dst.Shaped) (hne : src.tier ≠ dir.edge)
    (hh : src.tier = .hot → P.hasHip = true) (hh' : dst.tier = .hot → P.hasHip = true)
    (hidx : (dir.target src.tier).index ≤ dst.tier.index) :
    CopyOutcome P m src dst (dir.copy P m h src dst) := by
  cases dir with
  | up => exact copyUp_spec hs hd hne hh'
  | down => exact copyDown_spec hs hd hne hh hidx

/-- Each spill file on disk is one that `cold_files` knows. -/
def SpillsFiled (m : Impl) : Prop :=
  ∀ path, (m.os.disk path).isSome → ∃ k : Nat, m.coldFiles[k]? = some path

theorem SpillsFiled.congr (hf : SpillsFiled m) (hd : m'.os.disk = m.os.disk)
    (hc : m'.coldFiles = m.coldFiles) : SpillsFiled m' := by
  unfold SpillsFiled
  rw [hd, hc]
  exact hf

theorem SpillsFiled.passed (hf : SpillsFiled m) (hp : Passed m false m') : SpillsFiled m' := by
  have hd : m'.os.disk = m.os.disk := hp.disk
  exact hf.congr hd (by rw [hp.frame])

theorem SpillsFiled.placed {size align : UInt64} {a : TierAllocation} (hf : SpillsFiled m)
    (hb : Books P base h m none) (hp : Placed P m size align a m') : SpillsFiled m' := by
  have hcf : m'.coldFiles = if a.tier = .cold then
      m.coldFiles.insert a.handle (m.spillPath a.handle) else m.coldFiles := by rw [hp.frame]
  by_cases ht : a.tier = .cold
  · have hd := hp.disk
    rw [if_pos ht] at hcf hd
    intro path hpath
    rw [hd, update_apply] at hpath
    rw [hcf]
    split at hpath
    · next he => exact ⟨a.handle, by simp [he]⟩
    · obtain ⟨k, hk⟩ := hf path hpath
      have hne : a.handle ≠ k := by
        rintro rfl
        rw [hp.handle] at hk
        exact absurd (hb.filed hk).2 (Nat.lt_irrefl _)
      exact ⟨k, by rw [get_insert, if_neg hne, hk]⟩
  · have hd := hp.disk
    rw [if_neg ht] at hcf hd
    exact hf.congr hd hcf

theorem SpillsFiled.erased (hf : SpillsFiled m) (hr : m.removes P h)
    (hd : m'.os.disk = m.diskWithout P h) (hc : m'.coldFiles = m.coldFiles.erase h) :
    SpillsFiled m' := by
  intro path hpath
  rw [hd] at hpath
  simp only [hc, get_erase]
  rcases hown : m.coldFiles[h]? with _ | own
  · rw [diskWithout_absent hown] at hpath
    obtain ⟨k, hk⟩ := hf path hpath
    have hne : h ≠ k := by
      rintro rfl
      simp [hown] at hk
    exact ⟨k, by rwa [if_neg hne]⟩
  · simp only [diskWithout, hown, hr own hown, ↓reduceIte, update_apply] at hpath
    split at hpath
    · simp at hpath
    · next hother =>
      obtain ⟨k, hk⟩ := hf path hpath
      have hne : h ≠ k := by
        rintro rfl
        rw [hown, Option.some.injEq] at hk
        exact hother hk.symm
      exact ⟨k, by rwa [if_neg hne]⟩

theorem SpillsFiled.copied (hf : SpillsFiled m) (hc : dir.copy P m h src dst = .ok m') :
    SpillsFiled m' := by
  have hhost {p q : Nat} (hh : m.copyHost src dst p q = .ok m') : SpillsFiled m' := by
    unfold Impl.copyHost at hh
    dsimp only at hh
    split at hh
    · cases hh
      exact hf.congr rfl rfl
    · split at hh
      · cases hh
      · cases hh
        exact hf.congr rfl rfl
  cases dir with
  | up =>
    unfold Direction.copy Impl.copyUp at hc
    dsimp only at hc
    split at hc
    case h_3 =>
      split at hc
      · cases hc
        refine hf.congr ?_ rfl
        dsimp only
        unfold Os.readSpill
        split <;> rfl
      · cases hc
        exact hf
    case h_4 =>
      cases hc
      exact hf
    all_goals
      split at hc
      · exact hhost hc
      · split at hc
        · split at hc <;> cases hc <;> exact hf.congr rfl rfl
        · cases hc
          exact hf
      · cases hc
        exact hf
  | down =>
    unfold Direction.copy Impl.copyDown at hc
    dsimp only at hc
    split at hc
    case h_3 =>
      split at hc
      · cases hc
        exact hf
      · have hstage : (m.os.stage P src).2.disk = m.os.disk := by
          unfold Os.stage
          split <;> rfl
        split at hc
        · next path data hpath _ =>
          cases hc
          intro q hq
          dsimp only at hq ⊢
          unfold Os.rewriteSpill at hq
          split at hq
          · exact hf q (by rwa [← hstage])
          · dsimp only at hq
            rw [update_apply] at hq
            split at hq
            · next he => exact ⟨_, he ▸ hpath⟩
            · exact hf q (by rwa [← hstage])
        · cases hc
          exact hf.congr hstage rfl
    case h_4 =>
      cases hc
      exact hf
    all_goals
      split at hc
      · split at hc <;> cases hc <;> exact hf.congr rfl rfl
      · exact hhost hc
      · cases hc
        exact hf

/-- What a thread knows of the block it has looked up: it is still registered, or the
handle has been freed. -/
structure Seen (P : Platform) (dir : Direction) (h : Nat) (m : Impl) (src : TierAllocation) :
    Prop where
  entry : m.registry[h]? = some src ∨ m.registry[h]? = none
  issued : h < m.nextHandle
  shaped : src.Shaped
  hip : src.tier = .hot → P.hasHip = true
  notEdge : src.tier ≠ dir.edge

structure Parked (dir : Direction) (h : Nat) (m : Impl) (src dst : TierAllocation) : Prop where
  entry : m.registry[dst.handle]? = some dst
  ne : dst.handle ≠ h
  index : (dir.target src.tier).index ≤ dst.tier.index

structure InHand (P : Platform) (dir : Direction) (h : Nat) (m : Impl) (old : TierAllocation) :
    Prop where
  shaped : old.Shaped
  hip : old.tier = .hot → P.hasHip = true
  notEdge : old.tier ≠ dir.edge
  addressed : ∀ b, m.registry[h]? = some b → b.tier ≠ .cold

namespace Duel

def Knows (P : Platform) (dir : Direction) (h : Nat) (m : Impl) : MigratorPc → Prop
  | .allocating src => Seen P dir h m src
  | .copying src dst | .announcing src dst | .swapping src dst =>
    Seen P dir h m src ∧ Parked dir h m src dst
  | .releasing _ old => InHand P dir h m old
  | .lookup | .settling _ _ | .querying | .done _ => True

def inHand : MigratorPc → Option TierAllocation
  | .releasing _ old => some old
  | _ => none

/-- `free` is past its critical section and has removed the entry. -/
def Unlinked : FreerPc → Prop
  | .settling _ | .done (.ok _) => True
  | .start | .done (.error _) => False

/-- What holds at every point of the interleaving, as long as no step goes wrong. -/
structure Safe (P : Platform) (dir : Direction) (h : Nat) (base : List Backing) (s : Duel) :
    Prop where
  books : Books P base h s.m (inHand s.migrator)
  filed : SpillsFiled s.m
  knows : Knows P dir h s.m s.migrator
  freed : Unlinked s.freer → s.m.registry[h]? = none

/-- The step keeps the registry and the spill files in order: an allocation leaves no file that it
could not fill, the swap finds the handle registered and is not for a Cold block, and the removal of
a spill file succeeds. -/
def tidy (P : Platform) (dir : Direction) (h : Nat) (s : Duel) : Thread → Prop
  | .migrator =>
    match s.migrator with
    | .allocating src =>
      s.m.landingTier P src.sizeBytes (dir.target src.tier) src.alignment = none →
        s.m.littersSpill P src.sizeBytes (dir.target src.tier) src.alignment = false
    | .swapping _ dst => (s.m.registry[h]?).isSome ∧ dst.tier ≠ .cold
    | .releasing _ old => old.tier = .cold → s.m.removes P h
    | _ => True
  | .freer =>
    match s.freer with
    | .start => (s.m.registry[h]?).isSome → s.m.removes P h
    | _ => True

theorem Knows.congr {pc : MigratorPc} (hk : Knows P dir h m pc) (hr : m'.registry = m.registry)
    (hn : m'.nextHandle = m.nextHandle) : Knows P dir h m' pc := by
  have hseen {src : TierAllocation} (hs : Seen P dir h m src) : Seen P dir h m' src :=
    ⟨by rw [hr]; exact hs.entry, by rw [hn]; exact hs.issued, hs.shaped, hs.hip, hs.notEdge⟩
  have hparked {src dst : TierAllocation} (hp : Parked dir h m src dst) : Parked dir h m' src dst :=
    ⟨by rw [hr]; exact hp.entry, hp.ne, hp.index⟩
  cases pc with
  | allocating src => exact hseen hk
  | copying src dst => exact ⟨hseen hk.1, hparked hk.2⟩
  | announcing src dst => exact ⟨hseen hk.1, hparked hk.2⟩
  | swapping src dst => exact ⟨hseen hk.1, hparked hk.2⟩
  | releasing src old => exact ⟨hk.shaped, hk.hip, hk.notEdge, by rw [hr]; exact hk.addressed⟩
  | lookup => trivial
  | settling _ _ => trivial
  | querying => trivial
  | done _ => trivial

/-- The migrating thread notices nothing of the critical section of `free`. -/
theorem Knows.unlink {pc : MigratorPc} (hk : Knows P dir h m pc)
    (hr : m'.registry = m.registry.erase h) (hn : m'.nextHandle = m.nextHandle) :
    Knows P dir h m' pc := by
  have hnone : m'.registry[h]? = none := by simp [hr]
  have hseen {src : TierAllocation} (hs : Seen P dir h m src) : Seen P dir h m' src :=
    ⟨.inr hnone, by rw [hn]; exact hs.issued, hs.shaped, hs.hip, hs.notEdge⟩
  have hparked {src dst : TierAllocation} (hp : Parked dir h m src dst) : Parked dir h m' src dst :=
    ⟨by rw [hr, get_erase, if_neg hp.ne.symm, hp.entry], hp.ne, hp.index⟩
  cases pc with
  | allocating src => exact hseen hk
  | copying src dst => exact ⟨hseen hk.1, hparked hk.2⟩
  | announcing src dst => exact ⟨hseen hk.1, hparked hk.2⟩
  | swapping src dst => exact ⟨hseen hk.1, hparked hk.2⟩
  | releasing src old => exact ⟨hk.shaped, hk.hip, hk.notEdge, by simp [hnone]⟩
  | lookup => trivial
  | settling _ _ => trivial
  | querying => trivial
  | done _ => trivial

theorem unlink_books {pending : Option TierAllocation} {a : TierAllocation}
    (hb : Books P base h m pending) (ha : m.registry[h]? = some a) :
    Books P base h (m.unlink P h a) pending ∧
      (m.unlink P h a).registry = m.registry.erase h ∧
      (m.unlink P h a).nextHandle = m.nextHandle := by
  have herase {m' : Impl} (hr : m'.registry = m.registry.erase h) {k : Nat} {b : TierAllocation}
      (hk : m'.registry[k]? = some b) : m.registry[k]? = some b := by
    rw [hr, get_erase] at hk
    split at hk
    · simp at hk
    · exact hk
  have hkeep {m' : Impl} (hr : m'.registry = m.registry.erase h) {k : Nat} {b : TierAllocation}
      (hne : k ≠ h) (hk : m.registry[k]? = some b) : m'.registry[k]? = some b := by
    rw [hr, get_erase, if_neg hne.symm, hk]
  unfold Impl.unlink
  dsimp only
  by_cases ht : a.tier = .cold
  · rw [if_pos ht]
    obtain ⟨hp, hv⟩ : a.ptr = none ∧ a.devicePtr = none := by
      simpa only [TierAllocation.Shaped, ht] using hb.shaped ha
    have he := eraseSpill_spec P
      { m with lru := update m.lru a.tier ((m.lru a.tier).filter (· ≠ h)) } h
    generalize Impl.eraseSpill P _ h = m₁ at he ⊢
    obtain ⟨os, rfl⟩ : ∃ os, m₁ = _ := ⟨m₁.os, he.frame⟩
    refine ⟨?_, rfl, rfl⟩
    have hnowhere (addr : TierAllocation → Option Nat) (haddr : addr a = none) :
        update (m.refWith pending addr) (some h) none = m.refWith pending addr := by
      rw [update_eq_self_iff]
      simp [refWith, ref, ha, haddr]
    refine hb.unspill (herase rfl) rfl rfl rfl he.serial he.host he.device he.released ?_ ?_
      (hkeep rfl)
    · rw [refWith_erase (m := m) rfl, hnowhere _ hp]
    · rw [refWith_erase (m := m) rfl, hnowhere _ hv]
  · rw [if_neg ht]
    have he := deallocate_spec (P := P) (a := a)
      (m := { m with lru := update m.lru a.tier ((m.lru a.tier).filter (· ≠ h)) })
      (hb.shaped ha) (hb.hip ha)
    generalize Impl.deallocate P _ a = m₁ at he ⊢
    obtain ⟨os, rfl⟩ : ∃ os, m₁ = _ := ⟨m₁.os, he.frame⟩
    refine ⟨?_, rfl, rfl⟩
    refine hb.dealloc (k := some h) (herase rfl) rfl rfl rfl he.serial he.host he.device he.released
      (fun addr ↦ by simp [refWith, ref, ha]) (fun addr ↦ refWith_erase (m := m) rfl addr) ?_
    intro k path hk
    rcases hb.filedOwned hk with ⟨c, hc, hct⟩ | hp
    · have hne : k ≠ h := by
        rintro rfl
        rw [ha, Option.some.injEq] at hc
        exact ht (hc ▸ hct)
      exact .inl ⟨c, hkeep rfl hne hc, hct⟩
    · exact .inr hp

theorem release_books {old : TierAllocation} (hb : Books P base h m (some old))
    (hi : InHand P dir h m old) :
    Books P base h (dir.release P m h old) none ∧
      (dir.release P m h old).registry = m.registry := by
  by_cases ht : old.tier = .cold
  · obtain ⟨hp, hv⟩ : old.ptr = none ∧ old.devicePtr = none := by
      simpa only [TierAllocation.Shaped, ht] using hi.shaped
    have hrel : dir.release P m h old = m.eraseSpill P h := by
      cases dir with
      | up => simp only [Direction.release, releaseUp, ht]
      | down => exact absurd ht hi.notEdge
    have he := eraseSpill_spec P m h
    rw [hrel]
    generalize m.eraseSpill P h = m₁ at he ⊢
    obtain ⟨os, rfl⟩ : ∃ os, m₁ = _ := ⟨m₁.os, he.frame⟩
    refine ⟨?_, rfl⟩
    refine hb.unspill id rfl rfl rfl he.serial he.host he.device he.released ?_ ?_ (fun _ hk ↦ hk)
    · funext k
      cases k <;> simp [refWith, ref, hp]
    · funext k
      cases k <;> simp [refWith, ref, hv]
  · have hrel : dir.release P m h old = m.deallocate P old := by
      cases dir with
      | up => exact releaseUp_addressed hi.shaped ht
      | down => rfl
    have he := deallocate_spec (P := P) (m := m) hi.shaped hi.hip
    rw [hrel]
    generalize m.deallocate P old = m₁ at he ⊢
    obtain ⟨os, rfl⟩ : ∃ os, m₁ = _ := ⟨m₁.os, he.frame⟩
    refine ⟨?_, rfl⟩
    refine hb.dealloc (k := none) id rfl rfl rfl he.serial he.host he.device he.released
      (fun addr ↦ rfl) (fun addr ↦ ?_) ?_
    · funext k
      cases k <;> simp [refWith, ref]
    · intro k path hk
      rcases hb.filedOwned hk with hown | ⟨_, o, ho, hot⟩
      · exact .inl hown
      · rw [Option.some.injEq] at ho
        exact absurd (ho ▸ hot) ht

theorem unlink_filed {a : TierAllocation} (hf : SpillsFiled m) (hs : a.Shaped)
    (hh : a.tier = .hot → P.hasHip = true) (hr : m.removes P h) : SpillsFiled (m.unlink P h a) := by
  unfold Impl.unlink
  dsimp only
  by_cases ht : a.tier = .cold
  · rw [if_pos ht]
    have he := eraseSpill_spec P
      { m with lru := update m.lru a.tier ((m.lru a.tier).filter (· ≠ h)) } h
    exact hf.erased hr he.disk (congrArg Impl.coldFiles he.frame)
  · rw [if_neg ht]
    have he := deallocate_spec (P := P) (a := a)
      (m := { m with lru := update m.lru a.tier ((m.lru a.tier).filter (· ≠ h)) }) hs hh
    exact hf.congr he.disk (by rw [he.frame])

theorem release_filed {old : TierAllocation} (hf : SpillsFiled m) (hi : InHand P dir h m old)
    (hr : old.tier = .cold → m.removes P h) : SpillsFiled (dir.release P m h old) := by
  by_cases ht : old.tier = .cold
  · have hrel : dir.release P m h old = m.eraseSpill P h := by
      cases dir with
      | up => simp only [Direction.release, releaseUp, ht]
      | down => exact absurd ht hi.notEdge
    have he := eraseSpill_spec P m h
    rw [hrel]
    exact hf.erased (hr ht) he.disk (congrArg Impl.coldFiles he.frame)
  · have hrel : dir.release P m h old = m.deallocate P old := by
      cases dir with
      | up => exact releaseUp_addressed hi.shaped ht
      | down => rfl
    have he := deallocate_spec (P := P) (m := m) hi.shaped hi.hip
    rw [hrel]
    exact hf.congr he.disk (by rw [he.frame])

theorem Safe.lookup {s : Duel} (hs : Safe P dir h base s) (hpc : s.migrator = .lookup)
    {pc : MigratorPc} (ha : s.migrator.advance P dir h s.m = some (pc, m')) :
    Safe P dir h base { s with migrator := pc, m := m' } := by
  obtain ⟨hb, hd, -, hf⟩ := hs
  rw [hpc] at hb ha
  simp only [MigratorPc.advance] at ha
  split at ha
  · obtain ⟨rfl, rfl⟩ := Prod.mk.injEq .. ▸ Option.some.inj ha
    exact ⟨hb, hd, trivial, hf⟩
  · next src hr =>
    split at ha
    · obtain ⟨rfl, rfl⟩ := Prod.mk.injEq .. ▸ Option.some.inj ha
      exact ⟨hb, hd, trivial, hf⟩
    · next hne =>
      split at ha
      · obtain ⟨rfl, rfl⟩ := Prod.mk.injEq .. ▸ Option.some.inj ha
        exact ⟨hb, hd, trivial, hf⟩
      · obtain ⟨rfl, rfl⟩ := Prod.mk.injEq .. ▸ Option.some.inj ha
        exact ⟨hb, hd, ⟨.inl hr, hb.fresh hr, hb.shaped hr, hb.hip hr, hne⟩, hf⟩

theorem Safe.allocating {s : Duel} (hs : Safe P dir h base s)
    (hpc : s.migrator = .allocating src) (hok : s.tidy P dir h .migrator) {pc : MigratorPc}
    (ha : s.migrator.advance P dir h s.m = some (pc, m')) :
    Safe P dir h base { s with migrator := pc, m := m' } := by
  obtain ⟨hb, hd, hk, hf⟩ := hs
  simp only [tidy, hpc] at hok
  rw [hpc] at hb ha hk
  simp only [MigratorPc.advance] at ha
  cases hl : s.m.landingTier P src.sizeBytes (dir.target src.tier) src.alignment with
  | none =>
    obtain ⟨⟨e, he⟩, hp⟩ := allocate_passed hl
    rw [← Prod.mk.eta (p := s.m.allocate P _ _ _), he] at ha
    obtain ⟨rfl, rfl⟩ := Prod.mk.injEq .. ▸ Option.some.inj ha
    rw [hok hl] at hp
    refine ⟨hp.books hb, hd.passed hp, trivial, fun hu ↦ ?_⟩
    rw [← hf hu, hp.frame]
  | some t =>
    obtain ⟨dst, hdst, rfl, _, hp⟩ := allocate_placed hl
    rw [← Prod.mk.eta (p := s.m.allocate P _ _ _), hdst] at ha
    obtain ⟨rfl, rfl⟩ := Prod.mk.injEq .. ▸ Option.some.inj ha
    have hne : s.m.nextHandle ≠ h := hk.issued.ne'
    have hreg := hp.registry_eq hb
    have hlook : (s.m.allocate P src.sizeBytes (dir.target src.tier) src.alignment).2.registry[h]? =
        s.m.registry[h]? := by rw [hreg, get_insert, if_neg hne]
    refine ⟨hp.books hb, hd.placed hb hp,
      ⟨⟨by rw [hlook]; exact hk.entry, ?_, hk.shaped, hk.hip, hk.notEdge⟩,
        ⟨?_, hp.handle ▸ hne, landingTier_index hl⟩⟩, fun hu ↦ by rw [hlook]; exact hf hu⟩
    · rw [hp.frame]
      exact hk.issued.trans (Nat.lt_succ_self _)
    · rw [hreg, hp.handle, get_insert, if_pos rfl]

theorem Safe.copying {s : Duel} (hs : Safe P dir h base s)
    (hpc : s.migrator = .copying src dst) {pc : MigratorPc}
    (ha : s.migrator.advance P dir h s.m = some (pc, m')) :
    Safe P dir h base { s with migrator := pc, m := m' } := by
  obtain ⟨hb, hd, hk, hf⟩ := hs
  rw [hpc] at hb ha hk
  obtain ⟨hseen, hpark⟩ := hk
  have hshaped := hb.shaped hpark.entry
  simp only [MigratorPc.advance] at ha
  rcases Direction.copy_spec (P := P) (m := s.m) (h := h) hseen.shaped hshaped hseen.notEdge
    hseen.hip (hb.hip hpark.entry) hpark.index with ⟨he, _⟩ | ⟨m₂, he, _, hc⟩
  · rw [he] at ha
    obtain ⟨rfl, rfl⟩ := Prod.mk.injEq .. ▸ Option.some.inj ha
    exact ⟨hb, hd, trivial, hf⟩
  · rw [he] at ha
    obtain ⟨rfl, rfl⟩ := Prod.mk.injEq .. ▸ Option.some.inj ha
    have hr : m₂.registry = s.m.registry := by rw [hc.frame]
    have hn : m₂.nextHandle = s.m.nextHandle := by rw [hc.frame]
    refine ⟨hc.books hb, hd.copied he, ?_, fun hu ↦ by rw [hr]; exact hf hu⟩
    have hknow : Knows P dir h s.m (.announcing src dst) := ⟨hseen, hpark⟩
    exact hknow.congr hr hn

theorem Safe.swapping {s : Duel} (hs : Safe P dir h base s)
    (hpc : s.migrator = .swapping src dst) (hin : (s.m.registry[h]?).isSome)
    (hne : dst.tier ≠ .cold) :
    Safe P dir h base { s with
      migrator := .releasing src (s.m.swapEntry h dst).1, m := (s.m.swapEntry h dst).2 } := by
  obtain ⟨hb, hd, hk, hf⟩ := hs
  rw [hpc] at hb hk
  obtain ⟨hseen, hpark⟩ := hk
  have hsrc : s.m.registry[h]? = some src := by
    rcases hseen.entry with he | he
    · exact he
    · simp [he] at hin
  have hold : (s.m.swapEntry h dst).1 = src := by simp [Impl.swapEntry, hsrc]
  rw [hold]
  refine ⟨hb.swap hsrc hpark.entry hpark.ne hne rfl rfl rfl rfl rfl, hd.congr rfl rfl,
    ⟨hseen.shaped, hseen.hip, hseen.notEdge, fun b hb' ↦ ?_⟩, fun hu ↦ ?_⟩
  · simp only [Impl.swapEntry, get_erase, get_insert, if_neg hpark.ne, ↓reduceIte,
      Option.some.injEq] at hb'
    exact hb' ▸ hne
  · simp [hf hu] at hin

theorem step_safe (s : Duel) (t : Thread) (s' : Duel) (hs : Safe P dir h base s)
    (hok : s.tidy P dir h t) (hstep : Duel.Step P dir h s t s') : Safe P dir h base s' := by
  cases t with
  | migrator =>
    obtain ⟨pc, m', ha, rfl⟩ := hstep
    cases hpc : s.migrator with
    | lookup => exact hs.lookup hpc ha
    | allocating src => exact hs.allocating hpc hok ha
    | copying src dst => exact hs.copying hpc ha
    | announcing src dst =>
      obtain ⟨hb, hd, hk, hf⟩ := hs
      rw [hpc] at hb ha hk
      obtain ⟨rfl, rfl⟩ := Prod.mk.injEq .. ▸ Option.some.inj ha
      have hknow : Knows P dir h s.m (.swapping src dst) := hk
      exact ⟨hb.refill rfl rfl rfl rfl le_rfl (fun _ ↦ rfl) (fun _ ↦ rfl) rfl, hd.congr rfl rfl,
        hknow.congr rfl rfl, hf⟩
    | swapping src dst =>
      simp only [tidy, hpc] at hok
      rw [hpc] at ha
      obtain ⟨rfl, rfl⟩ := Prod.mk.injEq .. ▸ Option.some.inj ha
      exact hs.swapping hpc hok.1 hok.2
    | releasing src old =>
      simp only [tidy, hpc] at hok
      obtain ⟨hb, hd, hk, hf⟩ := hs
      rw [hpc] at hb ha hk
      obtain ⟨rfl, rfl⟩ := Prod.mk.injEq .. ▸ Option.some.inj ha
      obtain ⟨hb', hr⟩ := release_books hb hk
      exact ⟨hb', release_filed hd hk hok, trivial, fun hu ↦ by rw [hr]; exact hf hu⟩
    | settling src old =>
      obtain ⟨hb, hd, hk, hf⟩ := hs
      rw [hpc] at hb ha
      obtain ⟨rfl, rfl⟩ := Prod.mk.injEq .. ▸ Option.some.inj ha
      exact ⟨hb.refill rfl rfl rfl rfl le_rfl (fun _ ↦ rfl) (fun _ ↦ rfl) rfl, hd.congr rfl rfl,
        trivial, hf⟩
    | querying =>
      obtain ⟨hb, hd, hk, hf⟩ := hs
      rw [hpc] at hb ha
      obtain ⟨rfl, rfl⟩ := Prod.mk.injEq .. ▸ Option.some.inj ha
      exact ⟨hb, hd, trivial, hf⟩
    | done r => simp [hpc, MigratorPc.advance] at ha
  | freer =>
    obtain ⟨pc, m', ha, rfl⟩ := hstep
    obtain ⟨hb, hd, hk, hf⟩ := hs
    cases hpc : s.freer with
    | start =>
      simp only [hpc, FreerPc.advance] at ha
      split at ha
      · obtain ⟨rfl, rfl⟩ := Prod.mk.injEq .. ▸ Option.some.inj ha
        exact ⟨hb, hd, hk, False.elim⟩
      · next a hr =>
        obtain ⟨rfl, rfl⟩ := Prod.mk.injEq .. ▸ Option.some.inj ha
        obtain ⟨hb', hr', hn⟩ := unlink_books hb hr
        simp only [tidy, hpc, hr, Option.isSome_some, forall_const] at hok
        exact ⟨hb', unlink_filed hd (hb.shaped hr) (hb.hip hr) hok, hk.unlink hr' hn,
          fun _ ↦ by simp [hr']⟩
    | settling a =>
      rw [hpc] at ha hf
      obtain ⟨rfl, rfl⟩ := Prod.mk.injEq .. ▸ Option.some.inj ha
      exact ⟨hb.refill rfl rfl rfl rfl le_rfl (fun _ ↦ rfl) (fun _ ↦ rfl) rfl, hd.congr rfl rfl,
        hk.congr rfl rfl, fun _ ↦ hf trivial⟩
    | done r => simp [hpc, FreerPc.advance] at ha

end Duel

/-- Every live block, every spill file on disk and every entry of `cold_files` belongs to a
registered handle. -/
structure NoLeak (m : Impl) : Prop where
  host : ∀ p, (m.os.host p).isSome → ∃ (k : Nat) (a : TierAllocation),
    m.registry[k]? = some a ∧ a.ptr = some p
  device : ∀ p, (m.os.device p).isSome → ∃ (k : Nat) (a : TierAllocation),
    m.registry[k]? = some a ∧ a.devicePtr = some p
  spill : ∀ path, (m.os.disk path).isSome → ∃ (k : Nat) (a : TierAllocation),
    m.registry[k]? = some a ∧ a.tier = .cold ∧ m.coldFiles[k]? = some path
  filed : ∀ (k : Nat) path, m.coldFiles[k]? = some path → (m.registry[k]?).isSome

theorem Impl.Books.noLeak (hb : Books P base h m none) (hf : SpillsFiled m) : NoLeak m := by
  have howned {addr : TierAllocation → Option Nat} {mem : Nat → Option Buffer}
      (ho : Owns (m.refWith none addr) mem) (p : Nat) (hp : (mem p).isSome) :
      ∃ (k : Nat) (a : TierAllocation), m.registry[k]? = some a ∧ addr a = some p := by
    obtain ⟨k, hk⟩ := ho.owned hp
    cases k with
    | none => simp [refWith] at hk
    | some k =>
      obtain ⟨a, ha, hap⟩ := Option.bind_eq_some_iff.mp hk
      exact ⟨k, a, ha, hap⟩
  have hcold (k : Nat) (path : ByteString) (hk : m.coldFiles[k]? = some path) :
      ∃ a, m.registry[k]? = some a ∧ a.tier = .cold := by
    rcases hb.filedOwned hk with ha | ⟨_, _, hn, _⟩
    · exact ha
    · simp at hn
  refine ⟨howned hb.host, howned hb.device, fun path hp ↦ ?_, fun k path hk ↦ ?_⟩
  · obtain ⟨k, hk⟩ := hf path hp
    obtain ⟨a, ha, ht⟩ := hcold k path hk
    exact ⟨k, a, ha, ht, hk⟩
  · obtain ⟨a, ha, _⟩ := hcold k path hk
    simp [ha]

theorem Impl.Coherent.noLeak (hc : Coherent P m) (hs : Spilled m) : NoLeak m := by
  have hcold (k : Nat) (path : ByteString) (hk : m.coldFiles[k]? = some path) :
      (m.registry[k]?).isSome := by
    obtain ⟨a, ha, _⟩ := (hs.keys k).mp (by simp [hk])
    simp [ha]
  exact (hc.books (h := 0) hcold).noLeak fun path hp ↦ (hs.files path).mp hp

/-- One thread migrates the block of `h`, another one frees it. If the steps are tidy, a freed
handle stays out of the registry, no block is released twice, and no block and no spill file is
left over when both have returned. -/
theorem migration_races_free {cfg : TieredMemoryConfig} {hook : Option MigrationComputeHook}
    {pre : List (Impl × Call)} {tr : List (Duel × Thread)} {u : Duel}
    (hm : Run (Step P) (construct P cfg hook) pre m)
    (hclean : NoLeak m) (hr : Run (Duel.Step P dir h) { m := m } tr u)
    (hok : ∀ e ∈ tr, e.1.tidy P dir h e.2) :
    Throughout (fun s ↦ s.freer = .done (.ok ()) → s.m.registry[h]? = none) tr u ∧
      (∃ new, u.m.os.released = m.os.released ++ new ∧ new.Nodup) ∧
      (∀ r r', u.migrator = .done r → u.freer = .done r' → NoLeak u.m) := by
  have hfiled : SpillsFiled m := by
    intro path hp
    obtain ⟨k, _, _, _, hk⟩ := hclean.spill path hp
    exact ⟨k, hk⟩
  have hstart : Duel.Safe P dir h m.os.released { m := m } :=
    ⟨(run_coherent hm).2.books hclean.filed, hfiled, trivial, False.elim⟩
  obtain ⟨hmid, hend⟩ := hr.guarded Duel.step_safe hstart hok
  refine ⟨⟨fun e he hd ↦ (hmid e he).freed (by rw [hd]; trivial),
    fun hd ↦ hend.freed (by rw [hd]; trivial)⟩, ?_, fun r r' hd _ ↦ ?_⟩
  · obtain ⟨new, hnew, hnodup, _⟩ := hend.books.log
    exact ⟨new, hnew, hnodup⟩
  · have hb := hend.books
    rw [hd] at hb
    exact hb.noLeak hend.filed

/-- A promotion of a Cold block that is overtaken by `free` after its swap. -/
theorem migration_races_free_after_swap :
    ∃ m tr u, Run (Duel.Step plainHost .up 1) { m := m } tr u ∧
      tr.map (fun e ↦ e.2) = [.migrator, .migrator, .migrator, .migrator, .migrator, .freer, .freer,
        .migrator, .migrator, .migrator] ∧
      (m.os.disk (m.spillPath 1)).isSome ∧ NoLeak u.m := by
  have hm : Run (Step plainHost) (construct plainHost {}) _ _ :=
    .cons (step_allocate 1 .cold 0) (.nil _)
  have hr : Run (Duel.Step plainHost .up 1)
      { m := ((construct plainHost {}).allocate plainHost 1 .cold 0).2 } _ _ :=
    Duel.migrator_run rfl (Duel.migrator_run rfl (Duel.migrator_run rfl (Duel.migrator_run rfl
      (Duel.migrator_run rfl (Duel.freer_run rfl (Duel.freer_run rfl (Duel.migrator_run rfl
        (Duel.migrator_run rfl (Duel.migrator_run rfl (.nil _))))))))))
  have hstart := step_keeps_spilled _ (.allocate 1 .cold 0) _
    ⟨construct_coherent plainHost {} none, construct_spilled plainHost {} none⟩
    (by simp only [tidy]; decide) (step_allocate 1 .cold 0)
  refine ⟨_, _, _, hr, rfl, by decide,
    (migration_races_free hm (hstart.1.noLeak hstart.2) hr ?_).2.2 _ _ rfl rfl⟩
  simp only [List.forall_mem_cons, Duel.tidy]
  refine ⟨trivial, by decide, trivial, trivial, ⟨by decide, by decide⟩, fun _ _ _ ↦ rfl, trivial,
    fun _ _ _ ↦ rfl, trivial, trivial, by simp⟩

/-- A promotion has looked up its block and is then overtaken by `free`. The swap brings the
freed handle back. -/
theorem freed_handle_returns :
    ∃ m tr u, Run (Duel.Step plainHost .up 1) { m := m } tr u ∧
      m = ((construct plainHost {}).allocate plainHost 1 .cool 0).2 ∧
      tr.map (fun e ↦ e.2) = [.migrator, .freer, .freer, .migrator, .migrator, .migrator,
        .migrator] ∧
      u.freer = .done (.ok ()) ∧ (u.m.registry[1]?).isSome := by
  have hr : Run (Duel.Step plainHost .up 1)
      { m := ((construct plainHost {}).allocate plainHost 1 .cool 0).2 } _ _ :=
    Duel.migrator_run rfl (Duel.freer_run rfl (Duel.freer_run rfl (Duel.migrator_run rfl
      (Duel.migrator_run rfl (Duel.migrator_run rfl (Duel.migrator_run rfl (.nil _)))))))
  exact ⟨_, _, _, hr, rfl, rfl, rfl, by decide⟩

end Safety

end Cerberus.TieredMemory
