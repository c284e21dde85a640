import Cerberus.TieredMemory.Runs

namespace Cerberus.TieredMemory

open Std Function Foundation.Bytes Foundation.FiniteMap Foundation.Ownership

namespace Impl

variable {P : Platform} {m m' : Impl} {h : Nat} {base : List Backing}
  {pending pending' : Option TierAllocation} {a : TierAllocation}

def refWith (m : Impl) (pending : Option TierAllocation) (addr : TierAllocation → Option Nat) :
    Option Nat → Option Nat
  | none => pending.bind addr
  | some k => m.ref addr k

def Held (m : Impl) : Backing → Prop
  | .host p => (m.os.host p).isSome
  | .device p => (m.os.device p).isSome
  | .spill path => ∃ k : Nat, m.coldFiles[k]? = some path

/-- A block of backing store was given out before, so that it is not given out again. -/
def Issued (m : Impl) : Backing → Prop
  | .host p | .device p => p < m.os.serial
  | .spill path => ∃ k < m.nextHandle, path = m.spillPath k

/-- The blocks released after `base` are different from each other, and none is in use. -/
def Logged (base : List Backing) (m : Impl) : Prop :=
  ∃ new, m.os.released = base ++ new ∧ new.Nodup ∧ ∀ b ∈ new, m.Issued b ∧ ¬ m.Held b

/-- The books of the manager while a migration of `h` may have a replaced block in hand:
the live blocks are those of the registry and that one. -/
structure Books (P : Platform) (base : List Backing) (h : Nat) (m : Impl)
    (pending : Option TierAllocation) : Prop where
  fresh : ∀ {k : Nat} {a}, m.registry[k]? = some a → k < m.nextHandle
  shaped : ∀ {k : Nat} {a}, m.registry[k]? = some a → a.Shaped
  hip : ∀ {k : Nat} {a}, m.registry[k]? = some a → a.tier = .hot → P.hasHip = true
  filed : ∀ {k : Nat} {path}, m.coldFiles[k]? = some path →
    path = m.spillPath k ∧ k < m.nextHandle
  filedOwned : ∀ {k : Nat} {path}, m.coldFiles[k]? = some path →
    (∃ a, m.registry[k]? = some a ∧ a.tier = .cold) ∨
      k = h ∧ ∃ old, pending = some old ∧ old.tier = .cold
  host : Owns (m.refWith pending (·.ptr)) m.os.host
  device : Owns (m.refWith pending (·.devicePtr)) m.os.device
  hostBelow : ∀ {p}, (m.os.host p).isSome → p < m.os.serial
  deviceBelow : ∀ {p}, (m.os.device p).isSome → p < m.os.serial
  log : Logged base m

theorem refWith_none (m : Impl) (addr : TierAllocation → Option Nat) :
    m.refWith none addr = fun k ↦ k.bind (m.ref addr) := by
  funext k
  cases k <;> rfl

theorem Coherent.books (hc : Coherent P m)
    (hclean : ∀ (k : Nat) path, m.coldFiles[k]? = some path → (m.registry[k]?).isSome) :
    Books P m.os.released h m none where
  fresh := fun ha ↦ (hc.fresh ha).2
  shaped := hc.shaped
  hip := hc.hip
  filed := hc.filed
  filedOwned := by
    intro k path hk
    obtain ⟨a, ha⟩ := Option.isSome_iff_exists.mp (hclean k path hk)
    exact .inl ⟨a, ha, hc.filedCold hk ha⟩
  host := by
    rw [refWith_none]
    exact hc.host.option
  device := by
    rw [refWith_none]
    exact hc.device.option
  hostBelow := hc.hostBelow
  deviceBelow := hc.deviceBelow
  log := ⟨[], by simp, by simp, by simp⟩

theorem Issued.mono {b : Backing} (hb : m.Issued b) (hs : m.os.serial ≤ m'.os.serial)
    (hn : m.nextHandle ≤ m'.nextHandle) (hc : m'.cfg = m.cfg) : m'.Issued b := by
  cases b with
  | host p => exact hb.trans_le hs
  | device p => exact hb.trans_le hs
  | spill path =>
    obtain ⟨k, hk, hp⟩ := hb
    exact ⟨k, hk.trans_le hn, by rw [hp, spillPath, spillPath, hc]⟩

theorem Logged.extend (hl : Logged base m) (bs : List Backing)
    (hr : m'.os.released = m.os.released ++ bs) (hnd : bs.Nodup)
    (hbs : ∀ b ∈ bs, m.Held b ∧ m.Issued b ∧ ¬ m'.Held b)
    (hi : ∀ b, m.Issued b → m'.Issued b) (hh : ∀ b, m.Issued b → m'.Held b → m.Held b) :
    Logged base m' := by
  obtain ⟨new, hnew, hnodup, hgone⟩ := hl
  refine ⟨new ++ bs, by rw [hr, hnew, List.append_assoc], ?_, ?_⟩
  · refine List.nodup_append.mpr ⟨hnodup, hnd, ?_⟩
    rintro b hb c hc rfl
    exact (hgone b hb).2 (hbs b hc).1
  · intro b hb
    rcases List.mem_append.mp hb with hb | hb
    · exact ⟨hi b (hgone b hb).1, fun hheld ↦ (hgone b hb).2 (hh b (hgone b hb).1 hheld)⟩
    · exact ⟨hi b (hbs b hb).2.1, (hbs b hb).2.2⟩

theorem Logged.same (hl : Logged base m) (hr : m'.os.released = m.os.released)
    (hi : ∀ b, m.Issued b → m'.Issued b) (hh : ∀ b, m.Issued b → m'.Held b → m.Held b) :
    Logged base m' :=
  hl.extend [] (by simp [hr]) (by simp) (by simp) hi hh

theorem Books.refill (hb : Books P base h m pending) (hr : m'.registry = m.registry)
    (hn : m'.nextHandle = m.nextHandle) (hf : m'.coldFiles = m.coldFiles) (hcfg : m'.cfg = m.cfg)
    (hs : m.os.serial ≤ m'.os.serial)
    (hh : ∀ p, (m'.os.host p).isSome = (m.os.host p).isSome)
    (hd : ∀ p, (m'.os.device p).isSome = (m.os.device p).isSome)
    (hl : m'.os.released = m.os.released) : Books P base h m' pending where
  fresh := by rw [hr, hn]; exact hb.fresh
  shaped := by rw [hr]; exact hb.shaped
  hip := by rw [hr]; exact hb.hip
  filed := by
    unfold spillPath
    rw [hf, hn, hcfg]
    exact hb.filed
  filedOwned := by rw [hf, hr]; exact hb.filedOwned
  host := by
    have : m'.refWith pending (·.ptr) = m.refWith pending (·.ptr) := by
      funext k
      cases k <;> simp [refWith, ref, hr]
    rw [this]
    exact hb.host.congr hh
  device := by
    have : m'.refWith pending (·.devicePtr) = m.refWith pending (·.devicePtr) := by
      funext k
      cases k <;> simp [refWith, ref, hr]
    rw [this]
    exact hb.device.congr hd
  hostBelow := fun hp ↦ (hb.hostBelow (by rwa [← hh])).trans_le hs
  deviceBelow := fun hp ↦ (hb.deviceBelow (by rwa [← hd])).trans_le hs
  log := by
    refine hb.log.same hl (fun b hi ↦ hi.mono hs hn.ge hcfg) (fun b _ hheld ↦ ?_)
    cases b with
    | host p =>
      simpa only [Held, hh] using hheld
    | device p =>
      simpa only [Held, hd] using hheld
    | spill path =>
      simpa only [Held, hf] using hheld

theorem Passed.books {l : Bool} (hp : Passed m l m') (hb : Books P base h m pending) :
    Books P base h m' pending := by
  have hf := hp.frame
  refine hb.refill ?_ ?_ ?_ ?_ hp.serial ?_ ?_ hp.released
  all_goals first | (rw [hf]; done) | (intro p; first | rw [hp.host] | rw [hp.device])

theorem refills_isSome {mem mem' : Nat → Option Buffer} {p : Option Nat} (hr : Refills mem mem' p)
    (q : Nat) : (mem' q).isSome = (mem q).isSome := by
  cases p with
  | none => rw [hr]
  | some p =>
    by_cases hq : q = p
    · rw [hq, hr.2]
    · rw [hr.1 q hq]

theorem Copied.books {src dst : TierAllocation} (hp : Copied P m src dst m')
    (hb : Books P base h m pending) : Books P base h m' pending := by
  have hf := hp.frame
  refine hb.refill ?_ ?_ ?_ ?_ hp.serial (refills_isSome hp.host) (refills_isSome hp.device)
    hp.released
  all_goals rw [hf]

theorem refWith_insert {k : Nat} (hr : m'.registry = m.registry.insert k a)
    (addr : TierAllocation → Option Nat) :
    m'.refWith pending addr = update (m.refWith pending addr) (some k) (addr a) := by
  funext j
  cases j with
  | none => rw [update_of_ne (by simp)]; rfl
  | some j =>
    simp only [refWith, ref_insert hr, update_apply, Option.some.injEq]

theorem refWith_erase {k : Nat} (hr : m'.registry = m.registry.erase k)
    (addr : TierAllocation → Option Nat) :
    m'.refWith pending addr = update (m.refWith pending addr) (some k) none := by
  funext j
  cases j with
  | none => rw [update_of_ne (by simp)]; rfl
  | some j =>
    simp only [refWith, ref_erase hr, update_apply, Option.some.injEq]

theorem Placed.registry_eq {size align : UInt64} (hp : Placed P m size align a m')
    (hb : Books P base h m pending) : m'.registry = m.registry.insert m.nextHandle a := by
  rw [hp.frame, hp.handle]
  refine insertIfNew_fresh _ _ ?_
  cases hr : m.registry[m.nextHandle]? with
  | none => rfl
  | some c => exact absurd (hb.fresh hr) (Nat.lt_irrefl _)

theorem Placed.books {size align : UInt64} (hp : Placed P m size align a m')
    (hb : Books P base h m pending) : Books P base h m' pending := by
  have hf := hp.frame
  have hunused : m.registry[m.nextHandle]? = none := by
    cases hr : m.registry[m.nextHandle]? with
    | none => rfl
    | some c => exact absurd (hb.fresh hr) (Nat.lt_irrefl _)
  have hr := hp.registry_eq hb
  have hn : m'.nextHandle = m.nextHandle + 1 := by rw [hf]
  have hcfg : m'.cfg = m.cfg := by rw [hf]
  have hpath (k : Nat) : m'.spillPath k = m.spillPath k := by simp only [spillPath, hcfg]
  have hfile {k : Nat} {path} (hk : m'.coldFiles[k]? = some path) :
      m.nextHandle = k ∧ a.tier = .cold ∧ path = m.spillPath k ∨ m.coldFiles[k]? = some path := by
    have hcf : m'.coldFiles = if a.tier = .cold then
        m.coldFiles.insert a.handle (m.spillPath a.handle) else m.coldFiles := by rw [hf]
    rw [hcf, hp.handle] at hk
    split at hk
    · next ht =>
      rw [get_insert] at hk
      split at hk
      · next he => exact .inl ⟨he, ht, by rw [← he]; simpa using hk.symm⟩
      · exact .inr hk
    · exact .inr hk
  have hlook (k : Nat) :
      m'.registry[k]? = if m.nextHandle = k then some a else m.registry[k]? := by
    rw [hr, get_insert]
  have href (addr : TierAllocation → Option Nat) :
      m.refWith pending addr (some m.nextHandle) = none := by simp [refWith, ref, hunused]
  constructor
  case fresh =>
    intro k c hk
    rw [hlook] at hk
    split at hk
    · omega
    · have := hb.fresh hk
      omega
  case shaped =>
    intro k c hk
    rw [hlook] at hk
    split at hk
    · exact (Option.some.inj hk) ▸ hp.shaped
    · exact hb.shaped hk
  case hip =>
    intro k c hk
    rw [hlook] at hk
    split at hk
    · exact (Option.some.inj hk) ▸ hp.hip
    · exact hb.hip hk
  case filed =>
    intro k path hk
    rw [hpath, hn]
    rcases hfile hk with ⟨he, _, hpk⟩ | hk
    · exact ⟨hpk, by omega⟩
    · have := hb.filed hk
      exact ⟨this.1, by omega⟩
  case filedOwned =>
    intro k path hk
    rcases hfile hk with ⟨he, ht, _⟩ | hk
    · exact .inl ⟨a, by rw [hlook, if_pos he], ht⟩
    · have hne : m.nextHandle ≠ k := (hb.filed hk).2.ne'
      rw [hlook, if_neg hne]
      exact hb.filedOwned hk
  case host =>
    rw [refWith_insert hr]
    exact Owns.grow hb.host (href _) (fun _ ↦ hb.hostBelow) hp.host
  case device =>
    rw [refWith_insert hr]
    exact Owns.grow hb.device (href _) (fun _ ↦ hb.deviceBelow) hp.device
  case hostBelow => exact fun hq ↦ Grows.below hp.host hb.hostBelow hp.serial hq
  case deviceBelow => exact fun hq ↦ Grows.below hp.device hb.deviceBelow hp.serial hq
  case log =>
    refine hb.log.same hp.released (fun b hi ↦ hi.mono hp.serial (by omega) hcfg)
      (fun b hi hheld ↦ ?_)
    cases b with
    | host p => exact (congrArg Option.isSome (hp.host.old hi)).symm.trans hheld
    | device p => exact (congrArg Option.isSome (hp.device.old hi)).symm.trans hheld
    | spill path =>
      obtain ⟨k, hk⟩ := hheld
      rcases hfile hk with ⟨he, _, hpk⟩ | hk
      · obtain ⟨j, hj, hpj⟩ := hi
        have := spillPath_injective m (hpj.symm.trans hpk)
        omega
      · exact ⟨k, hk⟩

theorem blocks_nodup (a : TierAllocation) : a.blocks.Nodup := by
  unfold TierAllocation.blocks
  cases a.ptr <;> cases a.devicePtr <;> simp

theorem Books.dealloc {k : Option Nat} (hb : Books P base h m pending)
    (hreg : ∀ {k : Nat} {b}, m'.registry[k]? = some b → m.registry[k]? = some b)
    (hn : m'.nextHandle = m.nextHandle) (hf : m'.coldFiles = m.coldFiles) (hcfg : m'.cfg = m.cfg)
    (hs : m.os.serial ≤ m'.os.serial) (hhost : Shrinks m.os.host m'.os.host a.ptr)
    (hdev : Shrinks m.os.device m'.os.device a.devicePtr)
    (hrel : m'.os.released = m.os.released ++ a.blocks)
    (hk : ∀ addr : TierAllocation → Option Nat, m.refWith pending addr k = addr a)
    (href : ∀ addr : TierAllocation → Option Nat,
      m'.refWith pending' addr = update (m.refWith pending addr) k none)
    (hown : ∀ {k : Nat} {path}, m.coldFiles[k]? = some path →
      (∃ a, m'.registry[k]? = some a ∧ a.tier = .cold) ∨
        k = h ∧ ∃ old, pending' = some old ∧ old.tier = .cold) :
    Books P base h m' pending' where
  fresh := fun ha ↦ hn ▸ hb.fresh (hreg ha)
  shaped := fun ha ↦ hb.shaped (hreg ha)
  hip := fun ha ↦ hb.hip (hreg ha)
  filed := by
    unfold spillPath
    rw [hf, hn, hcfg]
    exact hb.filed
  filedOwned := fun hk ↦ hown (hf ▸ hk)
  host := by
    rw [href]
    exact Owns.shrink hb.host (hk _ ▸ hhost)
  device := by
    rw [href]
    exact Owns.shrink hb.device (hk _ ▸ hdev)
  hostBelow := fun hq ↦ (hb.hostBelow (hhost.isSome hq)).trans_le hs
  deviceBelow := fun hq ↦ (hb.deviceBelow (hdev.isSome hq)).trans_le hs
  log := by
    refine hb.log.extend _ hrel (blocks_nodup a) (fun b hmem ↦ ?_)
      (fun b hi ↦ hi.mono hs hn.ge hcfg) (fun b _ hheld ↦ ?_)
    · simp only [TierAllocation.blocks, List.mem_append, Option.mem_toList,
        Option.map_eq_some_iff] at hmem
      rcases hmem with ⟨p, hp, rfl⟩ | ⟨p, hp, rfl⟩
      · have hlive := hb.host.live ((hk (·.ptr)).trans hp)
        exact ⟨hlive, hb.hostBelow hlive, fun hq ↦ hhost.gone hq hp⟩
      · have hlive := hb.device.live ((hk (·.devicePtr)).trans hp)
        exact ⟨hlive, hb.deviceBelow hlive, fun hq ↦ hdev.gone hq hp⟩
    · cases b with
      | host p => exact hhost.isSome hheld
      | device p => exact hdev.isSome hheld
      | spill path => simpa only [Held, hf] using hheld

theorem Books.unspill (hb : Books P base h m pending)
    (hreg : ∀ {k : Nat} {b}, m'.registry[k]? = some b → m.registry[k]? = some b)
    (hn : m'.nextHandle = m.nextHandle) (hf : m'.coldFiles = m.coldFiles.erase h)
    (hcfg : m'.cfg = m.cfg) (hs : m.os.serial ≤ m'.os.serial) (hhost : m'.os.host = m.os.host)
    (hdev : m'.os.device = m.os.device)
    (hrel : m'.os.released = m.os.released ++ ((m.coldFiles[h]?).map .spill).toList)
    (href : m'.refWith pending' (·.ptr) = m.refWith pending (·.ptr))
    (hrefd : m'.refWith pending' (·.devicePtr) = m.refWith pending (·.devicePtr))
    (hown : ∀ {k : Nat} {a}, k ≠ h → m.registry[k]? = some a → m'.registry[k]? = some a) :
    Books P base h m' pending' := by
  have hfile {k : Nat} {path} (hk : m'.coldFiles[k]? = some path) :
      k ≠ h ∧ m.coldFiles[k]? = some path := by
    rw [hf, get_erase] at hk
    split at hk
    · simp at hk
    · next hne => exact ⟨Ne.symm hne, hk⟩
  constructor
  case fresh => exact fun ha ↦ hn ▸ hb.fresh (hreg ha)
  case shaped => exact fun ha ↦ hb.shaped (hreg ha)
  case hip => exact fun ha ↦ hb.hip (hreg ha)
  case filed =>
    intro k path hk
    rw [spillPath, hcfg, hn]
    exact hb.filed (hfile hk).2
  case filedOwned =>
    intro k path hk
    obtain ⟨hkh, hk⟩ := hfile hk
    rcases hb.filedOwned hk with ⟨c, hc, ht⟩ | ⟨he, _⟩
    · exact .inl ⟨c, hown hkh hc, ht⟩
    · exact absurd he hkh
  case host => rw [href, hhost]; exact hb.host
  case device => rw [hrefd, hdev]; exact hb.device
  case hostBelow =>
    rw [hhost]
    exact fun hq ↦ (hb.hostBelow hq).trans_le hs
  case deviceBelow =>
    rw [hdev]
    exact fun hq ↦ (hb.deviceBelow hq).trans_le hs
  case log =>
    refine hb.log.extend _ hrel (by cases m.coldFiles[h]? <;> simp) (fun b hmem ↦ ?_)
      (fun b hi ↦ hi.mono hs hn.ge hcfg) (fun b _ hheld ↦ ?_)
    · simp only [Option.mem_toList, Option.map_eq_some_iff] at hmem
      obtain ⟨path, hp, rfl⟩ := hmem
      obtain ⟨hpath, hlt⟩ := hb.filed hp
      refine ⟨⟨h, hp⟩, ⟨h, hlt, hpath⟩, ?_⟩
      rintro ⟨k, hk⟩
      obtain ⟨hkh, hk⟩ := hfile hk
      exact hkh (spillPath_injective m ((hb.filed hk).1.symm.trans hpath))
    · cases b with
      | host p => simpa only [Held, hhost] using hheld
      | device p => simpa only [Held, hdev] using hheld
      | spill path =>
        obtain ⟨k, hk⟩ := hheld
        exact ⟨k, (hfile hk).2⟩

/-- The registry swap of a migration: the replaced block is in hand, and its place is taken
by the block that was registered under the temporary handle. -/
theorem Books.swap {src dst : TierAllocation} (hb : Books P base h m none)
    (ha : m.registry[h]? = some src) (hd : m.registry[dst.handle]? = some dst)
    (hne : dst.handle ≠ h) (ht : dst.tier ≠ .cold)
    (hr : m'.registry = (m.registry.insert h { dst with handle := h }).erase dst.handle)
    (hn : m'.nextHandle = m.nextHandle) (hf : m'.coldFiles = m.coldFiles) (hcfg : m'.cfg = m.cfg)
    (hos : m'.os = m.os) : Books P base h m' (some src) := by
  have hlook (k : Nat) : m'.registry[k]? = if dst.handle = k then none
      else if h = k then some { dst with handle := h } else m.registry[k]? := by
    rw [hr, get_erase, get_insert]
  have hnew {k : Nat} {b} (hk : m'.registry[k]? = some b) :
      k = h ∧ b = { dst with handle := h } ∨ m.registry[k]? = some b := by
    rw [hlook] at hk
    split at hk
    · simp at hk
    · split at hk
      · next he => exact .inl ⟨he.symm, (Option.some.inj hk).symm⟩
      · exact .inr hk
  have href {addr : TierAllocation → Option Nat} {mem : Nat → Option Buffer}
      (haddr : addr { dst with handle := h } = addr dst) (ho : Owns (m.refWith none addr) mem) :
      Owns (m'.refWith (some src) addr) mem := by
    have hσ : m'.refWith (some src) addr = fun k ↦ m.refWith none addr
        ((Equiv.swap (some h) (some dst.handle)).trans (Equiv.swap none (some h)) k) := by
      funext k
      cases k with
      | none => simp [refWith, ref, ha, Equiv.swap_apply_of_ne_of_ne]
      | some k =>
        by_cases hkh : h = k
        · subst hkh
          simp [refWith, ref, hlook, hne, hd, haddr, Equiv.swap_apply_of_ne_of_ne]
        · by_cases hkd : dst.handle = k
          · subst hkd
            simp [refWith, ref, hlook]
          · have hfix : (Equiv.swap (some h) (some dst.handle)).trans (Equiv.swap none (some h))
                (some k) = some k := by
              simp [Equiv.swap_apply_of_ne_of_ne, Ne.symm hkh, Ne.symm hkd]
            simp only [hfix, refWith, ref, hlook, if_neg hkd, if_neg hkh]
    rw [hσ]
    exact ho.reindex _
  constructor
  case fresh =>
    intro k b hk
    rw [hn]
    rcases hnew hk with ⟨rfl, _⟩ | hk
    · exact hb.fresh ha
    · exact hb.fresh hk
  case shaped =>
    intro k b hk
    rcases hnew hk with ⟨_, rfl⟩ | hk
    · exact (show dst.Shaped from hb.shaped hd)
    · exact hb.shaped hk
  case hip =>
    intro k b hk
    rcases hnew hk with ⟨_, rfl⟩ | hk
    · exact (show dst.tier = .hot → P.hasHip = true from hb.hip hd)
    · exact hb.hip hk
  case filed =>
    unfold spillPath
    rw [hf, hn, hcfg]
    exact hb.filed
  case filedOwned =>
    intro k path hk
    rw [hf] at hk
    obtain ⟨c, hc, hct⟩ | ⟨_, _, hp, _⟩ := hb.filedOwned hk
    · by_cases hkh : h = k
      · subst hkh
        rw [ha, Option.some.injEq] at hc
        exact .inr ⟨rfl, src, rfl, hc ▸ hct⟩
      · have hkd : dst.handle ≠ k := by
          rintro rfl
          rw [hd, Option.some.injEq] at hc
          exact ht (hc ▸ hct)
        exact .inl ⟨c, by rw [hlook, if_neg hkd, if_neg hkh, hc], hct⟩
    · simp at hp
  case host => rw [hos]; exact href rfl hb.host
  case device => rw [hos]; exact href rfl hb.device
  case hostBelow => rw [hos]; exact hb.hostBelow
  case deviceBelow => rw [hos]; exact hb.deviceBelow
  case log =>
    refine hb.log.same (by rw [hos]) (fun b hi ↦ hi.mono (by rw [hos]) hn.ge hcfg)
      (fun b _ hheld ↦ ?_)
    cases b with
    | host p => simpa only [Held, hos] using hheld
    | device p => simpa only [Held, hos] using hheld
    | spill path => simpa only [Held, hf] using hheld

end Impl

end Cerberus.TieredMemory
