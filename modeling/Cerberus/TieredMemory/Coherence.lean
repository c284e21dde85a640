import Cerberus.TieredMemory.Placement
import Cerberus.Foundation.FiniteMap
import Cerberus.Foundation.Ownership

namespace Cerberus.TieredMemory

open Std Function Foundation.Bytes Foundation.FiniteMap Foundation.Ownership

namespace Impl

def ref (m : Impl) (addr : TierAllocation → Option Nat) (h : Nat) : Option Nat :=
  (m.registry[h]?).bind addr

/-- What holds of the manager whatever calls it has served: handles come from the counter,
an LRU list names live blocks of its tier at most once, a spill file is kept under the
handle it was created for and only while that block is Cold, and the blocks of host and
device memory are those of the registry. -/
structure Coherent (P : Platform) (m : Impl) : Prop where
  next : 0 < m.nextHandle
  fresh : ∀ {h : Nat} {a}, m.registry[h]? = some a → 0 < h ∧ h < m.nextHandle
  handle : ∀ {h : Nat} {a}, m.registry[h]? = some a → a.handle = h
  shaped : ∀ {h : Nat} {a}, m.registry[h]? = some a → a.Shaped
  hip : ∀ {h : Nat} {a}, m.registry[h]? = some a → a.tier = .hot → P.hasHip = true
  lruLive : ∀ {t h}, h ∈ m.lru t → ∃ a, m.registry[h]? = some a ∧ a.tier = t
  lruNodup : ∀ t, (m.lru t).Nodup
  filed : ∀ {h : Nat} {path}, m.coldFiles[h]? = some path →
    path = m.spillPath h ∧ h < m.nextHandle
  filedCold : ∀ {h : Nat} {path a}, m.coldFiles[h]? = some path →
    m.registry[h]? = some a → a.tier = .cold
  host : Owns (m.ref (·.ptr)) m.os.host
  device : Owns (m.ref (·.devicePtr)) m.os.device
  hostBelow : ∀ {p}, (m.os.host p).isSome → p < m.os.serial
  deviceBelow : ∀ {p}, (m.os.device p).isSome → p < m.os.serial

variable {P : Platform} {m m' : Impl} {h : Nat} {a src dst : TierAllocation}
  {size align : UInt64}

theorem ref_empty {addr : TierAllocation → Option Nat} (hr : m.registry = ∅) :
    m.ref addr = fun _ ↦ none := by
  funext h
  simp [ref, hr]

theorem ref_insert {addr : TierAllocation → Option Nat}
    (hr : m'.registry = m.registry.insert h a) : m'.ref addr = update (m.ref addr) h (addr a) := by
  funext k
  simp only [ref, hr, get_insert, update_apply]
  by_cases hk : h = k
  · simp [hk]
  · simp [hk, Ne.symm hk]

theorem ref_erase {addr : TierAllocation → Option Nat}
    (hr : m'.registry = m.registry.erase h) : m'.ref addr = update (m.ref addr) h none := by
  funext k
  simp only [ref, hr, get_erase, update_apply]
  by_cases hk : h = k
  · simp [hk]
  · simp [hk, Ne.symm hk]

theorem spillPath_injective (m : Impl) : Injective m.spillPath := by
  intro h k he
  simp only [spillPath, List.append_cancel_left_eq, List.append_cancel_right_eq] at he
  exact hexadecimal_injective he

theorem construct_coherent (P : Platform) (cfg : TieredMemoryConfig)
    (hook : Option MigrationComputeHook) : Coherent P (construct P cfg hook) where
  next := Nat.one_pos
  fresh := by simp [construct]
  handle := by simp [construct]
  shaped := by simp [construct]
  hip := by simp [construct]
  lruLive := by simp [construct]
  lruNodup := by simp [construct]
  filed := by simp [construct]
  filedCold := by simp [construct]
  host := by rw [ref_empty rfl]; exact Owns.empty
  device := by rw [ref_empty rfl]; exact Owns.empty
  hostBelow := by simp [construct]
  deviceBelow := by simp [construct]

theorem Coherent.refill (hc : Coherent P m) (hr : m'.registry = m.registry)
    (hn : m'.nextHandle = m.nextHandle) (hl : m'.lru = m.lru) (hf : m'.coldFiles = m.coldFiles)
    (hcfg : m'.cfg = m.cfg) (hs : m.os.serial ≤ m'.os.serial)
    (hh : ∀ p, (m'.os.host p).isSome = (m.os.host p).isSome)
    (hd : ∀ p, (m'.os.device p).isSome = (m.os.device p).isSome) : Coherent P m' where
  next := by rw [hn]; exact hc.next
  fresh := by rw [hr, hn]; exact hc.fresh
  handle := by rw [hr]; exact hc.handle
  shaped := by rw [hr]; exact hc.shaped
  hip := by rw [hr]; exact hc.hip
  lruLive := by rw [hl, hr]; exact hc.lruLive
  lruNodup := by rw [hl]; exact hc.lruNodup
  filed := by
    unfold spillPath
    rw [hf, hn, hcfg]
    exact hc.filed
  filedCold := by rw [hf, hr]; exact hc.filedCold
  host := by
    unfold ref
    rw [hr]
    exact hc.host.congr hh
  device := by
    unfold ref
    rw [hr]
    exact hc.device.congr hd
  hostBelow := fun hp ↦ (hc.hostBelow (by rwa [← hh])).trans_le hs
  deviceBelow := fun hp ↦ (hc.deviceBelow (by rwa [← hd])).trans_le hs

theorem Passed.coherent {l : Bool} (hp : Passed m l m') (hc : Coherent P m) : Coherent P m' := by
  have hf := hp.frame
  refine hc.refill ?_ ?_ ?_ ?_ ?_ hp.serial ?_ ?_
  all_goals first | (rw [hf]; done) | (intro p; first | rw [hp.host] | rw [hp.device])

theorem Coherent.unused (hc : Coherent P m) : m.registry[m.nextHandle]? = none := by
  cases hr : m.registry[m.nextHandle]? with
  | none => rfl
  | some a => exact absurd (hc.fresh hr).2 (Nat.lt_irrefl _)

theorem Coherent.unfiled (hc : Coherent P m) : m.coldFiles[m.nextHandle]? = none := by
  cases hr : m.coldFiles[m.nextHandle]? with
  | none => rfl
  | some a => exact absurd (hc.filed hr).2 (Nat.lt_irrefl _)

theorem Coherent.unlisted (hc : Coherent P m) (t : MemoryTier) : m.nextHandle ∉ m.lru t := by
  intro hm
  obtain ⟨a, ha, _⟩ := hc.lruLive hm
  exact absurd (hc.fresh ha).2 (Nat.lt_irrefl _)

theorem Owns.grow {K : Type} [DecidableEq K] {ref : K → Option Nat} {mem mem' : Nat → Option Buffer}
    {k : K} {lo hi : Nat} {p : Option Nat} (h : Owns ref mem) (hk : ref k = none)
    (hlo : ∀ q, (mem q).isSome → q < lo) (hg : Grows lo hi mem mem' p) :
    Owns (update ref k p) mem' := by
  cases p with
  | none =>
    rw [← hk, update_eq_self]
    exact hg ▸ h
  | some p =>
    obtain ⟨hp, _, b, rfl⟩ := hg
    refine h.claim hk ?_ b
    cases hm : mem p with
    | none => rfl
    | some c => exact absurd (hlo p (by simp [hm])) (Nat.not_lt.mpr hp)

theorem Grows.below {lo hi : Nat} {mem mem' : Nat → Option Buffer} {p : Option Nat} {q : Nat}
    (hg : Grows lo hi mem mem' p) (hlo : (mem q).isSome → q < lo) (hle : lo ≤ hi)
    (hq : (mem' q).isSome) : q < hi := by
  cases p with
  | none => exact (hlo (hg ▸ hq)).trans_le hle
  | some p =>
    obtain ⟨_, hp, b, rfl⟩ := hg
    by_cases hqp : q = p
    · exact hqp ▸ hp
    · rw [update_of_ne hqp] at hq
      exact (hlo hq).trans_le hle

theorem Placed.coherent (hp : Placed P m size align a m') (hc : Coherent P m) :
    Coherent P m' := by
  have hf := hp.frame
  have hh := hp.handle
  have hr : m'.registry = m.registry.insert a.handle a := by
    rw [hf, hh]
    exact insertIfNew_fresh _ _ hc.unused
  have hlook (k : Nat) :
      m'.registry[k]? = if m.nextHandle = k then some a else m.registry[k]? := by
    rw [hr, get_insert, hh]
  have hn : m'.nextHandle = m.nextHandle + 1 := by rw [hf]
  have hl : m'.lru = update m.lru a.tier (m.nextHandle :: m.lru a.tier) := by rw [hf, hh]
  have hfiles (k : Nat) {path} (hk : m'.coldFiles[k]? = some path) :
      m.nextHandle = k ∧ a.tier = .cold ∧ path = m.spillPath k ∨ m.coldFiles[k]? = some path := by
    have hcf : m'.coldFiles = if a.tier = .cold then
        m.coldFiles.insert a.handle (m.spillPath a.handle) else m.coldFiles := by rw [hf]
    rw [hcf, hh] at hk
    split at hk
    · next ht =>
      rw [get_insert] at hk
      split at hk
      · next he => exact .inl ⟨he, ht, by rw [← he]; simpa using hk.symm⟩
      · exact .inr hk
    · exact .inr hk
  have href (addr : TierAllocation → Option Nat) : m.ref addr a.handle = none := by
    simp [ref, hh, hc.unused]
  constructor
  case next => omega
  case fresh =>
    intro k c hk
    rw [hlook] at hk
    split at hk
    · next he => exact ⟨he ▸ hc.next, by omega⟩
    · have := hc.fresh hk
      exact ⟨this.1, by omega⟩
  case handle =>
    intro k c hk
    rw [hlook] at hk
    split at hk
    · next he => exact (Option.some.inj hk) ▸ hh.trans he
    · exact hc.handle hk
  case shaped =>
    intro k c hk
    rw [hlook] at hk
    split at hk
    · exact (Option.some.inj hk) ▸ hp.shaped
    · exact hc.shaped hk
  case hip =>
    intro k c hk
    rw [hlook] at hk
    split at hk
    · exact (Option.some.inj hk) ▸ hp.hip
    · exact hc.hip hk
  case lruLive =>
    intro t k hk
    rw [hl, update_apply] at hk
    split at hk
    · next ht =>
      rcases List.mem_cons.mp hk with rfl | hk
      · exact ⟨a, by simp [hlook], ht.symm⟩
      · obtain ⟨c, hc', htc⟩ := hc.lruLive hk
        have hne : m.nextHandle ≠ k := fun he ↦ hc.unlisted a.tier (he ▸ hk)
        exact ⟨c, by simp [hlook, hne, hc'], ht ▸ htc⟩
    · obtain ⟨c, hc', htc⟩ := hc.lruLive hk
      have hne : m.nextHandle ≠ k := fun he ↦ hc.unlisted t (he ▸ hk)
      exact ⟨c, by simp [hlook, hne, hc'], htc⟩
  case lruNodup =>
    intro t
    rw [hl, update_apply]
    split
    · exact List.nodup_cons.mpr ⟨hc.unlisted _, hc.lruNodup _⟩
    · exact hc.lruNodup t
  case filed =>
    intro k path hk
    have hpath : m'.spillPath k = m.spillPath k := by rw [hf]; rfl
    rw [hpath, hn]
    rcases hfiles k hk with ⟨he, _, hpk⟩ | hk
    · exact ⟨hpk, by omega⟩
    · have := hc.filed hk
      exact ⟨this.1, by omega⟩
  case filedCold =>
    intro k path c hk hkc
    rw [hlook] at hkc
    rcases hfiles k hk with ⟨he, ht, _⟩ | hk
    · rw [if_pos he] at hkc
      exact (Option.some.inj hkc) ▸ ht
    · have hne : m.nextHandle ≠ k := by rintro rfl; simp [hc.unfiled] at hk
      rw [if_neg hne] at hkc
      exact hc.filedCold hk hkc
  case host =>
    rw [ref_insert hr]
    exact Owns.grow hc.host (href _) (fun _ ↦ hc.hostBelow) hp.host
  case device =>
    rw [ref_insert hr]
    exact Owns.grow hc.device (href _) (fun _ ↦ hc.deviceBelow) hp.device
  case hostBelow => exact fun hq ↦ Grows.below hp.host hc.hostBelow hp.serial hq
  case deviceBelow => exact fun hq ↦ Grows.below hp.device hc.deviceBelow hp.serial hq

end Impl

end Cerberus.TieredMemory
