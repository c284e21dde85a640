import Cerberus.Foundation.Trace
import Cerberus.Staging.Manager
import Mathlib.Data.List.Perm.Basic

namespace Cerberus.Staging

open Foundation.Trace EmbeddingStagingManager

/-- A release is given a copy of a buffer that was acquired before, or any other buffer. -/
inductive StagingCall
  | acquire
  | releaseCopy (t : Nat)
  | releaseOther (buf : StagingBuffer)

/-- A manager, the buffers it has handed out so far, and those of them that were not released,
by their number. -/
structure Lending where
  manager : EmbeddingStagingManager
  issued : List StagingBuffer := []
  outstanding : List Nat := []

namespace Lending

def call (s : Lending) : StagingCall → Lending
  | .acquire =>
    match s.manager.acquire with
    | (none, m) => { s with manager := m }
    | (some buf, m) =>
      { manager := m, issued := s.issued ++ [buf]
        outstanding := s.outstanding ++ [s.issued.length] }
  | .releaseCopy t =>
    match s.issued[t]? with
    | none => s
    | some buf => { s with manager := s.manager.release buf, outstanding := s.outstanding.erase t }
  | .releaseOther buf => { s with manager := s.manager.release buf }

/-- No byte belongs to two buffers that are out, and every buffer is out or available. -/
structure Exclusive (count : Nat) (s : Lending) : Prop where
  apart : ∀ t ∈ s.outstanding, ∀ t' ∈ s.outstanding, t ≠ t' →
    ∀ b ∈ s.issued[t]?, ∀ b' ∈ s.issued[t']?, ∀ a, ¬ (b.Holds a ∧ b'.Holds a)
  counted : s.manager.availableCount + s.outstanding.length = count

/-- What is released is out and has bytes, or it is nothing that the manager would know. -/
def Returns (s : Lending) : StagingCall → Prop
  | .acquire => True
  | .releaseCopy t => ∀ buf ∈ s.issued[t]?, t ∈ s.outstanding ↔ 0 < buf.length
  | .releaseOther buf => ∀ b ∈ s.manager.buffers, b.empty = true ∨ b.data ≠ buf.data

/-- Each buffer that was handed out has its place in the pool, and those that are out fill the
places that are not free. -/
structure Placed (cfg : StagingConfig) (s : Lending) : Prop where
  laid : Laid cfg s.manager.buffers
  distinct : s.outstanding.Nodup
  issued : ∀ t ∈ s.outstanding, t < s.issued.length
  place : ∃ place : Nat → Nat,
    (∀ t, ∀ buf ∈ s.issued[t]?, ∃ b, s.manager.buffers[place t]? = some b ∧ buf = b.staging) ∧
      (s.manager.freeIndices ++ s.outstanding.map place).Perm (List.range cfg.bufferCount)

variable {cfg : StagingConfig} {s : Lending}

theorem Placed.exclusive (h : s.Placed cfg) : s.Exclusive cfg.bufferCount := by
  obtain ⟨place, hplace, hperm⟩ := h.place
  constructor
  · intro t ht t' ht' hne b hb b' hb' a hholds
    obtain ⟨c, hc, rfl⟩ := hplace t b hb
    obtain ⟨c', hc', rfl⟩ := hplace t' b' hb'
    have hnodup := (List.nodup_append.mp (hperm.nodup_iff.mpr List.nodup_range)).2.1
    have hplaces : place t ≠ place t' :=
      fun he ↦ hne (List.inj_on_of_nodup_map hnodup ht ht' he)
    have hapart := h.laid.apart _ _ c c' hplaces hc hc'
    have hsize := h.laid.size c (List.mem_of_getElem? hc)
    have hsize' := h.laid.size c' (List.mem_of_getElem? hc')
    simp only [StagingBuffer.Holds, HostBuffer.staging] at hholds
    rw [Apart] at hapart
    omega
  · have hlen := hperm.length_eq
    simpa [availableCount] using hlen

theorem Placed.acquire (h : s.Placed cfg) : (s.call .acquire).Placed cfg := by
  obtain ⟨place, hplace, hperm⟩ := h.place
  rw [call]
  cases hfree : s.manager.freeIndices with
  | nil =>
    rw [EmbeddingStagingManager.acquire, hfree]
    exact h
  | cons idx free =>
    have hidx : idx < s.manager.buffers.length := by
      rw [h.laid.count]
      exact List.mem_range.mp (hperm.mem_iff.mp (by simp [hfree]))
    rw [acquire_cons hfree (List.getElem?_eq_getElem hidx)]
    dsimp only
    have hnew : s.issued.length ∉ s.outstanding := fun hmem ↦ (h.issued _ hmem).ne rfl
    refine ⟨h.laid, ?_, ?_, Function.update place s.issued.length idx, ?_, ?_⟩
    · rw [List.nodup_append_comm]
      exact List.nodup_cons.mpr ⟨hnew, h.distinct⟩
    · intro t ht
      rw [List.length_append, List.length_singleton]
      rcases List.mem_append.mp ht with hold | hlast
      · exact (h.issued t hold).trans (Nat.lt_succ_self _)
      · rw [List.mem_singleton.mp hlast]
        exact Nat.lt_succ_self _
    · intro t buf hbuf
      by_cases ht : t = s.issued.length
      · subst ht
        rw [Function.update_self]
        have hlast : s.manager.buffers[idx].staging = buf := by simpa using hbuf
        exact ⟨_, List.getElem?_eq_getElem hidx, hlast.symm⟩
      · rw [Function.update_of_ne ht]
        have hlt : t < s.issued.length := by
          have := (List.getElem?_eq_some_iff.mp hbuf).choose
          rw [List.length_append, List.length_singleton] at this
          omega
        have hold : s.issued[t]? = some buf := (List.getElem?_append_left hlt).symm.trans hbuf
        exact hplace t buf hold
    · -- the place at the front of the queue is now that of the new buffer
      have hmap : s.outstanding.map (Function.update place s.issued.length idx) =
          s.outstanding.map place :=
        List.map_congr_left (fun t ht ↦ Function.update_of_ne (ne_of_mem_of_not_mem ht hnew) ..)
      rw [List.map_append, hmap, List.map_singleton, Function.update_self, ← List.append_assoc]
      rw [hfree] at hperm
      exact (List.perm_append_singleton idx _).trans hperm

theorem Placed.releaseCopy {t : Nat} (h : s.Placed cfg) (hok : s.Returns (.releaseCopy t)) :
    (s.call (.releaseCopy t)).Placed cfg := by
  obtain ⟨place, hplace, hperm⟩ := h.place
  rw [call]
  cases hbuf : s.issued[t]? with
  | none => exact h
  | some buf =>
    obtain ⟨b, hb, rfl⟩ := hplace t buf hbuf
    have hiff : t ∈ s.outstanding ↔ 0 < b.bufSize := hok _ hbuf
    have hsize := h.laid.size b (List.mem_of_getElem? hb)
    refine ⟨?_, h.distinct.erase t, fun t' ht' ↦ h.issued t' (List.mem_of_mem_erase ht'), place,
      ?_, ?_⟩
    · simpa using h.laid
    · simpa using hplace
    · by_cases hpos : 0 < b.bufSize
      · have hrec := recognized_buffer h.laid (hsize ▸ hpos) hb
        have herase := List.perm_cons_erase (hiff.mpr hpos)
        dsimp only
        rw [release_known hrec, List.append_assoc]
        exact ((herase.map place).append_left _).symm.trans hperm
      · have hrec := recognized_none h.laid (by omega) b.data
        dsimp only
        rw [release_unknown hrec, List.erase_of_not_mem (fun hmem ↦ hpos (hiff.mp hmem))]
        exact hperm

/-- A copy of a buffer that is no longer out makes one too many available, and a buffer without
bytes is lost. -/
theorem Placed.releaseCopy_breaks {t : Nat} (h : s.Placed cfg)
    (hbad : ¬ s.Returns (.releaseCopy t)) :
    ¬ (s.call (.releaseCopy t)).Exclusive cfg.bufferCount := by
  intro hex
  refine hbad (fun buf hbuf ↦ ?_)
  have hold := h.exclusive.counted
  have hnew := hex.counted
  obtain ⟨place, hplace, -⟩ := h.place
  obtain ⟨b, hb, rfl⟩ := hplace t buf hbuf
  have hsize := h.laid.size b (List.mem_of_getElem? hb)
  rw [Option.mem_def] at hbuf
  simp only [call, hbuf, availableCount] at hold hnew
  change t ∈ s.outstanding ↔ 0 < b.bufSize
  have hlen := List.length_erase_of_mem (a := t) (l := s.outstanding)
  by_cases hpos : 0 < b.bufSize
  · rw [release_known (recognized_buffer h.laid (hsize ▸ hpos) hb)] at hnew
    refine iff_of_true ?_ hpos
    by_contra hout
    rw [List.erase_of_not_mem hout] at hnew
    simp only [List.length_append, List.length_singleton] at hnew
    omega
  · rw [release_unknown (recognized_none h.laid (by omega) _)] at hnew
    refine iff_of_false ?_ hpos
    intro hout
    have hshort := List.length_pos_of_mem hout
    rw [hlen hout] at hnew
    omega

theorem recognized_eq_none {m : EmbeddingStagingManager} {buf : StagingBuffer} :
    m.recognized buf.data = none ↔ ∀ b ∈ m.buffers, b.empty = true ∨ b.data ≠ buf.data := by
  rw [recognized, List.findIdx?_eq_none_iff]
  refine forall₂_congr (fun b _ ↦ ?_)
  by_cases hempty : b.empty = true
  · simp [hempty]
  · simp [hempty]

theorem Placed.releaseOther {buf : StagingBuffer} (h : s.Placed cfg)
    (hok : s.Returns (.releaseOther buf)) : (s.call (.releaseOther buf)).Placed cfg := by
  rw [call, release_unknown (recognized_eq_none.mpr hok)]
  exact h

theorem Placed.releaseOther_breaks {buf : StagingBuffer} (h : s.Placed cfg)
    (hbad : ¬ s.Returns (.releaseOther buf)) :
    ¬ (s.call (.releaseOther buf)).Exclusive cfg.bufferCount := by
  intro hex
  have hold := h.exclusive.counted
  have hnew := hex.counted
  rw [call] at hnew
  cases hrec : s.manager.recognized buf.data with
  | none => exact hbad (recognized_eq_none.mp hrec)
  | some i =>
    rw [release_known hrec] at hnew
    simp only [availableCount, List.length_append, List.length_singleton] at hold hnew
    omega

def fresh (a : Allocation cfg) : Lending := { manager := make a }

theorem fresh_placed (a : Allocation cfg) : (fresh a).Placed cfg :=
  ⟨make_laid a, List.nodup_nil, by simp [fresh], id, by simp [fresh], by simp [fresh, make]⟩

def single : Allocation ⟨1, 4, false⟩ where
  pinned := fun _ ↦ 0
  vec := fun _ ↦ 16
  pinned_empty := fun h ↦ absurd h (by decide)
  pinned_apart := fun i hi j hj hij ↦ absurd (show i = j by dsimp only at hi hj; omega) hij
  vec_apart := fun i hi j hj hij ↦ absurd (show i = j by dsimp only at hi hj; omega) hij

theorem quadruple_apart {i j : Nat} (h : i ≠ j) : Apart (16 + 4 * i) (16 + 4 * j) 4 := by
  simp only [Apart]
  omega

def double : Allocation ⟨2, 4, false⟩ where
  pinned := fun _ ↦ 0
  vec := fun i ↦ 16 + 4 * i
  pinned_empty := fun h ↦ absurd h (by decide)
  pinned_apart := fun _ _ _ _ _ h0 ↦ absurd rfl h0
  vec_apart := fun _ _ _ _ hij ↦ quadruple_apart hij

end Lending

end Cerberus.Staging
