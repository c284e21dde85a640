import Cerberus.Glow.Model

/-! What every operation keeps of the bonds. -/

namespace Cerberus.Glow

open Std Foundation

variable {K : Type} [Field K] {bonds : Bonds K} {bond : GraphEdgeBond K} {a b c d : Int}
  {cap rate : K}

namespace Bonds

theorem find_put (bonds : Bonds K) (a b : Int) (bond : GraphEdgeBond K) (c d : Int) :
    (bonds.put a b bond).find c d = if a = c ∧ b = d then some bond else bonds.find c d := by
  by_cases hac : a = c
  · subst hac
    by_cases hbd : b = d
    · simp [find, targets, put, hbd]
    · simp [find, targets, put, FiniteMap.get_insert, hbd]
  · simp [find, targets, put, FiniteMap.get_insert, hac]

theorem find_ensureBond (bonds : Bonds K) (a b : Int) :
    (bonds.ensureBond (a, b)).find a b =
      some ((bonds.find a b).getD { fromNode := a, toNode := b }) := by
  unfold ensureBond
  cases hfind : bonds.find a b with
  | none => simp [find_put]
  | some bond => simp [hfind]

theorem find_ensureBond_ne (bonds : Bonds K) (h : ¬(a = c ∧ b = d)) :
    (bonds.ensureBond (a, b)).find c d = bonds.find c d := by
  unfold ensureBond
  split
  · rw [find_put, if_neg h]
  · rfl

variable [LinearOrder K]

theorem find_decayAll (bonds : Bonds K) (rate : K) (a b : Int) :
    (bonds.decayAll rate).find a b = (bonds.find a b).bind (decayed rate) := by
  rw [find, find, targets, targets, decayAll, ExtTreeMap.getElem?_filterMap']
  cases hs : bonds[a]? with
  | none => simp
  | some ts =>
    have hget : (ts.filterMap (fun _ bond ↦ decayed rate bond))[b]? =
        ts[b]?.bind (decayed rate) := ExtTreeMap.getElem?_filterMap'
    rw [Option.bind_some, Option.getD_some, decayedTargets, ← hget]
    split
    · next hempty =>
      rw [ExtTreeMap.isEmpty_iff.mp hempty]
      rfl
    · rfl

end Bonds

variable [LinearOrder K]

structure GraphEdgeBond.Sound (cap : K) (a b : Int) (bond : GraphEdgeBond K) : Prop where
  fromNode : bond.fromNode = a
  toNode : bond.toNode = b
  base : bond.baseStrength = 1 / 2
  nonneg : 0 ≤ bond.learnedWeight
  capped : bond.learnedWeight ≤ cap

def Bonds.Sound (cap : K) (bonds : Bonds K) : Prop :=
  ∀ a b bond, bonds.find a b = some bond → bond.Sound cap a b

namespace Bonds

theorem sound_empty (cap : K) : Bonds.Sound cap (∅ : Bonds K) := by
  intro a b bond hbond
  simp [find, targets] at hbond

theorem Sound.step (hcap : 0 ≤ cap) (h : bonds.Sound cap)
    {f : GraphEdgeBond K → GraphEdgeBond K}
    (hf : ∀ bond, bond.Sound cap a b → (f bond).Sound cap a b) :
    ((bonds.ensureBond (a, b)).change f (a, b)).Sound cap := by
  intro c d bond hbond
  rw [change, find_put] at hbond
  split at hbond
  · next heq =>
    obtain ⟨rfl, rfl⟩ := heq
    cases hbond
    rw [find_ensureBond, Option.getD_some]
    apply hf
    cases hfind : bonds.find a b with
    | none => exact ⟨rfl, rfl, rfl, le_rfl, hcap⟩
    | some bond => exact h a b bond hfind
  · next hne =>
    rw [find_ensureBond_ne bonds hne] at hbond
    exact h c d bond hbond

theorem Sound.foldl (hcap : 0 ≤ cap) {f : GraphEdgeBond K → GraphEdgeBond K}
    (hf : ∀ a b bond, bond.Sound cap a b → (f bond).Sound cap a b) (edges : List (Int × Int))
    (h : bonds.Sound cap) :
    (edges.foldl (fun bonds edge ↦ (bonds.ensureBond edge).change f edge) bonds).Sound cap := by
  induction edges generalizing bonds with
  | nil => exact h
  | cons edge edges ih =>
    apply ih
    exact h.step hcap (hf edge.1 edge.2)

end Bonds

section

variable [IsStrictOrderedRing K]

theorem Bonds.Sound.decayAll (hrate : 0 ≤ rate) (h : bonds.Sound cap) :
    (bonds.decayAll rate).Sound cap := by
  intro a b bond hbond
  rw [Bonds.find_decayAll] at hbond
  obtain ⟨old, hold, hdecayed⟩ := Option.bind_eq_some_iff.mp hbond
  have hsound := h a b old hold
  unfold Bonds.decayed at hdecayed
  dsimp only at hdecayed
  split at hdecayed
  · cases hdecayed
  · cases hdecayed
    have hle : old.learnedWeight - rate ≤ cap := (sub_le_self _ hrate).trans hsound.capped
    exact ⟨hsound.fromNode, hsound.toNode, hsound.base, le_max_left _ _,
      max_le (hsound.nonneg.trans hsound.capped) hle⟩

end

inductive Operation (K : Type)
  | recordExecution (nodePath : List Int)
  | reinforcePath (path : List Int) (reward : K)
  | decayAll (decayRate : K)
  | reset

namespace Operation

def apply (e : GlowEngine K) : Operation K → GlowEngine K
  | recordExecution nodePath => e.recordExecution nodePath
  | reinforcePath path reward => e.reinforcePath path reward
  | decayAll decayRate => e.decayAll decayRate
  | reset => e.reset

def Valid : Operation K → Prop
  | recordExecution _ => True
  | reinforcePath _ reward => 0 ≤ reward
  | decayAll decayRate => 0 ≤ decayRate
  | reset => True

end Operation

def run (cap : K) (ops : List (Operation K)) : GlowEngine K :=
  ops.foldl Operation.apply { weightCap := cap }

variable [IsStrictOrderedRing K] {e : GlowEngine K} {op : Operation K}

structure GlowEngine.Sound (cap : K) (e : GlowEngine K) : Prop where
  weightCap : e.weightCap = cap
  bonds : e.bonds.Sound cap

theorem sound_apply (hcap : 0 ≤ cap) (h : e.Sound cap) (hop : op.Valid) :
    (op.apply e).Sound cap := by
  cases op with
  | recordExecution nodePath =>
    rw [Operation.apply, GlowEngine.recordExecution]
    split
    · exact h
    · refine ⟨h.weightCap, h.bonds.foldl hcap ?_ _⟩
      intro a b bond hbond
      exact ⟨hbond.fromNode, hbond.toNode, hbond.base, hbond.nonneg, hbond.capped⟩
  | reinforcePath path reward =>
    rw [Operation.apply, GlowEngine.reinforcePath]
    split
    · exact h
    · refine ⟨h.weightCap, h.bonds.foldl hcap ?_ _⟩
      intro a b bond hbond
      refine ⟨hbond.fromNode, hbond.toNode, hbond.base, ?_, ?_⟩
      · rw [h.weightCap]
        exact le_min hcap (add_nonneg hbond.nonneg hop)
      · rw [h.weightCap]
        exact min_le_left _ _
  | decayAll decayRate => exact ⟨h.weightCap, h.bonds.decayAll hop⟩
  | reset => exact ⟨h.weightCap, Bonds.sound_empty cap⟩

theorem sound_run (hcap : 0 ≤ cap) {ops : List (Operation K)} (hops : ∀ op ∈ ops, op.Valid) :
    (run cap ops).Sound cap := by
  induction ops using List.reverseRecOn with
  | nil => exact ⟨rfl, Bonds.sound_empty cap⟩
  | append_singleton ops op ih =>
    rw [run, List.foldl_append]
    apply sound_apply hcap
    · exact ih (fun o ho ↦ hops o (List.mem_append_left _ ho))
    · exact hops op (by simp)

theorem GraphEdgeBond.Sound.strength (h : bond.Sound cap a b) :
    0 < bond.combinedStrength ∧ bond.combinedStrength ≤ 1 := by
  have hhalf : (0 : K) < 1 / 2 := by norm_num
  have hlearned : 0 ≤ bond.learnedWeight * (1 / 10) := mul_nonneg h.nonneg (by norm_num)
  rw [combinedStrength, h.base]
  split
  · next hlt => exact ⟨by linarith, hlt.le⟩
  · exact ⟨one_pos, le_rfl⟩

end Cerberus.Glow
