import Cerberus.Foundation.Descending
import Cerberus.Foundation.FiniteMap

namespace Cerberus.Glow

open Std Foundation

section

variable (K : Type) [Field K]

structure GraphEdgeBond where
  fromNode : Int := -1
  toNode : Int := -1
  baseStrength : K := 1 / (2 : ℕ)
  learnedWeight : K := 0
  traversalCount : UInt32 := 0

structure GlowPath where
  nodes : List Int
  totalAmplitude : K := 0
  hopCount : Nat := 0

structure GlowStats where
  reinforcementsApplied : UInt64 := 0
  decayCyclesCompleted : UInt64 := 0
  pathsLearned : UInt64 := 0
  averageLearnedWeight : K := 0
  activeBondCount : Nat := 0

abbrev Bonds := ExtTreeMap Int (ExtTreeMap Int (GraphEdgeBond K))

structure GlowEngine where
  bonds : Bonds K := ∅
  recentPaths : List (GlowPath K) := []
  stats : GlowStats K := {}
  weightCap : K := 2

end

variable {K : Type} [Field K] [LinearOrder K]

namespace GraphEdgeBond

/-- Combined strength = base + learned (capped at 1.0) -/
def combinedStrength (b : GraphEdgeBond K) : K :=
  let v := b.baseStrength + b.learnedWeight * (1 / (10 : ℕ))
  if v < 1 then v else 1

/-- Attenuate amplitude across hops (inverse-linear fade). -/
def attenuate (b : GraphEdgeBond K) (amplitude : K) (hops : Nat) : K :=
  amplitude * b.combinedStrength / ((hops + 1 : Nat) : K)

end GraphEdgeBond

def edges (path : List Int) : List (Int × Int) := path.zip path.tail

namespace Bonds

variable (bonds : Bonds K)

def targets (source : Int) : ExtTreeMap Int (GraphEdgeBond K) := (bonds[source]?).getD ∅

def find (source target : Int) : Option (GraphEdgeBond K) := (bonds.targets source)[target]?

def put (source target : Int) (bond : GraphEdgeBond K) : Bonds K :=
  bonds.insert source ((bonds.targets source).insert target bond)

/-- `ensure_bond_` -/
def ensureBond (edge : Int × Int) : Bonds K :=
  if (bonds.find edge.1 edge.2).isNone then
    bonds.put edge.1 edge.2 { fromNode := edge.1, toNode := edge.2 }
  else bonds

/-- A change of `bonds_[from][to]`, which is there after `ensure_bond_`. -/
def change (f : GraphEdgeBond K → GraphEdgeBond K) (edge : Int × Int) : Bonds K :=
  bonds.put edge.1 edge.2 (f ((bonds.find edge.1 edge.2).getD {}))

/-- What `decay_all` leaves of a bond. -/
def decayed (decayRate : K) (bond : GraphEdgeBond K) : Option (GraphEdgeBond K) :=
  let weight := max 0 (bond.learnedWeight - decayRate)
  if weight ≤ 0 ∧ bond.traversalCount = 0 then none
  else some { bond with learnedWeight := weight }

/-- What `decay_all` leaves of the bonds from one node. -/
def decayedTargets (decayRate : K) (targets : ExtTreeMap Int (GraphEdgeBond K)) :
    Option (ExtTreeMap Int (GraphEdgeBond K)) :=
  let targets := targets.filterMap (fun _ bond ↦ decayed decayRate bond)
  if targets.isEmpty then none else some targets

def decayAll (decayRate : K) : Bonds K :=
  bonds.filterMap (fun _ targets ↦ decayedTargets decayRate targets)

end Bonds

def pathAmplitude (bonds : Bonds K) (path : List Int) : K :=
  (edges path).foldl (fun amp edge ↦
    match bonds.find edge.1 edge.2 with
    | some bond => amp * bond.combinedStrength
    | none => amp) 1

namespace GlowEngine

variable (e : GlowEngine K)

def recordExecution (nodePath : List Int) : GlowEngine K :=
  if nodePath.length < 2 then e
  else
    let bonds := (edges nodePath).foldl (fun bonds edge ↦
      (bonds.ensureBond edge).change
        (fun bond ↦ { bond with traversalCount := bond.traversalCount + 1 }) edge) e.bonds
    let recentPaths := e.recentPaths ++ [{
      nodes := nodePath
      totalAmplitude := pathAmplitude bonds nodePath
      hopCount := (nodePath.length - 1) % 2 ^ 32 }]
    { e with
      bonds := bonds
      recentPaths := if recentPaths.length > 10000 then recentPaths.drop 5000 else recentPaths
      stats := { e.stats with pathsLearned := e.stats.pathsLearned + 1 } }

def reinforcePath (path : List Int) (reward : K) : GlowEngine K :=
  if path.length < 2 then e
  else { e with
    bonds := (edges path).foldl (fun bonds edge ↦
      (bonds.ensureBond edge).change
        (fun bond ↦ { bond with learnedWeight := min e.weightCap (bond.learnedWeight + reward) })
        edge) e.bonds
    stats := { e.stats with
      reinforcementsApplied := e.stats.reinforcementsApplied + (path.length - 1).toUInt64 } }

def decayAll (decayRate : K) : GlowEngine K :=
  { e with
    bonds := e.bonds.decayAll decayRate
    stats := { e.stats with decayCyclesCompleted := e.stats.decayCyclesCompleted + 1 } }

def reset : GlowEngine K := { e with bonds := ∅, recentPaths := [], stats := {} }

def getBond (source target : Int) : Option (GraphEdgeBond K) := e.bonds.find source target

def snapshot : GlowStats K :=
  let weights := e.bonds.toList.flatMap (fun t ↦ t.2.toList.map (fun b ↦ b.2.learnedWeight))
  { e.stats with
    activeBondCount := weights.length
    averageLearnedWeight :=
      if weights.length > 0 then weights.sum / ((weights.length : Nat) : K)
      else e.stats.averageLearnedWeight }

end GlowEngine

/-- How the two calls of `std::sort` order what compares equal. -/
structure Sorts (K : Type) [Field K] [LinearOrder K] where
  bonds : DescendingSort (fun b : GraphEdgeBond K ↦ b.combinedStrength)
  paths : DescendingSort (fun p : GlowPath K ↦ p.totalAmplitude)

def recorded (pathSoFar : List Int) (amplitude : K) (hops : Nat) : List (GlowPath K) :=
  if pathSoFar.length ≥ 2 then
    [{ nodes := pathSoFar, totalAmplitude := amplitude, hopCount := hops }]
  else []

/-- `traverse_hot_` with what it adds to the results, to a depth of recursion that is enough where
the result is `some`. -/
def traverseHot (sorts : Sorts K) (bonds : Bonds K) (maxHops : Nat) (floor : K) :
    Nat → Int → K → Nat → List (GlowPath K) → List Int → Option (List (GlowPath K))
  | 0, _, _, _, _, _ => none
  | fuel + 1, current, amplitude, hops, results, pathSoFar =>
    if amplitude < floor ∨ hops > maxHops then some results
    else
      let pathSoFar := pathSoFar ++ [current]
      let results := results ++ recorded pathSoFar amplitude hops
      match bonds[current]? with
      | none => some results
      | some targets =>
        (sorts.bonds.sort (targets.toList.map Prod.snd)).foldlM (fun results bond ↦
          traverseHot sorts bonds maxHops floor fuel bond.toNode (bond.attenuate amplitude hops)
            (hops + 1) results pathSoFar) results

def GlowEngine.queryHotPaths (sorts : Sorts K) (fuel : Nat) (e : GlowEngine K) (startNode : Int)
    (minStrength : K) (maxHops maxResults : Nat) : Option (List (GlowPath K)) := do
  let results ← traverseHot sorts e.bonds maxHops minStrength fuel startNode 1 0 [] []
  let results := sorts.paths.sort results
  some (if results.length > maxResults then results.take maxResults else results)

end Cerberus.Glow
