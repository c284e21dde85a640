import Cerberus.Glow.Weights

/-! The search for hot paths finds every hot walk once. -/

namespace Cerberus.Glow

open Std Foundation

section

variable {K : Type} [Field K]

def walkAmplitude (strength : Int → Int → K) (nodes : List Int) : K :=
  ((edges nodes).zipIdx.map (fun e ↦ strength e.1.1 e.1.2 / ((e.2 + 1 : Nat) : K))).prod

def along (strength : Int → Int → K) (amplitude : K) (hops : Nat) : Int → List Int → K
  | _, [] => amplitude
  | current, n :: rest =>
    along strength (amplitude * strength current n / ((hops + 1 : Nat) : K)) (hops + 1) n rest

theorem along_eq (strength : Int → Int → K) (amplitude : K) (hops : Nat) (current : Int)
    (rest : List Int) : along strength amplitude hops current rest = amplitude *
      (((edges (current :: rest)).zipIdx hops).map
        (fun e ↦ strength e.1.1 e.1.2 / ((e.2 + 1 : Nat) : K))).prod := by
  induction rest generalizing amplitude hops current with
  | nil => simp [along, edges]
  | cons n rest ih =>
    have hedges : edges (current :: n :: rest) = (current, n) :: edges (n :: rest) := rfl
    rw [along, ih, hedges, List.zipIdx_cons, List.map_cons, List.prod_cons, ← mul_assoc,
      mul_div_assoc]

theorem along_start (strength : Int → Int → K) (start : Int) (rest : List Int) :
    along strength 1 0 start rest = walkAmplitude strength (start :: rest) := by
  rw [along_eq, one_mul, walkAmplitude]

theorem mem_recorded {p : GlowPath K} {path : List Int} {amplitude : K} {hops : Nat} :
    p ∈ recorded path amplitude hops ↔
      2 ≤ path.length ∧ p = { nodes := path, totalAmplitude := amplitude, hopCount := hops } := by
  unfold recorded
  split
  · next hlong => simp [hlong]
  · next hshort => simp [hshort]

end

variable {K : Type} [Field K] [LinearOrder K]

namespace Bonds

def strength (bonds : Bonds K) (a b : Int) : K :=
  ((bonds.find a b).map GraphEdgeBond.combinedStrength).getD 0

def Bonded (bonds : Bonds K) (a b : Int) : Prop := ∃ bond, bonds.find a b = some bond

def outgoing (sorts : Sorts K) (bonds : Bonds K) (current : Int) : List (GraphEdgeBond K) :=
  sorts.bonds.sort ((bonds.targets current).toList.map Prod.snd)

end Bonds

/-- A walk of 1 to `maxHops` bonds from a node, with an amplitude that is large enough. -/
structure HotWalk (bonds : Bonds K) (start : Int) (floor : K) (maxHops : Nat) (p : GlowPath K) :
    Prop where
  starts : p.nodes.head? = some start
  bonded : p.nodes.IsChain bonds.Bonded
  hops : p.nodes.length = p.hopCount + 1
  atLeastOne : 1 ≤ p.hopCount
  atMost : p.hopCount ≤ maxHops
  amplitude : p.totalAmplitude = walkAmplitude bonds.strength p.nodes
  strong : floor ≤ p.totalAmplitude

/-- What the search finds from a node on, without its accumulator. -/
def walksFrom (sorts : Sorts K) (bonds : Bonds K) (maxHops : Nat) (floor : K) :
    Nat → Int → K → Nat → List Int → List (GlowPath K)
  | 0, _, _, _, _ => []
  | fuel + 1, current, amplitude, hops, pathSoFar =>
    if amplitude < floor ∨ hops > maxHops then []
    else
      recorded (pathSoFar ++ [current]) amplitude hops ++
      (bonds.outgoing sorts current).flatMap (fun bond ↦
        walksFrom sorts bonds maxHops floor fuel bond.toNode (bond.attenuate amplitude hops)
          (hops + 1) (pathSoFar ++ [current]))

variable {sorts : Sorts K} {bonds : Bonds K} {bond : GraphEdgeBond K} {cap floor amplitude : K}
  {maxHops fuel hops depth : Nat} {current n : Int} {path rest : List Int} {p : GlowPath K}

theorem foldlM_append {α β : Type} {step : List β → α → Option (List β)} {g : α → List β}
    {l : List α} (h : ∀ a ∈ l, ∀ acc, step acc a = some (acc ++ g a)) (acc : List β) :
    l.foldlM step acc = some (acc ++ l.flatMap g) := by
  induction l generalizing acc with
  | nil => simp
  | cons a l ih =>
    rw [List.foldlM_cons, h a List.mem_cons_self]
    have hrest := ih (fun b hb ↦ h b (List.mem_cons_of_mem _ hb)) (acc ++ g a)
    rw [List.flatMap_cons, ← List.append_assoc]
    exact hrest

theorem mem_outgoing (h : bonds.Sound cap) : bond ∈ bonds.outgoing sorts current ↔
    bonds.find current bond.toNode = some bond := by
  rw [Bonds.outgoing, (sorts.bonds.perm _).mem_iff, List.mem_map]
  constructor
  · rintro ⟨⟨n, b⟩, hmem, rfl⟩
    have hfind : bonds.find current n = some b := ExtTreeMap.mem_toList_iff_getElem?_eq_some.mp hmem
    rw [(h current n b hfind).toNode]
    exact hfind
  · intro hfind
    exact ⟨(bond.toNode, bond), ExtTreeMap.mem_toList_iff_getElem?_eq_some.mpr hfind, rfl⟩

theorem outgoing_nodup (sorts : Sorts K) (h : bonds.Sound cap) (current : Int) :
    ((bonds.outgoing sorts current).map GraphEdgeBond.toNode).Nodup := by
  have hperm := (sorts.bonds.perm ((bonds.targets current).toList.map Prod.snd)).map
    GraphEdgeBond.toNode
  rw [Bonds.outgoing, hperm.nodup_iff, List.map_map]
  have hkeys : (bonds.targets current).toList.map (GraphEdgeBond.toNode ∘ Prod.snd) =
      (bonds.targets current).keys := by
    rw [← ExtTreeMap.map_fst_toList_eq_keys]
    apply List.map_congr_left
    rintro ⟨n, b⟩ hmem
    exact (h current n b (ExtTreeMap.mem_toList_iff_getElem?_eq_some.mp hmem)).toNode
  rw [hkeys]
  exact ExtTreeMap.nodup_keys

theorem attenuate_eq (h : bonds.find current bond.toNode = some bond) (amplitude : K)
    (hops : Nat) : bond.attenuate amplitude hops =
      amplitude * bonds.strength current bond.toNode / ((hops + 1 : Nat) : K) := by
  rw [GraphEdgeBond.attenuate, Bonds.strength, h]
  rfl

variable [IsStrictOrderedRing K]

theorem strength_bounds (h : bonds.Sound cap) (a b : Int) :
    0 ≤ bonds.strength a b ∧ bonds.strength a b ≤ 1 := by
  rw [Bonds.strength]
  cases hfind : bonds.find a b with
  | none => exact ⟨le_rfl, zero_le_one⟩
  | some bond =>
    have hbond := (h a b bond hfind).strength
    exact ⟨hbond.1.le, hbond.2⟩

theorem hop_bounds (h : bonds.Sound cap) (hamp : 0 ≤ amplitude) (a b : Int) (hops : Nat) :
    0 ≤ amplitude * bonds.strength a b / ((hops + 1 : Nat) : K) ∧
    amplitude * bonds.strength a b / ((hops + 1 : Nat) : K) ≤ amplitude := by
  obtain ⟨hnonneg, hle⟩ := strength_bounds h a b
  have hpos : (1 : K) ≤ ((hops + 1 : Nat) : K) := by exact_mod_cast Nat.le_add_left 1 hops
  constructor
  · exact div_nonneg (mul_nonneg hamp hnonneg) (zero_le_one.trans hpos)
  · calc amplitude * bonds.strength a b / ((hops + 1 : Nat) : K)
        ≤ amplitude * bonds.strength a b := div_le_self (mul_nonneg hamp hnonneg) hpos
      _ ≤ amplitude := mul_le_of_le_one_right hamp hle

/-- So the pruning of the search loses nothing. -/
theorem along_le (h : bonds.Sound cap) (hamp : 0 ≤ amplitude) (hops : Nat) (current : Int)
    (rest : List Int) : along bonds.strength amplitude hops current rest ≤ amplitude := by
  induction rest generalizing amplitude hops current with
  | nil => exact le_rfl
  | cons n rest ih =>
    obtain ⟨hnonneg, hle⟩ := hop_bounds h hamp current n hops
    exact (ih hnonneg (hops + 1) n).trans hle

theorem attenuate_factorial (h : bonds.Sound cap) (hamp : 0 ≤ amplitude)
    (hfact : amplitude * (hops.factorial : K) ≤ 1) (a b : Int) :
    amplitude * bonds.strength a b / ((hops + 1 : Nat) : K) * ((hops + 1).factorial : K) ≤ 1 := by
  have hne : ((hops + 1 : Nat) : K) ≠ 0 := Nat.cast_ne_zero.mpr (Nat.succ_ne_zero hops)
  have hcancel : amplitude * bonds.strength a b / ((hops + 1 : Nat) : K) *
      ((hops + 1).factorial : K) = bonds.strength a b * (amplitude * (hops.factorial : K)) := by
    rw [Nat.factorial_succ, Nat.cast_mul]
    field_simp
  rw [hcancel]
  obtain ⟨hnonneg, hle⟩ := strength_bounds h a b
  have hfact0 : 0 ≤ amplitude * (hops.factorial : K) := mul_nonneg hamp (Nat.cast_nonneg _)
  exact mul_le_one₀ hle hfact0 hfact

/-- The recursion has room for every walk that can be hot: after `depth` hops none is. -/
structure Deep (floor : K) (depth : Nat) (amplitude : K) (hops fuel : Nat) : Prop where
  enough : 1 < floor * (depth.factorial : K)
  nonneg : 0 ≤ amplitude
  small : amplitude * (hops.factorial : K) ≤ 1
  reached : hops ≤ depth
  room : depth < hops + fuel

theorem Deep.next (hd : Deep floor depth amplitude hops (fuel + 1)) (h : bonds.Sound cap)
    (hlarge : floor ≤ amplitude) (a b : Int) :
    Deep floor depth (amplitude * bonds.strength a b / ((hops + 1 : Nat) : K)) (hops + 1) fuel where
  enough := hd.enough
  nonneg := (hop_bounds h hd.nonneg a b hops).1
  small := attenuate_factorial h hd.nonneg hd.small a b
  reached := by
    rcases hd.reached.lt_or_eq with hlt | heq
    · exact hlt
    · -- at the last level the amplitude is below the floor
      have hle : floor * (depth.factorial : K) ≤ amplitude * (hops.factorial : K) := by
        rw [heq]
        exact mul_le_mul_of_nonneg_right hlarge (Nat.cast_nonneg _)
      exact absurd (hd.enough.trans_le (hle.trans hd.small)) (lt_irrefl 1)
  room := by
    have hroom := hd.room
    omega

theorem traverseHot_eq (sorts : Sorts K) (h : bonds.Sound cap)
    (hd : Deep floor depth amplitude hops fuel) (maxHops : Nat) (current : Int)
    (results : List (GlowPath K)) (path : List Int) :
    traverseHot sorts bonds maxHops floor fuel current amplitude hops results path =
      some (results ++ walksFrom sorts bonds maxHops floor fuel current amplitude hops path) := by
  induction fuel generalizing current amplitude hops results path with
  | zero => exact absurd hd.room hd.reached.not_gt
  | succ fuel ih =>
    rw [traverseHot, walksFrom]
    by_cases hstop : amplitude < floor ∨ hops > maxHops
    · rw [if_pos hstop, if_pos hstop, List.append_nil]
    · rw [if_neg hstop, if_neg hstop]
      have hlarge : floor ≤ amplitude := le_of_not_gt (not_or.mp hstop).1
      have hstep (bond : GraphEdgeBond K) (hbond : bond ∈ bonds.outgoing sorts current)
          (acc : List (GlowPath K)) : traverseHot sorts bonds maxHops floor fuel bond.toNode
            (bond.attenuate amplitude hops) (hops + 1) acc (path ++ [current]) =
            some (acc ++ walksFrom sorts bonds maxHops floor fuel bond.toNode
              (bond.attenuate amplitude hops) (hops + 1) (path ++ [current])) := by
        rw [attenuate_eq ((mem_outgoing h).mp hbond)]
        exact ih (hd.next h hlarge current bond.toNode) bond.toNode acc (path ++ [current])
      have hfold := foldlM_append hstep (results ++ recorded (path ++ [current]) amplitude hops)
      rw [List.append_assoc] at hfold
      cases htargets : bonds[current]? with
      | none =>
        have hnil : bonds.outgoing sorts current = [] := by
          apply List.Perm.eq_nil
          rw [Bonds.outgoing, Bonds.targets, htargets]
          exact sorts.bonds.perm _
        rw [hnil, List.flatMap_nil, List.append_nil]
      | some targets =>
        have houtgoing : bonds.outgoing sorts current =
            sorts.bonds.sort (targets.toList.map Prod.snd) := by
          rw [Bonds.outgoing, Bonds.targets, htargets]
          rfl
        rw [houtgoing] at hfold ⊢
        exact hfold

/-- What a path in the results is, by the nodes that the search has added to those before it. -/
structure Continues (bonds : Bonds K) (maxHops : Nat) (floor : K) (current : Int) (amplitude : K)
    (hops : Nat) (path rest : List Int) (p : GlowPath K) : Prop where
  nodes : p.nodes = path ++ current :: rest
  long : 2 ≤ p.nodes.length
  bonded : (current :: rest).IsChain bonds.Bonded
  limit : hops + rest.length ≤ maxHops
  hopCount : p.hopCount = hops + rest.length
  amplitude : p.totalAmplitude = along bonds.strength amplitude hops current rest
  strong : floor ≤ p.totalAmplitude

omit [IsStrictOrderedRing K] in
theorem continues_cons : Continues bonds maxHops floor current amplitude hops path (n :: rest) p ↔
    bonds.Bonded current n ∧
    Continues bonds maxHops floor n (amplitude * bonds.strength current n / ((hops + 1 : Nat) : K))
      (hops + 1) (path ++ [current]) rest p := by
  have hlen : hops + (n :: rest).length = hops + 1 + rest.length := by
    rw [List.length_cons]
    omega
  constructor
  · intro hc
    obtain ⟨hbonded, hchain⟩ := List.isChain_cons_cons.mp hc.bonded
    exact ⟨hbonded, by rw [hc.nodes]; simp, hc.long, hchain, hlen ▸ hc.limit, hlen ▸ hc.hopCount,
      hc.amplitude, hc.strong⟩
  · rintro ⟨hbonded, hc⟩
    exact ⟨by rw [hc.nodes]; simp, hc.long, List.isChain_cons_cons.mpr ⟨hbonded, hc.bonded⟩,
      hlen ▸ hc.limit, hlen ▸ hc.hopCount, hc.amplitude, hc.strong⟩

omit [IsStrictOrderedRing K] in
theorem continues_nil (hlarge : floor ≤ amplitude) (hhops : hops ≤ maxHops) :
    Continues bonds maxHops floor current amplitude hops path [] p ↔
      p ∈ recorded (path ++ [current]) amplitude hops := by
  rw [mem_recorded]
  constructor
  · intro hc
    have hnodes := hc.nodes
    have hlong := hc.long
    rw [hnodes] at hlong
    refine ⟨hlong, ?_⟩
    cases p
    simp only [GlowPath.mk.injEq]
    exact ⟨hnodes, hc.amplitude, hc.hopCount⟩
  · rintro ⟨hlong, rfl⟩
    exact ⟨rfl, hlong, .singleton _, hhops, rfl, rfl, hlarge⟩

theorem mem_walksFrom (sorts : Sorts K) (h : bonds.Sound cap)
    (hd : Deep floor depth amplitude hops fuel) (maxHops : Nat) (current : Int)
    (path : List Int) (p : GlowPath K) :
    p ∈ walksFrom sorts bonds maxHops floor fuel current amplitude hops path ↔
      ∃ rest, Continues bonds maxHops floor current amplitude hops path rest p := by
  induction fuel generalizing current amplitude hops path with
  | zero => exact absurd hd.room hd.reached.not_gt
  | succ fuel ih =>
    rw [walksFrom]
    by_cases hstop : amplitude < floor ∨ hops > maxHops
    · rw [if_pos hstop]
      constructor
      · intro hp
        cases hp
      · rintro ⟨rest, hc⟩
        rcases hstop with hweak | hfar
        · have hle := hc.strong
          rw [hc.amplitude] at hle
          exact absurd (hle.trans (along_le h hd.nonneg hops current rest)) hweak.not_ge
        · have hlimit := hc.limit
          omega
    · rw [if_neg hstop]
      have hlarge : floor ≤ amplitude := le_of_not_gt (not_or.mp hstop).1
      have hnear : hops ≤ maxHops := Nat.le_of_not_gt (not_or.mp hstop).2
      rw [List.mem_append, List.mem_flatMap]
      constructor
      · rintro (hp | ⟨bond, hbond, hp⟩)
        · exact ⟨[], (continues_nil hlarge hnear).mpr hp⟩
        · have hfind := (mem_outgoing h).mp hbond
          rw [attenuate_eq hfind, ih (hd.next h hlarge current bond.toNode)] at hp
          obtain ⟨rest, hc⟩ := hp
          exact ⟨bond.toNode :: rest, continues_cons.mpr ⟨⟨bond, hfind⟩, hc⟩⟩
      · rintro ⟨rest, hc⟩
        cases rest with
        | nil => exact .inl ((continues_nil hlarge hnear).mp hc)
        | cons n rest =>
          obtain ⟨⟨bond, hfind⟩, hc⟩ := continues_cons.mp hc
          have hn := (h current n bond hfind).toNode
          subst hn
          refine .inr ⟨bond, (mem_outgoing h).mpr hfind, ?_⟩
          rw [attenuate_eq hfind, ih (hd.next h hlarge current bond.toNode)]
          exact ⟨rest, hc⟩

theorem walksFrom_nodup (sorts : Sorts K) (h : bonds.Sound cap)
    (hd : Deep floor depth amplitude hops fuel) (maxHops : Nat) (current : Int)
    (path : List Int) :
    ((walksFrom sorts bonds maxHops floor fuel current amplitude hops path).map
      GlowPath.nodes).Nodup := by
  induction fuel generalizing current amplitude hops path with
  | zero => exact List.nodup_nil
  | succ fuel ih =>
    rw [walksFrom]
    by_cases hstop : amplitude < floor ∨ hops > maxHops
    · rw [if_pos hstop]
      exact List.nodup_nil
    · rw [if_neg hstop]
      have hlarge : floor ≤ amplitude := le_of_not_gt (not_or.mp hstop).1
      have hnext (bond : GraphEdgeBond K) (hbond : bond ∈ bonds.outgoing sorts current) :
          Deep floor depth (bond.attenuate amplitude hops) (hops + 1) fuel := by
        rw [attenuate_eq ((mem_outgoing h).mp hbond)]
        exact hd.next h hlarge current bond.toNode
      have hnodes {bond : GraphEdgeBond K} (hbond : bond ∈ bonds.outgoing sorts current)
          {nodes : List Int} (hmem : nodes ∈ (walksFrom sorts bonds maxHops floor fuel bond.toNode
            (bond.attenuate amplitude hops) (hops + 1) (path ++ [current])).map GlowPath.nodes) :
          ∃ rest, nodes = path ++ [current] ++ bond.toNode :: rest := by
        obtain ⟨p, hp, rfl⟩ := List.mem_map.mp hmem
        obtain ⟨rest, hc⟩ := (mem_walksFrom sorts h (hnext bond hbond) maxHops _ _ p).mp hp
        exact ⟨rest, hc.nodes⟩
      rw [List.map_append, List.map_flatMap, List.nodup_append]
      refine ⟨?_, ?_, ?_⟩
      · unfold recorded
        split
        · exact List.nodup_singleton _
        · exact List.nodup_nil
      · rw [List.nodup_flatMap]
        refine ⟨fun bond hbond ↦ ih (hnext bond hbond) _ _, ?_⟩
        have hdistinct := outgoing_nodup sorts h current
        rw [List.Nodup, List.pairwise_map] at hdistinct
        apply hdistinct.imp_of_mem
        intro a b ha hb hne nodes hna hnb
        obtain ⟨r, hr⟩ := hnodes ha hna
        obtain ⟨r', hr'⟩ := hnodes hb hnb
        exact hne (List.cons.inj (List.append_cancel_left (hr.symm.trans hr'))).1
      · intro nodes hown other hother
        obtain ⟨p, hp, rfl⟩ := List.mem_map.mp hown
        obtain ⟨-, rfl⟩ := mem_recorded.mp hp
        obtain ⟨bond, hbond, hmem⟩ := List.mem_flatMap.mp hother
        obtain ⟨rest, hrest⟩ := hnodes hbond hmem
        intro heq
        have hlen := congrArg List.length (heq.trans hrest)
        simp at hlen

omit [IsStrictOrderedRing K] in
theorem hotWalk_iff {start : Int} : HotWalk bonds start floor maxHops p ↔
    ∃ rest, Continues bonds maxHops floor start 1 0 [] rest p := by
  constructor
  · intro hw
    obtain ⟨rest, hnodes⟩ : ∃ rest, p.nodes = start :: rest := by
      have hstarts := hw.starts
      cases hp : p.nodes with
      | nil => simp [hp] at hstarts
      | cons a rest =>
        rw [hp] at hstarts
        exact ⟨rest, by rw [Option.some.inj hstarts]⟩
    have hlen := hw.hops
    have hone := hw.atLeastOne
    have hmost := hw.atMost
    have hcount : p.hopCount = 0 + rest.length := by
      rw [hnodes, List.length_cons] at hlen
      omega
    refine ⟨rest, hnodes, by omega, hnodes ▸ hw.bonded, by omega, hcount, ?_, hw.strong⟩
    rw [along_start, ← hnodes]
    exact hw.amplitude
  · rintro ⟨rest, hc⟩
    have hnodes : p.nodes = start :: rest := hc.nodes
    have hlong := hc.long
    have hlimit := hc.limit
    have hcount := hc.hopCount
    have hlen : p.nodes.length = p.hopCount + 1 := by
      rw [hnodes, List.length_cons]
      omega
    refine ⟨by rw [hnodes]; rfl, hnodes ▸ hc.bonded, hlen, by omega, by omega, ?_, hc.strong⟩
    rw [hnodes, ← along_start]
    exact hc.amplitude

/-- The results are the strongest of all hot paths, as many as asked for; `rest` are the others. -/
structure Strongest (hot : GlowPath K → Prop) (maxResults : Nat)
    (results rest : List (GlowPath K)) : Prop where
  sorted : results.Pairwise (fun p q ↦ q.totalAmplitude ≤ p.totalAmplitude)
  all : ∀ p, p ∈ results ++ rest ↔ hot p
  once : ((results ++ rest).map GlowPath.nodes).Nodup
  stronger : ∀ p ∈ results, ∀ q ∈ rest, q.totalAmplitude ≤ p.totalAmplitude
  count : results.length = min maxResults (results ++ rest).length

theorem queryHotPaths_strongest (sorts : Sorts K) {e : GlowEngine K} (h : e.bonds.Sound cap)
    (hdepth : 1 < floor * (depth.factorial : K)) (hfuel : depth < fuel) (start : Int)
    (maxHops maxResults : Nat) : ∃ results rest,
      e.queryHotPaths sorts fuel start floor maxHops maxResults = some results ∧
      Strongest (HotWalk e.bonds start floor maxHops) maxResults results rest := by
  have hd : Deep floor depth 1 0 fuel := by
    refine ⟨hdepth, zero_le_one, ?_, Nat.zero_le depth, by omega⟩
    rw [Nat.factorial_zero, Nat.cast_one, one_mul]
  have hsearch := traverseHot_eq sorts h hd maxHops start [] []
  have hmem := mem_walksFrom sorts h hd maxHops start []
  have hnodup := walksFrom_nodup sorts h hd maxHops start []
  generalize walksFrom sorts e.bonds maxHops floor fuel start 1 0 [] = found at hsearch hmem hnodup
  have hperm := sorts.paths.take_drop_perm found maxResults
  refine ⟨(sorts.paths.sort found).take maxResults, (sorts.paths.sort found).drop maxResults,
    ?_, ?_, ?_, ?_, ?_, ?_⟩
  · rw [GlowEngine.queryHotPaths, hsearch, List.nil_append]
    change some (if (sorts.paths.sort found).length > maxResults then
      (sorts.paths.sort found).take maxResults else sorts.paths.sort found) = _
    split
    · rfl
    · next hshort => rw [List.take_of_length_le (Nat.le_of_not_gt hshort)]
  · exact sorts.paths.take_sorted found maxResults
  · intro p
    rw [hperm.mem_iff, hmem, hotWalk_iff]
  · exact (hperm.map GlowPath.nodes).nodup_iff.mpr hnodup
  · intro p hp q hq
    exact sorts.paths.drop_le_take found maxResults hp hq
  · rw [List.take_append_drop, List.length_take]

/-- Where the least strength is at least that of a positive number of single precision, the search
is at most 39 hops deep, and its counter of 32 bits far from its end. -/
theorem queryHotPaths_depth (sorts : Sorts K) {e : GlowEngine K} (h : e.bonds.Sound cap)
    (hfloor : 1 ≤ floor * 2 ^ 149) (start : Int) (maxHops maxResults : Nat) :
    ∃ results, e.queryHotPaths sorts 40 start floor maxHops maxResults = some results := by
  have hpos : 0 < floor := by
    by_contra hnot
    have hle : floor * 2 ^ 149 ≤ 0 := mul_nonpos_of_nonpos_of_nonneg (le_of_not_gt hnot) (by simp)
    exact absurd (hfloor.trans hle) (by simp)
  have hfactorial : (2 : K) ^ 149 < (Nat.factorial 39 : K) := by
    have hnat : 2 ^ 149 < Nat.factorial 39 := by decide +kernel
    exact_mod_cast hnat
  have hdepth : 1 < floor * (Nat.factorial 39 : K) :=
    hfloor.trans_lt (mul_lt_mul_of_pos_left hfactorial hpos)
  obtain ⟨results, -, hresults, -⟩ :=
    queryHotPaths_strongest sorts h hdepth (Nat.lt_succ_self 39) start maxHops maxResults
  exact ⟨results, hresults⟩

/-- In every state the learned weights lie between 0 and the cap, and a query returns the strongest
of exactly the hot walks, from a depth of recursion on that depends on the least strength alone. -/
theorem query_exact [Archimedean K] {cap : K} (hcap : 0 ≤ cap) (ops : List (Operation K))
    (hops : ∀ op ∈ ops, op.Valid) :
    (∀ a b bond, (run cap ops).getBond a b = some bond →
      0 ≤ bond.learnedWeight ∧ bond.learnedWeight ≤ cap) ∧
    ∀ minStrength : K, 0 < minStrength → ∃ depth, ∀ (sorts : Sorts K) (fuel : Nat), depth < fuel →
      ∀ (startNode : Int) (maxHops maxResults : Nat), ∃ results rest,
        (run cap ops).queryHotPaths sorts fuel startNode minStrength maxHops maxResults =
          some results ∧
        Strongest (HotWalk (run cap ops).bonds startNode minStrength maxHops) maxResults
          results rest := by
  have hsound := sound_run hcap hops
  constructor
  · intro a b bond hbond
    exact ⟨(hsound.bonds a b bond hbond).nonneg, (hsound.bonds a b bond hbond).capped⟩
  · intro minStrength hpos
    obtain ⟨depth, hdepth⟩ := exists_nat_gt (1 / minStrength)
    have hlarge : 1 < minStrength * (depth.factorial : K) := by
      have hle : (depth : K) ≤ (depth.factorial : K) := by
        exact_mod_cast Nat.self_le_factorial depth
      rw [← div_lt_iff₀' hpos]
      exact hdepth.trans_le hle
    refine ⟨depth, fun sorts fuel hfuel startNode maxHops maxResults ↦ ?_⟩
    exact queryHotPaths_strongest sorts hsound.bonds hlarge hfuel startNode maxHops maxResults

theorem query_exact_recorded :
    (∀ a b bond, (run (2 : ℚ) [.recordExecution [1, 2, 1], .reinforcePath [1, 2] 3]).getBond a b =
      some bond → 0 ≤ bond.learnedWeight ∧ bond.learnedWeight ≤ 2) ∧
    ∃ depth, ∀ (sorts : Sorts ℚ) (fuel : Nat), depth < fuel → ∃ results rest,
      (run (2 : ℚ) [.recordExecution [1, 2, 1], .reinforcePath [1, 2] 3]).queryHotPaths sorts fuel 1
        (1 / 10) 12 10 = some results ∧
      Strongest (HotWalk (run (2 : ℚ) [.recordExecution [1, 2, 1],
        .reinforcePath [1, 2] 3]).bonds 1 (1 / 10) 12) 10 results rest := by
  have hcap : (0 : ℚ) ≤ 2 := by norm_num
  have h := query_exact hcap [.recordExecution [1, 2, 1], .reinforcePath [1, 2] 3]
    (by simp [Operation.Valid])
  refine ⟨h.1, ?_⟩
  obtain ⟨depth, hdepth⟩ := h.2 (1 / 10) (by norm_num)
  exact ⟨depth, fun sorts fuel hfuel ↦ hdepth sorts fuel hfuel 1 12 10⟩

end Cerberus.Glow
