import Cerberus.Graph.Execution
import Cerberus.Graph.FusedKernel
import Cerberus.TieredMemory.Runs

namespace Cerberus.Graph

open Foundation Foundation.Bytes TieredMemory CerberusGraph

variable {F : Type}

/-- Another list of the same nodes that mentions the external inputs and the graph outputs in the
same order. -/
structure Relisted (kg kg' : KernelGraph F) : Prop where
  perm : kg.nodes.Perm kg'.nodes
  graphInputs : kg'.graphInputs = kg.graphInputs
  graphOutputs : kg'.graphOutputs = kg.graphOutputs
  inputNames : kg'.inputNames = kg.inputNames
  outputNames : kg'.outputNames = kg.outputNames

def KernelGraph.Acyclic (kg : KernelGraph F) : Prop :=
  Dataflow.Acyclic (fun n ↦ n.inputs) (fun n ↦ n.outputs) kg.nodes

def KernelGraph.Ordered (kg : KernelGraph F) : Prop :=
  Dataflow.Ordered (fun n ↦ n.inputs) (fun n ↦ n.outputs) kg.nodes

/-- The graph has a result, whatever the order of its nodes: the buffers can be had, the equations
of the nodes have a solution, and it can be copied to the caller. -/
def KernelGraph.Computes (kg : KernelGraph F) (f : Floats F) (host : Host F) (manager : Impl)
    (outputBuffers inputBuffers results : List (Pointer F)) : Prop :=
  kg.nodes ≠ [] ∧ ∃ buffers tensors,
    prepare host manager (compile kg) inputBuffers outputBuffers = .ok buffers ∧
    Dataflow.Solution (fun n ↦ n.inputs) (fun n ↦ n.outputs)
      (nodeValue f host (compile kg) buffers.2) (bindInputs (compile kg) buffers.1) kg.nodes
      tensors ∧
    copyAllBack host (compile kg).outputs (collect (compile kg) buffers.2 tensors) outputBuffers =
      .ok results

section

variable {kg kg' : KernelGraph F} {t : ByteString}

theorem mem_firstMentions {names : List ByteString} : t ∈ firstMentions names ↔ t ∈ names := by
  have hfold (seen : List ByteString) : t ∈ names.foldl (fun seen name ↦
      if name ∈ seen then seen else seen ++ [name]) seen ↔ t ∈ seen ∨ t ∈ names := by
    induction names generalizing seen with
    | nil => simp
    | cons name names ih =>
      rw [List.foldl_cons, ih, List.mem_cons]
      split
      · rename_i hmem
        constructor
        · tauto
        · rintro (h | rfl | h)
          · exact .inl h
          · exact .inl hmem
          · exact .inr h
      · rw [List.mem_append, List.mem_singleton]
        tauto
  rw [firstMentions, hfold]
  simp

theorem foldl_update_of_forall_ne {l : List (ByteString × Pointer F)} {tensors : Tensors F}
    (h : ∀ e ∈ l, e.1 ≠ t) :
    l.foldl (fun (tensors : Tensors F) e ↦ Function.update tensors e.1 (some e.2)) tensors t =
      tensors t := by
  induction l generalizing tensors with
  | nil => rfl
  | cons e l ih =>
    rw [List.foldl_cons, ih (fun e he ↦ h e (by simp [he])),
      Function.update_of_ne (h e (by simp)).symm]

theorem bindInputs_none {kernel : CompiledKernel F} {inputs : List (Pointer F)}
    (h : t ∉ kernel.inputNames) : bindInputs kernel inputs t = none := by
  refine foldl_update_of_forall_ne (fun e he hname ↦ h ?_)
  rw [← hname]
  exact List.mem_of_mem_take (List.of_mem_zip he).1

theorem bindInputs_produced {n : KernelNode F} {inputs : List (Pointer F)} (hn : n ∈ kg.nodes)
    (ht : t ∈ n.outputs) : bindInputs (compile kg) inputs t = none := by
  refine bindInputs_none (fun hmem ↦ ?_)
  have hnot := (List.mem_filter.mp (mem_firstMentions.mp hmem)).2
  rw [decide_eq_true_eq] at hnot
  exact hnot (List.mem_flatMap.mpr ⟨n, hn, ht⟩)

def converted (e : KernelNode F × Nat) : GraphNode F where
  id := e.2
  name := e.1.name
  op := e.1.op
  inputs := e.1.inputs
  outputs := e.1.outputs
  constantData := e.1.floatAttrs
  quantProfile := e.1.quantProfile

theorem fromKernelGraph_eq (order : List ByteString → List ByteString) (kg : KernelGraph F) :
    ∃ tensors, fromKernelGraph order kg =
      (CerberusGraph.mk (kg.nodes.zipIdx.map converted) tensors).topoSort.getD
        (CerberusGraph.mk (kg.nodes.zipIdx.map converted) tensors) := ⟨_, rfl⟩

theorem converted_ids (kg : KernelGraph F) :
    (kg.nodes.zipIdx.map converted).map (fun n ↦ n.id) =
      (List.range kg.nodes.length).map (fun i : Nat ↦ (i : Int)) := by
  rw [List.map_map, List.range_eq_range', ← List.zipIdx_map_snd 0 kg.nodes, List.map_map]
  rfl

theorem converted_nodup (kg : KernelGraph F) :
    ((kg.nodes.zipIdx.map converted).map (fun n ↦ n.id)).Nodup := by
  rw [converted_ids]
  exact List.nodup_range.map Nat.cast_injective

theorem converted_acyclic (ha : kg.Acyclic) :
    Dataflow.Acyclic (fun n ↦ n.inputs) (fun n ↦ n.outputs) (kg.nodes.zipIdx.map converted) := by
  intro k hk
  refine ha k (Relation.TransGen.mono (fun a b hneeds ↦ ?_) k k hk)
  obtain ⟨n, hn, hr, hw⟩ := hneeds
  obtain ⟨e, he, rfl⟩ := List.mem_map.mp hn
  exact ⟨e.1, List.fst_mem_of_mem_zipIdx he, hr, hw⟩

theorem fromKernelGraph_sorts (order : List ByteString → List ByteString) (ha : kg.Acyclic) :
    ∃ cgraph, (fromKernelGraph order kg).topoSort = some cgraph ∧
      (cgraph.nodes.map (fun n ↦ n.id)).Nodup ∧ cgraph.nodes.length = kg.nodes.length := by
  obtain ⟨tensors, heq⟩ := fromKernelGraph_eq order kg
  have hd := converted_nodup kg
  have hacyclic := converted_acyclic ha
  obtain ⟨nodes, hsort, hperm⟩ :=
    topoSort_perm (g := ⟨kg.nodes.zipIdx.map converted, tensors⟩) hd hacyclic
  have hd' : (nodes.map (fun n ↦ n.id)).Nodup := (hperm.map _).nodup_iff.mpr hd
  obtain ⟨nodes', hsort', hperm'⟩ :=
    topoSort_perm (g := ⟨nodes, tensors⟩) hd' (hacyclic.perm hperm.symm)
  refine ⟨⟨nodes', tensors⟩, ?_, (hperm'.map _).nodup_iff.mpr hd', ?_⟩
  · rw [heq, hsort]
    exact hsort'
  · rw [hperm'.length_eq, hperm.length_eq]
    simp

end

section

variable {kg kg' : KernelGraph F} {cfg : RuntimeConfig} {f : Floats F} {host : Host F}
  {manager : Impl} {order order' : List ByteString → List ByteString}
  {outputBuffers inputBuffers results : List (Pointer F)}

theorem analyse_ne_nil {decision : DecisionConfig} {env : Surroundings} {g : CerberusGraph F}
    {target : ByteString} {plan : List ExecutionStep}
    (h : (analyse decision env g target).2 = .ok plan) : plan ≠ [] := by
  unfold analyse at h
  split at h
  · contradiction
  · dsimp only at h
    split at h
    · contradiction
    · rename_i hne
      injection h with h
      rw [← h]
      simpa using hne

/-- The plan of an acyclic graph is made, and then not used. -/
theorem runGraph_eq (ha : kg.Acyclic) (hne : kg.nodes ≠ []) :
    runGraph cfg f host manager order kg outputBuffers inputBuffers =
      (coordinate host manager (compile kg) f inputBuffers outputBuffers).mapError
        (fun _ ↦ .executionError) := by
  obtain ⟨cgraph, hsort, hd, hlen⟩ := fromKernelGraph_sorts order ha
  have hne' : cgraph.nodes ≠ [] := by
    rw [← List.length_pos_iff] at hne ⊢
    omega
  obtain ⟨plan, hplan⟩ := analyse_ok cfg.decision host.surroundings cfg.preferredBackend hd hne'
  have hplan' := analyse_ne_nil hplan
  simp [runGraph, hsort, hplan, hplan']

theorem runGraph_empty (he : kg.nodes = []) :
    runGraph cfg f host manager order kg outputBuffers inputBuffers ≠ .ok results := by
  have ha : kg.Acyclic := by
    intro k hk
    obtain ⟨b, ⟨n, hn, -⟩, -⟩ := Relation.TransGen.head'_iff.mp hk
    simp [he] at hn
  obtain ⟨cgraph, hsort, -, hlen⟩ := fromKernelGraph_sorts order ha
  have hempty : cgraph.nodes = [] := List.length_eq_zero_iff.mp (by simp [hlen, he])
  simp [runGraph, hsort, analyse, hempty]

theorem mapError_eq_ok {ε ε' α : Type} {g : ε → ε'} {x : Outcome ε α} {a : α} :
    x.mapError g = .ok a ↔ x = .ok a := by
  cases x with
  | ok b => simp [Outcome.mapError]
  | failed error => simp [Outcome.mapError]
  | undefined => simp [Outcome.mapError]
  | threw => simp [Outcome.mapError]

variable (cfg order) in
/-- A run succeeds exactly when the nodes are listed in order and the graph has a result. -/
theorem runGraph_eq_ok (ha : kg.Acyclic) (hone : ∀ n ∈ kg.nodes, n.outputs.length = 1)
    (hd : (kg.nodes.flatMap (fun n ↦ n.outputs)).Nodup) :
    runGraph cfg f host manager order kg outputBuffers inputBuffers = .ok results ↔
      kg.Ordered ∧ kg.Computes f host manager outputBuffers inputBuffers results := by
  by_cases hne : kg.nodes = []
  · simp [runGraph_empty hne, KernelGraph.Computes, hne]
  · have hone' (n : KernelNode F) (hn : n ∈ kg.nodes) : ∃ t, n.outputs = [t] :=
      List.length_eq_one_iff.mp (hone n hn)
    have hnodes (inputs outputs : List (Pointer F)) (tensors : Tensors F) :
        executeNodes f host (compile kg) outputs (bindInputs (compile kg) inputs) kg.nodes =
          .ok tensors ↔ kg.Ordered ∧ Dataflow.Solution (fun n ↦ n.inputs) (fun n ↦ n.outputs)
            (nodeValue f host (compile kg) outputs) (bindInputs (compile kg) inputs) kg.nodes
            tensors :=
      executeNodes_iff hone' hd (fun n hn t ht ↦ bindInputs_produced hn ht)
    have hexecute (buffers : List (Pointer F) × List (Pointer F)) :
        execute f host (compile kg) buffers.2 buffers.1 =
          (executeNodes f host (compile kg) buffers.2 (bindInputs (compile kg) buffers.1)
            kg.nodes).bind (fun tensors ↦ .ok (collect (compile kg) buffers.2 tensors)) := by
      simp [execute, compile, hne]
    rw [runGraph_eq ha hne, mapError_eq_ok]
    simp only [coordinate, Outcome.bind_eq_ok, mapError_eq_ok, hexecute, hnodes, Outcome.ok.injEq,
      KernelGraph.Computes]
    constructor
    · rintro ⟨buffers, hprepare, outputs, ⟨tensors, ⟨ho, hsolution⟩, rfl⟩, hcopy⟩
      exact ⟨ho, hne, buffers, tensors, hprepare, hsolution, hcopy⟩
    · rintro ⟨ho, -, buffers, tensors, hprepare, hsolution, hcopy⟩
      exact ⟨buffers, hprepare, _, ⟨tensors, ⟨ho, hsolution⟩, rfl⟩, hcopy⟩

theorem Relisted.symm (h : Relisted kg kg') : Relisted kg' kg :=
  ⟨h.perm.symm, h.graphInputs.symm, h.graphOutputs.symm, h.inputNames.symm, h.outputNames.symm⟩

theorem Relisted.inputs (h : Relisted kg kg') : (compile kg').inputs = (compile kg).inputs := by
  simp only [compile, h.graphInputs, h.inputNames]

theorem Relisted.outputs (h : Relisted kg kg') : (compile kg').outputs = (compile kg).outputs := by
  simp only [compile, h.graphOutputs, h.outputNames]

theorem Relisted.pickTier (h : Relisted kg kg') (names : List ByteString) :
    (compile kg').pickTier names = (compile kg).pickTier names := by
  have hreuse (t : ByteString) :
      t ∈ (compile kg').highReuseTensors ↔ t ∈ (compile kg).highReuseTensors := by
    simp only [compile, List.mem_filter, List.mem_flatMap, List.any_eq_true, h.perm.mem_iff]
  funext i
  simp only [CompiledKernel.pickTier, hreuse]

theorem Relisted.prepare (h : Relisted kg kg') :
    prepare host manager (compile kg') inputBuffers outputBuffers =
      prepare host manager (compile kg) inputBuffers outputBuffers := by
  have hin : (compile kg').pickInputTier = (compile kg).pickInputTier := by
    rw [CompiledKernel.pickInputTier, h.pickTier]
    exact congrArg _ h.inputNames
  have hout : (compile kg').pickOutputTier = (compile kg).pickOutputTier := by
    rw [CompiledKernel.pickOutputTier, h.pickTier]
    exact congrArg _ h.outputNames
  simp only [Graph.prepare, h.inputs, h.outputs, hin, hout]

theorem Relisted.computes (h : Relisted kg kg')
    (hc : kg.Computes f host manager outputBuffers inputBuffers results) :
    kg'.Computes f host manager outputBuffers inputBuffers results := by
  obtain ⟨hne, buffers, tensors, hprepare, hsolution, hcopy⟩ := hc
  have hnames : (compile kg').inputNames = (compile kg).inputNames := h.inputNames
  have hnames' : (compile kg').outputNames = (compile kg).outputNames := h.outputNames
  have hbind : bindInputs (compile kg') buffers.1 = bindInputs (compile kg) buffers.1 := by
    simp only [bindInputs, hnames, h.inputs]
  have hindex : outputIndex (compile kg') = outputIndex (compile kg) := by
    funext t
    simp only [outputIndex, hnames', h.outputs]
  have hvalue : nodeValue f host (compile kg') buffers.2 =
      nodeValue f host (compile kg) buffers.2 := by
    funext n ins t
    simp only [nodeValue, outputBuffer, hindex]
  have hcollect : collect (compile kg') buffers.2 tensors =
      collect (compile kg) buffers.2 tensors := by
    simp only [collect, hnames', h.outputs]
  refine ⟨?_, buffers, tensors, ?_, ?_, ?_⟩
  · rw [← List.length_pos_iff, ← h.perm.length_eq]
    exact List.length_pos_iff.mpr hne
  · rw [h.prepare, hprepare]
  · rw [hvalue, hbind]
    exact hsolution.perm h.perm
  · rw [h.outputs, hcollect, hcopy]

/-- Both runs succeed or fail, and where they succeed they leave the same in the buffers. -/
def SameResult (r r' : Outcome CerberusError (List (Pointer F))) : Prop :=
  (r.succeeds ↔ r'.succeeds) ∧ ∀ results results', r = .ok results → r' = .ok results' →
    results = results'

theorem succeeds_iff {ε α : Type} {x : Outcome ε α} : x.succeeds ↔ ∃ a, x = .ok a := by
  cases x with
  | ok b => simp [Outcome.succeeds]
  | failed error => simp [Outcome.succeeds]
  | undefined => simp [Outcome.succeeds]
  | threw => simp [Outcome.succeeds]

/-- Two listings of an acyclic graph run alike exactly when both or neither are in order, unless the
graph has no result in any order. -/
theorem listing_irrelevant_iff (ha : kg.Acyclic) (hone : ∀ n ∈ kg.nodes, n.outputs.length = 1)
    (hd : (kg.nodes.flatMap (fun n ↦ n.outputs)).Nodup) (h : Relisted kg kg') :
    SameResult (runGraph cfg f host manager order kg outputBuffers inputBuffers)
        (runGraph cfg f host manager order' kg' outputBuffers inputBuffers) ↔
      (kg.Ordered ↔ kg'.Ordered) ∨
        ¬∃ results, kg.Computes f host manager outputBuffers inputBuffers results := by
  have ha' : kg'.Acyclic := Dataflow.Acyclic.perm ha h.perm
  have hone' (n : KernelNode F) (hn : n ∈ kg'.nodes) : n.outputs.length = 1 :=
    hone n (h.perm.mem_iff.mpr hn)
  have hd' : (kg'.nodes.flatMap (fun n ↦ n.outputs)).Nodup :=
    (h.perm.flatMap_right _).nodup_iff.mp hd
  have hcomputes (results : List (Pointer F)) :
      kg'.Computes f host manager outputBuffers inputBuffers results ↔
        kg.Computes f host manager outputBuffers inputBuffers results :=
    ⟨h.symm.computes, h.computes⟩
  have hunique (results results' : List (Pointer F)) (ho : kg.Ordered)
      (hc : kg.Computes f host manager outputBuffers inputBuffers results)
      (hc' : kg.Computes f host manager outputBuffers inputBuffers results') :
      results = results' := by
    have hrun := (runGraph_eq_ok cfg order ha hone hd).mpr ⟨ho, hc⟩
    rw [(runGraph_eq_ok cfg order ha hone hd).mpr ⟨ho, hc'⟩] at hrun
    injection hrun with hrun
    exact hrun.symm
  simp only [SameResult, succeeds_iff, runGraph_eq_ok cfg order ha hone hd,
    runGraph_eq_ok cfg order' ha' hone' hd', hcomputes]
  constructor
  · rintro ⟨hiff, -⟩
    by_cases hc : ∃ results, kg.Computes f host manager outputBuffers inputBuffers results
    · obtain ⟨results, hc⟩ := hc
      left
      constructor
      · intro ho
        obtain ⟨_, ho', -⟩ := hiff.mp ⟨results, ho, hc⟩
        exact ho'
      · intro ho'
        obtain ⟨_, ho, -⟩ := hiff.mpr ⟨results, ho', hc⟩
        exact ho
    · exact .inr hc
  · rintro (hordered | hno)
    · refine ⟨by rw [hordered], ?_⟩
      rintro results results' ⟨ho, hc⟩ ⟨-, hc'⟩
      exact hunique results results' ho hc hc'
    · refine ⟨⟨?_, ?_⟩, ?_⟩
      · rintro ⟨results, -, hc⟩
        exact absurd ⟨results, hc⟩ hno
      · rintro ⟨results, -, hc⟩
        exact absurd ⟨results, hc⟩ hno
      · rintro results results' ⟨-, hc⟩
        exact absurd ⟨results, hc⟩ hno

end

def scalarNode (op : Op) (inputs : List String) (output : String) : KernelNode Int where
  op := op
  name := lit output
  inputs := inputs.map lit
  outputs := [lit output]
  intAttrs := [1]

def scalarGraph (nodes : List (KernelNode Int)) : KernelGraph Int where
  nodes := nodes
  graphInputs := [{ name := lit "x", shape := [1] }]
  graphOutputs := [{ name := lit "y", shape := [1] }]

def relus : List (KernelNode Int) := [scalarNode .relu ["x"] "h", scalarNode .relu ["x"] "k"]

def diamond (nodes : List (KernelNode Int)) : KernelGraph Int :=
  scalarGraph (nodes ++ [scalarNode .add ["h", "k"] "y"])

def plainRuntime : Host Int where
  platform := plainHost
  surroundings := calm
  fresh _ _ := 0
  splice _ new _ := new
  scratch _ := true

def runPlain (kg : KernelGraph Int) : Outcome CerberusError (List (Pointer Int)) :=
  runGraph {} Floats.integers plainRuntime (construct plainHost {}) id kg [.block [0]] [.block [3]]

theorem acyclic_of_rank {kg : KernelGraph F} (rank : ByteString → Nat)
    (h : ∀ n ∈ kg.nodes, ∀ t ∈ n.inputs, ∀ t' ∈ n.outputs, rank t < rank t') : kg.Acyclic := by
  intro t ht
  have hpath := Relation.TransGen.lift rank (p := (· < ·))
    (fun t t' ⟨n, hn, hr, hw⟩ ↦ h n hn t hr t' hw) t t ht
  have hlt : rank t < rank t := by rwa [Relation.transGen_eq_self] at hpath
  omega

def depth (t : ByteString) : Nat := if t = lit "x" then 0 else if t = lit "y" then 2 else 1

theorem diamond_acyclic : (diamond relus).Acyclic ∧ (diamond relus.reverse).Acyclic :=
  ⟨acyclic_of_rank depth (by decide), acyclic_of_rank depth (by decide)⟩

theorem diamond_runs {nodes : List (KernelNode Int)} (ha : (diamond nodes).Acyclic)
    (h : coordinate plainRuntime (construct plainHost {}) (compile (diamond nodes)) Floats.integers
      [.block [3]] [.block [0]] = .ok [.block [6]]) :
    runPlain (diamond nodes) = .ok [.block [6]] := by
  rw [runPlain, runGraph_eq ha (by simp [diamond, scalarGraph]), h]
  rfl

theorem listing_irrelevant_iff_diamond : (diamond relus).nodes ≠ (diamond relus.reverse).nodes ∧
    SameResult (runPlain (diamond relus)) (runPlain (diamond relus.reverse)) := by
  obtain ⟨ha, ha'⟩ := diamond_acyclic
  have hrun := diamond_runs ha (by decide)
  have hrun' := diamond_runs ha' (by decide)
  have ho := ((runGraph_eq_ok {} id ha (by decide) (by decide)).mp hrun).1
  have ho' := ((runGraph_eq_ok {} id ha' (by decide) (by decide)).mp hrun').1
  have hrelisted : Relisted (diamond relus) (diamond relus.reverse) :=
    ⟨(List.reverse_perm relus).symm.append_right _, rfl, rfl, by decide, by decide⟩
  exact ⟨by decide, (listing_irrelevant_iff ha (by decide) (by decide)
    hrelisted).mpr (.inl ⟨fun _ ↦ ho', fun _ ↦ ho⟩)⟩

def inOrder : KernelGraph Int :=
  scalarGraph [scalarNode .relu ["x"] "h", scalarNode .relu ["h"] "y"]

def backwards : KernelGraph Int := { inOrder with nodes := inOrder.nodes.reverse }

/-- Two nodes in a row run in their order and do not run backwards. -/
theorem backwards_fails : inOrder.Acyclic ∧ (∀ n ∈ inOrder.nodes, n.outputs.length = 1) ∧
    (inOrder.nodes.flatMap (fun n ↦ n.outputs)).Nodup ∧ Relisted inOrder backwards ∧
    runPlain inOrder = .ok [.block [3]] ∧ runPlain backwards = .failed .executionError := by
  have ha : inOrder.Acyclic := acyclic_of_rank depth (by decide)
  have ha' : backwards.Acyclic := acyclic_of_rank depth (by decide)
  have hruns : coordinate plainRuntime (construct plainHost {}) (compile inOrder) Floats.integers
      [.block [3]] [.block [0]] = .ok [.block [3]] := by decide
  have hfails : coordinate plainRuntime (construct plainHost {}) (compile backwards)
      Floats.integers [.block [3]] [.block [0]] = .failed .backendExecuteFailed := by decide
  refine ⟨ha, by decide, by decide,
    ⟨(List.reverse_perm _).symm, rfl, rfl, by decide, by decide⟩, ?_, ?_⟩
  · rw [runPlain, runGraph_eq ha (by simp [inOrder, scalarGraph]), hruns]
    rfl
  · rw [runPlain, runGraph_eq ha' (by simp [backwards, inOrder, scalarGraph]), hfails]
    rfl

end Cerberus.Graph
