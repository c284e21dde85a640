import Cerberus.Graph.Listing

namespace Cerberus.Graph

open Foundation Foundation.Bytes TieredMemory

variable {F : Type}

def KernelGraph.reads (kg : KernelGraph F) : List ByteString := kg.nodes.flatMap (fun n ↦ n.inputs)

def KernelGraph.writes (kg : KernelGraph F) : List ByteString :=
  kg.nodes.flatMap (fun n ↦ n.outputs)

/-- The descriptors have names of their own, and describe exactly the given tensors. -/
structure Describes (descs : List TensorDesc) (tensors : ByteString → Prop) : Prop where
  nodup : (descs.map (fun d ↦ d.name)).Nodup
  named : ∀ d ∈ descs, d.name ≠ []
  exact : ∀ t, t ∈ descs.map (fun d ↦ d.name) ↔ tensors t

structure KernelGraph.Declared (kg : KernelGraph F) : Prop where
  inputs : Describes kg.graphInputs (fun t ↦ t ∈ kg.reads ∧ t ∉ kg.writes)
  outputs : Describes kg.graphOutputs (fun t ↦ t ∈ kg.writes ∧ t ∉ kg.reads)

/-- The buffers of the caller are those of the tensors declared at their places. -/
structure KernelGraph.BindsByName (kg : KernelGraph F) (f : Floats F) (host : Host F) : Prop where
  input : ∀ (inputs : List (Pointer F)) (i : Nat) (d : TensorDesc) (p : Pointer F),
    kg.graphInputs[i]? = some d → inputs[i]? = some p →
    bindInputs (compile kg) inputs d.name = some p
  buffer : ∀ (outputs : List (Pointer F)) (tensors : Tensors F) (n : KernelNode F) (j : Nat)
    (d : TensorDesc) (p : Pointer F),
    kg.graphOutputs[j]? = some d → outputs[j]? = some p → n ∈ kg.nodes → d.name ∈ n.outputs →
    tensors d.name = none → outputBuffer f host (compile kg) outputs tensors n d.name = .ok p
  output : ∀ (outputs inputs : List (Pointer F)) (tensors : Tensors F) (j : Nat) (d : TensorDesc)
    (q : Pointer F), kg.graphOutputs[j]? = some d → j < outputs.length →
    executeNodes f host (compile kg) outputs (bindInputs (compile kg) inputs) kg.nodes =
      .ok tensors → tensors d.name = some q →
    ∃ results, execute f host (compile kg) outputs inputs = .ok results ∧ results[j]? = some q

/-- The descriptors stand in the order in which the nodes first use their tensors. -/
def InOrderOfUse (descs : List TensorDesc) (uses : List ByteString) : Prop :=
  (descs.map (fun d ↦ d.name)).Pairwise (fun t t' ↦ uses.idxOf t < uses.idxOf t')

instance (descs : List TensorDesc) (uses : List ByteString) :
    Decidable (InOrderOfUse descs uses) :=
  inferInstanceAs (Decidable (List.Pairwise _ _))

section

variable {names : List ByteString} {p : ByteString → Bool}

theorem firstMentions_append (names : List ByteString) (name : ByteString) :
    firstMentions (names ++ [name]) =
      if name ∈ names then firstMentions names else firstMentions names ++ [name] := by
  rw [firstMentions, List.foldl_append, List.foldl_cons, List.foldl_nil]
  change (if name ∈ firstMentions names then firstMentions names
    else firstMentions names ++ [name]) = _
  simp only [mem_firstMentions]

theorem firstMentions_pairwise :
    (firstMentions (names.filter p)).Pairwise (fun t t' ↦ names.idxOf t < names.idxOf t') := by
  induction names using List.reverseRecOn with
  | nil => simp [firstMentions]
  | append_singleton names name ih =>
    have hkeep : (firstMentions (names.filter p)).Pairwise (fun t t' ↦
        (names ++ [name]).idxOf t < (names ++ [name]).idxOf t') := by
      refine ih.imp_of_mem (fun {t t'} ht ht' hlt ↦ ?_)
      rw [mem_firstMentions, List.mem_filter] at ht ht'
      rwa [List.idxOf_append_of_mem ht.1, List.idxOf_append_of_mem ht'.1]
    by_cases hp : p name
    · rw [List.filter_append, List.filter_cons_of_pos hp, List.filter_nil, firstMentions_append]
      split
      · exact hkeep
      · rename_i hnew
        refine List.pairwise_append.mpr ⟨hkeep, by simp, fun t ht t' ht' ↦ ?_⟩
        rw [mem_firstMentions, List.mem_filter] at ht
        obtain rfl := List.mem_singleton.mp ht'
        have hnot : t' ∉ names := fun hmem ↦ hnew (List.mem_filter.mpr ⟨hmem, hp⟩)
        rw [List.idxOf_append_of_mem ht.1, List.idxOf_append_of_notMem hnot]
        have hlt := List.idxOf_lt_length_iff.mpr ht.1
        omega
    · rw [List.filter_append, List.filter_cons_of_neg hp, List.filter_nil, List.append_nil]
      exact hkeep

theorem eq_of_pairwise_idxOf {l l' : List ByteString} (hmem : ∀ t, t ∈ l ↔ t ∈ l')
    (h : l.Pairwise (fun t t' ↦ names.idxOf t < names.idxOf t'))
    (h' : l'.Pairwise (fun t t' ↦ names.idxOf t < names.idxOf t')) : l = l' := by
  have hnodup {l : List ByteString}
      (h : l.Pairwise (fun t t' ↦ names.idxOf t < names.idxOf t')) : l.Nodup :=
    h.imp (fun hlt heq ↦ by rw [heq] at hlt; omega)
  have hperm : l.Perm l' := (List.perm_ext_iff_of_nodup (hnodup h) (hnodup h')).mpr hmem
  refine hperm.eq_of_pairwise (fun t t' _ _ hlt hgt ↦ ?_) h h'
  omega

theorem inOrderOfUse_iff {descs : List TensorDesc} {q : ByteString → Prop}
    (hd : Describes descs q) (hq : ∀ t, q t ↔ t ∈ names ∧ p t) :
    InOrderOfUse descs names ↔
      descs.map (fun d ↦ d.name) = firstMentions (names.filter p) := by
  constructor
  · intro h
    refine eq_of_pairwise_idxOf (fun t ↦ ?_) h firstMentions_pairwise
    rw [hd.exact, hq, mem_firstMentions, List.mem_filter]
  · intro h
    rw [InOrderOfUse, h]
    exact firstMentions_pairwise

end

section

variable {kg : KernelGraph F} {f : Floats F} {host : Host F} {descs : List TensorDesc}
  {names : List ByteString} {t : ByteString} {i : Nat}

theorem firstMentions_nodup (names : List ByteString) : (firstMentions names).Nodup := by
  induction names using List.reverseRecOn with
  | nil => simp [firstMentions]
  | append_singleton names name ih =>
    rw [firstMentions_append]
    split
    · exact ih
    · rename_i hnew
      refine List.nodup_append.mpr ⟨ih, by simp, fun t ht t' ht' heq ↦ hnew ?_⟩
      rw [← List.mem_singleton.mp ht', ← heq]
      exact mem_firstMentions.mp ht

theorem bindInputs_at (kernel : CompiledKernel F) {inputs : List (Pointer F)} {p : Pointer F}
    (hlen : kernel.inputNames.length ≤ kernel.inputs.length) (hd : kernel.inputNames.Nodup)
    (ht : kernel.inputNames[i]? = some t) (hp : inputs[i]? = some p) :
    bindInputs kernel inputs t = some p := by
  have hfold (names : List ByteString) (inputs : List (Pointer F)) (i : Nat) (hd : names.Nodup)
      (ht : names[i]? = some t) (hp : inputs[i]? = some p) (tensors : Tensors F) :
      (names.zip inputs).foldl (fun (tensors : Tensors F) e ↦
        Function.update tensors e.1 (some e.2)) tensors t = some p := by
    induction names generalizing inputs i tensors with
    | nil => simp at ht
    | cons name names ih =>
      obtain ⟨hname, hd⟩ := List.nodup_cons.mp hd
      cases inputs with
      | nil => simp at hp
      | cons q inputs =>
        rw [List.zip_cons_cons, List.foldl_cons]
        cases i with
        | zero =>
          obtain rfl : name = t := by simpa using ht
          obtain rfl : q = p := by simpa using hp
          rw [foldl_update_of_forall_ne (fun e he heq ↦ hname ?_), Function.update_self]
          rw [← heq]
          exact (List.of_mem_zip he).1
        | succ i => exact ih inputs i hd (by simpa using ht) (by simpa using hp) _
  rw [bindInputs, List.take_of_length_le hlen]
  exact hfold _ _ _ hd ht hp _

theorem outputIndex_at (kernel : CompiledKernel F)
    (hlen : kernel.outputNames.length ≤ kernel.outputs.length) (hd : kernel.outputNames.Nodup)
    (ht : kernel.outputNames[i]? = some t) : outputIndex kernel t = some i := by
  obtain ⟨hi, rfl⟩ := List.getElem?_eq_some_iff.mp ht
  rw [outputIndex, List.take_of_length_le hlen, List.findIdx?_eq_some_iff_getElem]
  refine ⟨hi, by simp, fun j hj ↦ ?_⟩
  have hne : kernel.outputNames[j] ≠ kernel.outputNames[i] := fun heq ↦ by
    have hji := (List.Nodup.getElem_inj_iff hd).mp heq
    omega
  simpa using hne

theorem names_eq {q : ByteString → Prop} (hdescs : Describes descs q) (hd : names.Nodup)
    (hmem : ∀ t, q t ↔ t ∈ names)
    (hplace : ∀ (i k : Nat) (d : TensorDesc), descs[i]? = some d → names[k]? = some d.name →
      k = i) :
    descs.map (fun d ↦ d.name) = names := by
  have hperm : (descs.map (fun d ↦ d.name)).Perm names :=
    (List.perm_ext_iff_of_nodup hdescs.nodup hd).mpr (fun t ↦ by rw [hdescs.exact, hmem])
  refine List.ext_getElem? (fun i ↦ ?_)
  by_cases hi : i < descs.length
  · have hi' : descs[i]? = some descs[i] := List.getElem?_eq_getElem hi
    have hname : descs[i].name ∈ names :=
      hperm.subset (List.mem_map.mpr ⟨_, List.getElem_mem hi, rfl⟩)
    obtain ⟨k, hk⟩ := List.mem_iff_getElem?.mp hname
    rw [hplace i k _ hi' hk] at hk
    rw [List.getElem?_map, hi', Option.map_some, hk]
  · have hlen : names.length = descs.length := by rw [← hperm.length_eq, List.length_map]
    rw [List.getElem?_eq_none (by rw [List.length_map]; omega), List.getElem?_eq_none (by omega)]

def marked (len i : Nat) : List (Pointer F) :=
  (List.range len).map (fun k ↦ if k = i then .block [] else .null)

theorem marked_getElem? {len k : Nat} (hk : k < len) :
    (marked len i : List (Pointer F))[k]? = some (if k = i then .block [] else .null) := by
  simp [marked, hk]

theorem KernelGraph.inputNames_eq (kg : KernelGraph F) :
    kg.inputNames = firstMentions (kg.reads.filter (fun t ↦ t ∉ kg.writes)) := rfl

theorem KernelGraph.outputNames_eq (kg : KernelGraph F) :
    kg.outputNames = firstMentions (kg.writes.filter (fun t ↦ t ∉ kg.reads)) := rfl

theorem KernelGraph.Declared.inputs_iff (h : kg.Declared) :
    InOrderOfUse kg.graphInputs kg.reads ↔
      kg.graphInputs.map (fun d ↦ d.name) = kg.inputNames := by
  rw [kg.inputNames_eq]
  exact inOrderOfUse_iff h.inputs (fun t ↦ by simp)

theorem KernelGraph.Declared.outputs_iff (h : kg.Declared) :
    InOrderOfUse kg.graphOutputs kg.writes ↔
      kg.graphOutputs.map (fun d ↦ d.name) = kg.outputNames := by
  rw [kg.outputNames_eq]
  exact inOrderOfUse_iff h.outputs (fun t ↦ by simp)

theorem le_padded_length (descs : List TensorDesc) (names : List ByteString) :
    names.length ≤ (padded descs names).length := by
  rw [padded, List.length_append, List.length_replicate]
  omega

theorem KernelGraph.BindsByName.inputs_eq (h : kg.Declared) (hb : kg.BindsByName f host) :
    kg.graphInputs.map (fun d ↦ d.name) = kg.inputNames := by
  refine names_eq h.inputs (firstMentions_nodup _) (fun t ↦ ?_) (fun i k d hi hk ↦ ?_)
  · rw [kg.inputNames_eq, mem_firstMentions, List.mem_filter, decide_eq_true_eq]
  · have hbound := hb.input (marked (i + k + 1) i) i d (.block []) hi
      (by rw [marked_getElem? (by omega), if_pos rfl])
    have hmarked : (marked (i + k + 1) i : List (Pointer F))[k]? = _ := marked_getElem? (by omega)
    have hplace := bindInputs_at (compile kg) (le_padded_length _ _) (firstMentions_nodup _) hk
      hmarked
    rw [hbound] at hplace
    by_contra hne
    rw [if_neg hne] at hplace
    exact absurd hplace (by simp)

theorem KernelGraph.BindsByName.outputs_eq (h : kg.Declared) (hb : kg.BindsByName f host) :
    kg.graphOutputs.map (fun d ↦ d.name) = kg.outputNames := by
  refine names_eq h.outputs (firstMentions_nodup _) (fun t ↦ ?_) (fun i k d hi hk ↦ ?_)
  · rw [kg.outputNames_eq, mem_firstMentions, List.mem_filter, decide_eq_true_eq]
  · obtain ⟨n, hn, hw⟩ := List.mem_flatMap.mp ((h.outputs.exact d.name).mp
      (List.mem_map.mpr ⟨d, List.mem_of_getElem? hi, rfl⟩)).1
    have hbuffer := hb.buffer (marked (i + k + 1) i) (fun _ ↦ none) n i d (.block []) hi
      (by rw [marked_getElem? (by omega), if_pos rfl]) hn hw rfl
    have hindex := outputIndex_at (compile kg) (le_padded_length _ _)
      (firstMentions_nodup _) hk
    rw [outputBuffer, hindex] at hbuffer
    dsimp only at hbuffer
    rw [marked_getElem? (by omega)] at hbuffer
    by_contra hne
    rw [if_neg hne] at hbuffer
    exact absurd hbuffer (by simp)

theorem KernelGraph.bindsByName_of_eq (h : kg.Declared)
    (hin : kg.graphInputs.map (fun d ↦ d.name) = kg.inputNames)
    (hout : kg.graphOutputs.map (fun d ↦ d.name) = kg.outputNames) : kg.BindsByName f host := by
  have hname {descs : List TensorDesc} {d : TensorDesc} {i : Nat} (h : descs[i]? = some d) :
      (descs.map (fun d ↦ d.name))[i]? = some d.name := by rw [List.getElem?_map, h, Option.map_some]
  have hindex {j : Nat} {d : TensorDesc} (hj : kg.graphOutputs[j]? = some d) :
      outputIndex (compile kg) d.name = some j := by
    refine outputIndex_at (compile kg) (le_padded_length _ _) (firstMentions_nodup _) ?_
    change kg.outputNames[j]? = some d.name
    rw [← hout, hname hj]
  constructor
  case input =>
    intro inputs i d p hi hp
    refine bindInputs_at (compile kg) (le_padded_length _ _) (firstMentions_nodup _) ?_ hp
    change kg.inputNames[i]? = some d.name
    rw [← hin, hname hi]
  case buffer =>
    intro outputs tensors n j d p hj hp _ _ hnone
    rw [outputBuffer, hindex hj]
    simp [hnone, hp]
  case output =>
    intro outputs inputs tensors j d q hj hlen hrun hq
    have hwritten : d.name ∈ kg.writes :=
      ((h.outputs.exact d.name).mp (List.mem_map.mpr ⟨d, List.mem_of_getElem? hj, rfl⟩)).1
    have hne : kg.nodes ≠ [] := by
      intro hnil
      simp [KernelGraph.writes, hnil] at hwritten
    have hat : ((compile kg).outputNames.take (compile kg).outputs.length)[j]? = some d.name := by
      change (kg.outputNames.take (padded kg.graphOutputs kg.outputNames).length)[j]? = some d.name
      rw [List.take_of_length_le (le_padded_length _ _)]
      rw [← hout, hname hj]
    refine ⟨collect (compile kg) outputs tensors, ?_, ?_⟩
    · rw [execute, if_neg (by simp [compile, hne])]
      change (executeNodes f host (compile kg) outputs (bindInputs (compile kg) inputs)
        kg.nodes).bind _ = _
      rw [hrun]
      rfl
    · rw [collect, List.getElem?_mapIdx, List.getElem?_eq_getElem hlen]
      simp [hat, hq]

/-- The buffers are bound by name exactly where the tensors are declared in the order of use. -/
theorem binds_by_name_iff (h : kg.Declared) : kg.BindsByName f host ↔
    InOrderOfUse kg.graphInputs kg.reads ∧ InOrderOfUse kg.graphOutputs kg.writes := by
  rw [h.inputs_iff, h.outputs_iff]
  constructor
  · intro hb
    exact ⟨hb.inputs_eq h, hb.outputs_eq h⟩
  · rintro ⟨hin, hout⟩
    exact KernelGraph.bindsByName_of_eq h hin hout

end

def pair (first second : String) : KernelGraph Int where
  nodes := [scalarNode .relu [first] "y", scalarNode .relu [second] "z"]
  graphInputs := [{ name := lit "a", shape := [1] }, { name := lit "b", shape := [1] }]
  graphOutputs := [{ name := lit "y", shape := [1] }, { name := lit "z", shape := [1] }]

theorem Describes.of_lists {descs : List TensorDesc} {q : ByteString → Prop}
    (names : List ByteString) (hnames : descs.map (fun d ↦ d.name) = names) (hd : names.Nodup)
    (hne : [] ∉ names) (hq : ∀ t, q t ↔ t ∈ names) : Describes descs q where
  nodup := by rwa [hnames]
  named := by
    intro d hd' hempty
    refine hne ?_
    rw [← hnames, ← hempty]
    exact List.mem_map.mpr ⟨d, hd', rfl⟩
  exact t := by rw [hnames, hq]

theorem pair_declared : (pair "a" "b").Declared ∧ (pair "b" "a").Declared := by
  have hfresh : lit "a" ∉ [lit "y", lit "z"] ∧ lit "b" ∉ [lit "y", lit "z"] := by decide
  have hfresh' : lit "y" ∉ [lit "a", lit "b"] ∧ lit "z" ∉ [lit "a", lit "b"] := by decide
  refine ⟨⟨.of_lists [lit "a", lit "b"] rfl (by decide) (by decide) (fun t ↦ ?_),
    .of_lists [lit "y", lit "z"] rfl (by decide) (by decide) (fun t ↦ ?_)⟩,
    ⟨.of_lists [lit "a", lit "b"] rfl (by decide) (by decide) (fun t ↦ ?_),
    .of_lists [lit "y", lit "z"] rfl (by decide) (by decide) (fun t ↦ ?_)⟩⟩
  all_goals
    simp only [KernelGraph.reads, KernelGraph.writes, pair, scalarNode, List.flatMap_cons,
      List.flatMap_nil, List.map_cons, List.map_nil, List.mem_cons, List.mem_append,
      List.not_mem_nil, or_false] at hfresh hfresh' ⊢
    grind

theorem binds_by_name_iff_pair :
    (pair "a" "b").Declared ∧ (pair "a" "b").BindsByName Floats.integers plainRuntime :=
  ⟨pair_declared.1, (binds_by_name_iff pair_declared.1).mpr (by decide)⟩

/-- The first node reads the input that is declared second, and gets the first buffer. -/
theorem swapped_inputs : (pair "b" "a").Declared ∧
    bindInputs (compile (pair "b" "a")) [.block [1], .block [2]] (lit "a") = some (.block [2]) ∧
    execute Floats.integers plainRuntime (compile (pair "b" "a")) [.block [0], .block [0]]
      [.block [1], .block [2]] = .ok [.block [1], .block [2]] ∧
    ¬(pair "b" "a").BindsByName Floats.integers plainRuntime := by
  have hbound : bindInputs (compile (pair "b" "a")) [.block [1], .block [2]] (lit "a") =
      some (.block [2]) := by decide
  refine ⟨pair_declared.2, hbound, by decide, fun h ↦ ?_⟩
  have hnamed := h.input [.block [1], .block [2]] 0 _ (.block [1]) rfl rfl
  rw [hbound] at hnamed
  exact absurd hnamed (by decide)

end Cerberus.Graph
