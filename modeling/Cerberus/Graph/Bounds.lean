import Cerberus.Graph.Binding
import Cerberus.Graph.Footprint

namespace Cerberus.Graph

open Foundation Foundation.Bytes TieredMemory

variable {F : Type}

def Op.attrCount : Op → Nat
  | .matMul | .fusedMatMulBiasRelu => 3
  | .add | .mul | .relu | .sigmoid | .gelu => 1
  | .softmax | .layerNorm => 2
  | .conv => 6
  | _ => 0

/-- The nodes carry their attributes, and the buffers of the caller have the elements that the
attributes of the nodes at them ask for. -/
structure Supplied (kg : KernelGraph F) (inputs outputs : List (Pointer F)) : Prop where
  attrs : ∀ n ∈ kg.nodes, n.op.attrCount ≤ n.intAttrs.length
  input : ∀ (i : Nat) (t : ByteString), kg.inputNames[i]? = some t →
    ∃ cells : List F, inputs[i]? = some (.block cells) ∧
    ∀ n ∈ kg.nodes, ∀ e ∈ n.readCounts.zip n.inputs, e.2 = t → e.1 ≤ cells.length
  output : ∀ (i : Nat) (t : ByteString), kg.outputNames[i]? = some t →
    ∃ cells : List F, outputs[i]? = some (.block cells) ∧
    ∀ n ∈ kg.nodes, n.outputs.head? = some t → n.writeCount ≤ cells.length

section

variable (kg : KernelGraph F)

def writer (past : List (KernelNode F)) (t : ByteString) : Option (KernelNode F) :=
  past.find? (fun m ↦ m.outputs.head? = some t)

def KernelGraph.Inner (n : KernelNode F) : Prop := n.outputs.head?.any (fun t ↦ t ∈ kg.reads)

instance (n : KernelNode F) : Decidable (kg.Inner n) := inferInstanceAs (Decidable (_ = true))

/-- The node gets to its kernel: its inputs have been written, and its output can be had. -/
def Starts (host : Host F) (past : List (KernelNode F)) (n : KernelNode F) : Prop :=
  (∀ t ∈ n.inputs, t ∈ kg.writes → (writer past t).isSome) ∧ n.outputs ≠ [] ∧
    (kg.Inner n → host.scratch (n.attr 0 4))

def Passes (f : Floats F) (n : KernelNode F) : Prop :=
  (kg.Inner n → n.attr 0 4 ≠ 0) ∧ n.Accepted f

/-- The counts of a node agree with the sizes of the vectors, which are the first attributes of the
nodes that write them. -/
def Agrees (past : List (KernelNode F)) (n : KernelNode F) : Prop :=
  n.OwnDataFits ∧ (kg.Inner n → n.writeCount ≤ n.attr 0 4) ∧
    ∀ e ∈ n.readCounts.zip n.inputs, (writer past e.2).all (fun m ↦ e.1 ≤ m.attr 0 4)

/-- Every node that the run comes to has the inputs that its kernel takes, and agrees with the nodes
before it where its kernel does not refuse. -/
def AgreesFrom (f : Floats F) (host : Host F) (past : List (KernelNode F)) :
    List (KernelNode F) → Prop
  | [] => True
  | n :: rest => Starts kg host past n →
    n.operands ≤ n.inputs.length ∧
      (Passes kg f n → Agrees kg past n ∧ AgreesFrom f host (n :: past) rest)

/-- The sizes of the buffers in a run: those of the caller, and the first attributes of the nodes
that wrote the others. -/
structure Sized (inputs : List (Pointer F)) (past : List (KernelNode F)) (tensors : Tensors F) :
    Prop where
  nodes : ∀ m ∈ past, m ∈ kg.nodes
  external : ∀ t, t ∉ kg.writes → tensors t = bindInputs (compile kg) inputs t
  unwritten : ∀ t ∈ kg.writes, writer past t = none → tensors t = none
  inner : ∀ t m, t ∈ kg.reads → writer past t = some m →
    ∃ cells : List F, tensors t = some (.block cells) ∧ cells.length = m.attr 0 4
  outer : ∀ t p, t ∈ kg.writes → t ∉ kg.reads → tensors t = some p →
    ∃ cells : List F, p = .block cells ∧
      ∀ n ∈ kg.nodes, n.outputs.head? = some t → n.writeCount ≤ cells.length

end

section

variable {kg : KernelGraph F} {f : Floats F} {host : Host F} {inputs outputs : List (Pointer F)}
  {past : List (KernelNode F)} {tensors : Tensors F} {n : KernelNode F} {t : ByteString}

theorem resolve_blocks {names : List ByteString}
    (h : ∀ t ∈ names, ∃ cells : List F, tensors t = some (.block cells)) :
    ∃ ins : List (List F), resolve tensors names = .ok (ins.map .block) ∧
      List.Forall₂ (fun t cells ↦ tensors t = some (.block cells)) names ins := by
  induction names with
  | nil => exact ⟨[], rfl, .nil⟩
  | cons t names ih =>
    obtain ⟨cells, hcells⟩ := h t (by simp)
    obtain ⟨ins, hins, hall⟩ := ih (fun t ht ↦ h t (by simp [ht]))
    refine ⟨cells :: ins, ?_, .cons hcells hall⟩
    rw [resolve, hcells]
    simp [hins]

theorem resolve_missing {names : List ByteString} (ht : t ∈ names) (h : tensors t = none) :
    ∃ error, resolve tensors names = .failed error := by
  induction names with
  | nil => simp at ht
  | cons name names ih =>
    rw [resolve]
    cases hname : tensors name with
    | none => exact ⟨_, rfl⟩
    | some p =>
      have hne : t ≠ name := fun heq ↦ by rw [heq, hname] at h; simp at h
      obtain ⟨error, herror⟩ := ih ((List.mem_cons.mp ht).resolve_left hne)
      exact ⟨error, by simp [herror, Outcome.bind]⟩

theorem zip_fits_iff {names : List ByteString} {ins : List (List F)} {q : Nat × ByteString → Prop}
    (hall : List.Forall₂ (fun t cells ↦ tensors t = some (.block cells)) names ins)
    (counts : List Nat) (h : ∀ e ∈ counts.zip names, ∀ cells : List F,
      tensors e.2 = some (.block cells) → (e.1 ≤ cells.length ↔ q e)) :
    (∀ e ∈ counts.zip (ins.map List.length), e.1 ≤ e.2) ↔ ∀ e ∈ counts.zip names, q e := by
  induction hall generalizing counts with
  | nil => simp
  | @cons t cells names ins hcells hall ih =>
    cases counts with
    | nil => simp
    | cons count counts =>
      have hfirst := h (count, t) (by simp) cells hcells
      have hrest := ih counts (fun e he ↦ h e (by simp [he]))
      rw [List.map_cons, List.zip_cons_cons, List.zip_cons_cons, List.forall_mem_cons,
        List.forall_mem_cons, hrest, hfirst]

theorem writer_cons (n : KernelNode F) (past : List (KernelNode F)) (t : ByteString) :
    writer (n :: past) t = if n.outputs.head? = some t then some n else writer past t := by
  rw [writer, List.find?_cons]
  by_cases h : n.outputs.head? = some t
  · simp [h]
  · simp [h, writer]

theorem mem_inputNames : t ∈ kg.inputNames ↔ t ∈ kg.reads ∧ t ∉ kg.writes := by
  rw [kg.inputNames_eq, mem_firstMentions, List.mem_filter, decide_eq_true_eq]

theorem mem_outputNames : t ∈ kg.outputNames ↔ t ∈ kg.writes ∧ t ∉ kg.reads := by
  rw [kg.outputNames_eq, mem_firstMentions, List.mem_filter, decide_eq_true_eq]

theorem Supplied.bound (h : Supplied kg inputs outputs) (hr : t ∈ kg.reads) (hw : t ∉ kg.writes) :
    ∃ cells : List F, bindInputs (compile kg) inputs t = some (.block cells) ∧
      ∀ n ∈ kg.nodes, ∀ e ∈ n.readCounts.zip n.inputs, e.2 = t → e.1 ≤ cells.length := by
  obtain ⟨i, hi⟩ := List.mem_iff_getElem?.mp (mem_inputNames.mpr ⟨hr, hw⟩)
  obtain ⟨cells, hcells, hcount⟩ := h.input i t hi
  exact ⟨cells, bindInputs_at (compile kg) (le_padded_length _ _) (firstMentions_nodup _) hi hcells,
    hcount⟩

theorem sized_start : Sized kg inputs [] (bindInputs (compile kg) inputs) where
  nodes := by simp
  external _ _ := rfl
  unwritten t ht _ := bindInputs_none (fun hmem ↦ (mem_inputNames.mp hmem).2 ht)
  inner t m _ h := by simp [writer] at h
  outer t p hw _ h := by
    rw [bindInputs_none (fun hmem ↦ (mem_inputNames.mp hmem).2 hw)] at h
    simp at h

theorem inner_iff (ht : n.outputs.head? = some t) : kg.Inner n ↔ t ∈ kg.reads := by
  simp [KernelGraph.Inner, ht]

theorem mem_writes (hn : n ∈ kg.nodes) (ht : n.outputs.head? = some t) : t ∈ kg.writes :=
  List.mem_flatMap.mpr ⟨n, hn, List.mem_of_head? ht⟩

theorem Sized.writer_external (hz : Sized kg inputs past tensors) (ht : t ∉ kg.writes) :
    writer past t = none := by
  refine List.find?_eq_none.mpr (fun m hm ↦ ?_)
  simpa using fun heq ↦ ht (mem_writes (hz.nodes m hm) heq)

/-- The inputs of a node that starts are blocks, and its counts fit into them where they agree with
the nodes that wrote them. -/
theorem Sized.resolves (hs : Supplied kg inputs outputs) (hz : Sized kg inputs past tensors)
    (hn : n ∈ kg.nodes) (hstart : ∀ t ∈ n.inputs, t ∈ kg.writes → (writer past t).isSome) :
    ∃ ins : List (List F), resolve tensors n.inputs = .ok (ins.map .block) ∧
      ins.length = n.inputs.length ∧
      ((∀ e ∈ n.readCounts.zip (ins.map List.length), e.1 ≤ e.2) ↔
        ∀ e ∈ n.readCounts.zip n.inputs, (writer past e.2).all (fun m ↦ e.1 ≤ m.attr 0 4)) := by
  have hread (t : ByteString) (ht : t ∈ n.inputs) : t ∈ kg.reads :=
    List.mem_flatMap.mpr ⟨n, hn, ht⟩
  have hblocks (t : ByteString) (ht : t ∈ n.inputs) :
      ∃ cells : List F, tensors t = some (.block cells) := by
    by_cases hw : t ∈ kg.writes
    · obtain ⟨m, hm⟩ := Option.isSome_iff_exists.mp (hstart t ht hw)
      obtain ⟨cells, hcells, -⟩ := hz.inner t m (hread t ht) hm
      exact ⟨cells, hcells⟩
    · obtain ⟨cells, hcells, -⟩ := hs.bound (hread t ht) hw
      exact ⟨cells, (hz.external t hw).trans hcells⟩
  obtain ⟨ins, hins, hall⟩ := resolve_blocks hblocks
  refine ⟨ins, hins, hall.length_eq.symm, zip_fits_iff hall _ (fun e he cells hcells ↦ ?_)⟩
  have ht : e.2 ∈ n.inputs := (List.of_mem_zip he).2
  by_cases hw : e.2 ∈ kg.writes
  · obtain ⟨m, hm⟩ := Option.isSome_iff_exists.mp (hstart e.2 ht hw)
    obtain ⟨cells', hcells', hlen⟩ := hz.inner e.2 m (hread e.2 ht) hm
    obtain rfl : cells = cells' := by simpa [hcells] using hcells'
    simp [hm, hlen]
  · obtain ⟨cells', hcells', hcount⟩ := hs.bound (hread e.2 ht) hw
    obtain rfl : cells = cells' := by simpa [← hz.external e.2 hw, hcells] using hcells'
    simp [hz.writer_external hw, hcount n hn e he rfl]

theorem outputIndex_inner (hr : t ∈ kg.reads) : outputIndex (compile kg) t = none := by
  refine List.findIdx?_eq_none_iff.mpr (fun name hname ↦ ?_)
  have hmem := (mem_outputNames.mp (List.mem_of_mem_take hname)).2
  simpa using fun heq : name = t ↦ hmem (heq ▸ hr)

/-- The buffer that a node gets: a vector as long as its first attribute, or a buffer of the caller,
into which its counts fit. -/
theorem Sized.buffer (hs : Supplied kg inputs outputs) (hz : Sized kg inputs past tensors)
    (hn : n ∈ kg.nodes) (ht : n.outputs.head? = some t)
    (hscratch : kg.Inner n → host.scratch (n.attr 0 4)) :
    ∃ out, outputBuffer f host (compile kg) outputs tensors n t = .ok out ∧
      (out.isNull = false ↔ (kg.Inner n → n.attr 0 4 ≠ 0)) ∧
      (kg.Inner n → out.size = n.attr 0 4) ∧
      (¬kg.Inner n → ∀ m ∈ kg.nodes, m.outputs.head? = some t → m.writeCount ≤ out.size) := by
  have hw := mem_writes hn ht
  rw [inner_iff ht] at hscratch ⊢
  by_cases hr : t ∈ kg.reads
  · rw [outputBuffer, outputIndex_inner hr]
    dsimp only
    rw [if_neg (by simp [hscratch hr])]
    split
    · rename_i hzero
      exact ⟨.null, rfl, by simp [Pointer.isNull, hr, hzero], by simp [Pointer.size, hzero],
        fun hnot ↦ absurd hr hnot⟩
    · rename_i hpos
      exact ⟨_, rfl, by simp [Pointer.isNull, hpos], by simp [Pointer.size],
        fun hnot ↦ absurd hr hnot⟩
  · obtain ⟨i, hi⟩ := List.mem_iff_getElem?.mp (mem_outputNames.mpr ⟨hw, hr⟩)
    have hindex := outputIndex_at (compile kg) (le_padded_length _ _) (firstMentions_nodup _) hi
    rw [outputBuffer, hindex]
    dsimp only
    cases hbound : tensors t with
    | some p =>
      obtain ⟨cells, rfl, hcount⟩ := hz.outer t p hw hr hbound
      exact ⟨.block cells, rfl, by simp [Pointer.isNull, hr], fun hyes ↦ absurd hyes hr,
        fun _ ↦ hcount⟩
    | none =>
      obtain ⟨cells, hcells, hcount⟩ := hs.output i t hi
      exact ⟨.block cells, by rw [hcells], by simp [Pointer.isNull, hr], fun hyes ↦ absurd hyes hr,
        fun _ ↦ hcount⟩

theorem Sized.update (hz : Sized kg inputs past tensors) (hn : n ∈ kg.nodes)
    (ht : n.outputs.head? = some t) {cells : List F} (hin : kg.Inner n → cells.length = n.attr 0 4)
    (hout : ¬kg.Inner n → ∀ m ∈ kg.nodes, m.outputs.head? = some t → m.writeCount ≤ cells.length) :
    Sized kg inputs (n :: past) (Function.update tensors t (some (.block cells))) := by
  have hw := mem_writes hn ht
  rw [inner_iff ht] at hin hout
  have hother {t' : ByteString} (hne : t' ≠ t) : writer (n :: past) t' = writer past t' := by
    rw [writer_cons, if_neg (by simpa [ht] using hne.symm)]
  have hself : writer (n :: past) t = some n := by rw [writer_cons, if_pos ht]
  constructor
  case nodes =>
    intro m hm
    rcases List.mem_cons.mp hm with rfl | hm
    · exact hn
    · exact hz.nodes m hm
  case external =>
    intro t' ht'
    rw [Function.update_of_ne (fun heq : t' = t ↦ ht' (heq ▸ hw))]
    exact hz.external t' ht'
  case unwritten =>
    intro t' ht' hnone
    have hne : t' ≠ t := fun heq ↦ by rw [heq, hself] at hnone; simp at hnone
    rw [Function.update_of_ne hne]
    exact hz.unwritten t' ht' (by rwa [hother hne] at hnone)
  case inner =>
    intro t' m hr hm
    by_cases heq : t' = t
    · subst heq
      obtain rfl : n = m := by simpa [hself] using hm
      exact ⟨cells, Function.update_self .., hin hr⟩
    · rw [Function.update_of_ne heq]
      exact hz.inner t' m hr (by rwa [hother heq] at hm)
  case outer =>
    intro t' p hw' hr hp
    by_cases heq : t' = t
    · subst heq
      rw [Function.update_self] at hp
      exact ⟨cells, by simpa using hp.symm, hout hr⟩
    · rw [Function.update_of_ne heq] at hp
      exact hz.outer t' p hw' hr hp

theorem bind_ne_undefined {ε α β : Type} {x : Outcome ε α} (g : α → Outcome ε β)
    (h : x ≠ .undefined ∧ x.succeeds = false) :
    x.bind g ≠ .undefined ∧ (x.bind g).succeeds = false := by
  cases x with
  | ok a => simp [Outcome.succeeds] at h
  | failed error => exact ⟨by simp [Outcome.bind], rfl⟩
  | undefined => exact absurd rfl h.1
  | threw => exact ⟨by simp [Outcome.bind], rfl⟩

theorem executeNode_not_started (hs : Supplied kg inputs outputs)
    (hz : Sized kg inputs past tensors) (hn : n ∈ kg.nodes) (h : ¬Starts kg host past n) :
    executeNode f host (compile kg) outputs tensors n ≠ .undefined ∧
      (executeNode f host (compile kg) outputs tensors n).succeeds = false := by
  rw [executeNode]
  by_cases hinputs : ∀ t ∈ n.inputs, t ∈ kg.writes → (writer past t).isSome
  · obtain ⟨ins, hins, -⟩ := hz.resolves hs hn hinputs
    rw [hins, Outcome.bind]
    cases houtputs : n.outputs with
    | nil => exact ⟨by simp, rfl⟩
    | cons t rest =>
      have ht : n.outputs.head? = some t := by simp [houtputs]
      have hno : ¬(kg.Inner n → host.scratch (n.attr 0 4)) := fun hscratch ↦
        h ⟨hinputs, by simp [houtputs], hscratch⟩
      rw [inner_iff ht] at hno
      push Not at hno
      dsimp only
      refine bind_ne_undefined _ ?_
      rw [outputBuffer, outputIndex_inner hno.1]
      dsimp only
      rw [if_pos (by simpa using hno.2)]
      exact ⟨by simp, rfl⟩
  · obtain ⟨t, ht, hw, hnone⟩ : ∃ t ∈ n.inputs, t ∈ kg.writes ∧ writer past t = none := by
      simpa using hinputs
    obtain ⟨error, herror⟩ := resolve_missing ht (hz.unwritten t hw hnone)
    rw [herror, Outcome.bind]
    exact ⟨by simp, rfl⟩

theorem executeNode_started (hs : Supplied kg inputs outputs) (hz : Sized kg inputs past tensors)
    (hn : n ∈ kg.nodes) (h : Starts kg host past n) :
    ∃ (x : Written F) (t : ByteString) (size : Nat),
      executeNode f host (compile kg) outputs tensors n =
        x.bind (fun cells ↦ .ok (Function.update tensors t (some (.block cells)))) ∧
      (n.inputs.length < n.operands → x = .undefined) ∧
      (n.operands ≤ n.inputs.length → Guarded (Passes kg f n) (Agrees kg past n) size x) ∧
      ∀ cells : List F, cells.length = size →
        Sized kg inputs (n :: past) (Function.update tensors t (some (.block cells))) := by
  obtain ⟨hinputs, hne, hscratch⟩ := h
  obtain ⟨t, rest, houtputs⟩ := List.exists_cons_of_ne_nil hne
  have ht : n.outputs.head? = some t := by simp [houtputs]
  obtain ⟨ins, hins, hlen, hreads⟩ := hz.resolves hs hn hinputs
  obtain ⟨out, hout, hnull, hin, hcaller⟩ := hz.buffer (f := f) hs hn ht hscratch
  refine ⟨f.dispatch n (ins.map .block) out, t, out.size, ?_, fun hmissing ↦ ?_, fun hops ↦ ?_,
    fun cells hsize ↦ ?_⟩
  · rw [executeNode, hins, Outcome.bind, houtputs]
    dsimp only
    rw [hout, Outcome.bind]
  · exact f.dispatch_missing (by simpa using hlen) hmissing
  · refine (f.dispatch_guarded hlen hops).congr (and_congr_left' hnull) (fun _ ↦ ?_)
    have hwrite : n.writeCount ≤ out.size ↔ (kg.Inner n → n.writeCount ≤ n.attr 0 4) := by
      by_cases hinner : kg.Inner n
      · simp [hinner, hin hinner]
      · simp [hinner, hcaller hinner n hn ht]
    constructor
    · intro hfits
      exact ⟨hfits.own, hwrite.mp hfits.write, hreads.mp hfits.reads⟩
    · rintro ⟨hown, hagrees, hreads'⟩
      exact ⟨hown, hreads.mpr hreads', hwrite.mpr hagrees⟩
  · exact hz.update hn ht (fun hinner ↦ by rw [hsize, hin hinner])
      (fun hinner ↦ by rw [hsize]; exact hcaller hinner)

theorem executeNodes_in_bounds (hs : Supplied kg inputs outputs)
    (hz : Sized kg inputs past tensors) {rest : List (KernelNode F)}
    (hrest : ∀ n ∈ rest, n ∈ kg.nodes) :
    executeNodes f host (compile kg) outputs tensors rest ≠ .undefined ↔
      AgreesFrom kg f host past rest := by
  induction rest generalizing past tensors with
  | nil => simp [executeNodes, AgreesFrom]
  | cons n rest ih =>
    have hn := hrest n (by simp)
    rw [executeNodes, AgreesFrom]
    by_cases hstart : Starts kg host past n
    · obtain ⟨x, t, size, hx, hmissing, hguarded, hsized⟩ :=
        executeNode_started (f := f) hs hz hn hstart
      rw [hx]
      by_cases hops : n.operands ≤ n.inputs.length
      · have hg := hguarded hops
        by_cases hpass : Passes kg f n
        · simp only [hstart, hops, hpass, true_and, forall_const]
          by_cases hagree : Agrees kg past n
          · obtain ⟨cells, rfl, hsize⟩ := hg.writes hpass hagree
            simp only [Outcome.bind, hagree, true_and]
            exact ih (hsized cells hsize) (fun m hm ↦ hrest m (by simp [hm]))
          · simp [hg.strays hpass hagree, Outcome.bind, hagree]
        · refine iff_of_true ?_ (fun _ ↦ ⟨hops, fun h ↦ absurd h hpass⟩)
          exact (bind_ne_undefined _ (bind_ne_undefined _ (hg.refuses hpass))).1
      · simp [hmissing (by omega), Outcome.bind, hstart, hops]
    · refine iff_of_true ?_ (fun h ↦ absurd h hstart)
      exact (bind_ne_undefined _ (executeNode_not_started hs hz hn hstart)).1

/-- A run of the backend stays inside its buffers exactly where the nodes it comes to agree on the
sizes of the vectors between them. -/
theorem execute_in_bounds_iff (hs : Supplied kg inputs outputs) :
    execute f host (compile kg) outputs inputs ≠ .undefined ↔ AgreesFrom kg f host [] kg.nodes := by
  rw [← executeNodes_in_bounds hs sized_start (fun _ hn ↦ hn), execute]
  by_cases hempty : kg.nodes = []
  · rw [if_pos (.inr hempty), hempty]
    simp [executeNodes]
  · rw [if_neg (by simp [compile, hempty])]
    change (executeNodes f host (compile kg) outputs (bindInputs (compile kg) inputs)
      kg.nodes).bind _ ≠ _ ↔ _
    cases executeNodes f host (compile kg) outputs (bindInputs (compile kg) inputs) kg.nodes with
    | ok tensors => simp [Outcome.bind]
    | failed error => simp [Outcome.bind]
    | undefined => simp [Outcome.bind]
    | threw => simp [Outcome.bind]

end

theorem Supplied.of_cells {kg : KernelGraph F} (ins outs : List (List F))
    (hattrs : ∀ n ∈ kg.nodes, n.op.attrCount ≤ n.intAttrs.length)
    (hin : kg.inputNames.length ≤ ins.length) (hout : kg.outputNames.length ≤ outs.length)
    (hread : ∀ b ∈ kg.inputNames.zip ins, ∀ n ∈ kg.nodes, ∀ e ∈ n.readCounts.zip n.inputs,
      e.2 = b.1 → e.1 ≤ b.2.length)
    (hwrite : ∀ b ∈ kg.outputNames.zip outs, ∀ n ∈ kg.nodes, n.outputs.head? = some b.1 →
      n.writeCount ≤ b.2.length) : Supplied kg (ins.map .block) (outs.map .block) where
  attrs := hattrs
  input i t ht := by
    have hi : i < ins.length := (List.getElem?_eq_some_iff.mp ht).1.trans_le hin
    have hcells : ins[i]? = some ins[i] := List.getElem?_eq_getElem hi
    refine ⟨ins[i], by rw [List.getElem?_map, hcells]; rfl, hread (t, ins[i]) ?_⟩
    exact List.mem_of_getElem? (List.getElem?_zip_eq_some.mpr ⟨ht, hcells⟩)
  output i t ht := by
    have hi : i < outs.length := (List.getElem?_eq_some_iff.mp ht).1.trans_le hout
    have hcells : outs[i]? = some outs[i] := List.getElem?_eq_getElem hi
    refine ⟨outs[i], by rw [List.getElem?_map, hcells]; rfl, hwrite (t, outs[i]) ?_⟩
    exact List.mem_of_getElem? (List.getElem?_zip_eq_some.mpr ⟨ht, hcells⟩)

def productNode (cols : Int) : KernelNode Int where
  op := .matMul
  inputs := [lit "a", lit "b"]
  outputs := [lit "y"]
  intAttrs := [2, cols, 1]

def productThenRelu (cols : Int) : KernelGraph Int where
  nodes := [productNode cols,
    { op := .relu, inputs := [lit "y"], outputs := [lit "z"], intAttrs := [2 * cols] }]

/-- With one column the vector between the nodes has a cell for each row of the product. -/
theorem execute_in_bounds_iff_column :
    Supplied (productThenRelu 1) [.block [1, 2], .block [3]] [.block [0, 0]] ∧
    execute Floats.integers plainRuntime (compile (productThenRelu 1)) [.block [0, 0]]
      [.block [1, 2], .block [3]] ≠ .undefined := by
  have hs : Supplied (productThenRelu 1) [.block [1, 2], .block [3]] [.block [0, 0]] :=
    .of_cells [[1, 2], [3]] [[0, 0]] (by decide) (by decide) (by decide) (by decide) (by decide)
  refine ⟨hs, (execute_in_bounds_iff hs).mpr ?_⟩
  have hfirst : Agrees (productThenRelu 1) [] (productNode 1) :=
    ⟨fun h ↦ absurd h (by decide), fun _ ↦ by decide, by decide⟩
  refine fun _ ↦ ⟨by decide, fun _ ↦ ⟨hfirst, fun _ ↦ ⟨by decide, fun _ ↦ ⟨?_, trivial⟩⟩⟩⟩
  exact ⟨trivial, fun h ↦ absurd h (by decide), by decide⟩

/-- With three columns the product has six elements, and the vector two. -/
theorem product_overruns :
    Supplied (productThenRelu 3) [.block [1, 2], .block [3, 4, 5]] [.block [0, 0, 0, 0, 0, 0]] ∧
    execute Floats.integers plainRuntime (compile (productThenRelu 3)) [.block [0, 0, 0, 0, 0, 0]]
      [.block [1, 2], .block [3, 4, 5]] = .undefined := by
  refine ⟨.of_cells [[1, 2], [3, 4, 5]] [[0, 0, 0, 0, 0, 0]] (by decide) (by decide) (by decide)
    (by decide) (by decide), by decide⟩

end Cerberus.Graph
