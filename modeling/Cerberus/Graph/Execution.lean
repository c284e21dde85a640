import Cerberus.Graph.Runtime
import Cerberus.Graph.Sorting

namespace Cerberus.Graph

open Foundation Foundation.Bytes TieredMemory

variable {F : Type}

def allBound {α : Type} : List (Option α) → Option (List α)
  | [] => some []
  | none :: _ => none
  | some a :: rest => (allBound rest).map (fun as ↦ a :: as)

def Outcome.toOption {ε α : Type} : Outcome ε α → Option α
  | .ok a => some a
  | _ => none

/-- What a node makes of its inputs, in a buffer that nobody has written. -/
def nodeValue (f : Floats F) (host : Host F) (kernel : CompiledKernel F)
    (outputs : List (Pointer F)) (n : KernelNode F) (ins : List (Option (Pointer F)))
    (t : ByteString) : Option (Pointer F) :=
  (allBound ins).bind (fun ps ↦
    (outputBuffer f host kernel outputs (fun _ ↦ none) n t).toOption.bind (fun out ↦
      (f.dispatch n ps out).toOption.map Pointer.block))

section

variable {f : Floats F} {host : Host F} {kernel : CompiledKernel F} {outputs : List (Pointer F)}
  {tensors tensors' : Tensors F} {n : KernelNode F} {t : ByteString}

@[simp] theorem Outcome.bind_eq_ok {ε α β : Type} {x : Outcome ε α} {g : α → Outcome ε β} {b : β} :
    x.bind g = .ok b ↔ ∃ a, x = .ok a ∧ g a = .ok b := by
  cases x with
  | ok a => simp [Outcome.bind]
  | failed error => simp [Outcome.bind]
  | undefined => simp [Outcome.bind]
  | threw => simp [Outcome.bind]

theorem Outcome.toOption_eq_some {ε α : Type} {x : Outcome ε α} {a : α} :
    x.toOption = some a ↔ x = .ok a := by
  cases x with
  | ok b => simp [Outcome.toOption]
  | failed error => simp [Outcome.toOption]
  | undefined => simp [Outcome.toOption]
  | threw => simp [Outcome.toOption]

theorem isSome_of_allBound {α : Type} {ins : List (Option α)} (h : (allBound ins).isSome) :
    ∀ x ∈ ins, x.isSome := by
  induction ins with
  | nil => simp
  | cons x rest ih =>
    cases x with
    | none => simp [allBound] at h
    | some a =>
      have hrest : (allBound rest).isSome := by simpa [allBound] using h
      simpa using ih hrest

theorem resolve_eq_ok {names : List ByteString} {ps : List (Pointer F)} :
    resolve tensors names = .ok ps ↔ allBound (names.map tensors) = some ps := by
  induction names generalizing ps with
  | nil => simp [resolve, allBound]
  | cons name names ih =>
    rw [List.map_cons, resolve]
    cases htensor : tensors name with
    | none => simp [allBound]
    | some p => simp [allBound, ih]

theorem outputBuffer_unwritten (h : tensors t = none) :
    outputBuffer f host kernel outputs tensors n t =
      outputBuffer f host kernel outputs (fun _ ↦ none) n t := by
  unfold outputBuffer
  rw [h]

theorem nodeValue_eq_some {ins : List (Option (Pointer F))} {p : Pointer F} :
    nodeValue f host kernel outputs n ins t = some p ↔
      ∃ ps, allBound ins = some ps ∧
        ∃ out, outputBuffer f host kernel outputs (fun _ ↦ none) n t = .ok out ∧
          ∃ cells, f.dispatch n ps out = .ok cells ∧ Pointer.block cells = p := by
  simp only [nodeValue, Option.bind_eq_some_iff, Option.map_eq_some_iff, Outcome.toOption_eq_some]

theorem nodeValue_strict {ins : List (Option (Pointer F))}
    (h : (nodeValue f host kernel outputs n ins t).isSome) : ∀ x ∈ ins, x.isSome := by
  obtain ⟨p, hp⟩ := Option.isSome_iff_exists.mp h
  obtain ⟨ps, hps, -⟩ := nodeValue_eq_some.mp hp
  exact isSome_of_allBound (by rw [hps]; rfl)

theorem executeNode_eq_ok (hone : n.outputs = [t]) (h : tensors t = none) :
    executeNode f host kernel outputs tensors n = .ok tensors' ↔
      (nodeValue f host kernel outputs n (n.inputs.map tensors) t).isSome ∧
      tensors' = Dataflow.step (fun n ↦ n.inputs) (fun n ↦ n.outputs)
        (nodeValue f host kernel outputs) tensors n := by
  have hstep : Dataflow.step (fun n ↦ n.inputs) (fun n ↦ n.outputs)
      (nodeValue f host kernel outputs) tensors n =
        Function.update tensors t (nodeValue f host kernel outputs n (n.inputs.map tensors) t) := by
    funext k
    by_cases hk : k = t
    · simp [Dataflow.step, hone, hk]
    · simp [Dataflow.step, hone, hk]
  rw [executeNode, hone, hstep]
  simp only [Outcome.bind_eq_ok, resolve_eq_ok, outputBuffer_unwritten h, Outcome.ok.injEq]
  constructor
  · rintro ⟨ps, hps, out, hout, cells, hcells, rfl⟩
    rw [nodeValue_eq_some.mpr ⟨ps, hps, out, hout, cells, hcells, rfl⟩]
    exact ⟨rfl, rfl⟩
  · rintro ⟨hsome, rfl⟩
    obtain ⟨p, hp⟩ := Option.isSome_iff_exists.mp hsome
    obtain ⟨ps, hps, out, hout, cells, hcells, rfl⟩ := nodeValue_eq_some.mp hp
    exact ⟨ps, hps, out, hout, cells, hcells, by rw [hp]⟩

theorem executeNodes_eq_ok {l : List (KernelNode F)} (hone : ∀ n ∈ l, ∃ t, n.outputs = [t])
    (hs : Dataflow.Single (fun n ↦ n.outputs) l) (hfree : ∀ n ∈ l, ∀ t ∈ n.outputs, tensors t = none) :
    executeNodes f host kernel outputs tensors l = .ok tensors' ↔
      tensors' = Dataflow.eval (fun n ↦ n.inputs) (fun n ↦ n.outputs)
        (nodeValue f host kernel outputs) tensors l ∧
      ∀ n ∈ l, ∀ t ∈ n.outputs, (tensors' t).isSome := by
  induction l generalizing tensors with
  | nil =>
    rw [executeNodes, Outcome.ok.injEq, Dataflow.eval_nil]
    exact ⟨fun h ↦ ⟨h.symm, by simp⟩, fun h ↦ h.1.symm⟩
  | cons n l ih =>
    obtain ⟨t, ht⟩ := hone n (by simp)
    have hfirst (p : KernelNode F) (hp : p ∈ l) (k : ByteString) (hk : k ∈ p.outputs) :
        k ∉ n.outputs := fun hn ↦
      (show Dataflow.Single _ ([n] ++ l) from hs).not_after ⟨n, by simp, hn⟩ p hp hk
    have hs' : Dataflow.Single (fun n ↦ n.outputs) l := by
      rw [Dataflow.Single, List.flatMap_cons] at hs
      exact hs.of_append_right
    have hfree' (p : KernelNode F) (hp : p ∈ l) (k : ByteString) (hk : k ∈ p.outputs) :
        Dataflow.step (fun n ↦ n.inputs) (fun n ↦ n.outputs) (nodeValue f host kernel outputs)
          tensors n k = none := by
      rw [Dataflow.step_of_notMem (hfirst p hp k hk)]
      exact hfree p (by simp [hp]) k hk
    have hbound : tensors t = none := hfree n (by simp) t (by simp [ht])
    have hvalue : Dataflow.eval (fun n ↦ n.inputs) (fun n ↦ n.outputs)
        (nodeValue f host kernel outputs) tensors (n :: l) t =
          nodeValue f host kernel outputs n (n.inputs.map tensors) t :=
      Dataflow.eval_at (show Dataflow.Single _ ([] ++ n :: l) from hs) (by simp [ht])
    rw [executeNodes, Outcome.bind_eq_ok]
    constructor
    · rintro ⟨ts, hn, hrest⟩
      obtain ⟨hsome, rfl⟩ := (executeNode_eq_ok ht hbound).mp hn
      obtain ⟨rfl, hdefined⟩ := (ih (fun p hp ↦ hone p (by simp [hp])) hs' hfree').mp hrest
      refine ⟨rfl, fun p hp k hk ↦ ?_⟩
      rcases List.mem_cons.mp hp with rfl | hp
      · rw [ht, List.mem_singleton] at hk
        rw [← Dataflow.eval_cons, hk, hvalue]
        exact hsome
      · exact hdefined p hp k hk
    · rintro ⟨rfl, hdefined⟩
      have hsome := hdefined n (by simp) t (by simp [ht])
      rw [hvalue] at hsome
      exact ⟨_, (executeNode_eq_ok ht hbound).mpr ⟨hsome, rfl⟩,
        (ih (fun p hp ↦ hone p (by simp [hp])) hs' hfree').mpr
          ⟨rfl, fun p hp ↦ hdefined p (by simp [hp])⟩⟩

/-- A listing runs exactly when it is in order and the equations of its nodes can be solved. -/
theorem executeNodes_iff {l : List (KernelNode F)} (hone : ∀ n ∈ l, ∃ t, n.outputs = [t])
    (hs : Dataflow.Single (fun n ↦ n.outputs) l)
    (hfree : ∀ n ∈ l, ∀ t ∈ n.outputs, tensors t = none) :
    executeNodes f host kernel outputs tensors l = .ok tensors' ↔
      Dataflow.Ordered (fun n ↦ n.inputs) (fun n ↦ n.outputs) l ∧
      Dataflow.Solution (fun n ↦ n.inputs) (fun n ↦ n.outputs) (nodeValue f host kernel outputs)
        tensors l tensors' := by
  rw [executeNodes_eq_ok hone hs hfree]
  constructor
  · rintro ⟨rfl, hdefined⟩
    have ho := Dataflow.ordered_of_defined hs hfree (fun n ins k ↦ nodeValue_strict)
      (fun n hn ↦ by
        obtain ⟨t, ht⟩ := hone n hn
        exact ⟨t, by simp [ht], hdefined n hn t (by simp [ht])⟩)
    exact ⟨ho, (Dataflow.solution_iff ho hs).mpr ⟨rfl, hdefined⟩⟩
  · rintro ⟨ho, hsolution⟩
    obtain ⟨rfl, hdefined⟩ := (Dataflow.solution_iff ho hs).mp hsolution
    exact ⟨rfl, hdefined⟩

end

end Cerberus.Graph
