import Mathlib.Data.List.Basic

namespace Cerberus.Foundation.Trace

variable {σ α : Type}

/-- A run that records, for every call it makes, the state the call was made in. -/
inductive Run (step : σ → α → σ → Prop) : σ → List (σ × α) → σ → Prop
  | nil (s : σ) : Run step s [] s
  | cons {s t u : σ} {a : α} {tr : List (σ × α)} :
      step s a t → Run step t tr u → Run step s ((s, a) :: tr) u

/-- A property of every state of a run: those its calls were made in, and the last one. -/
def Throughout (I : σ → Prop) (tr : List (σ × α)) (u : σ) : Prop :=
  (∀ e ∈ tr, I e.1) ∧ I u

variable {step : σ → α → σ → Prop} {s t u : σ} {tr tr' : List (σ × α)}

theorem Run.append (h : Run step s tr t) (h' : Run step t tr' u) :
    Run step s (tr ++ tr') u := by
  induction h with
  | nil => exact h'
  | cons hs _ ih => exact .cons hs (ih h')

theorem Run.cut {a : α} (h : Run step s (tr ++ (t, a) :: tr') u) :
    ∃ v, Run step s tr t ∧ step t a v ∧ Run step v tr' u := by
  induction tr generalizing s with
  | nil =>
    cases h with
    | cons hs hr => exact ⟨_, .nil _, hs, hr⟩
  | cons e tr ih =>
    cases h with
    | cons hs hr =>
      obtain ⟨v, hpre, hv, hpost⟩ := ih hr
      exact ⟨v, .cons hs hpre, hv, hpost⟩

theorem Run.guarded {I : σ → Prop} {ok : σ → α → Prop}
    (hstep : ∀ s a t, I s → ok s a → step s a t → I t)
    (h : Run step s tr u) (hs : I s) (hok : ∀ e ∈ tr, ok e.1 e.2) : Throughout I tr u := by
  induction h with
  | nil s => exact ⟨by simp, hs⟩
  | @cons s t u a tr h _ ih =>
    have ha : ok s a := hok (s, a) (by simp)
    obtain ⟨hmid, hend⟩ := ih (hstep s a t hs ha h) (fun e he ↦ hok e (by simp [he]))
    refine ⟨?_, hend⟩
    intro e he
    rcases List.mem_cons.mp he with rfl | he
    · exact hs
    · exact hmid e he

theorem Run.invariant {I : σ → Prop} (hstep : ∀ s a t, I s → step s a t → I t)
    (h : Run step s tr u) (hs : I s) : Throughout I tr u :=
  h.guarded (fun s a t hi (_ : True) ht ↦ hstep s a t hi ht) hs (fun _ _ ↦ trivial)

/-- When every guarded call keeps an invariant and every other call breaks a property that the
invariant gives, the property holds all along a run exactly when each of its calls is guarded. -/
theorem Run.holds_iff {J P : σ → Prop} {ok : σ → α → Prop} (hgives : ∀ s, J s → P s)
    (hkeep : ∀ s a t, J s → ok s a → step s a t → J t)
    (hbreak : ∀ s a t, J s → ¬ ok s a → step s a t → ¬ P t)
    (h : Run step s tr u) (hs : J s) : Throughout P tr u ↔ ∀ e ∈ tr, ok e.1 e.2 := by
  constructor
  · intro hP
    induction h with
    | nil s => simp
    | @cons s t u a tr h hr ih =>
      obtain ⟨hmid, hend⟩ := hP
      have ht : P t := by
        cases hr with
        | nil => exact hend
        | @cons _ _ _ b _ _ _ => exact hmid (t, b) (by simp)
      have ha : ok s a := by
        by_contra ha
        exact hbreak s a t hs ha h ht
      have hrest := ih (hkeep s a t hs ha h) ⟨fun e he ↦ hmid e (by simp [he]), hend⟩
      intro e he
      rcases List.mem_cons.mp he with rfl | he
      · exact ha
      · exact hrest e he
  · intro hok
    obtain ⟨hmid, hend⟩ := h.guarded hkeep hs hok
    exact ⟨fun e he ↦ hgives _ (hmid e he), hgives _ hend⟩

/-- The same where it is known of a step that it keeps the property exactly when its call is
guarded. -/
theorem Run.step_iff {P : σ → Prop} {ok : σ → α → Prop}
    (hstep : ∀ s a t, P s → step s a t → (P t ↔ ok s a)) (h : Run step s tr u) (hs : P s) :
    Throughout P tr u ↔ ∀ e ∈ tr, ok e.1 e.2 :=
  h.holds_iff (fun _ hs ↦ hs) (fun s a t hs ha ht ↦ (hstep s a t hs ht).mpr ha)
    (fun s a t hs ha ht hp ↦ ha ((hstep s a t hs ht).mp hp)) hs

/-- The same where the property is itself an invariant, together with one that every call keeps. -/
theorem Run.throughout_iff {B I : σ → Prop} {ok : σ → α → Prop}
    (hbase : ∀ s a t, B s → step s a t → B t)
    (hkeep : ∀ s a t, B s → I s → ok s a → step s a t → I t)
    (hbreak : ∀ s a t, B s → I s → ¬ ok s a → step s a t → ¬ I t)
    (h : Run step s tr u) (hb : B s) (hs : I s) :
    Throughout I tr u ↔ ∀ e ∈ tr, ok e.1 e.2 :=
  h.holds_iff (J := fun s ↦ B s ∧ I s) (fun _ hs ↦ hs.2)
    (fun s a t hs ha ht ↦ ⟨hbase s a t hs.1 ht, hkeep s a t hs.1 hs.2 ha ht⟩)
    (fun s a t hs ha ht ↦ hbreak s a t hs.1 hs.2 ha ht) ⟨hb, hs⟩

theorem Run.restrict {ok : σ → α → Prop} (h : Run step s tr u) (hok : ∀ e ∈ tr, ok e.1 e.2) :
    Run (fun s a t ↦ ok s a ∧ step s a t) s tr u := by
  induction h with
  | nil s => exact .nil s
  | @cons s t u a tr hs _ ih =>
    exact .cons ⟨hok (s, a) (by simp), hs⟩ (ih (fun e he ↦ hok e (by simp [he])))

/-- What a run looks like from a part of the state, if every call is one call on the part or
none. -/
theorem Run.project {τ β : Type} {step' : τ → β → τ → Prop} (f : σ → τ) (g : σ → α → Option β)
    (hcall : ∀ s a t b, step s a t → g s a = some b → step' (f s) b (f t))
    (hother : ∀ s a t, step s a t → g s a = none → f t = f s) (h : Run step s tr u) :
    Run step' (f s) (tr.filterMap (fun e ↦ (g e.1 e.2).map (Prod.mk (f e.1)))) (f u) := by
  induction h with
  | nil s => exact .nil (f s)
  | @cons s t u a tr hs _ ih =>
    rw [List.filterMap_cons]
    cases hg : g s a with
    | none =>
      rw [← hother s a t hs hg]
      exact ih
    | some b => exact .cons (hcall s a t b hs hg) ih

/-- The run that a list of calls makes; it stops at a call that is not answered. -/
def follow (f : σ → α → Option σ) : σ → List α → List (σ × α) × σ
  | s, [] => ([], s)
  | s, a :: l =>
    match f s a with
    | none => ([], s)
    | some t => ((s, a) :: (follow f t l).1, (follow f t l).2)

theorem run_follow (f : σ → α → Option σ) (s : σ) (l : List α) :
    Run (fun s a t ↦ f s a = some t) s (follow f s l).1 (follow f s l).2 := by
  induction l generalizing s with
  | nil => exact .nil s
  | cons a l ih =>
    cases hf : f s a with
    | none => simpa [follow, hf] using Run.nil s
    | some t => simpa [follow, hf] using Run.cons hf (ih t)

end Cerberus.Foundation.Trace
