import Mathlib.Data.List.Induction
import Mathlib.Data.Fintype.Card
import Mathlib.Data.List.Nodup
import Mathlib.Data.Set.Finite.List
import Mathlib.Order.WellFounded

namespace Cerberus.Foundation.Dataflow

variable {ν κ V : Type}

/-- Whatever a node reads and some node writes is written before. -/
def Ordered (reads writes : ν → List κ) (l : List ν) : Prop :=
  ∀ pre n post, l = pre ++ n :: post → ∀ k ∈ reads n, (∃ p ∈ l, k ∈ writes p) →
    ∃ p ∈ pre, k ∈ writes p

def Needs (reads writes : ν → List κ) (l : List ν) (k k' : κ) : Prop :=
  ∃ n ∈ l, k ∈ reads n ∧ k' ∈ writes n

def Acyclic (reads writes : ν → List κ) (l : List ν) : Prop :=
  ∀ k, ¬Relation.TransGen (Needs reads writes l) k k

def Single (writes : ν → List κ) (l : List ν) : Prop := (l.flatMap writes).Nodup

variable {reads writes : ν → List κ} {pre post : List ν} {n : ν} {k : κ}

theorem Single.not_after (hs : Single writes (pre ++ post)) (hpre : ∃ p ∈ pre, k ∈ writes p) :
    ∀ p ∈ post, k ∉ writes p := by
  intro p hp hw
  rw [Single, List.flatMap_append, List.nodup_append] at hs
  exact hs.2.2 k (List.mem_flatMap.mpr hpre) k (List.mem_flatMap.mpr ⟨p, hp, hw⟩) rfl

theorem Single.unique {l : List ν} {p q : ν} (hs : Single writes l) (hp : p ∈ l) (hq : q ∈ l)
    (hwp : k ∈ writes p) (hwq : k ∈ writes q) : p = q := by
  obtain ⟨pre, post, rfl⟩ := List.append_of_mem hp
  rcases List.mem_append.mp hq with hq | hq
  · exact absurd hwp (hs.not_after ⟨q, hq, hwq⟩ p (by simp))
  · rcases List.mem_cons.mp hq with rfl | hq
    · rfl
    · rw [← List.singleton_append, ← List.append_assoc] at hs
      exact absurd hwq (hs.not_after ⟨p, by simp, hwp⟩ q hq)

theorem Ordered.not_after (ho : Ordered reads writes (pre ++ n :: post))
    (hs : Single writes (pre ++ n :: post)) (hk : k ∈ reads n) : ∀ p ∈ n :: post, k ∉ writes p := by
  intro p hp hw
  have hbefore := ho pre n post rfl k hk ⟨p, List.mem_append_right pre hp, hw⟩
  exact hs.not_after hbefore p hp hw

theorem Acyclic.perm {l l' : List ν} (ha : Acyclic reads writes l) (hp : l.Perm l') :
    Acyclic reads writes l' := by
  have hneeds : Needs reads writes l' = Needs reads writes l := by
    funext k k'
    simp only [Needs, hp.mem_iff]
  rw [Acyclic, hneeds]
  exact ha

theorem needs_of_feeds {l : List ν} {p q : {n // n ∈ l}}
    (h : Relation.TransGen (fun p q : {n // n ∈ l} ↦ ∃ k ∈ writes p, k ∈ reads q) p q) :
    ∃ k ∈ writes p, ∀ k' ∈ writes q, Relation.TransGen (Needs reads writes l) k k' := by
  induction h with
  | single h =>
    rename_i q
    obtain ⟨k, hw, hr⟩ := h
    exact ⟨k, hw, fun k' hk' ↦ .single ⟨q, q.2, hr, hk'⟩⟩
  | tail _ h ih =>
    rename_i m q _
    obtain ⟨k, hw, hk⟩ := ih
    obtain ⟨j, hj, hr⟩ := h
    exact ⟨k, hw, fun k' hk' ↦ .tail (hk j hj) ⟨q, q.2, hr, hk'⟩⟩

theorem nodes_of_needs {l : List ν} {k k' : κ}
    (h : Relation.TransGen (Needs reads writes l) k k') :
    ∃ n ∈ l, ∃ m ∈ l, k ∈ reads n ∧ k' ∈ writes m ∧
      Relation.ReflTransGen (fun p q ↦ p ∈ l ∧ q ∈ l ∧ ∃ j ∈ writes p, j ∈ reads q) n m := by
  induction h with
  | single h =>
    obtain ⟨n, hn, hr, hw⟩ := h
    exact ⟨n, hn, n, hn, hr, hw, .refl⟩
  | tail _ h ih =>
    obtain ⟨n, hn, m, hm, hr, hw, hchain⟩ := ih
    obtain ⟨q, hq, hr', hw'⟩ := h
    exact ⟨n, hn, q, hq, hr, hw', hchain.tail ⟨hm, hq, _, hw, hr'⟩⟩

theorem acyclic_of_nodes {l : List ν}
    (h : ∀ n, ¬Relation.TransGen (fun p q ↦ p ∈ l ∧ q ∈ l ∧ ∃ k ∈ writes p, k ∈ reads q) n n) :
    Acyclic reads writes l := by
  intro k hk
  obtain ⟨n, hn, m, hm, hr, hw, hchain⟩ := nodes_of_needs hk
  exact h m (.head' ⟨hm, hn, k, hw, hr⟩ hchain)

theorem Acyclic.exists_first {l : List ν} (ha : Acyclic reads writes l) {S : Set ν}
    (hS : ∀ n ∈ S, n ∈ l) (hne : S.Nonempty) :
    ∃ n ∈ S, ∀ p ∈ S, ∀ k ∈ writes p, k ∉ reads n := by
  let r : {n // n ∈ l} → {n // n ∈ l} → Prop :=
    Relation.TransGen (fun p q ↦ ∃ k ∈ writes p, k ∈ reads q)
  have hirrefl : Std.Irrefl r := ⟨fun p h ↦ by
    obtain ⟨k, hw, hk⟩ := needs_of_feeds h
    exact ha k (hk k hw)⟩
  have hfinite : Finite {n // n ∈ l} := l.finite_toSet
  have hwf : WellFounded r := Finite.wellFounded_of_trans_of_irrefl r
  obtain ⟨n, hn⟩ := hne
  obtain ⟨m, hm, hmin⟩ := hwf.has_min (Set.preimage Subtype.val S) ⟨⟨n, hS n hn⟩, hn⟩
  exact ⟨m, hm, fun p hp k hw hr ↦ hmin ⟨p, hS p hp⟩ hp (.single ⟨k, hw, hr⟩)⟩

variable [DecidableEq κ]

def step (reads writes : ν → List κ) (fire : ν → List (Option V) → κ → Option V)
    (env : κ → Option V) (n : ν) : κ → Option V :=
  fun k ↦ if k ∈ writes n then fire n ((reads n).map env) k else env k

def eval (reads writes : ν → List κ) (fire : ν → List (Option V) → κ → Option V)
    (env : κ → Option V) (l : List ν) : κ → Option V :=
  l.foldl (step reads writes fire) env

variable {fire : ν → List (Option V) → κ → Option V} {env ρ : κ → Option V} {l l' : List ν}

@[simp] theorem eval_nil : eval reads writes fire env [] = env := rfl

@[simp] theorem eval_cons : eval reads writes fire env (n :: l) =
    eval reads writes fire (step reads writes fire env n) l := rfl

theorem eval_append : eval reads writes fire env (l ++ l') =
    eval reads writes fire (eval reads writes fire env l) l' := List.foldl_append

theorem step_of_notMem (h : k ∉ writes n) : step reads writes fire env n k = env k := if_neg h

theorem step_self (h : k ∈ writes n) :
    step reads writes fire env n k = fire n ((reads n).map env) k := if_pos h

theorem eval_of_not_written (h : ∀ p ∈ l, k ∉ writes p) :
    eval reads writes fire env l k = env k := by
  induction l generalizing env with
  | nil => rfl
  | cons n l ih =>
    rw [eval_cons, ih (fun p hp ↦ h p (by simp [hp])), step_of_notMem (h n (by simp))]

theorem eval_read (ho : Ordered reads writes (pre ++ n :: post))
    (hs : Single writes (pre ++ n :: post)) (hk : k ∈ reads n) :
    eval reads writes fire env (pre ++ n :: post) k = eval reads writes fire env pre k := by
  rw [eval_append]
  exact eval_of_not_written (ho.not_after hs hk)

theorem eval_at (hs : Single writes (pre ++ n :: post)) (hw : k ∈ writes n) :
    eval reads writes fire env (pre ++ n :: post) k =
      fire n ((reads n).map (eval reads writes fire env pre)) k := by
  rw [eval_append, eval_cons, eval_of_not_written, step_self hw]
  rw [← List.singleton_append, ← List.append_assoc] at hs
  exact hs.not_after ⟨n, by simp, hw⟩

theorem eval_fixed (ho : Ordered reads writes l) (hs : Single writes l) (hn : n ∈ l)
    (hw : k ∈ writes n) :
    eval reads writes fire env l k = fire n ((reads n).map (eval reads writes fire env l)) k := by
  obtain ⟨pre, post, rfl⟩ := List.append_of_mem hn
  have hread : (reads n).map (eval reads writes fire env (pre ++ n :: post)) =
      (reads n).map (eval reads writes fire env pre) :=
    List.map_congr_left (fun k hk ↦ eval_read ho hs hk)
  rw [hread, eval_at hs hw]

theorem ordered_of_defined (hs : Single writes l) (hfree : ∀ n ∈ l, ∀ k ∈ writes n, env k = none)
    (hstrict : ∀ n ins k, (fire n ins k).isSome → ∀ x ∈ ins, x.isSome)
    (hdefined : ∀ n ∈ l, ∃ k ∈ writes n, (eval reads writes fire env l k).isSome) :
    Ordered reads writes l := by
  rintro pre n post rfl k hk ⟨p, hp, hw⟩
  obtain ⟨t, ht, hsome⟩ := hdefined n (by simp)
  rw [eval_at hs ht] at hsome
  have hread := hstrict _ _ _ hsome _ (List.mem_map_of_mem hk)
  by_contra hno
  push Not at hno
  rw [eval_of_not_written hno, hfree p hp k hw] at hread
  contradiction

/-- The equations of an ordered graph have one solution on every set of keys that is closed under
reading: its final values. -/
theorem eval_eq_of_fixed {S : Set κ} (ho : Ordered reads writes l) (hs : Single writes l)
    (hclosed : ∀ n ∈ l, ∀ k ∈ writes n, k ∈ S → ∀ r ∈ reads n, r ∈ S)
    (hfree : ∀ k ∈ S, (∀ p ∈ l, k ∉ writes p) → ρ k = env k)
    (hfixed : ∀ n ∈ l, ∀ k ∈ writes n, k ∈ S → ρ k = fire n ((reads n).map ρ) k) :
    ∀ k ∈ S, eval reads writes fire env l k = ρ k := by
  -- By induction on how much of the list has been evaluated.
  have hbegins (pre post : List ν) (he : l = pre ++ post) (k : κ) (hS : k ∈ S)
      (hk : ∀ p ∈ post, k ∉ writes p) : eval reads writes fire env pre k = ρ k := by
    induction pre using List.reverseRecOn generalizing post k with
    | nil =>
      rw [eval_nil, hfree k hS]
      simpa [he] using hk
    | append_singleton pre n ih =>
      have he' : l = pre ++ n :: post := by simp [he]
      have hn : n ∈ l := by simp [he]
      rw [eval_append, eval_cons, eval_nil]
      by_cases hw : k ∈ writes n
      · rw [step_self hw, hfixed n hn k hw hS]
        have hreads := hclosed n hn k hw hS
        rw [he'] at ho hs
        have hmap : (reads n).map (eval reads writes fire env pre) = (reads n).map ρ :=
          List.map_congr_left (fun r hr ↦ ih (n :: post) he' r (hreads r hr) (ho.not_after hs hr))
        rw [hmap]
      · rw [step_of_notMem hw]
        refine ih (n :: post) he' k hS (fun p hp ↦ ?_)
        rcases List.mem_cons.mp hp with rfl | hp
        · exact hw
        · exact hk p hp
  exact fun k hS ↦ hbegins l [] (by simp) k hS (by simp)

structure Solution (reads writes : ν → List κ) (fire : ν → List (Option V) → κ → Option V)
    (env : κ → Option V) (l : List ν) (ρ : κ → Option V) : Prop where
  free : ∀ k, (∀ n ∈ l, k ∉ writes n) → ρ k = env k
  fixed : ∀ n ∈ l, ∀ k ∈ writes n, ρ k = fire n ((reads n).map ρ) k
  defined : ∀ n ∈ l, ∀ k ∈ writes n, (ρ k).isSome

omit [DecidableEq κ] in
theorem Solution.perm (h : Solution reads writes fire env l ρ) (hp : l.Perm l') :
    Solution reads writes fire env l' ρ where
  free k hk := h.free k (fun n hn ↦ hk n (hp.mem_iff.mp hn))
  fixed n hn := h.fixed n (hp.mem_iff.mpr hn)
  defined n hn := h.defined n (hp.mem_iff.mpr hn)

theorem solution_iff (ho : Ordered reads writes l) (hs : Single writes l) :
    Solution reads writes fire env l ρ ↔ ρ = eval reads writes fire env l ∧
      ∀ n ∈ l, ∀ k ∈ writes n, (eval reads writes fire env l k).isSome := by
  constructor
  · intro h
    have heval : eval reads writes fire env l = ρ := by
      funext k
      exact eval_eq_of_fixed (S := Set.univ) ho hs (fun _ _ _ _ _ _ _ ↦ Set.mem_univ _)
        (fun k _ hk ↦ h.free k hk) (fun n hn k hw _ ↦ h.fixed n hn k hw) k (Set.mem_univ k)
    rw [heval]
    exact ⟨rfl, h.defined⟩
  · rintro ⟨rfl, hdefined⟩
    exact ⟨fun k hk ↦ eval_of_not_written hk, fun n hn k hw ↦ eval_fixed ho hs hn hw, hdefined⟩

end Cerberus.Foundation.Dataflow
