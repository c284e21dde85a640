import Mathlib

/-! Consumers that are fed a stream in pieces. -/

namespace Cerberus.Foundation.Incremental

variable {σ α β : Type} (feed : σ → List α → Option β × σ)

def answers (p : σ) : List (List α) → List (Option β)
  | [] => []
  | c :: cs => (feed p c).1 :: answers (feed p c).2 cs

theorem answers_take (p : σ) (cs ds : List (List α)) :
    answers feed p cs = (answers feed p (cs ++ ds)).take cs.length := by
  induction cs generalizing p with
  | nil => rfl
  | cons c cs ih =>
    rw [List.cons_append, answers, answers, List.length_cons, List.take_succ_cons, ← ih]

/-- As long as there is no answer, the pieces may as well have come together. -/
structure Resumes (ok : σ → Prop) : Prop where
  keeps : ∀ p s, ok p → (feed p s).1 = none → ok (feed p s).2
  joins : ∀ p s t, ok p → (feed p s).1 = none → feed (feed p s).2 t = feed p (s ++ t)

variable {feed} {ok : σ → Prop}

theorem Resumes.answers_snoc (h : Resumes feed ok) {p : σ} (hp : ok p) (cs : List (List α))
    (c : List α) (hnone : answers feed p cs = List.replicate cs.length none) :
    answers feed p (cs ++ [c]) =
      List.replicate cs.length none ++ [(feed p (cs.flatten ++ c)).1] := by
  induction cs generalizing p with
  | nil => rfl
  | cons b cs ih =>
    rw [answers, List.length_cons, List.replicate_succ, List.cons.injEq] at hnone
    obtain ⟨hb, hcs⟩ := hnone
    rw [List.cons_append, answers, hb, ih (h.keeps p b hp hb) hcs, h.joins p b _ hp hb,
      List.flatten_cons, List.append_assoc]
    rfl

/-- If no piece completes the stream before the last one, only the last one is answered, and as if
all had come together. -/
theorem Resumes.answers_append (h : Resumes feed ok) {p : σ} (hp : ok p) (cs : List (List α))
    (c : List α) (hnone : ∀ s, s <+: cs.flatten → (feed p s).1 = none) :
    answers feed p (cs ++ [c]) =
      List.replicate cs.length none ++ [(feed p (cs.flatten ++ c)).1] := by
  refine h.answers_snoc hp cs c ?_
  induction cs using List.reverseRecOn with
  | nil => rfl
  | append_singleton cs b ih =>
    have hflat : (cs ++ [b]).flatten = cs.flatten ++ b := by simp
    rw [hflat] at hnone
    have hcs := ih (fun s hs ↦ hnone s (hs.trans (List.prefix_append _ _)))
    rw [h.answers_snoc hp cs b hcs, hnone _ (List.prefix_refl _), List.length_append]
    exact List.replicate_succ'.symm

end Cerberus.Foundation.Incremental
