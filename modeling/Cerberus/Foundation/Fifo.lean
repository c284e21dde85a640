import Mathlib.Data.List.Basic

namespace Cerberus.Foundation.Fifo

variable {α : Type}

/-- What passes through a queue while it changes from one state to another: some elements enter at
the end, some are taken from the front, and some are thrown away there. Each element that has left
has one fate, and the fates are in the order of the queue. -/
def Flow (q entered taken discarded q' : List α) : Prop :=
  ∃ fates : List (α × Bool), q ++ entered = fates.map Prod.fst ++ q' ∧
    taken = (fates.filter (fun f ↦ f.2)).map Prod.fst ∧
    discarded = (fates.filter (fun f ↦ !f.2)).map Prod.fst

variable {q q' q'' entered entered' taken taken' discarded discarded' : List α} {a : α}

theorem Flow.stay (q : List α) : Flow q [] [] [] q := ⟨[], by simp, rfl, rfl⟩

theorem Flow.enter (q : List α) (a : α) : Flow q [a] [] [] (q ++ [a]) := ⟨[], by simp, rfl, rfl⟩

theorem Flow.take (a : α) (q : List α) : Flow (a :: q) [] [a] [] q :=
  ⟨[(a, true)], by simp, rfl, rfl⟩

theorem Flow.discard (q : List α) : Flow q [] [] q [] := by
  refine ⟨q.map (fun a ↦ (a, false)), ?_, ?_, ?_⟩
  · simp [Function.comp_def]
  · simp
  · simp [List.filter_map, Function.comp_def]

theorem Flow.trans (h : Flow q entered taken discarded q')
    (h' : Flow q' entered' taken' discarded' q'') :
    Flow q (entered ++ entered') (taken ++ taken') (discarded ++ discarded') q'' := by
  obtain ⟨fates, hq, htaken, hdiscarded⟩ := h
  obtain ⟨fates', hq', htaken', hdiscarded'⟩ := h'
  refine ⟨fates ++ fates', ?_, ?_, ?_⟩
  · rw [← List.append_assoc, hq, List.append_assoc, hq', List.map_append, List.append_assoc]
  · rw [htaken, htaken', List.filter_append, List.map_append]
  · rw [hdiscarded, hdiscarded', List.filter_append, List.map_append]

theorem Flow.length (h : Flow q entered taken discarded q') :
    q.length + entered.length = taken.length + q'.length + discarded.length := by
  obtain ⟨fates, hq, rfl, rfl⟩ := h
  have hlen := congrArg List.length hq
  have hsplit := fates.length_eq_length_filter_add (fun f ↦ f.2)
  simp only [List.length_append, List.length_map] at hlen ⊢
  omega

end Cerberus.Foundation.Fifo
