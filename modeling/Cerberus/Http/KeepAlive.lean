import Cerberus.Http.Requests

namespace Cerberus.Http.SimpleHttpParser

open Std Foundation Foundation.Bytes Foundation.Scan Foundation.Wire

/-- The requests of a connection that is kept alive: the parser is reset after each of them and fed
with the pieces that are left. -/
def serve (p : SimpleHttpParser) : List ByteString → List HttpRequest
  | [] => []
  | piece :: pieces =>
    match feed p piece with
    | (none, p) => serve p pieces
    | (some q, p) => q :: serve p.reset pieces

/-- No piece has bytes of two requests: the bytes of every request end where a piece ends. -/
def EndWithPieces (rs : List RequestText) (pieces : List ByteString) : Prop :=
  ∀ done rest, rs = done ++ rest →
    ∃ first later, pieces = first ++ later ∧ first.flatten = done.flatMap RequestText.render

section

variable {p : SimpleHttpParser} {s : ByteString} {q : HttpRequest} {piece : ByteString}
  {pieces : List ByteString} {rs : List RequestText}

theorem serve_none (h : (feed p piece).1 = none) :
    serve p (piece :: pieces) = serve (feed p piece).2 pieces := by
  rw [serve]
  split
  · rename_i p' heq
    rw [heq]
  · rename_i q p' heq
    rw [heq] at h
    cases h

theorem serve_some (h : (feed p piece).1 = some q) :
    serve p (piece :: pieces) = q :: serve {} pieces := by
  rw [serve]
  split
  · rename_i p' heq
    rw [heq] at h
    cases h
  · rename_i q' p' heq
    rw [heq] at h
    rw [Option.some_inj.mp h, reset]

theorem feed_nil : feed {} [] = (none, {}) := loop_wait (.inl rfl) rfl

theorem serve_empty (first later : List ByteString) (h : first.flatten = []) :
    serve {} (first ++ later) = serve {} later := by
  induction first with
  | nil => rfl
  | cons piece first ih =>
    obtain ⟨rfl, hrest⟩ := List.append_eq_nil_iff.mp h
    rw [List.cons_append, serve_none (by rw [feed_nil]), feed_nil, ih hrest]

theorem Complete.serve (h : Complete p s q) (hp : p.wantsMore = true) (hnil : (feed p []).1 = none)
    (first later : List ByteString) (hfirst : first.flatten = s) :
    serve p (first ++ later) = q :: serve {} later := by
  induction first generalizing p s with
  | nil =>
    have hanswer := h.answer
    rw [← hfirst, List.flatten_nil, hnil] at hanswer
    cases hanswer
  | cons piece first ih =>
    rw [List.flatten_cons] at hfirst
    rw [List.cons_append]
    by_cases hlast : first.flatten = []
    · rw [hlast, List.append_nil] at hfirst
      rw [serve_some (by rw [hfirst]; exact h.answer), serve_empty first later hlast]
    · have hne : piece ≠ s := by
        intro heq
        rw [heq] at hfirst
        exact hlast (by simpa using hfirst)
      have hnone : (feed p piece).1 = none := h.early ⟨_, hfirst⟩ hne
      have hjoin (t : ByteString) : feed (feed p piece).2 t = feed p (piece ++ t) :=
        feed_resumes.joins p piece t hp hnone
      rw [serve_none hnone]
      refine ih ⟨?_, ?_, ?_⟩ (feed_resumes.keeps p piece hp hnone) ?_ rfl
      · rw [hjoin, hfirst]
        exact h.answer
      · rw [hjoin, hfirst]
        exact h.used
      · rw [hjoin, hfirst]
        exact h.plain
      · rw [hjoin, List.append_nil]
        exact hnone

theorem EndWithPieces.tail {r : RequestText} {first later : List ByteString}
    (h : EndWithPieces (r :: rs) (first ++ later)) (hfirst : first.flatten = r.render) :
    EndWithPieces rs later := by
  intro done rest hrs
  obtain ⟨first', later', hpieces, hflatten⟩ := h (r :: done) rest (by rw [hrs]; rfl)
  rw [List.flatMap_cons] at hflatten
  rcases List.append_eq_append_iff.mp hpieces with ⟨m, rfl, rfl⟩ | ⟨m, rfl, rfl⟩
  · refine ⟨m, later', rfl, ?_⟩
    rwa [List.flatten_append, hfirst, List.append_right_inj] at hflatten
  · rw [List.flatten_append, hflatten, List.append_assoc] at hfirst
    have hnil : done.flatMap RequestText.render ++ m.flatten = [] := by simpa using hfirst
    exact ⟨[], later, rfl, (List.append_eq_nil_iff.mp hnil).1.symm⟩

theorem serve_parsed (hr : ∀ r ∈ rs, r.WellFormed)
    (hcut : pieces.flatten = rs.flatMap RequestText.render) (hends : EndWithPieces rs pieces) :
    serve {} pieces = rs.map (fun r ↦ parsed r r.body) := by
  induction rs generalizing pieces with
  | nil =>
    have hserve := serve_empty pieces [] (by simpa using hcut)
    rwa [List.append_nil] at hserve
  | cons r rs ih =>
    obtain ⟨first, later, rfl, hfirst⟩ := hends [r] rs rfl
    rw [List.flatMap_singleton] at hfirst
    have hrest : later.flatten = rs.flatMap RequestText.render := by
      rwa [List.flatten_append, hfirst, List.flatMap_cons, List.append_right_inj] at hcut
    rw [(feed_render (hr r (by simp))).serve rfl (by rw [feed_nil]) first later hfirst,
      ih (fun r' h ↦ hr r' (by simp [h])) hrest (hends.tail hfirst), List.map_cons]

/-- Requests that come back to back are all answered, in order, where no piece has bytes of two of
them; and rightly if no header that counts has only blanks for its value. -/
theorem keep_alive_answers_iff (hr : ∀ r ∈ rs, r.WellFormed)
    (hcut : pieces.flatten = rs.flatMap RequestText.render) (hends : EndWithPieces rs pieces) :
    serve {} pieces = rs.map RequestText.request ↔
      ∀ r ∈ rs, ∀ name text, lastText r.lines name = some text → text.all isBlank = true →
        text = [] := by
  rw [serve_parsed hr hcut hends, List.map_inj_left]
  exact forall₂_congr (fun r _ ↦ parsed_eq_iff)

end

theorem endWithPieces_each (rs : List RequestText) :
    EndWithPieces rs (rs.map RequestText.render) := by
  rintro done rest rfl
  exact ⟨done.map RequestText.render, rest.map RequestText.render, List.map_append,
    List.flatMap_def.symm⟩

theorem keep_alive_answers_iff_greetings :
    serve {} [greeting.render, greeting.render] = [greeting.request, greeting.request] ↔
      ∀ r ∈ [greeting, greeting], ∀ name text, lastText r.lines name = some text →
        text.all isBlank = true → text = [] :=
  keep_alive_answers_iff (by simpa using greeting_wellFormed) (by simp)
    (endWithPieces_each [greeting, greeting])

/-- The second of two requests that arrive together is lost with the buffer. -/
theorem second_request_lost :
    (∀ r ∈ [greeting, greeting], r.WellFormed) ∧
    [greeting.render ++ greeting.render].flatten =
      [greeting, greeting].flatMap RequestText.render ∧
    serve {} [greeting.render ++ greeting.render] = [parsed greeting greeting.body] ∧
    serve {} [greeting.render ++ greeting.render] ≠
      [greeting, greeting].map RequestText.request := by
  have hserve : serve {} [greeting.render ++ greeting.render] = [parsed greeting greeting.body] :=
    serve_some ((feed_render greeting_wellFormed).extend greeting.render)
  refine ⟨by simpa using greeting_wellFormed, by simp, hserve, fun h ↦ ?_⟩
  rw [hserve] at h
  exact absurd (congrArg List.length h) (by simp)

end Cerberus.Http.SimpleHttpParser
