import Cerberus.Foundation.Incremental
import Cerberus.Http.Model

namespace Cerberus.Http.SimpleHttpParser

open Std Foundation Foundation.Bytes Foundation.Scan Foundation.Wire

variable {p p' : SimpleHttpParser} {line rest s t : ByteString} {q : HttpRequest}

def extend (p : SimpleHttpParser) (t : ByteString) : SimpleHttpParser :=
  { p with buffer := p.buffer ++ t }

def InLines (p : SimpleHttpParser) : Prop := p.parseState = .methodLine ∨ p.parseState = .headers

theorem loop_wait (hp : p.InLines) (h : cutWord crlf p.buffer = none) :
    loop p = (none, { p with wantsMore := true }) := by
  rw [loop]
  rcases hp with hs | hs <;> rw [hs] <;> dsimp only <;> split <;> simp_all

theorem loop_line (hp : p.InLines) (h : cutWord crlf p.buffer = some (line, rest)) :
    loop p = loop { p.parseLine line with buffer := rest } := by
  rw [loop]
  rcases hp with hs | hs <;> rw [hs] <;> dsimp only <;> split <;> simp_all

theorem parseLine_methodLine (h : p.parseState = .methodLine) (line : ByteString) :
    p.parseLine line = p.parseMethodLine line := by rw [parseLine, h]

theorem parseLine_headers (h : p.parseState = .headers) (line : ByteString) :
    p.parseLine line = if line = [] then p.endHeaders else p.parseHeader line := by
  rw [parseLine, h]

theorem endHeaders_eq (p : SimpleHttpParser) :
    ∃ state expected chunked, ∀ b more, ({ p with buffer := b, wantsMore := more } :
      SimpleHttpParser).endHeaders = { p with
        parseState := state
        bodyExpected := expected
        chunked := chunked
        buffer := b
        wantsMore := more } := by
  by_cases hlength : p.getHeader (lit "content-length") ≠ []
  · exact ⟨if 0 < strtoul (p.getHeader (lit "content-length")) then .body else .done,
      strtoul (p.getHeader (lit "content-length")), p.chunked, fun b more ↦ if_pos hlength⟩
  · by_cases hchunked : lit "chunked" <:+: p.getHeader (lit "transfer-encoding")
    · exact ⟨.body, p.bodyExpected, true, fun b more ↦ (if_neg hlength).trans (if_pos hchunked)⟩
    · exact ⟨.done, p.bodyExpected, p.chunked, fun b more ↦
        (if_neg hlength).trans (if_neg hchunked)⟩

theorem parseLine_frame (hp : p.InLines) (line b : ByteString) (more : Bool) :
    ({ p with buffer := b, wantsMore := more } : SimpleHttpParser).parseLine line =
      { p.parseLine line with buffer := b, wantsMore := more } := by
  rcases hp with hs | hs
  · rw [parseLine_methodLine hs,
      parseLine_methodLine (p := { p with buffer := b, wantsMore := more }) hs]
    unfold parseMethodLine
    cases cut space line with
    | none => rfl
    | some e =>
      dsimp only
      cases cut space e.2 with
      | none => rfl
      | some e' => rfl
  · rw [parseLine_headers hs, parseLine_headers (p := { p with buffer := b, wantsMore := more }) hs]
    split
    · obtain ⟨state, expected, chunked, heq⟩ := p.endHeaders_eq
      rw [heq b more, show p.endHeaders = _ from heq p.buffer p.wantsMore]
    · unfold parseHeader
      cases cut colon line with
      | none => rfl
      | some e => rfl

theorem parseLine_wantsMore (hp : p.InLines) (line : ByteString) :
    (p.parseLine line).wantsMore = p.wantsMore := by
  rw [show p.parseLine line = _ from parseLine_frame hp line p.buffer p.wantsMore]

theorem loop_line_extend (hp : p.InLines) (h : cutWord crlf p.buffer = some (line, rest))
    (t : ByteString) :
    loop (p.extend t) = loop (extend { p.parseLine line with buffer := rest } t) := by
  have hp' : (p.extend t).InLines := hp
  rw [loop_line hp' (cutWord_extend h t), extend,
    show p.parseLine line = _ from parseLine_frame hp line p.buffer p.wantsMore]
  exact congrArg loop (by rw [parseLine_frame hp]; rfl)

theorem loop_induction {motive : SimpleHttpParser → Prop}
    (done : ∀ p, p.parseState = .done → motive p)
    (parseError : ∀ p, p.parseState = .parseError → motive p)
    (body : ∀ p, p.parseState = .body → motive p)
    (wait : ∀ p, p.InLines → cutWord crlf p.buffer = none → motive p)
    (line : ∀ p line rest, p.InLines → cutWord crlf p.buffer = some (line, rest) →
      motive { p.parseLine line with buffer := rest } → motive p) (p : SimpleHttpParser) :
    motive p := by
  induction hn : p.buffer.length using Nat.strong_induction_on generalizing p with
  | _ n ih =>
    have hlines (hp : p.InLines) : motive p := by
      cases hcut : cutWord crlf p.buffer with
      | none => exact wait p hp hcut
      | some e =>
        have hlen := congrArg List.length (cutWord_eq_some (p := e.1) (r := e.2) hcut)
        simp only [crlf, List.length_append, List.length_cons, List.length_nil] at hlen
        exact line p e.1 e.2 hp hcut (ih e.2.length (by omega) _ rfl)
    cases hs : p.parseState with
    | methodLine => exact hlines (.inl hs)
    | headers => exact hlines (.inr hs)
    | body => exact body p hs
    | done => exact done p hs
    | parseError => exact parseError p hs

theorem loop_done (h : p.parseState = .done) : loop p = finish p := by
  rw [loop, h]

theorem loop_error (h : p.parseState = .parseError) : loop p = (none, p) := by
  rw [loop, h]

theorem loop_body (h : p.parseState = .body) : loop p = takeBody p := by
  rw [loop, h]

theorem takeBody_none (h : p.takeBody.1 = none) :
    p.takeBody.2 = { p with wantsMore := true } := by
  unfold takeBody at h ⊢
  split at h
  · simp [finish] at h
  · split at h
    · rename_i hchunked hlen
      simp [hchunked, hlen]
    · simp [finish] at h

theorem loop_resumes (p : SimpleHttpParser) (hp : p.wantsMore = true) (h : (loop p).1 = none) :
    (loop p).2.wantsMore = true ∧ ∀ t, loop ((loop p).2.extend t) = loop (p.extend t) := by
  have hsame (p : SimpleHttpParser) (hp : p.wantsMore = true) :
      ({ p with wantsMore := true } : SimpleHttpParser) = p := by rw [← hp]
  induction p using loop_induction with
  | done p hs =>
    rw [loop_done hs] at h
    cases h
  | parseError p hs =>
    rw [loop_error hs]
    exact ⟨hp, fun t ↦ rfl⟩
  | body p hs =>
    rw [loop_body hs] at h ⊢
    rw [takeBody_none h, hsame p hp]
    exact ⟨hp, fun t ↦ rfl⟩
  | wait p hl hcut =>
    rw [loop_wait hl hcut, hsame p hp]
    exact ⟨hp, fun t ↦ rfl⟩
  | line p line rest hl hcut ih =>
    have hp' : ({ p.parseLine line with buffer := rest } : SimpleHttpParser).wantsMore = true := by
      rw [← hp, ← parseLine_wantsMore hl line]
    rw [loop_line hl hcut] at h ⊢
    obtain ⟨hmore, hjoin⟩ := ih hp' h
    refine ⟨hmore, fun t ↦ ?_⟩
    rw [hjoin t, loop_line_extend hl hcut]

/-- A parser that has its answer leaves further bytes in the buffer, unless the body is chunked. -/
theorem loop_answered (p : SimpleHttpParser) (h : (loop p).1 ≠ none) (t : ByteString) :
    (loop (p.extend t)).2.chunked = (loop p).2.chunked ∧ ((loop p).2.chunked = false →
      loop (p.extend t) = ((loop p).1, (loop p).2.extend t)) := by
  induction p using loop_induction with
  | done p hs =>
    have hs' : (p.extend t).parseState = .done := hs
    rw [loop_done hs, loop_done hs']
    exact ⟨rfl, fun _ ↦ rfl⟩
  | parseError p hs =>
    rw [loop_error hs] at h
    exact absurd rfl h
  | body p hs =>
    have hs' : (p.extend t).parseState = .body := hs
    rw [loop_body hs, loop_body hs'] at *
    by_cases hchunked : p.chunked
    · simp [takeBody, extend, finish, hchunked]
    · by_cases hlen : p.buffer.length < p.bodyExpected
      · simp [takeBody, hchunked, hlen] at h
      · have hlen' : ¬(p.buffer ++ t).length < p.bodyExpected := by
          rw [List.length_append]
          omega
        have htake : (p.buffer ++ t).take p.bodyExpected = p.buffer.take p.bodyExpected :=
          List.take_append_of_le_length (by omega)
        have hdrop : (p.buffer ++ t).drop p.bodyExpected = p.buffer.drop p.bodyExpected ++ t :=
          List.drop_append_of_le_length (by omega)
        simp only [takeBody, extend, hchunked, Bool.false_eq_true, ↓reduceIte, hlen, hlen', htake,
          hdrop]
        exact ⟨rfl, fun _ ↦ rfl⟩
  | wait p hl hcut =>
    rw [loop_wait hl hcut] at h
    exact absurd rfl h
  | line p line rest hl hcut ih =>
    rw [loop_line hl hcut] at h ⊢
    rw [loop_line_extend hl hcut]
    exact ih h

theorem feed_resumes : Incremental.Resumes feed (fun p ↦ p.wantsMore = true) where
  keeps p s hp h := (loop_resumes (p.extend s) hp h).1
  joins p s t hp h := by
    have hjoin := (loop_resumes (p.extend s) hp h).2 t
    have hassoc : p.extend (s ++ t) = (p.extend s).extend t := by simp [extend]
    change loop (extend (loop (p.extend s)).2 t) = loop (p.extend (s ++ t))
    rw [hjoin, hassoc]

structure Complete (p : SimpleHttpParser) (s : ByteString) (q : HttpRequest) : Prop where
  answer : (feed p s).1 = some q
  used : (feed p s).2.buffer = []
  plain : (feed p s).2.chunked = false

theorem Complete.extend (h : Complete p s q) (t : ByteString) : (feed p (s ++ t)).1 = some q := by
  have hans : (loop (p.extend s)).1 = some q := h.answer
  have heq := (loop_answered (p.extend s) (by simp [hans]) t).2 h.plain
  have hassoc : p.extend (s ++ t) = (p.extend s).extend t := by simp [SimpleHttpParser.extend]
  change (loop (p.extend (s ++ t))).1 = some q
  rw [hassoc, heq, hans]

theorem Complete.early (h : Complete p s q) {s₀ : ByteString} (hs : s₀ <+: s) (hne : s₀ ≠ s) :
    (feed p s₀).1 = none := by
  by_contra hsome
  obtain ⟨t, rfl⟩ := hs
  have hassoc : p.extend (s₀ ++ t) = (p.extend s₀).extend t := by simp [SimpleHttpParser.extend]
  have hplain : (loop ((p.extend s₀).extend t)).2.chunked = false := by
    rw [← hassoc]
    exact h.plain
  have hused : (loop ((p.extend s₀).extend t)).2.buffer = [] := by
    rw [← hassoc]
    exact h.used
  obtain ⟨hchunked, heq⟩ := loop_answered (p.extend s₀) hsome t
  rw [heq (hchunked ▸ hplain)] at hused
  refine hne ?_
  have ht : t = [] := (List.append_eq_nil_iff.mp hused).2
  rw [ht, List.append_nil]

/-- Cut in any way, a complete text is answered at the piece with its last byte, and not before. -/
theorem Complete.pieces (h : Complete p s q) (hp : p.wantsMore = true)
    (before : List ByteString) (piece : ByteString) {trailing : ByteString}
    (hcut : before.flatten ++ piece <+: s ++ trailing) (hbefore : before.flatten.length < s.length)
    (hlast : s.length ≤ before.flatten.length + piece.length) :
    Incremental.answers feed p (before ++ [piece]) =
      List.replicate before.length none ++ [some q] := by
  have hbegins : before.flatten <+: s :=
    List.prefix_of_prefix_length_le ((List.prefix_append _ piece).trans hcut)
      (List.prefix_append s trailing) (by omega)
  have hwhole : s <+: before.flatten ++ piece :=
    List.prefix_of_prefix_length_le (List.prefix_append s trailing) hcut (by simpa using hlast)
  rw [feed_resumes.answers_append hp before piece]
  · obtain ⟨t, ht⟩ := hwhole
    rw [← ht, h.extend t]
  · intro s₀ hs₀
    refine h.early (hs₀.trans hbegins) (fun heq ↦ ?_)
    have hle := hs₀.length_le
    rw [heq] at hle
    omega

end Cerberus.Http.SimpleHttpParser
