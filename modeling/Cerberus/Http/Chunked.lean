import Cerberus.Http.Requests

namespace Cerberus.Http

open Std Foundation Foundation.Bytes Foundation.Scan Foundation.Wire

def hexDigit (b : UInt8) : Option Nat :=
  if isDigit b then some (b.toNat - 48)
  else if 97 ≤ b && b ≤ 102 then some (b.toNat - 87)
  else if 65 ≤ b && b ≤ 70 then some (b.toNat - 55)
  else none

def hexValue (s : ByteString) : Option Nat :=
  if s = [] then none
  else (s.mapM hexDigit).map (fun ds ↦ ds.foldl (fun n d ↦ 16 * n + d) 0)

structure SizeLine (line : ByteString) (n : Nat) : Prop where
  size : hexValue (line.takeWhile (fun b ↦ b ≠ 59)) = some n
  unbroken : ¬crlf <:+: line

inductive Chunked : ByteString → ByteString → Prop
  | last (line : ByteString) (trailer : List ByteString) (hsize : SizeLine line 0)
    (htrailer : ∀ field ∈ trailer, field ≠ [] ∧ ¬crlf <:+: field) :
    Chunked (line ++ crlf ++ (trailer.flatMap (fun field ↦ field ++ crlf) ++ crlf)) []
  | chunk (line data : ByteString) {raw rest : ByteString} (hsize : SizeLine line data.length)
    (hdata : data ≠ []) (hrest : Chunked raw rest) :
    Chunked (line ++ crlf ++ data ++ crlf ++ raw) (data ++ rest)

theorem Chunked.length_lt {raw data : ByteString} (h : Chunked raw data) :
    data.length < raw.length := by
  induction h with
  | last line trailer _ _ =>
    simp [crlf]
  | chunk line data _ _ _ ih =>
    simp only [List.length_append]
    omega

structure ChunkedRequest (r : RequestText) (data : ByteString) : Prop extends r.Framed where
  encoding : r.headers[lit "transfer-encoding"]? = some (lit "chunked")
  chunks : Chunked r.body data

namespace SimpleHttpParser

variable {r : RequestText} {data : ByteString}

/-- One answer, to the piece that completes the request, with the data for its body. -/
def AnsweredOnce (r : RequestText) (data : ByteString) (cs : List ByteString) : Prop :=
  ∃ before piece after q, cs = before ++ piece :: after ∧
    before.flatten ≠ r.render ∧ before.flatten ++ piece = r.render ∧
    Incremental.answers feed {} cs =
      List.replicate before.length none ++ some q :: List.replicate after.length none ∧
    q.body = data

theorem AnsweredOnce.whole {cs : List ByteString} (h : AnsweredOnce r data cs) :
    ∃ q, (feed {} r.render).1 = some q ∧ q.body = data := by
  obtain ⟨before, piece, after, q, rfl, -, hwhole, hanswers, hbody⟩ := h
  have hnone : Incremental.answers feed {} before = List.replicate before.length none := by
    rw [Incremental.answers_take feed {} before (piece :: after), hanswers]
    simp
  have hsnoc : Incremental.answers feed {} (before ++ [piece]) =
      List.replicate before.length none ++ [some q] := by
    rw [Incremental.answers_take feed {} (before ++ [piece]) after, List.append_assoc,
      List.singleton_append, hanswers]
    simp [List.take_append]
  rw [feed_resumes.answers_snoc rfl before piece hnone, hwhole, List.append_right_inj,
    List.singleton_inj] at hsnoc
  exact ⟨q, hsnoc, hbody⟩

theorem AnsweredOnce.first {c : ByteString} {cs : List ByteString}
    (h : AnsweredOnce r data (c :: cs)) (hc : (feed {} c).1 ≠ none) : c = r.render := by
  obtain ⟨before, piece, after, q, hcs, -, hwhole, hanswers, -⟩ := h
  cases before with
  | nil =>
    rw [List.nil_append, List.cons.injEq] at hcs
    rw [hcs.1]
    exact hwhole
  | cons b before =>
    rw [Incremental.answers, List.length_cons, List.replicate_succ, List.cons_append,
      List.cons.injEq] at hanswers
    exact absurd hanswers.1 hc

theorem getHeader_encoding (hr : ChunkedRequest r data) :
    ((lastText r.lines (lit "transfer-encoding")).map headerValue).getD [] = lit "chunked" := by
  have hget := hr.encoding
  rw [RequestText.headers, addHeaders_get, Option.map_eq_some_iff] at hget
  obtain ⟨text, hlast, htext⟩ := hget
  have hne : text.dropWhile isBlank ≠ [] := by
    rw [htext]
    decide
  rw [hlast, Option.map_some, Option.getD_some, headerValue_of_ne_nil hne, htext]

/-- Without an announced length the body is the encoding and not the data. -/
theorem not_answeredOnce_of_no_length (hr : ChunkedRequest r data)
    (hlast : ((lastText r.lines (lit "content-length")).map headerValue).getD [] = [])
    (cs : List ByteString) : ¬AnsweredOnce r data cs := by
  intro h
  obtain ⟨q, hanswer, hbody⟩ := h.whole
  obtain ⟨chunked, hfeed, -, -, hchunked⟩ := feed_no_length hr.toFramed hlast r.body
  have htrue : chunked = true := by
    rw [hchunked, getHeader_encoding hr]
  rw [RequestText.render, hfeed, htrue, Option.some_inj] at hanswer
  have hraw : r.body = data := by
    rw [← hbody, ← hanswer]
    rfl
  have hlt := hr.chunks.length_lt
  rw [hraw] at hlt
  exact lt_irrefl _ hlt

/-- With an announced length the encoding is cut there. -/
theorem not_answeredOnce_of_length (hr : ChunkedRequest r data) {v : ByteString} (hv : v ≠ [])
    (hlast : (lastText r.lines (lit "content-length")).map headerValue = some v) :
    ¬AnsweredOnce r data [r.head ++ r.body.take (strtoul v), r.body.drop (strtoul v)] := by
  intro h
  obtain ⟨q, hanswer, hbody⟩ := h.whole
  have hwhole := (feed_length hr.toFramed hv hlast r.body).1
  rw [RequestText.render, hwhole] at hanswer
  split at hanswer
  · rename_i hlen
    cases hanswer
    have hdata : r.body.take (strtoul v) = data := hbody
    have hpiece := (feed_length hr.toFramed hv hlast (r.body.take (strtoul v))).1
    rw [if_pos (by simp [hlen])] at hpiece
    have hfirst := h.first (by simp [hpiece])
    rw [RequestText.render, List.append_right_inj, hdata] at hfirst
    have hlt := hr.chunks.length_lt
    rw [hfirst] at hlt
    exact lt_irrefl _ hlt
  · cases hanswer

/-- No request in chunks is answered rightly for every cutting, and without an announced length it
is for none. -/
theorem chunked_never_answered (hr : ChunkedRequest r data) :
    ¬(∀ cs : List ByteString, cs.flatten = r.render → AnsweredOnce r data cs) ∧
      (r.headers[lit "content-length"]? = none →
        ∀ cs : List ByteString, cs.flatten = r.render → ¬AnsweredOnce r data cs) := by
  constructor
  · intro h
    by_cases hlast : ((lastText r.lines (lit "content-length")).map headerValue).getD [] = []
    · exact not_answeredOnce_of_no_length hr hlast [r.render] (h _ (by simp))
    · obtain ⟨v, hv⟩ : ∃ v, (lastText r.lines (lit "content-length")).map headerValue = some v := by
        cases hmap : (lastText r.lines (lit "content-length")).map headerValue with
        | none =>
          rw [hmap] at hlast
          exact absurd rfl hlast
        | some v => exact ⟨v, rfl⟩
      rw [hv, Option.getD_some] at hlast
      exact not_answeredOnce_of_length hr hlast hv (h _ (by simp [RequestText.render]))
  · intro hlength cs _
    rw [RequestText.headers, addHeaders_get, Option.map_eq_none_iff] at hlength
    exact not_answeredOnce_of_no_length hr (by rw [hlength]; rfl) cs

def oneChunk : RequestText where
  method := lit "POST"
  path := lit "/"
  version := lit "HTTP/1.1"
  lines := [lit "Transfer-Encoding: chunked"]
  body := [50, 13, 10, 104, 105, 13, 10, 48, 13, 10, 13, 10]

theorem oneChunk_chunked : ChunkedRequest oneChunk (lit "hi") where
  method := by decide
  path := by decide
  requestLine := by decide
  lines := by decide
  encoding := by
    rw [RequestText.headers, addHeaders_get]
    decide
  chunks := by
    have hlast : Chunked [48, 13, 10, 13, 10] [] :=
      .last [48] [] ⟨by decide, by decide⟩ (by simp)
    exact .chunk [50] (lit "hi") ⟨by decide, by decide⟩ (by decide) hlast

theorem chunked_never_answered_oneChunk :
    ¬(∀ cs : List ByteString, cs.flatten = oneChunk.render →
        AnsweredOnce oneChunk (lit "hi") cs) ∧
      (oneChunk.headers[lit "content-length"]? = none →
        ∀ cs : List ByteString, cs.flatten = oneChunk.render →
          ¬AnsweredOnce oneChunk (lit "hi") cs) :=
  chunked_never_answered oneChunk_chunked

/-- In one piece, the chunk is returned with its size line and the terminating chunk. -/
theorem oneChunk_raw_body :
    (feed {} oneChunk.render).1.map (fun q ↦ q.body) = some oneChunk.body ∧
      ¬AnsweredOnce oneChunk (lit "hi") [oneChunk.render] := by
  have hlast : ((lastText oneChunk.lines (lit "content-length")).map headerValue).getD [] = [] := by
    decide
  refine ⟨?_, not_answeredOnce_of_no_length oneChunk_chunked hlast _⟩
  obtain ⟨chunked, hfeed, -, -, hchunked⟩ :=
    feed_no_length oneChunk_chunked.toFramed hlast oneChunk.body
  rw [RequestText.render, hfeed, hchunked.mpr (by decide)]
  rfl

end SimpleHttpParser

end Cerberus.Http
