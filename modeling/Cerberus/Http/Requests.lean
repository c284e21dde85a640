import Cerberus.Http.Pieces

namespace Cerberus.Http

open Std Foundation Foundation.Bytes Foundation.Scan Foundation.Wire

structure RequestText where
  method : ByteString
  path : ByteString
  version : ByteString
  lines : List ByteString
  body : ByteString

def header (line : ByteString) : Option (ByteString × ByteString) :=
  (cut colon line).map (fun e ↦ (e.1.map toLower, e.2))

/-- The headers of some lines; a later line replaces an earlier one of the same name. -/
def addHeaders (value : ByteString → ByteString) (headers : Dict ByteString)
    (lines : List ByteString) : Dict ByteString :=
  (lines.filterMap header).foldl (fun headers e ↦ headers.insert e.1 (value e.2)) headers

def lastText (lines : List ByteString) (name : ByteString) : Option ByteString :=
  ((lines.filterMap header).reverse.find? (fun e ↦ e.1 = name)).map (fun e ↦ e.2)

namespace RequestText

def requestLine (r : RequestText) : ByteString :=
  r.method ++ space :: (r.path ++ space :: r.version)

def head (r : RequestText) : ByteString :=
  r.requestLine ++ crlf ++ (r.lines.flatMap (fun line ↦ line ++ crlf) ++ crlf)

def render (r : RequestText) : ByteString := r.head ++ r.body

def headers (r : RequestText) : Dict ByteString :=
  addHeaders (fun text ↦ text.dropWhile isBlank) ∅ r.lines

def request (r : RequestText) : HttpRequest where
  method := parseMethod r.method
  path := r.path
  body := r.body
  headers := r.headers

structure Framed (r : RequestText) : Prop where
  method : space ∉ r.method
  path : space ∉ r.path
  requestLine : ¬crlf <:+: r.requestLine
  lines : ∀ line ∈ r.lines, line ≠ [] ∧ ¬crlf <:+: line

structure WellFormed (r : RequestText) : Prop extends r.Framed where
  plain : r.headers[lit "transfer-encoding"]? = none
  length : ∀ v ∈ r.headers[lit "content-length"]?, leadingDigits v = some r.body.length
  no_length : r.headers[lit "content-length"]? = none → r.body = []
  short : r.body.length < 2 ^ 64

end RequestText

section

variable {line name text : ByteString} {lines : List ByteString} {value : ByteString → ByteString}

theorem cutWord_crlf (line : ByteString) (h : ¬crlf <:+: line) (rest : ByteString) :
    cutWord crlf (line ++ crlf ++ rest) = some (line, rest) := by
  refine cutWord_append (by simp [crlf]) (fun q t heq hne hbegins ↦ ?_)
  obtain ⟨b, t, rfl⟩ := List.exists_cons_of_ne_nil hne
  cases t with
  | nil => simp [crlf] at hbegins
  | cons c t =>
    refine h ?_
    have hshort : crlf <+: b :: c :: t :=
      List.prefix_of_prefix_length_le hbegins
        (by rw [List.append_assoc]; exact List.prefix_append _ _) (by simp [crlf])
    rw [heq]
    exact hshort.isInfix.trans (List.suffix_append q _).isInfix

theorem addHeaders_get (value : ByteString → ByteString) (lines : List ByteString)
    (name : ByteString) : (addHeaders value ∅ lines)[name]? = (lastText lines name).map value := by
  rw [addHeaders, lastText]
  induction lines.filterMap header using List.reverseRecOn with
  | nil => simp
  | append_singleton l e ih =>
    rw [List.foldl_append, List.foldl_cons, List.foldl_nil, FiniteMap.get_insert, ih,
      List.reverse_append, List.reverse_singleton, List.singleton_append, List.find?_cons]
    by_cases hname : e.1 = name
    · simp [hname]
    · simp [hname]

theorem headerValue_eq_iff : headerValue text = text.dropWhile isBlank ↔
    (text.all isBlank = true → text = []) := by
  rw [headerValue, List.all_eq_true]
  cases hdrop : text.dropWhile isBlank with
  | nil => exact ⟨fun h _ ↦ h, fun h ↦ h (List.dropWhile_eq_nil_iff.mp hdrop)⟩
  | cons b rest =>
    have hall : ¬∀ b ∈ text, isBlank b = true := fun hall ↦ by
      rw [List.dropWhile_eq_nil_iff.mpr hall] at hdrop
      cases hdrop
    simp [hall]

theorem headerValue_of_ne_nil (h : text.dropWhile isBlank ≠ []) :
    headerValue text = text.dropWhile isBlank := by
  refine headerValue_eq_iff.mpr (fun hall ↦ absurd ?_ h)
  exact List.dropWhile_eq_nil_iff.mpr (List.all_eq_true.mp hall)

theorem strtoul_eq {v : ByteString} {n : Nat} (h : leadingDigits v = some n) (hn : n < 2 ^ 64) :
    strtoul v = n := by
  cases v with
  | nil => cases h
  | cons b v =>
    have hdigit : isDigit b = true := by
      by_contra hb
      simp [leadingDigits, hb] at h
    obtain ⟨hspace, hminus, hplus⟩ := plain_of_isDigit hdigit
    rw [strtoul, List.dropWhile_cons_of_neg (by simp [hspace])]
    simp [hminus, hplus, h]
    omega

/-- The parser keeps the values of all headers exactly if none that counts is only blanks. -/
theorem addHeaders_eq_iff : addHeaders headerValue ∅ lines =
      addHeaders (fun text ↦ text.dropWhile isBlank) ∅ lines ↔
    ∀ name text, lastText lines name = some text → text.all isBlank = true → text = [] := by
  constructor
  · intro heq name text hlast
    have hget := congrArg (fun headers : Dict ByteString ↦ headers[name]?) heq
    simp only [addHeaders_get, hlast, Option.map_some, Option.some.injEq] at hget
    exact headerValue_eq_iff.mp hget
  · intro h
    refine ExtTreeMap.ext_getElem? (fun name ↦ ?_)
    rw [addHeaders_get, addHeaders_get]
    cases hlast : lastText lines name with
    | none => rfl
    | some text => rw [Option.map_some, Option.map_some, headerValue_eq_iff.mpr (h name text hlast)]

end

namespace SimpleHttpParser

variable {p : SimpleHttpParser} {r : RequestText}

theorem loop_header {line rest : ByteString} (hs : p.parseState = .headers)
    (hline : line ≠ [] ∧ ¬crlf <:+: line) (hbuffer : p.buffer = line ++ crlf ++ rest) :
    loop p = loop { p with
      current := { p.current with headers := addHeaders headerValue p.current.headers [line] }
      buffer := rest } := by
  have hcut : cutWord crlf p.buffer = some (line, rest) := by
    rw [hbuffer]
    exact cutWord_crlf line hline.2 rest
  rw [loop_line (.inr hs) hcut, parseLine_headers hs, if_neg hline.1]
  unfold parseHeader
  cases hcut : cut colon line with
  | none => simp [addHeaders, header, hcut]
  | some e => simp [addHeaders, header, hcut]

theorem addHeaders_cons (headers : Dict ByteString) (line : ByteString)
    (lines : List ByteString) : addHeaders headerValue headers (line :: lines) =
      addHeaders headerValue (addHeaders headerValue headers [line]) lines := by
  rw [addHeaders, addHeaders, addHeaders, ← List.foldl_append, ← List.filterMap_append]
  rfl

theorem loop_headers {rest : ByteString} (lines : List ByteString) (hs : p.parseState = .headers)
    (hlines : ∀ line ∈ lines, line ≠ [] ∧ ¬crlf <:+: line)
    (hbuffer : p.buffer = lines.flatMap (fun line ↦ line ++ crlf) ++ rest) :
    loop p = loop { p with
      current := { p.current with headers := addHeaders headerValue p.current.headers lines }
      buffer := rest } := by
  induction lines generalizing p with
  | nil =>
    rw [List.flatMap_nil, List.nil_append] at hbuffer
    rw [← hbuffer]
    rfl
  | cons line lines ih =>
    rw [List.flatMap_cons, List.append_assoc] at hbuffer
    rw [loop_header hs (hlines line (by simp)) hbuffer,
      addHeaders_cons _ line lines]
    exact ih (p := { p with
      current := { p.current with headers := addHeaders headerValue p.current.headers [line] }
      buffer := lines.flatMap (fun line ↦ line ++ crlf) ++ rest }) hs
      (fun line h ↦ hlines line (by simp [h])) rfl

def headed (r : RequestText) (rest : ByteString) : SimpleHttpParser where
  parseState := .headers
  current :=
    { method := parseMethod r.method
      path := r.path
      headers := addHeaders headerValue ∅ r.lines }
  buffer := rest

theorem feed_head (hr : r.Framed) (rest : ByteString) :
    feed {} (r.head ++ rest) = loop { (headed r rest).endHeaders with buffer := rest } := by
  have hempty : ¬crlf <:+: ([] : ByteString) := by
    rw [List.infix_nil]
    simp [crlf]
  have hbuffer : r.head ++ rest = r.requestLine ++ crlf ++
      (r.lines.flatMap (fun line ↦ line ++ crlf) ++ (crlf ++ rest)) := by
    simp [RequestText.head]
  have hmethod : cut space r.requestLine = some (r.method, r.path ++ space :: r.version) :=
    cut_append hr.method _
  have hpath : cut space (r.path ++ space :: r.version) = some (r.path, r.version) :=
    cut_append hr.path _
  have hfirst : feed {} (r.head ++ rest) = loop { headed r [] with
      current := { method := parseMethod r.method, path := r.path }
      buffer := r.lines.flatMap (fun line ↦ line ++ crlf) ++ (crlf ++ rest) } := by
    rw [feed, List.nil_append, hbuffer,
      loop_line (.inl rfl) (cutWord_crlf _ hr.requestLine _), parseLine_methodLine rfl]
    simp [parseMethodLine, hmethod, hpath, headed]
  rw [hfirst, loop_headers r.lines rfl hr.lines rfl,
    loop_line (.inr rfl) (cutWord_crlf [] hempty rest), parseLine_headers rfl, if_pos rfl]
  obtain ⟨state, expected, chunked, heq⟩ := (headed r rest).endHeaders_eq
  rw [show (headed r rest).endHeaders = _ from heq rest true]
  have hend := congrArg (fun p : SimpleHttpParser ↦ loop { p with buffer := rest })
    (heq (crlf ++ rest) true)
  exact hend

def parsed (r : RequestText) (body : ByteString) : HttpRequest where
  method := parseMethod r.method
  path := r.path
  body := body
  headers := addHeaders headerValue ∅ r.lines

theorem getHeader_headed (r : RequestText) (rest name : ByteString) :
    (headed r rest).getHeader name = ((lastText r.lines name).map headerValue).getD [] := by
  rw [← addHeaders_get]
  rfl

theorem feed_length (hr : r.Framed) {v : ByteString} (hv : v ≠ [])
    (hlast : (lastText r.lines (lit "content-length")).map headerValue = some v)
    (rest : ByteString) :
    (feed {} (r.head ++ rest)).1 =
        (if strtoul v ≤ rest.length then some (parsed r (rest.take (strtoul v))) else none) ∧
      (strtoul v ≤ rest.length → (feed {} (r.head ++ rest)).2.buffer = rest.drop (strtoul v)) ∧
      (feed {} (r.head ++ rest)).2.chunked = false := by
  have hend : (headed r rest).endHeaders = { headed r rest with
      bodyExpected := strtoul v
      parseState := if 0 < strtoul v then .body else .done } := by
    have hget : (headed r rest).getHeader (lit "content-length") = v := by
      rw [getHeader_headed, hlast, Option.getD_some]
    rw [endHeaders, hget]
    exact if_pos hv
  rw [feed_head hr, hend]
  by_cases hpos : 0 < strtoul v
  · rw [if_pos hpos, loop_body rfl]
    by_cases hlen : strtoul v ≤ rest.length
    · simp [takeBody, headed, finish, parsed, hlen, Nat.not_lt.mpr hlen]
    · simp [takeBody, headed, hlen, Nat.not_le.mp hlen]
  · rw [if_neg hpos, loop_done rfl]
    have hzero : strtoul v = 0 := by omega
    simp [finish, headed, parsed, hzero]

/-- Without an announced length the request is answered at the end of the headers. -/
theorem feed_no_length (hr : r.Framed)
    (hlast : ((lastText r.lines (lit "content-length")).map headerValue).getD [] = [])
    (rest : ByteString) : ∃ chunked : Bool,
    (feed {} (r.head ++ rest)).1 = some (parsed r (if chunked then rest else [])) ∧
      (feed {} (r.head ++ rest)).2.buffer = (if chunked then [] else rest) ∧
      (feed {} (r.head ++ rest)).2.chunked = chunked ∧
      (chunked = true ↔ lit "chunked" <:+:
        ((lastText r.lines (lit "transfer-encoding")).map headerValue).getD []) := by
  rw [feed_head hr, endHeaders, getHeader_headed, hlast, getHeader_headed]
  by_cases hchunked : lit "chunked" <:+:
      ((lastText r.lines (lit "transfer-encoding")).map headerValue).getD []
  · refine ⟨true, ?_⟩
    rw [if_neg (by simp), if_pos hchunked, loop_body rfl]
    simp [takeBody, headed, finish, parsed, hchunked]
  · refine ⟨false, ?_⟩
    rw [if_neg (by simp), if_neg hchunked, loop_done rfl]
    simp [finish, headed, parsed, hchunked]

theorem feed_render (hr : r.WellFormed) : Complete {} r.render (parsed r r.body) := by
  have hlast : (lastText r.lines (lit "content-length")).map (fun text ↦ text.dropWhile isBlank) =
      r.headers[lit "content-length"]? := (addHeaders_get _ _ _).symm
  cases htext : lastText r.lines (lit "content-length") with
  | none =>
    rw [htext, Option.map_none] at hlast
    have hbody : r.body = [] := hr.no_length hlast.symm
    obtain ⟨chunked, hanswer, hbuffer, hplain, hte⟩ :=
      feed_no_length hr.toFramed (by rw [htext]; rfl) r.body
    have hfalse : chunked = false := by
      have hnone : lastText r.lines (lit "transfer-encoding") = none := by
        have hget := hr.plain
        rw [RequestText.headers, addHeaders_get, Option.map_eq_none_iff] at hget
        exact hget
      rw [hnone] at hte
      exact Bool.eq_false_iff.mpr (fun h ↦ absurd (hte.mp h) (by decide))
    subst hfalse
    refine ⟨?_, ?_, hplain⟩
    · rw [RequestText.render, hanswer, hbody]
      rfl
    · rw [RequestText.render, hbuffer, hbody]
      rfl
  | some text =>
    rw [htext, Option.map_some] at hlast
    have hdigits : leadingDigits (text.dropWhile isBlank) = some r.body.length :=
      hr.length _ hlast.symm
    have hne : text.dropWhile isBlank ≠ [] := fun hnil ↦ by
      rw [hnil] at hdigits
      cases hdigits
    have hlong : strtoul (text.dropWhile isBlank) = r.body.length :=
      strtoul_eq hdigits hr.short
    obtain ⟨hanswer, hbuffer, hplain⟩ := feed_length hr.toFramed hne
      (by rw [htext, Option.map_some, headerValue_of_ne_nil hne]) r.body
    rw [hlong] at hanswer hbuffer
    refine ⟨?_, ?_, hplain⟩
    · rw [RequestText.render, hanswer, if_pos le_rfl, List.take_length]
    · rw [RequestText.render, hbuffer le_rfl, List.drop_length]

theorem parsed_eq_iff : parsed r r.body = r.request ↔
    ∀ name text, lastText r.lines name = some text → text.all isBlank = true → text = [] := by
  rw [← addHeaders_eq_iff, parsed, RequestText.request, HttpRequest.mk.injEq]
  simp [RequestText.headers]

/-- However the bytes of a request arrive, it is answered with its last byte, and rightly if no
header that counts has only blanks for its value. -/
theorem pieces_answered_iff (hr : r.WellFormed) (before after : List ByteString)
    (piece trailing : ByteString)
    (hcut : (before ++ piece :: after).flatten = r.render ++ trailing)
    (hbefore : before.flatten.length < r.render.length)
    (hlast : r.render.length ≤ before.flatten.length + piece.length) :
    Incremental.answers feed {} (before ++ [piece]) =
        List.replicate before.length none ++ [some r.request] ↔
      ∀ name text, lastText r.lines name = some text → text.all isBlank = true → text = [] := by
  have hbegins : before.flatten ++ piece <+: r.render ++ trailing := by
    rw [← hcut, List.flatten_append, List.flatten_cons, ← List.append_assoc]
    exact List.prefix_append _ _
  rw [(feed_render hr).pieces rfl before piece hbegins hbefore hlast, ← parsed_eq_iff,
    List.append_right_inj, List.singleton_inj, Option.some_inj]

def greeting : RequestText where
  method := lit "POST"
  path := lit "/v1"
  version := lit "HTTP/1.1"
  lines := [lit "Content-Length: 2", lit "X-Tag: a"]
  body := lit "hi"

theorem greeting_wellFormed : greeting.WellFormed where
  method := by decide
  path := by decide
  requestLine := by decide
  lines := by decide
  plain := by
    rw [RequestText.headers, addHeaders_get]
    decide
  length := by
    rw [RequestText.headers, addHeaders_get]
    decide
  no_length := by
    rw [RequestText.headers, addHeaders_get]
    decide
  short := by decide

/-- A cut inside the first line break and inside the body. -/
theorem pieces_answered_iff_greeting :
    Incremental.answers feed {} ([greeting.render.take 18, (greeting.render.drop 18).dropLast] ++
        [lit "i and more"]) =
        List.replicate 2 none ++ [some greeting.request] ↔
      ∀ name text, lastText greeting.lines name = some text → text.all isBlank = true → text = [] :=
  pieces_answered_iff greeting_wellFormed
    [greeting.render.take 18, (greeting.render.drop 18).dropLast] [] (lit "i and more")
    (lit " and more") (by decide) (by decide) (by decide)

def emptyValue : RequestText where
  method := lit "GET"
  path := lit "/"
  version := lit "HTTP/1.1"
  lines := [lit "X: "]
  body := []

/-- The blank is kept as the value. -/
theorem blank_value_kept : emptyValue.WellFormed ∧
    Incremental.answers feed {} ([] ++ [emptyValue.render]) ≠
      List.replicate 0 none ++ [some emptyValue.request] := by
  have hwf : emptyValue.WellFormed :=
    { method := by decide
      path := by decide
      requestLine := by decide
      lines := by decide
      plain := by
        rw [RequestText.headers, addHeaders_get]
        decide
      length := by
        rw [RequestText.headers, addHeaders_get]
        decide
      no_length := fun _ ↦ rfl
      short := by decide }
  refine ⟨hwf, fun h ↦ ?_⟩
  have hbegins : [].flatten ++ emptyValue.render <+: emptyValue.render ++ [] := by simp
  rw [(feed_render hwf).pieces rfl [] emptyValue.render hbegins (by decide) (by simp),
    List.length_nil, List.append_right_inj, List.singleton_inj, Option.some_inj,
    parsed_eq_iff] at h
  exact absurd (h (lit "x") (lit " ") (by decide) (by decide)) (by decide)

end SimpleHttpParser

end Cerberus.Http
