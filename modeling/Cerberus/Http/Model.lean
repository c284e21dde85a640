import Cerberus.Foundation.Scan
import Cerberus.Foundation.Wire

namespace Cerberus.Http

open Std Foundation.Bytes Foundation.Scan Foundation.Wire

inductive HttpMethod
  | get
  | post
  | options
  | unknown
  deriving DecidableEq

def parseMethod (s : ByteString) : HttpMethod :=
  if s = lit "GET" then .get
  else if s = lit "POST" then .post
  else if s = lit "OPTIONS" then .options
  else .unknown

structure HttpRequest where
  method : HttpMethod := .unknown
  path : ByteString := []
  body : ByteString := []
  headers : Dict ByteString := ∅

inductive State
  | methodLine
  | headers
  | body
  | done
  | parseError
  deriving DecidableEq

structure SimpleHttpParser where
  parseState : State := .methodLine
  current : HttpRequest := {}
  buffer : ByteString := []
  bodyExpected : Nat := 0
  wantsMore : Bool := true
  chunked : Bool := false

def space : UInt8 := 32

def colon : UInt8 := 58

def crlf : ByteString := [13, 10]

def toLower (b : UInt8) : UInt8 := if 65 ≤ b && b ≤ 90 then b + 32 else b

def isBlank (b : UInt8) : Bool := b == 32 || b == 9

def strtoul (s : ByteString) : Nat :=
  let signed : Bool × ByteString :=
    match s.dropWhile isSpace with
    | 45 :: r => (true, r)
    | 43 :: r => (false, r)
    | r => (false, r)
  match leadingDigits signed.2 with
  | none => 0
  | some n =>
    if 2 ^ 64 ≤ n then 2 ^ 64 - 1 else if signed.1 then (2 ^ 64 - n) % 2 ^ 64 else n

/-- The value of a header line; blanks before it are skipped unless there is nothing else. -/
def headerValue (val : ByteString) : ByteString :=
  match val.dropWhile isBlank with
  | [] => val
  | rest => rest

namespace SimpleHttpParser

def getHeader (p : SimpleHttpParser) (key : ByteString) : ByteString :=
  (p.current.headers[key]?).getD []

def parseMethodLine (p : SimpleHttpParser) (line : ByteString) : SimpleHttpParser :=
  match cut space line with
  | none => { p with parseState := .parseError }
  | some (method, rest) =>
    match cut space rest with
    | none => { p with parseState := .parseError }
    | some (path, _) =>
      { p with
        current := { p.current with method := parseMethod method, path := path }
        parseState := .headers }

def endHeaders (p : SimpleHttpParser) : SimpleHttpParser :=
  let length := p.getHeader (lit "content-length")
  if length ≠ [] then
    let expected := strtoul length
    { p with
      bodyExpected := expected
      parseState := if 0 < expected then .body else .done }
  else if lit "chunked" <:+: p.getHeader (lit "transfer-encoding") then
    { p with chunked := true, parseState := .body }
  else { p with parseState := .done }

def parseHeader (p : SimpleHttpParser) (line : ByteString) : SimpleHttpParser :=
  match cut colon line with
  | none => p
  | some (key, val) =>
    { p with current := { p.current with
        headers := p.current.headers.insert (key.map toLower) (headerValue val) } }

def parseLine (p : SimpleHttpParser) (line : ByteString) : SimpleHttpParser :=
  match p.parseState with
  | .methodLine => p.parseMethodLine line
  | .headers => if line = [] then p.endHeaders else p.parseHeader line
  | _ => p

/-- The request is moved out of the parser, which keeps empty strings and maps. -/
def finish (p : SimpleHttpParser) : Option HttpRequest × SimpleHttpParser :=
  (some p.current, { p with wantsMore := false, current := { method := p.current.method } })

/-- A body is complete when as many bytes are there as were announced. In the chunked encoding the
body is whatever the buffer holds. -/
def takeBody (p : SimpleHttpParser) : Option HttpRequest × SimpleHttpParser :=
  if p.chunked then
    finish { p with
      current := { p.current with body := p.buffer }
      buffer := []
      parseState := .done }
  else if p.buffer.length < p.bodyExpected then (none, { p with wantsMore := true })
  else
    finish { p with
      current := { p.current with body := p.buffer.take p.bodyExpected }
      buffer := p.buffer.drop p.bodyExpected
      parseState := .done }

def loop (p : SimpleHttpParser) : Option HttpRequest × SimpleHttpParser :=
  match p.parseState with
  | .done => finish p
  | .parseError => (none, p)
  | .body => takeBody p
  | .methodLine | .headers =>
    match _h : cutWord crlf p.buffer with
    | none => (none, { p with wantsMore := true })
    | some e => loop { p.parseLine e.1 with buffer := e.2 }
termination_by p.buffer.length
decreasing_by
  all_goals
    have heq := congrArg List.length (cutWord_eq_some (p := e.1) (r := e.2) _h)
    simp only [crlf, List.length_append, List.length_cons, List.length_nil] at heq
    omega

def feed (p : SimpleHttpParser) (data : ByteString) : Option HttpRequest × SimpleHttpParser :=
  loop { p with buffer := p.buffer ++ data }

def reset (_ : SimpleHttpParser) : SimpleHttpParser := {}

end SimpleHttpParser

end Cerberus.Http
