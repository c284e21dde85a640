import Cerberus.Foundation.Scan
import Cerberus.Foundation.Wire

namespace Cerberus.Cli

open Std Foundation.Bytes Foundation.Scan Foundation.Wire

structure CerberusCommand where
  protocol : ByteString := []
  namespaceName : ByteString := []
  command : ByteString := []
  params : Dict ByteString := ∅
  positional : List ByteString := []

abbrev ShortcutRegistry := List (ByteString × ByteString)

def shortcuts : ShortcutRegistry :=
  [ ("cbr:compile", "cerberus://graph:compile::path:model.gguf::backend:native;"),
    ("cbr:run", "cerberus://graph:execute::backend:native;"),
    ("cbr:status", "cerberus://system:status;"),
    ("cbr:backends", "cerberus://system:list-backends;"),
    ("cbr:tier-status", "cerberus://tier:get-status;"),
    ("cbr:promote", "cerberus://tier:promote::tensor:output;"),
    ("cbr:demote", "cerberus://tier:demote::tensor:output;"),
    ("cbr:quantize", "cerberus://quantize:apply::method:Q4_K_M;"),
    ("cbr:dequantize", "cerberus://quantize:remove::method:Q4_K_M;"),
    ("cbr:model-load", "cerberus://model:load::path:model.gguf;"),
    ("cbr:model-info", "cerberus://model:info;"),
    ("cbr:kernel-list", "cerberus://system:list-kernels;"),
    ("cbr:benchmark", "cerberus://system:benchmark::backend:native;"),
    ("cbr:help", "cerberus://system:help;"),
    ("cbr:version", "cerberus://system:version;"),
    ("cbr:predictor-stats", "cerberus://system:predictor-stats;"),
    ("cbr:predictor-clear", "cerberus://system:predictor-clear;"),
    ("cbr:hash-verify", "cerberus://system:hash-verify::tensor:input;"),
    ("cbr:shadow-save", "cerberus://tier:shadow-save::tensor:activations;"),
    ("cbr:shadow-restore", "cerberus://tier:shadow-restore::tensor:activations;"),
    ("cbr:fusion-enable", "cerberus://graph:enable-fusion;"),
    ("cbr:fusion-disable", "cerberus://graph:disable-fusion;") ].map
      (fun e ↦ (lit e.1, lit e.2))

/-- An unknown shortcut stands for the empty text. -/
def expand (reg : ShortcutRegistry) (shortcut : ByteString) : ByteString :=
  ((reg.find? (fun e ↦ e.1 = shortcut)).map (fun e ↦ e.2)).getD []

def trimView (s : ByteString) : ByteString :=
  ((s.dropWhile isSpace).reverse.dropWhile isSpace).reverse

def isProtocolPrefix (s : ByteString) : Bool := lit "cerberus://" <+: s ∨ lit "cbr://" <+: s

def colon : UInt8 := 58

def semicolon : UInt8 := 59

def separator : ByteString := [colon, colon]

/-- The pair that the loop cuts off and the text after it. Where the terminator comes first the loop
is left with the pair in hand. -/
def nextPair (sv : ByteString) : Option (ByteString × ByteString) :=
  match cut semicolon sv, cutWord separator sv with
  | some _, none => none
  | some semi, some sep => if semi.1.length < sep.1.length then none else some sep
  | none, some sep => some sep
  | none, none => some (sv, [])

def CerberusCommand.addPair (cmd : CerberusCommand) (pair : ByteString) : CerberusCommand :=
  let pair := trimView pair
  if pair = [] then cmd
  else
    match cut colon pair with
    | none => { cmd with positional := cmd.positional ++ [pair] }
    | some (key, val) => { cmd with params := cmd.params.insert (trimView key) (trimView val) }

theorem nextPair_length {sv : ByteString} {e : ByteString × ByteString} (hne : sv ≠ [])
    (h : nextPair sv = some e) : e.2.length < sv.length := by
  have hsep (e : ByteString × ByteString) (he : cutWord separator sv = some e) :
      e.2.length < sv.length := by
    rw [cutWord_eq_some (p := e.1) (r := e.2) he]
    simp only [separator, List.length_append, List.length_cons, List.length_nil]
    omega
  unfold nextPair at h
  split at h
  · cases h
  · rename_i semi sep hsemi he
    split at h
    · cases h
    · cases h
      exact hsep _ he
  · rename_i sep hsemi he
    cases h
    exact hsep _ he
  · cases h
    exact List.length_pos_iff.mpr hne

def parsePairs (sv : ByteString) (cmd : CerberusCommand) : CerberusCommand :=
  if _hne : sv = [] then cmd
  else
    match _h : nextPair sv with
    | none => cmd
    | some e => parsePairs e.2 (cmd.addPair e.1)
termination_by sv.length
decreasing_by exact nextPair_length _hne _h

def parseBody (protocol sv : ByteString) : Except ByteString CerberusCommand :=
  match cut colon sv with
  | none => .error (lit "Expected namespace:command")
  | some (ns, sv) =>
    let cmd : CerberusCommand := { protocol := protocol, namespaceName := trimView ns }
    match cutWord separator sv, cut semicolon sv with
    | none, none => .ok { cmd with command := trimView sv }
    | none, some semi => .ok { cmd with command := trimView semi.1 }
    | some sep, semi =>
      if semi.any (fun semi ↦ semi.1.length < sep.1.length) then
        .ok { cmd with command := trimView ((semi.map (fun semi ↦ semi.1)).getD []) }
      else
        let cmd := parsePairs sep.2 { cmd with command := trimView sep.1 }
        if cmd.namespaceName = [] ∨ cmd.command = [] then
          .error (lit "namespace and command are required")
        else .ok cmd

def parseProtocol (raw : ByteString) : Except ByteString CerberusCommand :=
  if lit "cerberus://" <+: raw then parseBody (lit "cerberus") (raw.drop 11)
  else if lit "cbr://" <+: raw then parseBody (lit "cbr") (raw.drop 6)
  else .error (lit "Invalid protocol prefix")

def tokens (raw : ByteString) : List ByteString :=
  (raw.splitOnP isSpace).filter (fun token ↦ token ≠ [])

/-- The arguments after the first token: an option takes the next token as its value, everything
else is positional. -/
def readOptions (option : ByteString → Option ByteString) :
    List ByteString → CerberusCommand → CerberusCommand
  | [], cmd => cmd
  | [token], cmd => { cmd with positional := cmd.positional ++ [token] }
  | token :: value :: rest, cmd =>
    match option token with
    | some key => readOptions option rest { cmd with params := cmd.params.insert key value }
    | none =>
      readOptions option (value :: rest) { cmd with positional := cmd.positional ++ [token] }

def anyOption (token : ByteString) : Option ByteString :=
  if lit "--" <+: token then some (token.drop 2) else none

def oneOf (keys : List String) (token : ByteString) : Option ByteString :=
  (keys.map lit).find? (fun key ↦ token = lit "--" ++ key)

def shortForm (first : ByteString) : Option (String × String × Option (List String)) :=
  if first ∈ [lit "compile", lit "build"] then
    some ("graph", "compile", some ["backend", "quantize", "path"])
  else if first ∈ [lit "run", lit "execute"] then some ("graph", "execute", some ["backend"])
  else if first = lit "status" then some ("system", "status", none)
  else if first = lit "info" then some ("system", "info", none)
  else if first = lit "promote" then some ("tier", "promote", some ["tensor"])
  else if first = lit "demote" then some ("tier", "demote", some ["tensor"])
  else if first = lit "quantize" then some ("quantize", "apply", some ["method"])
  else if first ∈ [lit "load", lit "model-load"] then some ("model", "load", some ["path"])
  else if first = lit "benchmark" then some ("system", "benchmark", some ["backend"])
  else if first ∈ [lit "help", lit "--help", lit "-h"] then some ("system", "help", none)
  else if first ∈ [lit "version", lit "--version", lit "-v"] then some ("system", "version", none)
  else none

def parseErgonomic (reg : ShortcutRegistry) (raw : ByteString) :
    Except ByteString CerberusCommand :=
  match tokens raw with
  | [] => .error (lit "Empty ergonomic command")
  | first :: rest =>
    let base := if lit "cbr:" <+: first then expand reg first else []
    if base ≠ [] then (parseProtocol base).map (readOptions anyOption rest)
    else
      match shortForm first with
      | none => .error (lit "Unknown ergonomic command: " ++ first)
      | some (ns, command, options) =>
        let cmd : CerberusCommand :=
          { protocol := lit "cbr", namespaceName := lit ns, command := lit command }
        .ok (match options with
          | none => cmd
          | some keys => readOptions (oneOf keys) rest cmd)

def parse (reg : ShortcutRegistry) (raw : ByteString) : Except ByteString CerberusCommand :=
  let trimmed := trimView raw
  if trimmed = [] then .error (lit "Empty command")
  else
    let expanded := expand reg trimmed
    let target := if expanded = [] then trimmed else expanded
    if isProtocolPrefix target then parseProtocol target
    else
      let unknown := .error (lit "Unknown command format. Use cerberus:// or cbr:shortcut")
      if expanded = [] then
        match parseErgonomic reg trimmed with
        | .ok cmd => .ok cmd
        | .error _ => unknown
      else unknown

end Cerberus.Cli
