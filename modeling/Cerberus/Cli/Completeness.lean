import Cerberus.Cli.RoundTrip

namespace Cerberus.Cli

open Std Foundation.Bytes Foundation.Scan Foundation.Wire

def CerberusCommand.Complete (cmd : CerberusCommand) : Prop :=
  cmd.namespaceName ≠ [] ∧ cmd.command ≠ []

/-- The text that a line is read as, if it is read in the long form: itself, what it is a shortcut
for, or what its first token is one for. -/
def protocolText (reg : ShortcutRegistry) (raw : ByteString) : Option ByteString :=
  let trimmed := trimView raw
  let expanded := expand reg trimmed
  let target := if expanded = [] then trimmed else expanded
  if trimmed = [] then none
  else if isProtocolPrefix target then some target
  else if expanded = [] then
    (tokens trimmed).head?.bind (fun first ↦
      if lit "cbr:" <+: first ∧ expand reg first ≠ [] then some (expand reg first) else none)
  else none

def protocolBody (raw : ByteString) : Option ByteString :=
  if lit "cerberus://" <+: raw then some (raw.drop 11)
  else if lit "cbr://" <+: raw then some (raw.drop 6)
  else none

/-- The command, where it stands without parameters: there is no separator, or the terminator comes
before it. -/
def bareCommand (sv : ByteString) : Option ByteString :=
  match cutWord separator sv, cut semicolon sv with
  | none, none => some sv
  | none, some semi => some semi.1
  | some _, none => none
  | some sep, some semi => if semi.1.length < sep.1.length then some semi.1 else none

/-- A bare command that is blank, or follows a blank namespace. -/
def Hollow (raw : ByteString) : Prop :=
  ∃ sv ∈ protocolBody raw, ∃ e ∈ cut colon sv, ∃ command ∈ bareCommand e.2,
    trimView e.1 = [] ∨ trimView command = []

variable {reg : ShortcutRegistry} {raw sv : ByteString} {cmd : CerberusCommand}

/-- Only a command without parameters gets past the check. -/
theorem parseBody_complete_iff {protocol ns rest : ByteString}
    (h : cut colon sv = some (ns, rest)) :
    (∀ cmd, parseBody protocol sv = .ok cmd → cmd.Complete) ↔
      ∀ command ∈ bareCommand rest, trimView ns ≠ [] ∧ trimView command ≠ [] := by
  have hchecked (parsed : CerberusCommand) (message : ByteString) (cmd : CerberusCommand)
      (hok : (if parsed.namespaceName = [] ∨ parsed.command = [] then .error message
        else .ok parsed : Except ByteString CerberusCommand) = .ok cmd) : cmd.Complete := by
    split_ifs at hok with hblank
    cases hok
    exact not_or.mp hblank
  rw [parseBody, h]
  dsimp only
  cases hsep : cutWord separator rest with
  | none =>
    cases hsemi : cut semicolon rest with
    | none => simp [bareCommand, hsep, hsemi, CerberusCommand.Complete]
    | some semi => simp [bareCommand, hsep, hsemi, CerberusCommand.Complete]
  | some sep =>
    cases hsemi : cut semicolon rest with
    | none =>
      refine iff_of_true (fun cmd hok ↦ hchecked _ _ cmd (by simpa using hok)) ?_
      simp [bareCommand, hsep, hsemi]
    | some semi =>
      by_cases hfirst : semi.1.length < sep.1.length
      · simp [bareCommand, hsep, hsemi, hfirst, CerberusCommand.Complete]
      · refine iff_of_true (fun cmd hok ↦ hchecked _ _ cmd (by simpa [hfirst] using hok)) ?_
        simp [bareCommand, hsep, hsemi, hfirst]

theorem parseProtocol_complete_iff :
    (∀ cmd, parseProtocol raw = .ok cmd → cmd.Complete) ↔ ¬ Hollow raw := by
  have hbody (protocol sv : ByteString) : (∀ cmd, parseBody protocol sv = .ok cmd → cmd.Complete) ↔
      ¬ ∃ e ∈ cut colon sv, ∃ command ∈ bareCommand e.2,
        trimView e.1 = [] ∨ trimView command = [] := by
    cases hcut : cut colon sv with
    | none =>
      refine iff_of_true ?_ (by simp)
      intro cmd hok
      rw [parseBody, hcut] at hok
      cases hok
    | some e =>
      rw [parseBody_complete_iff hcut]
      simp [not_or]
  rw [parseProtocol, Hollow, protocolBody]
  split_ifs
  · simpa using hbody (lit "cerberus") (raw.drop 11)
  · simpa using hbody (lit "cbr") (raw.drop 6)
  · exact iff_of_true (fun cmd hok ↦ by cases hok) (by simp)

theorem readOptions_frame (option : ByteString → Option ByteString) (l : List ByteString)
    (cmd : CerberusCommand) : (readOptions option l cmd).namespaceName = cmd.namespaceName ∧
      (readOptions option l cmd).command = cmd.command := by
  induction l, cmd using readOptions.induct option with
  | case1 cmd => exact ⟨rfl, rfl⟩
  | case2 token cmd => exact ⟨rfl, rfl⟩
  | case3 token value rest cmd key hkey ih =>
    rw [readOptions, hkey]
    exact ih
  | case4 token value rest cmd hkey ih =>
    rw [readOptions, hkey]
    exact ih

theorem readOptions_complete (option : ByteString → Option ByteString) (l : List ByteString) :
    (readOptions option l cmd).Complete ↔ cmd.Complete := by
  rw [CerberusCommand.Complete, CerberusCommand.Complete, (readOptions_frame option l cmd).1,
    (readOptions_frame option l cmd).2]

theorem shortForm_words (first : ByteString) :
    ∀ w ∈ shortForm first, lit w.1 ≠ [] ∧ lit w.2.1 ≠ [] := by
  have hite (p : Prop) [Decidable p] (x : String × String × Option (List String))
      (y : Option (String × String × Option (List String)))
      (hx : lit x.1 ≠ [] ∧ lit x.2.1 ≠ []) (hy : ∀ w ∈ y, lit w.1 ≠ [] ∧ lit w.2.1 ≠ []) :
      ∀ w ∈ if p then some x else y, lit w.1 ≠ [] ∧ lit w.2.1 ≠ [] := by
    split_ifs
    · simpa using hx
    · exact hy
  rw [shortForm]
  repeat' apply hite
  all_goals decide

theorem map_readOptions_complete (option : ByteString → Option ByteString) (l : List ByteString) :
    (∀ cmd, (parseProtocol raw).map (readOptions option l) = .ok cmd → cmd.Complete) ↔
      ¬ Hollow raw := by
  rw [← parseProtocol_complete_iff]
  cases parseProtocol raw with
  | error e => simp [Except.map]
  | ok cmd => simp [Except.map, readOptions_complete]

theorem parseErgonomic_complete_iff :
    (∀ cmd, parseErgonomic reg raw = .ok cmd → cmd.Complete) ↔
      ∀ t ∈ (tokens raw).head?.bind (fun first ↦
        if lit "cbr:" <+: first ∧ expand reg first ≠ [] then some (expand reg first) else none),
      ¬ Hollow t := by
  rw [parseErgonomic]
  cases tokens raw with
  | nil => simp
  | cons first rest =>
    dsimp only [List.head?_cons, Option.bind_some]
    by_cases hbase : lit "cbr:" <+: first ∧ expand reg first ≠ []
    · rw [if_pos hbase.1, if_pos hbase.2, if_pos hbase, map_readOptions_complete]
      simp
    · have hnone : (if lit "cbr:" <+: first then expand reg first else []) = [] := by
        split_ifs with hstart
        · by_contra hne
          exact hbase ⟨hstart, hne⟩
        · rfl
      rw [hnone, if_neg (not_not.mpr rfl), if_neg hbase]
      refine iff_of_true ?_ (by simp)
      intro cmd hok
      cases hform : shortForm first with
      | none =>
        rw [hform] at hok
        cases hok
      | some w =>
        obtain ⟨ns, command, options⟩ := w
        have hwords := shortForm_words first _ hform
        rw [hform] at hok
        cases options with
        | none =>
          cases hok
          exact hwords
        | some keys =>
          cases hok
          exact (readOptions_complete _ rest).mpr hwords

/-- Every command that is accepted has a namespace and a name, for a line, whatever the shortcuts,
exactly if the text it is read as is no bare command with one of them blank. -/
theorem parse_complete_iff (reg : ShortcutRegistry) (raw : ByteString) :
    (∀ cmd, parse reg raw = .ok cmd → cmd.Complete) ↔
      ∀ t ∈ protocolText reg raw, ¬ Hollow t := by
  rw [parse, protocolText]
  dsimp only
  by_cases hblank : trimView raw = []
  · rw [if_pos hblank, if_pos hblank]
    simp
  rw [if_neg hblank, if_neg hblank]
  by_cases hprotocol : isProtocolPrefix
      (if expand reg (trimView raw) = [] then trimView raw else expand reg (trimView raw)) = true
  · rw [if_pos hprotocol, if_pos hprotocol, parseProtocol_complete_iff]
    simp
  rw [if_neg hprotocol, if_neg hprotocol]
  by_cases hexpanded : expand reg (trimView raw) = []
  · rw [if_pos hexpanded, if_pos hexpanded, ← parseErgonomic_complete_iff]
    cases parseErgonomic reg (trimView raw) with
    | error e => simp
    | ok cmd => simp
  · rw [if_neg hexpanded, if_neg hexpanded]
    simp

/-- A colon after the protocol is enough. -/
theorem colon_accepted : ¬ ∀ (reg : ShortcutRegistry) (raw : ByteString) (cmd : CerberusCommand),
    parse reg raw = .ok cmd → cmd.Complete := by
  intro h
  exact (h [] (lit "cerberus://:") { protocol := lit "cerberus" } rfl).1 rfl

end Cerberus.Cli
