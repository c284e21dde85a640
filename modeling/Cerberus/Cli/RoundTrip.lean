import Cerberus.Cli.Model

namespace Cerberus.Cli

open Std Foundation Foundation.Bytes Foundation.Scan Foundation.Wire

/-- A word of the command language: not empty, without white space at its ends, and free of the
letters that the grammar uses. -/
structure Plain (w : ByteString) : Prop where
  ne_nil : w ≠ []
  first : ∀ b ∈ w.head?, isSpace b = false
  last : ∀ b ∈ w.getLast?, isSpace b = false
  no_colon : colon ∉ w
  no_semicolon : semicolon ∉ w

structure CerberusCommand.WellFormed (cmd : CerberusCommand) : Prop where
  protocol : cmd.protocol = lit "cerberus" ∨ cmd.protocol = lit "cbr"
  namespaceName : Plain cmd.namespaceName
  command : Plain cmd.command
  params : ∀ k v, cmd.params[k]? = some v → Plain k ∧ Plain v
  positional : ∀ p ∈ cmd.positional, Plain p

def renderParam (e : ByteString × ByteString) : ByteString := e.1 ++ colon :: e.2

def CerberusCommand.items (cmd : CerberusCommand) : List ByteString :=
  cmd.params.toList.map renderParam ++ cmd.positional

/-- The text of a command in the documented grammar, with or without the terminator. -/
def CerberusCommand.render (cmd : CerberusCommand) (terminated : Bool) : ByteString :=
  cmd.protocol ++ lit "://" ++ (cmd.namespaceName ++ colon :: (cmd.command ++
    (cmd.items.flatMap (fun i ↦ separator ++ i) ++ if terminated then [semicolon] else [])))

section

variable {w i : ByteString}

theorem dropWhile_eq_self (h : ∀ b ∈ w.head?, isSpace b = false) : w.dropWhile isSpace = w := by
  cases w with
  | nil => rfl
  | cons b w => rw [List.dropWhile_cons_of_neg (by simp [h b rfl])]

theorem trimView_eq_self (hfirst : ∀ b ∈ w.head?, isSpace b = false)
    (hlast : ∀ b ∈ w.getLast?, isSpace b = false) : trimView w = w := by
  rw [trimView, dropWhile_eq_self hfirst, dropWhile_eq_self (by rwa [List.head?_reverse]),
    List.reverse_reverse]

theorem Plain.trimView_eq (h : Plain w) : trimView w = w := trimView_eq_self h.first h.last

inductive Item : ByteString → Prop
  | word {w : ByteString} : Plain w → Item w
  | param {k v : ByteString} : Plain k → Plain v → Item (renderParam (k, v))

theorem Item.ne_nil (h : Item i) : i ≠ [] := by
  cases h with
  | word hw => exact hw.ne_nil
  | param hk hv => simp [renderParam]

theorem Item.last (h : Item i) : ∀ b ∈ i.getLast?, isSpace b = false := by
  cases h with
  | word hw => exact hw.last
  | @param k v hk hv =>
    have hlast : (renderParam (k, v)).getLast? = v.getLast? := by
      rw [renderParam, List.getLast?_append_of_ne_nil _ (List.cons_ne_nil _ _),
        List.getLast?_cons, List.getLast?_eq_getLast_of_ne_nil hv.ne_nil]
      simp
    rw [hlast]
    exact hv.last

theorem Item.trimView_eq (h : Item i) : trimView i = i := by
  refine trimView_eq_self ?_ h.last
  cases h with
  | word hw => exact hw.first
  | param hk hv =>
    rw [renderParam, List.head?_append_of_ne_nil _ hk.ne_nil]
    exact hk.first

theorem Item.no_semicolon (h : Item i) : semicolon ∉ i := by
  cases h with
  | word hw => exact hw.no_semicolon
  | param hk hv =>
    rw [renderParam, List.mem_append, List.mem_cons]
    rintro (hmem | heq | hmem)
    · exact hk.no_semicolon hmem
    · exact absurd heq (by decide)
    · exact hv.no_semicolon hmem

theorem Item.suffix_colon (h : Item i) {q t : ByteString} (heq : i = q ++ colon :: t) :
    t ≠ [] ∧ colon ∉ t := by
  cases h with
  | word hw =>
    refine absurd ?_ hw.no_colon
    rw [heq]
    simp
  | @param k v hk hv =>
    have hcount := congrArg (List.count colon) heq
    simp only [renderParam, List.count_append, List.count_cons_self,
      List.count_eq_zero.mpr hk.no_colon, List.count_eq_zero.mpr hv.no_colon] at hcount
    have hq : colon ∉ q := List.count_eq_zero.mp (by omega)
    have hcut := cut_append hk.no_colon v
    have hcut' := cut_append hq t
    rw [← heq, renderParam, hcut] at hcut'
    obtain ⟨-, rfl⟩ := Prod.mk.inj (Option.some.inj hcut')
    exact ⟨hv.ne_nil, hv.no_colon⟩

theorem Item.not_separator (h : Item i) {q t r : ByteString} (heq : i = q ++ t) (hne : t ≠ []) :
    ¬separator <+: t ++ r := by
  rintro ⟨x, hx⟩
  obtain ⟨b, t, rfl⟩ := List.exists_cons_of_ne_nil hne
  simp only [separator, List.cons_append, List.nil_append, List.cons.injEq] at hx
  obtain ⟨rfl, hx⟩ := hx
  obtain ⟨htne, htcolon⟩ := h.suffix_colon heq
  obtain ⟨b, t, rfl⟩ := List.exists_cons_of_ne_nil htne
  rw [List.cons_append, List.cons.injEq] at hx
  exact htcolon (by simp [hx.1])

theorem Item.cutWord_separator (h : Item i) (r : ByteString) :
    cutWord separator (i ++ separator ++ r) = some (i, r) := by
  refine cutWord_append (by simp [separator]) (fun q t heq hne ↦ ?_)
  rw [List.append_assoc]
  exact h.not_separator heq hne

theorem Item.cutWord_none (h : Item i) (tail : ByteString) (htail : colon ∉ tail) :
    cutWord separator (i ++ tail) = none := by
  refine cutWord_eq_none ?_
  rintro ⟨q, r, heq⟩
  -- the separator would begin in the item or in the tail
  rw [List.append_assoc, List.append_eq_append_iff] at heq
  obtain ⟨t, ht, htail'⟩ | ⟨t, ht, htail'⟩ := heq
  · cases t with
    | nil => exact htail (by rw [← List.nil_append tail, ← htail']; simp [separator])
    | cons b t => exact h.not_separator ht (by simp) ⟨r, htail'⟩
  · refine htail ?_
    rw [htail']
    simp [separator]

theorem nextPair_last (h : Item i) : nextPair i = some (i, []) := by
  have hsep := h.cutWord_none [] (by simp)
  rw [List.append_nil] at hsep
  simp [nextPair, cut_of_not_mem h.no_semicolon, hsep]

theorem nextPair_terminated (h : Item i) : nextPair (i ++ [semicolon]) = none := by
  have hsep := h.cutWord_none [semicolon] (by decide)
  simp [nextPair, cut_append h.no_semicolon, hsep]

theorem nextPair_item (h : Item i) (r : ByteString) :
    nextPair (i ++ separator ++ r) = some (i, r) := by
  have hsemi : semicolon ∉ i ++ separator := by
    rw [List.mem_append, not_or]
    exact ⟨h.no_semicolon, by decide⟩
  rw [nextPair, h.cutWord_separator, cut_skip hsemi]
  cases cut semicolon r with
  | none => rfl
  | some e => simp

end

section

variable {cmd : CerberusCommand} {items : List ByteString}

theorem addPair_word {w : ByteString} (h : Plain w) :
    cmd.addPair w = { cmd with positional := cmd.positional ++ [w] } := by
  simp [CerberusCommand.addPair, h.trimView_eq, h.ne_nil, cut_of_not_mem h.no_colon]

theorem addPair_param {k v : ByteString} (hk : Plain k) (hv : Plain v) :
    cmd.addPair (renderParam (k, v)) = { cmd with params := cmd.params.insert k v } := by
  have hitem : Item (renderParam (k, v)) := .param hk hv
  rw [CerberusCommand.addPair, hitem.trimView_eq]
  simp [renderParam, cut_append hk.no_colon, hk.trimView_eq, hv.trimView_eq]

theorem foldl_addPair_words {l : List ByteString} (hl : ∀ w ∈ l, Plain w) (cmd : CerberusCommand) :
    l.foldl CerberusCommand.addPair cmd = { cmd with positional := cmd.positional ++ l } := by
  induction l generalizing cmd with
  | nil => simp
  | cons w l ih =>
    rw [List.foldl_cons, addPair_word (hl w (by simp)), ih (fun w hw ↦ hl w (by simp [hw]))]
    simp

theorem foldl_addPair_params {l : List (ByteString × ByteString)}
    (hl : ∀ e ∈ l, Plain e.1 ∧ Plain e.2) (cmd : CerberusCommand) :
    (l.map renderParam).foldl CerberusCommand.addPair cmd =
      { cmd with params := cmd.params.insertMany l } := by
  induction l generalizing cmd with
  | nil => simp
  | cons e l ih =>
    obtain ⟨k, v⟩ := e
    obtain ⟨hk, hv⟩ := hl (k, v) (by simp)
    rw [List.map_cons, List.foldl_cons, addPair_param hk hv, ih (fun e he ↦ hl e (by simp [he]))]
    simp [ExtTreeMap.insertMany_cons]

theorem parsePairs_nil (cmd : CerberusCommand) : parsePairs [] cmd = cmd := by
  rw [parsePairs]
  simp

theorem parsePairs_stop {sv : ByteString} (h : nextPair sv = none) (cmd : CerberusCommand) :
    parsePairs sv cmd = cmd := by
  rw [parsePairs]
  split
  · rfl
  · split
    · rfl
    · rename_i hsome
      rw [h] at hsome
      cases hsome

theorem parsePairs_step {sv pair rest : ByteString} (hne : sv ≠ [])
    (h : nextPair sv = some (pair, rest)) (cmd : CerberusCommand) :
    parsePairs sv cmd = parsePairs rest (cmd.addPair pair) := by
  rw [parsePairs, dif_neg hne]
  split
  · rename_i hnone
    rw [h] at hnone
    cases hnone
  · rename_i hsome
    rw [h] at hsome
    cases hsome
    rfl

theorem parsePairs_items (hitems : ∀ i ∈ items, Item i) (hne : items ≠ []) (terminated : Bool)
    (cmd : CerberusCommand) :
    parsePairs (separator.intercalate items ++ if terminated then [semicolon] else []) cmd =
      (if terminated then items.dropLast else items).foldl CerberusCommand.addPair cmd := by
  induction items generalizing cmd with
  | nil => exact absurd rfl hne
  | cons i rest ih =>
    have hi := hitems i (by simp)
    cases rest with
    | nil =>
      have htext : separator.intercalate [i] = i := by simp [List.intercalate]
      rw [htext]
      cases terminated with
      | false =>
        rw [if_neg (by decide), if_neg (by decide), List.append_nil,
          parsePairs_step hi.ne_nil (nextPair_last hi), parsePairs_nil]
        rfl
      | true => exact parsePairs_stop (nextPair_terminated hi) cmd
    | cons j rest =>
      have hrest := ih (fun i hi ↦ hitems i (by simp [hi])) (by simp) (cmd.addPair i)
      have htext : separator.intercalate (i :: j :: rest) =
          i ++ separator ++ separator.intercalate (j :: rest) := by
        simp [List.intercalate]
      rw [htext, List.append_assoc, parsePairs_step (by simp [hi.ne_nil]) (nextPair_item hi _),
        hrest]
      cases terminated with
      | false => rfl
      | true => rfl

theorem addPair_frame (cmd : CerberusCommand) (pair : ByteString) :
    (cmd.addPair pair).namespaceName = cmd.namespaceName ∧
      (cmd.addPair pair).command = cmd.command := by
  unfold CerberusCommand.addPair
  dsimp only
  split
  · exact ⟨rfl, rfl⟩
  · split
    · exact ⟨rfl, rfl⟩
    · exact ⟨rfl, rfl⟩

theorem foldl_addPair_frame (l : List ByteString) (cmd : CerberusCommand) :
    (l.foldl CerberusCommand.addPair cmd).namespaceName = cmd.namespaceName ∧
      (l.foldl CerberusCommand.addPair cmd).command = cmd.command := by
  induction l generalizing cmd with
  | nil => exact ⟨rfl, rfl⟩
  | cons pair l ih =>
    rw [List.foldl_cons, (ih _).1, (ih _).2]
    exact addPair_frame cmd pair

theorem flatMap_separator (hne : items ≠ []) :
    items.flatMap (fun i ↦ separator ++ i) = separator ++ separator.intercalate items := by
  induction items with
  | nil => exact absurd rfl hne
  | cons i rest ih =>
    cases rest with
    | nil => simp [List.intercalate]
    | cons j rest =>
      rw [List.flatMap_cons, ih (by simp)]
      simp [List.intercalate]

theorem CerberusCommand.WellFormed.item (h : cmd.WellFormed) : ∀ i ∈ cmd.items, Item i := by
  intro i hi
  rcases List.mem_append.mp hi with hi | hi
  · obtain ⟨e, he, rfl⟩ := List.mem_map.mp hi
    obtain ⟨hk, hv⟩ := h.params e.1 e.2 (ExtTreeMap.mem_toList_iff_getElem?_eq_some.mp he)
    exact .param hk hv
  · exact .word (h.positional i hi)

def CerberusCommand.bare (cmd : CerberusCommand) : CerberusCommand :=
  { protocol := cmd.protocol, namespaceName := cmd.namespaceName, command := cmd.command }

def CerberusCommand.reread (cmd : CerberusCommand) (terminated : Bool) : CerberusCommand :=
  (if terminated then cmd.items.dropLast else cmd.items).foldl CerberusCommand.addPair cmd.bare

theorem parseBody_render (h : cmd.WellFormed) (terminated : Bool) :
    parseBody cmd.protocol (cmd.namespaceName ++ colon :: (cmd.command ++
      (cmd.items.flatMap (fun i ↦ separator ++ i) ++
        if terminated then [semicolon] else []))) = .ok (cmd.reread terminated) := by
  have hcommand : Item cmd.command := .word h.command
  rw [parseBody, cut_append h.namespaceName.no_colon]
  dsimp only
  rw [h.namespaceName.trimView_eq]
  by_cases hne : cmd.items = []
  · have hnone := hcommand.cutWord_none (if terminated then [semicolon] else [])
      (by cases terminated <;> decide)
    rw [hne, List.flatMap_nil, List.nil_append, hnone]
    cases terminated with
    | false =>
      have hsemi : cut semicolon cmd.command = none := cut_of_not_mem h.command.no_semicolon
      simp [hsemi, h.command.trimView_eq, CerberusCommand.reread, CerberusCommand.bare, hne]
    | true =>
      have hsemi := cut_append h.command.no_semicolon []
      simp [hsemi, h.command.trimView_eq, CerberusCommand.reread, CerberusCommand.bare, hne]
  · rw [flatMap_separator hne, List.append_assoc, ← List.append_assoc cmd.command,
      hcommand.cutWord_separator, List.append_assoc, cut_skip h.command.no_semicolon]
    dsimp only
    rw [if_neg (by cases cut semicolon (separator ++ _) <;> simp), h.command.trimView_eq,
      parsePairs_items h.item hne terminated]
    have hframe := foldl_addPair_frame
      (if terminated then cmd.items.dropLast else cmd.items) cmd.bare
    rw [if_neg]
    · rfl
    · change ¬((List.foldl _ cmd.bare _).namespaceName = [] ∨ (List.foldl _ cmd.bare _).command = [])
      rw [hframe.1, hframe.2, not_or]
      exact ⟨h.namespaceName.ne_nil, h.command.ne_nil⟩

theorem protocol_prefix (h : cmd.WellFormed) (rest : ByteString) :
    isProtocolPrefix (cmd.protocol ++ lit "://" ++ rest) = true ∧
      parseProtocol (cmd.protocol ++ lit "://" ++ rest) = parseBody cmd.protocol rest := by
  have hcerberus : lit "cerberus://" = [99, 101, 114, 98, 101, 114, 117, 115, 58, 47, 47] := by decide
  have hcbr : lit "cbr://" = [99, 98, 114, 58, 47, 47] := by decide
  rcases h.protocol with hp | hp
  · have htext : cmd.protocol ++ lit "://" = lit "cerberus://" := by rw [hp]; decide
    rw [htext, isProtocolPrefix, parseProtocol, hp]
    have hbegins : lit "cerberus://" <+: lit "cerberus://" ++ rest := List.prefix_append _ _
    refine ⟨decide_eq_true (.inl hbegins), ?_⟩
    rw [if_pos hbegins, hcerberus]
    rfl
  · have htext : cmd.protocol ++ lit "://" = lit "cbr://" := by rw [hp]; decide
    rw [htext, isProtocolPrefix, parseProtocol, hp]
    have hbegins : lit "cbr://" <+: lit "cbr://" ++ rest := List.prefix_append _ _
    have hother : ¬lit "cerberus://" <+: lit "cbr://" ++ rest := by
      rw [hcerberus, hcbr]
      simp
    refine ⟨decide_eq_true (.inr hbegins), ?_⟩
    rw [if_neg hother, if_pos hbegins, hcbr]
    rfl

theorem getLast?_flatMap_separator {i : ByteString} (hi : i ≠ []) (l : List ByteString) :
    ((l ++ [i]).flatMap (fun i ↦ separator ++ i)).getLast? = i.getLast? := by
  rw [List.flatMap_append, List.flatMap_singleton, List.getLast?_append_of_ne_nil _ (by simp [hi]),
    List.getLast?_append_of_ne_nil _ hi]

theorem last_render (h : cmd.WellFormed) (terminated : Bool) :
    ∀ b ∈ (cmd.command ++ (cmd.items.flatMap (fun i ↦ separator ++ i) ++
      if terminated then [semicolon] else [])).getLast?, isSpace b = false := by
  cases terminated with
  | true => simp [semicolon, isSpace]
  | false =>
    rw [if_neg (by decide), List.append_nil]
    rcases List.eq_nil_or_concat cmd.items with hnil | ⟨l, i, hitems⟩
    · rw [hnil, List.flatMap_nil, List.append_nil]
      exact h.command.last
    · have hi : Item i := h.item i (by simp [hitems])
      have hlast := getLast?_flatMap_separator hi.ne_nil l
      rw [List.concat_eq_append] at hitems
      rw [hitems, List.getLast?_append_of_ne_nil _ (by simp [hi.ne_nil]), hlast]
      exact hi.last

theorem trimView_render (h : cmd.WellFormed) (terminated : Bool) :
    trimView (cmd.render terminated) = cmd.render terminated := by
  refine trimView_eq_self ?_ ?_
  · have hhead : (cmd.render terminated).head? = some 99 := by
      rw [CerberusCommand.render, List.append_assoc]
      rcases h.protocol with hp | hp
      · rw [hp]
        rfl
      · rw [hp]
        rfl
    rw [hhead]
    simp [isSpace]
  · have hlast := last_render h terminated
    rw [CerberusCommand.render, List.getLast?_append_of_ne_nil _ (by simp),
      List.getLast?_append_of_ne_nil _ (by simp), List.getLast?_cons,
      List.getLast?_eq_getLast_of_ne_nil (by simp [h.command.ne_nil])]
    rw [List.getLast?_eq_getLast_of_ne_nil (by simp [h.command.ne_nil])] at hlast
    simpa using hlast

theorem expand_shortcuts {text : ByteString} (h : isProtocolPrefix text = true) :
    expand shortcuts text = [] := by
  have hkeys : ∀ e ∈ shortcuts, isProtocolPrefix e.1 = false := by decide
  have hnone : shortcuts.find? (fun e ↦ e.1 = text) = none := by
    refine List.find?_eq_none.mpr (fun e he heq ↦ ?_)
    rw [decide_eq_true_eq] at heq
    have hkey := hkeys e he
    rw [heq, h] at hkey
    cases hkey
  rw [expand, hnone]
  rfl

theorem parse_render (h : cmd.WellFormed) (terminated : Bool) :
    parse shortcuts (cmd.render terminated) = .ok (cmd.reread terminated) := by
  obtain ⟨hbegins, hparse⟩ := protocol_prefix h (cmd.namespaceName ++ colon :: (cmd.command ++
    (cmd.items.flatMap (fun i ↦ separator ++ i) ++ if terminated then [semicolon] else [])))
  have hne : cmd.render terminated ≠ [] := by simp [CerberusCommand.render]
  change isProtocolPrefix (cmd.render terminated) = true at hbegins
  change parseProtocol (cmd.render terminated) = _ at hparse
  unfold parse
  dsimp only
  rw [trimView_render h, if_neg hne, expand_shortcuts hbegins, if_pos rfl, if_pos hbegins, hparse,
    parseBody_render h]

theorem reread_false (h : cmd.WellFormed) : cmd.reread false = cmd := by
  have hparams : ∀ e ∈ cmd.params.toList, Plain e.1 ∧ Plain e.2 := fun e he ↦
    h.params e.1 e.2 (ExtTreeMap.mem_toList_iff_getElem?_eq_some.mp he)
  rw [CerberusCommand.reread, if_neg (by decide), CerberusCommand.items, List.foldl_append,
    foldl_addPair_params hparams, foldl_addPair_words h.positional]
  simp [CerberusCommand.bare, FiniteMap.insertMany_toList]

theorem reread_true_ne (h : cmd.WellFormed) (hne : cmd.items ≠ []) : cmd.reread true ≠ cmd := by
  have hparams : ∀ e ∈ cmd.params.toList, Plain e.1 ∧ Plain e.2 := fun e he ↦
    h.params e.1 e.2 (ExtTreeMap.mem_toList_iff_getElem?_eq_some.mp he)
  rw [CerberusCommand.reread, if_pos rfl, CerberusCommand.items]
  by_cases hpositional : cmd.positional = []
  · have hlist : cmd.params.toList ≠ [] := by
      intro hnil
      simp [CerberusCommand.items, hpositional, hnil] at hne
    obtain ⟨l, e, hl⟩ := List.eq_nil_or_concat cmd.params.toList |>.resolve_left hlist
    rw [List.concat_eq_append] at hl
    rw [hpositional, List.append_nil, hl, List.map_append, List.map_singleton,
      List.dropLast_concat, foldl_addPair_params (fun e he ↦ hparams e (by simp [hl, he]))]
    intro heq
    have hpresent : cmd.params[e.1]? = some e.2 :=
      ExtTreeMap.mem_toList_iff_getElem?_eq_some.mp (by simp [hl])
    have hdistinct := cmd.params.distinct_keys_toList
    rw [hl, List.pairwise_append] at hdistinct
    have habsent : (l.map Prod.fst).contains e.1 = false := by
      rw [List.contains_eq_mem, decide_eq_false_iff_not]
      intro hmem
      obtain ⟨e', he', hkey⟩ := List.mem_map.mp hmem
      exact hdistinct.2.2 e' he' e (by simp) (by rw [hkey]; exact ReflCmp.compare_self)
    have hget := ExtTreeMap.getElem?_insertMany_list_of_contains_eq_false
      (t := (∅ : Dict ByteString)) habsent
    have hparamsEq := congrArg CerberusCommand.params heq
    change (∅ : Dict ByteString).insertMany l = cmd.params at hparamsEq
    rw [hparamsEq, hpresent] at hget
    simp at hget
  · rw [List.dropLast_append_of_ne_nil hpositional, List.foldl_append,
      foldl_addPair_params hparams, foldl_addPair_words (fun w hw ↦
        h.positional w (List.dropLast_subset _ hw))]
    intro heq
    have hlen := congrArg (fun c : CerberusCommand ↦ c.positional.length) heq
    have hpos := List.length_pos_iff.mpr hpositional
    simp [CerberusCommand.bare] at hlen
    omega

/-- A command is read back from its text exactly if the text has no terminator, or there is no pair
before it. -/
theorem round_trip_unless_terminated (h : cmd.WellFormed) (terminated : Bool) :
    parse shortcuts (cmd.render terminated) = .ok cmd ↔
      (terminated = true → cmd.params = ∅ ∧ cmd.positional = []) := by
  rw [parse_render h, Except.ok.injEq]
  cases terminated with
  | false => simp [reread_false h]
  | true =>
    have hitems : cmd.items = [] ↔ cmd.params = ∅ ∧ cmd.positional = [] := by
      simp [CerberusCommand.items]
    rw [← hitems]
    constructor
    · intro heq _
      by_contra hne
      exact reread_true_ne h hne heq
    · intro hnil
      have hfalse := reread_false h
      rw [CerberusCommand.reread, hnil rfl] at hfalse ⊢
      exact hfalse

end

instance (w : ByteString) : Decidable (Plain w) :=
  decidable_of_iff (w ≠ [] ∧ w.head?.all (fun b ↦ !isSpace b) ∧
      w.getLast?.all (fun b ↦ !isSpace b) ∧ colon ∉ w ∧ semicolon ∉ w) (by
    simp only [Option.all_eq_true, Bool.not_eq_true']
    exact ⟨fun h ↦ ⟨h.1, h.2.1, h.2.2.1, h.2.2.2.1, h.2.2.2.2⟩,
      fun h ↦ ⟨h.ne_nil, h.first, h.last, h.no_colon, h.no_semicolon⟩⟩)

def compileModel : CerberusCommand where
  protocol := lit "cerberus"
  namespaceName := lit "graph"
  command := lit "compile"
  params := (∅ : Dict ByteString).insert (lit "path") (lit "m.gguf")

theorem compileModel_wellFormed : compileModel.WellFormed where
  protocol := .inl rfl
  namespaceName := by decide
  command := by decide
  params k v h := by
    rw [compileModel, FiniteMap.get_insert] at h
    split at h
    · rename_i hk
      rw [← hk, ← Option.some.inj h]
      decide
    · simp at h
  positional := by simp [compileModel]

theorem round_trip_unless_terminated_compile :
    compileModel.render false = lit "cerberus://graph:compile::path:m.gguf" ∧
      parse shortcuts (compileModel.render false) = .ok compileModel :=
  ⟨by decide, (round_trip_unless_terminated compileModel_wellFormed false).mpr (by simp)⟩

/-- The parameter before the terminator is lost. -/
theorem terminator_drops_pair : compileModel.WellFormed ∧
    compileModel.render true = lit "cerberus://graph:compile::path:m.gguf;" ∧
    parse shortcuts (compileModel.render true) = .ok compileModel.bare ∧
    compileModel.bare ≠ compileModel := by
  have hlost : compileModel.reread true = compileModel.bare := by
    have hnil : compileModel.items.dropLast = [] := by decide
    rw [CerberusCommand.reread, if_pos rfl, hnil]
    rfl
  refine ⟨compileModel_wellFormed, by decide, ?_, fun heq ↦ ?_⟩
  · rw [parse_render compileModel_wellFormed, hlost]
  · have hparams := congrArg (fun c : CerberusCommand ↦ c.params[lit "path"]?) heq
    simp [CerberusCommand.bare, compileModel] at hparams

end Cerberus.Cli
