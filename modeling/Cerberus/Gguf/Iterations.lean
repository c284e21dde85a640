import Cerberus.Gguf.Progress

namespace Cerberus.Gguf

open Foundation Foundation.Bytes Foundation.LittleEndian InputStream

instance : DecidablePred Event.IsBegins
  | .begins _ => isTrue trivial
  | .moved _ _ => isFalse id
  | .ends _ _ _ => isFalse id

def iterations (log : Log) : Nat := log.countP (fun e ↦ e.IsBegins)

structure Reads (data : ByteString) (s : InputStream) : Prop where
  kind : s.kind = .memory
  bytes : s.bytes = data
  inside : s.pos ≤ data.length

/-- Each iteration has a byte of its own, but for one with which the run is over. -/
def Paid (data : ByteString) (log : Log) (s : InputStream) (final : InputStream → Prop) :
    Option InputStream → Prop
  | none => iterations log + s.pos ≤ data.length + 1
  | some s' => Reads data s' ∧ iterations log + s.pos ≤ s'.pos + 1 ∧
      (¬final s' → iterations log + s.pos ≤ s'.pos)

variable {log log₁ log₂ : Log} {loop : Loop} {s s' : InputStream} {data : ByteString}
  {type : GgufMetadataType} {n d w remaining : Nat} {ok : Bool} {host : Host}
  {final final' : InputStream → Prop} {exit : Option InputStream}

theorem iterations_append : iterations (log₁ ++ log₂) = iterations log₁ + iterations log₂ :=
  List.countP_append

theorem iterations_begins : iterations (.begins loop :: log) = iterations log + 1 := by
  rw [iterations, List.countP_cons]
  rfl

theorem iterations_ends : iterations (.ends loop s s' :: log) = iterations log := by
  rw [iterations, List.countP_cons]
  rfl

theorem Moves.iterations (h : Moves log) : iterations log = 0 := by
  rw [Gguf.iterations, List.countP_eq_zero]
  intro e he
  simpa using h.not_begins e he

theorem Moves.iterations_append (h : Moves log₁) :
    Gguf.iterations (log₁ ++ log₂) = Gguf.iterations log₂ := by
  rw [Gguf.iterations_append, h.iterations, Nat.zero_add]

theorem iterations_iterationLog {exit : Option (Bool × InputStream)} :
    iterations (iterationLog loop log s exit) = iterations log + 1 := by
  rw [iterationLog, iterations_append, iterations_begins]
  cases exit with
  | none => rfl
  | some r => rfl

theorem Paid.append {s₁ : InputStream} (h : Paid data log₁ s final (some s₁)) (hon : ¬final s₁)
    (h' : Paid data log₂ s₁ final' exit) : Paid data (log₁ ++ log₂) s final' exit := by
  obtain ⟨-, -, hpaid⟩ := h
  have hfirst := hpaid hon
  cases exit with
  | none =>
    have hrest : iterations log₂ + s₁.pos ≤ data.length + 1 := h'
    show iterations (log₁ ++ log₂) + s.pos ≤ data.length + 1
    rw [iterations_append]
    omega
  | some s' =>
    obtain ⟨hreads, hle, hrest⟩ := h'
    refine ⟨hreads, ?_, fun hno ↦ ?_⟩
    · rw [iterations_append]
      omega
    · have := hrest hno
      rw [iterations_append]
      omega

theorem Paid.weaken (h : Paid data log s final exit) (hf : ∀ s', final s' → final' s') :
    Paid data log s final' exit := by
  cases exit with
  | none => exact h
  | some s' => exact ⟨h.1, h.2.1, fun hno ↦ h.2.2 (fun hfinal ↦ hno (hf s' hfinal))⟩

theorem Paid.later {s₁ : InputStream} (h : Paid data log s₁ final exit) (hpos : s.pos ≤ s₁.pos) :
    Paid data log s final exit := by
  cases exit with
  | none =>
    have : iterations log + s₁.pos ≤ data.length + 1 := h
    show iterations log + s.pos ≤ data.length + 1
    omega
  | some s' =>
    refine ⟨h.1, by have := h.2.1; omega, fun hno ↦ ?_⟩
    have := h.2.2 hno
    omega

theorem Paid.after_moves {s₁ : InputStream} (h : Paid data log₂ s₁ final exit) (hm : Moves log₁)
    (hpos : s.pos ≤ s₁.pos) : Paid data (log₁ ++ log₂) s final exit := by
  have hcount : iterations (log₁ ++ log₂) = iterations log₂ := by
    rw [iterations_append, hm.iterations, Nat.zero_add]
  have hlater := h.later hpos
  cases exit with
  | none =>
    show iterations (log₁ ++ log₂) + s.pos ≤ data.length + 1
    rw [hcount]
    exact hlater
  | some s' =>
    unfold Paid at hlater ⊢
    rwa [hcount]

theorem paid_nil (hreads : Reads data s) : Paid data [] s final (some s) := by
  have h0 : iterations [] = 0 := rfl
  refine ⟨hreads, ?_, fun _ ↦ ?_⟩
  · rw [h0, Nat.zero_add]
    exact Nat.le_succ _
  · rw [h0, Nat.zero_add]

theorem Reads.read (h : Reads data s) (n : Nat) : Reads data (s.read n).2 := by
  obtain ⟨hkind, rfl, hinside⟩ := h
  unfold InputStream.read
  split
  · refine ⟨hkind, rfl, ?_⟩
    simp only [List.length_take, List.length_drop]
    omega
  · exact ⟨hkind, rfl, hinside⟩

theorem Reads.readNat (h : Reads data s) (n : Nat) : Reads data (s.readNat n).2 := h.read n

theorem Reads.seekCur (h : Reads data s) (off : Int) : Reads data (s.seekCur off) := by
  obtain ⟨hkind, rfl, hinside⟩ := h
  unfold InputStream.seekCur
  split
  · split
    · next hadmits =>
      rw [hkind] at hadmits
      have hle : (s.pos : Int) + off ≤ s.bytes.length := hadmits.2
      refine ⟨hkind, rfl, ?_⟩
      dsimp only
      omega
    · exact ⟨hkind, rfl, hinside⟩
  · exact ⟨hkind, rfl, hinside⟩

theorem Paid.around {s₁ : InputStream} {exit : Option (Bool × InputStream)}
    (h : Paid data log₂ s₁ final (exit.map Prod.snd)) (hm : Moves log₁) (hpos : s.pos < s₁.pos) :
    Paid data (iterationLog loop (log₁ ++ log₂) s exit) s final (exit.map Prod.snd) := by
  have hcount : iterations (iterationLog loop (log₁ ++ log₂) s exit) = iterations log₂ + 1 := by
    rw [iterations_iterationLog, iterations_append, hm.iterations, Nat.zero_add]
  cases exit with
  | none =>
    have hinside : iterations log₂ + s₁.pos ≤ data.length + 1 := h
    show iterations (iterationLog loop (log₁ ++ log₂) s none) + s.pos ≤ data.length + 1
    omega
  | some r =>
    obtain ⟨hreads, hle, hrest⟩ := h
    refine ⟨hreads, by omega, fun hno ↦ ?_⟩
    have := hrest hno
    omega

theorem paid_single {exit : Bool × InputStream} (hlog : iterations log = 0)
    (hreads : Reads data exit.2) (hleft : Left s → s.pos < exit.2.pos)
    (hpos : ¬Left s → exit.2.pos = s.pos) (hfinal : ¬Left s → final exit.2) :
    Paid data (iterationLog loop log s (some exit)) s final (some exit.2) := by
  have hcount : iterations (iterationLog loop log s (some exit)) = 1 := by
    rw [iterations_iterationLog, hlog]
  by_cases h : Left s
  · have := hleft h
    exact ⟨hreads, by omega, fun _ ↦ by omega⟩
  · have := hpos h
    exact ⟨hreads, by omega, fun hno ↦ (hno (hfinal h)).elim⟩

section items

variable {skipItem : InputStream → Option (Bool × InputStream)} {itemLog : InputStream → Log}

theorem items_paid (hok : ∀ s ok s', skipItem s = some (ok, s') → ok = s'.good)
    (hitem : ∀ s, Reads data s → (∀ e ∈ iterationLog loop (itemLog s) s (skipItem s), e.Advances) →
      Paid data (iterationLog loop (itemLog s) s (skipItem s)) s
        (fun s' ↦ s'.good = false ∧ remaining = 0) ((skipItem s).map Prod.snd))
    (hreads : Reads data s) (h : ∀ e ∈ itemsLog loop skipItem itemLog n s, e.Advances) :
    Paid data (itemsLog loop skipItem itemLog n s) s (fun s' ↦ s'.good = false ∧ remaining = 0)
      ((skipItems skipItem n s).map Prod.snd) := by
  induction n generalizing s with
  | zero => exact paid_nil hreads
  | succ n ih =>
    have hfirst := hitem s hreads
    rw [itemsLog] at h ⊢
    rw [skipItems]
    cases hskip : skipItem s with
    | none =>
      rw [hskip] at hfirst h
      exact hfirst h
    | some r =>
      obtain ⟨ok, s₁⟩ := r
      rw [hskip] at hfirst h
      rw [Option.bind_eq_bind, Option.bind_some]
      dsimp only at h ⊢
      cases ok with
      | false => exact hfirst h
      | true =>
        rw [if_pos rfl] at h ⊢
        rw [if_pos rfl]
        have hgood : s₁.good = true := (hok s true s₁ hskip).symm
        have hpaid := hfirst (fun e he ↦ h e (by
          rcases List.mem_append.mp he with he | he
          · exact List.mem_append_left _ he
          · obtain rfl := List.mem_singleton.mp he
            simp))
        have hrest := ih hpaid.1 (fun e he ↦ h e (by simp [he]))
        have hall := hpaid.append (by simp [hgood]) hrest
        simpa [iterationLog] using hall

theorem items_deep (loop : Loop) (hitem : ∀ s, skipItem s = none → d ≤ iterations (itemLog s))
    (h : skipItems skipItem n s = none) :
    d + 1 ≤ iterations (itemsLog loop skipItem itemLog n s) := by
  induction n generalizing s with
  | zero => cases h
  | succ n ih =>
    rw [skipItems] at h
    rw [itemsLog, iterations_append, iterations_begins]
    cases hskip : skipItem s with
    | none =>
      have := hitem s hskip
      omega
    | some r =>
      obtain ⟨ok, s₁⟩ := r
      rw [hskip, Option.bind_eq_bind, Option.bind_some] at h
      dsimp only at h ⊢
      rw [iterations_ends]
      split at h
      · next hok =>
        have := ih h
        rw [if_pos hok]
        omega
      · cases h

end items

theorem skip_paid (remaining d : Nat) (type : GgufMetadataType) (hreads : Reads data s)
    (h : ∀ e ∈ iterationLog (.element type remaining) (skipLog remaining d type s) s
      (skipMetadataValue d type s), e.Advances) :
    Paid data (iterationLog (.element type remaining) (skipLog remaining d type s) s
      (skipMetadataValue d type s)) s (fun s' ↦ s'.good = false ∧ remaining = 0)
        ((skipMetadataValue d type s).map Prod.snd) := by
  induction d generalizing type s with
  | zero =>
    have hcount : iterations (iterationLog (.element type remaining) [] s none) = 1 := rfl
    show iterations (iterationLog (.element type remaining) [] s none) + s.pos ≤ data.length + 1
    have := hreads.inside
    omega
  | succ d ih =>
    cases hw : type.width with
    | some w =>
      rw [moves_width hw, skip_scalar hw] at h ⊢
      obtain ⟨-, hleft, -⟩ : Loop.Advances s (.element type remaining) :=
        h _ (ends_mem_iterationLog _ _ s _)
      apply paid_single (moves_readLog w s).iterations (hreads.read w)
      · exact fun hl ↦ read_left hl (width_pos hw)
      · exact fun hl ↦ (read_not_left hl (width_pos hw)).1
      · exact fun hl ↦ ⟨(read_not_left hl (width_pos hw)).2, hleft.resolve_left hl⟩
    | none =>
      cases type with
      | string =>
        rw [skip_string] at h ⊢
        obtain ⟨-, hleft, hback⟩ : Loop.Advances s (.element .string remaining) :=
          h _ (ends_mem_iterationLog _ _ s _)
        apply paid_single (moves_skip_string (hback rfl)).iterations
        · unfold afterString
          split
          · exact (hreads.readNat 8).seekCur _
          · exact hreads.readNat 8
        · exact afterString_left (hback rfl)
        · exact fun hl ↦ (afterString_not_left hl).1
        · exact fun hl ↦ ⟨(afterString_not_left hl).2, hleft.resolve_left hl⟩
      | unknown raw =>
        obtain ⟨hknown, hleft, -⟩ : Loop.Advances s (.element (.unknown raw) remaining) :=
          h _ (ends_mem_iterationLog _ _ s _)
        have hbad : s.good = false := by
          by_contra hgood
          exact hknown (by simpa using hgood) raw rfl
        have hnot : ¬Left s := fun hl ↦ by rw [hl.1] at hbad; cases hbad
        apply paid_single rfl hreads
        · exact fun hl ↦ absurd hl hnot
        · exact fun _ ↦ rfl
        · exact fun hl ↦ ⟨hbad, hleft.resolve_left hl⟩
      | array =>
        have hinside : ∀ e ∈ itemsLog (.element (.ofRaw (s.readNat 4).1) remaining)
            (skipMetadataValue d (.ofRaw (s.readNat 4).1)) (skipLog remaining d (.ofRaw (s.readNat 4).1))
            ((s.readNat 4).2.readNat 8).1 ((s.readNat 4).2.readNat 8).2, e.Advances :=
          fun e he ↦ h e (mem_iterationLog (List.mem_append_right _ he))
        have hitems := items_paid (fun _ _ _ h ↦ skip_ok h) (fun _ hs hlog ↦ ih _ hs hlog)
          ((hreads.readNat 4).readNat 8) hinside
        have hmoves := (moves_readLog 4 s).append (moves_readLog 8 (s.readNat 4).2)
        by_cases hl : Left s
        · apply hitems.around hmoves
          exact (read_left hl (n := 4) (by decide)).trans_le (read_pos_le (s.readNat 4).2 8)
        · obtain ⟨hzero, hsame, hpos, hbad⟩ := readNat_twice_not_left hl
          have hskip : skipMetadataValue (d + 1) .array s = some (false, (s.readNat 4).2) := by
            rw [skipMetadataValue, hzero, hsame, skipItems, hbad]
          have hnone : iterations (skipLog remaining (d + 1) .array s) = 0 := by
            rw [skipLog, iterations_append, hmoves.iterations, hzero, itemsLog]
            rfl
          rw [hskip] at h ⊢
          obtain ⟨-, hleft, -⟩ : Loop.Advances s (.element .array remaining) :=
            h _ (ends_mem_iterationLog _ _ s _)
          apply paid_single hnone (hreads.readNat 4)
          · exact fun hl' ↦ absurd hl' hl
          · exact fun _ ↦ hpos
          · exact fun _ ↦ ⟨hbad, hleft.resolve_left hl⟩
      | _ => cases hw

theorem skip_deep (remaining : Nat) (h : skipMetadataValue d type s = none) :
    d ≤ iterations (skipLog remaining d type s) := by
  induction d generalizing type s with
  | zero => exact Nat.zero_le _
  | succ d ih =>
    cases type with
    | array =>
      have hitems := items_deep (.element (.ofRaw (s.readNat 4).1) remaining)
        (fun _ hs ↦ ih hs) h
      rw [skipLog, iterations_append]
      exact hitems.trans (Nat.le_add_left _ _)
    | _ => cases h

theorem all_paid (hreads : Reads data s) (h : ∀ e ∈ allLog d type n s, e.Advances) :
    Paid data (allLog d type n s) s (fun s' ↦ s'.good = false)
      (skipAll (skipMetadataValue d type) n s) := by
  induction n generalizing s with
  | zero => exact paid_nil hreads
  | succ n ih =>
    have hfirst := skip_paid n d type hreads
    rw [allLog] at h ⊢
    rw [skipAll]
    cases hskip : skipMetadataValue d type s with
    | none =>
      rw [hskip] at hfirst h
      exact hfirst h
    | some r =>
      obtain ⟨ok, s₁⟩ := r
      rw [hskip] at hfirst h
      rw [Option.bind_eq_bind, Option.bind_some]
      dsimp only at h ⊢
      have hpaid := hfirst (fun e he ↦ h e (by
        rcases List.mem_append.mp he with he | he
        · exact List.mem_append_left _ he
        · obtain rfl := List.mem_singleton.mp he
          simp))
      have hrest := ih hpaid.1 (fun e he ↦ h e (by simp [he]))
      cases n with
      | zero => exact hpaid.weaken (fun _ hfinal ↦ hfinal.1)
      | succ n =>
        have hall := hpaid.append (by simp) hrest
        simpa [iterationLog] using hall

theorem all_deep (h : skipAll (skipMetadataValue d type) n s = none) :
    d + 1 ≤ iterations (allLog d type n s) := by
  induction n generalizing s with
  | zero => cases h
  | succ n ih =>
    rw [skipAll] at h
    rw [allLog, iterations_append, iterations_begins]
    cases hskip : skipMetadataValue d type s with
    | none =>
      have := skip_deep n hskip
      omega
    | some r =>
      rw [hskip, Option.bind_eq_bind, Option.bind_some] at h
      have := ih h
      rw [iterations_ends]
      omega

/-- What the loops over keys and tensors have begun, and how far they have come if all went
well. -/
structure Spends (data : ByteString) (count : Nat) (s : InputStream)
    (exit : Option (Outcome × GgufParser × InputStream)) : Prop where
  total : count + s.pos ≤ data.length + 1
  passed : ∀ r, exit = some r → r.1 = .returned true →
    Reads data r.2.2 ∧ count + s.pos ≤ r.2.2.pos

section keys

variable {p : GgufParser}

open GgufParser

theorem Reads.readString (h : Reads data s) {e : ByteString × InputStream}
    (hread : readString host s = some e) : Reads data e.2 := by
  rw [Gguf.readString] at hread
  dsimp only at hread
  split at hread
  · cases hread
  · cases hread
    exact (h.readNat 8).read _

theorem Reads.readValue (h : Reads data s) (htype : type ≠ .array) {v : StoredValue}
    (hread : readValue host d type s = some (some (v, s'))) : Reads data s' := by
  cases type with
  | string =>
    obtain ⟨e, he, heq⟩ := Option.map_eq_some_iff.mp (Option.some.inj hread)
    cases heq
    exact h.readString he
  | array => exact absurd rfl htype
  | unknown raw =>
    cases hread
    exact h
  | _ =>
    cases hread
    exact h.read _

theorem value_paid (hreads : Reads data s) (h : ∀ e ∈ valueLog host d type s, e.Advances) :
    iterations (valueLog host d type s) + s.pos ≤ data.length + 1 ∧
      ∀ v s', readValue host d type s = some (some (v, s')) → s'.good = true →
        Reads data s' ∧ iterations (valueLog host d type s) + s.pos ≤ s'.pos := by
  by_cases htype : type = .array
  · subst htype
    have hmoves := (moves_readLog 4 s).append (moves_readLog 8 (s.readNat 4).2)
    have hpos : s.pos ≤ ((s.readNat 4).2.readNat 8).2.pos :=
      (read_pos_le s 4).trans (read_pos_le (s.readNat 4).2 8)
    have hall := all_paid ((hreads.readNat 4).readNat 8)
      (fun e he ↦ h e (List.mem_append_right _ he))
    have hpaid : Paid data (valueLog host d .array s) s _ _ := hall.after_moves hmoves hpos
    rw [readValue]
    cases hexit : skipAll (skipMetadataValue d (.ofRaw (s.readNat 4).1))
        ((s.readNat 4).2.readNat 8).1 ((s.readNat 4).2.readNat 8).2 with
    | none =>
      rw [hexit] at hpaid
      exact ⟨hpaid, fun _ _ hv ↦ absurd hv (by simp)⟩
    | some s₁ =>
      rw [hexit] at hpaid
      obtain ⟨hreads', hle, hrest⟩ := hpaid
      have hinside := hreads'.inside
      refine ⟨by omega, ?_⟩
      rintro v s' ⟨⟩ hgood
      exact ⟨hreads', hrest (by simp [hgood])⟩
  · have hmoves := moves_valueLog host htype d s
    have hinside := hreads.inside
    rw [hmoves.iterations]
    refine ⟨by omega, fun v s' hread hgood ↦ ⟨hreads.readValue htype hread, ?_⟩⟩
    have := value_pos hread hmoves.steady.forward
    omega

theorem kvLog_not_left (hleft : ¬Left s) (d : Nat) : iterations (kvLog host d s) = 0 := by
  have hbad : (s.readNat 8).2.good = false := (read_not_left hleft (by decide)).2
  rw [kvLog, iterations_append, (moves_stringLog host s).iterations]
  cases hkey : Gguf.readString host s with
  | none => rfl
  | some e =>
    have hagain : e.2.readNat 4 = (0, e.2) := by
      apply readNat_bad
      by_contra hgood
      rw [good_of_readString hkey (by simpa using hgood)] at hbad
      cases hbad
    have htype : GgufMetadataType.ofRaw 0 ≠ .array := by decide
    dsimp only
    rw [iterations_append, (moves_readLog 4 e.2).iterations, hagain,
      (moves_valueLog host htype d e.2).iterations]

theorem kv_spends (p : GgufParser) (hreads : Reads data s)
    (h : ∀ e ∈ kvLog host d s, e.Advances) :
    Spends data (iterations (kvLog host d s) + 1) s (p.parseMetadataKv host d s) := by
  have hinside := hreads.inside
  by_cases hleft : Left s
  · cases hkey : Gguf.readString host s with
    | none =>
      have hnone : iterations (kvLog host d s) = 0 := by
        rw [kvLog, hkey, List.append_nil, (moves_stringLog host s).iterations]
      refine ⟨by omega, fun r hr hok ↦ ?_⟩
      obtain ⟨key, s₁, v, hkey', -⟩ := kv_cases hr hok
      rw [hkey] at hkey'
      cases hkey'
    | some e =>
      obtain ⟨key, s₁⟩ := e
      have hcount : iterations (kvLog host d s) =
          iterations (valueLog host d (.ofRaw (s₁.readNat 4).1) (s₁.readNat 4).2) := by
        rw [kvLog, hkey, iterations_append, (moves_stringLog host s).iterations, Nat.zero_add]
        exact (iterations_append).trans (by rw [(moves_readLog 4 s₁).iterations, Nat.zero_add])
      have hpos : s.pos < (s₁.readNat 4).2.pos :=
        ((string_pos hkey).2 hleft).trans_le (read_pos_le s₁ 4)
      rw [kvLog, hkey] at h
      have hreads₁ : Reads data s₁ := hreads.readString hkey
      obtain ⟨htotal, hpassed⟩ := value_paid (hreads₁.readNat 4) (fun e he ↦
        h e (List.mem_append_right _ (List.mem_append_right _ he)))
      rw [hcount]
      refine ⟨by omega, fun r hr hok ↦ ?_⟩
      obtain ⟨key', s₂, v, hkey', -, hread, hgood⟩ := kv_cases hr hok
      rw [hkey] at hkey'
      cases hkey'
      obtain ⟨hreads', hle⟩ := hpassed v r.2.2 hread hgood
      exact ⟨hreads', by omega⟩
  · refine ⟨?_, fun r hr hok ↦ ?_⟩
    · rw [kvLog_not_left hleft]
      omega
    · obtain ⟨key, s₁, v, -, hl, -⟩ := kv_cases hr hok
      exact absurd hl hleft

theorem metadata_spends (p : GgufParser) (hreads : Reads data s)
    (h : ∀ e ∈ metadataLog host d n p s, e.Advances) :
    Spends data (iterations (metadataLog host d n p s)) s (p.parseMetadata host d n s) := by
  induction n generalizing p s with
  | zero =>
    refine ⟨?_, ?_⟩
    · have := hreads.inside
      show 0 + s.pos ≤ data.length + 1
      omega
    · rintro r ⟨⟩ -
      exact ⟨hreads, Nat.le_of_eq (Nat.zero_add _)⟩
  | succ n ih =>
    rw [metadataLog] at h ⊢
    have hkv := kv_spends p hreads (fun e he ↦ h e
      (List.mem_append_left _ (List.mem_cons_of_mem _ he)))
    rw [parseMetadata]
    cases hread : p.parseMetadataKv host d s with
    | none =>
      dsimp only
      rw [List.append_nil, iterations_begins]
      exact ⟨hkv.total, fun _ hr ↦ absurd hr (by simp)⟩
    | some kv =>
      rw [hread] at h hkv
      dsimp only at h ⊢
      rw [iterations_append, iterations_begins, iterations_ends, Option.bind_eq_bind,
        Option.bind_some]
      by_cases hok : kv.1 = .returned true
      · obtain ⟨hreads', hle⟩ := hkv.passed kv rfl hok
        rw [if_pos hok] at h ⊢
        rw [if_pos hok]
        have hrest := ih kv.2.1 hreads' (fun e he ↦ h e (by simp [he]))
        refine ⟨?_, fun r hr hrok ↦ ?_⟩
        · have := hrest.total
          omega
        · obtain ⟨hfinal, hlast⟩ := hrest.passed r hr hrok
          exact ⟨hfinal, by omega⟩
      · rw [if_neg hok, if_neg hok]
        refine ⟨hkv.total, ?_⟩
        rintro r ⟨⟩ hrok
        exact absurd hrok hok

theorem Reads.readShape (h : Reads data s) (n : Nat) : Reads data (readShape n s).2 := by
  induction n generalizing s with
  | zero => exact h
  | succ n ih => exact ih (h.readNat 8)

theorem shape_paid (hreads : Reads data s) (h : ∀ e ∈ shapeLog n s, e.Advances) :
    Paid data (shapeLog n s) s (fun s' ↦ s'.good = false) (some (readShape n s).2) := by
  induction n generalizing s with
  | zero => exact paid_nil hreads
  | succ n ih =>
    have hleft : Left s ∨ n = 0 := h (.ends (.dimension n) s (s.readNat 8).2) (by simp [shapeLog])
    have hown : Paid data (iterationLog (.dimension n) (readLog 8 s) s
        (some (true, (s.readNat 8).2))) s (fun s' ↦ s'.good = false ∧ n = 0)
          (some (s.readNat 8).2) := by
      apply paid_single (moves_readLog 8 s).iterations (hreads.readNat 8)
      · exact fun hl ↦ read_left hl (by decide)
      · exact fun hl ↦ (read_not_left hl (by decide)).1
      · exact fun hl ↦ ⟨(read_not_left hl (by decide)).2, hleft.resolve_left hl⟩
    rw [shapeLog] at h ⊢
    have hrest := ih (hreads.readNat 8) (fun e he ↦ h e (by simp [he]))
    cases n with
    | zero => exact hown.weaken (fun _ hfinal ↦ hfinal.1)
    | succ n =>
      have hall := hown.append (by simp) hrest
      have hlast : (readShape (n + 2) s).2 = (readShape (n + 1) (s.readNat 8).2).2 := rfl
      rw [hlast]
      simpa [iterationLog] using hall

theorem tensor_spends (p : GgufParser) (hreads : Reads data s)
    (h : ∀ e ∈ tensorLog host s, e.Advances) :
    Spends data (iterations (tensorLog host s) + 1) s (some (p.parseTensorInfo host s)) := by
  have hinside := hreads.inside
  cases hname : Gguf.readString host s with
  | none =>
    have hnone : iterations (tensorLog host s) = 0 := by
      rw [tensorLog, hname, List.append_nil, (moves_stringLog host s).iterations]
    refine ⟨by omega, ?_⟩
    rintro r ⟨⟩ hok
    rw [parseTensorInfo, hname] at hok
    cases hok
  | some e =>
    obtain ⟨name, s₁⟩ := e
    have hcount : iterations (tensorLog host s) =
        iterations (shapeLog (s₁.readNat 4).1 (s₁.readNat 4).2) := by
      rw [tensorLog, hname]
      dsimp only
      simp only [iterations_append, (moves_stringLog host s).iterations,
        (moves_readLog _ _).iterations, Nat.zero_add, Nat.add_zero]
    have hreads₁ : Reads data s₁ := hreads.readString hname
    rw [tensorLog, hname] at h
    have hshape := shape_paid (hreads₁.readNat 4) (fun e he ↦ h e (by
      simp only [List.mem_append]
      exact .inr (.inl (.inl (.inr he)))))
    obtain ⟨hreads₂, hle, hon⟩ := hshape
    have hinside₂ := hreads₂.inside
    rw [hcount]
    refine ⟨?_, ?_⟩
    · by_cases hleft : Left s
      · have hpos : s.pos < (s₁.readNat 4).2.pos :=
          ((string_pos hname).2 hleft).trans_le (read_pos_le s₁ 4)
        omega
      · have hbad : s₁.good = false := by
          by_contra hgood
          exact hleft (left_of_readString hname (by simpa using hgood))
        rw [readNat_bad hbad]
        show 0 + 1 + s.pos ≤ data.length + 1
        omega
    · rintro r ⟨⟩ hok
      have hpos : s.pos < (s₁.readNat 4).2.pos :=
        ((string_pos hname).2 (tensor_left hok)).trans_le (read_pos_le s₁ 4)
      rw [parseTensorInfo, hname] at hok ⊢
      have hgood := good_of_readNat (good_of_readNat (Outcome.returned.inj hok))
      have hlast := (read_pos_le (readShape (s₁.readNat 4).1 (s₁.readNat 4).2).2 4).trans
        (read_pos_le ((readShape (s₁.readNat 4).1 (s₁.readNat 4).2).2.readNat 4).2 8)
      refine ⟨(hreads₂.readNat 4).readNat 8, ?_⟩
      calc iterations (shapeLog (s₁.readNat 4).1 (s₁.readNat 4).2) + 1 + s.pos
          ≤ iterations (shapeLog (s₁.readNat 4).1 (s₁.readNat 4).2) + (s₁.readNat 4).2.pos := by
            omega
        _ ≤ (readShape (s₁.readNat 4).1 (s₁.readNat 4).2).2.pos := hon (by simp [hgood])
        _ ≤ _ := hlast

theorem tensors_spends (p : GgufParser) (hreads : Reads data s)
    (h : ∀ e ∈ tensorsLog host n p s, e.Advances) :
    Spends data (iterations (tensorsLog host n p s)) s (some (p.parseTensors host n s)) := by
  induction n generalizing p s with
  | zero =>
    refine ⟨?_, ?_⟩
    · have := hreads.inside
      show 0 + s.pos ≤ data.length + 1
      omega
    · rintro r ⟨⟩ -
      exact ⟨hreads, Nat.le_of_eq (Nat.zero_add _)⟩
  | succ n ih =>
    rw [tensorsLog] at h ⊢
    have hinfo := tensor_spends p hreads (fun e he ↦ h e
      (List.mem_append_left _ (List.mem_cons_of_mem _ he)))
    rw [parseTensors, iterations_append, iterations_begins, iterations_ends]
    by_cases hok : (p.parseTensorInfo host s).1 = .returned true
    · obtain ⟨hreads', hle⟩ := hinfo.passed _ rfl hok
      rw [if_pos hok] at h ⊢
      rw [if_pos hok]
      have hrest := ih (p.parseTensorInfo host s).2.1 hreads' (fun e he ↦ h e (by simp [he]))
      refine ⟨?_, fun r hr hrok ↦ ?_⟩
      · have := hrest.total
        omega
      · obtain ⟨hfinal, hlast⟩ := hrest.passed r hr hrok
        exact ⟨hfinal, by omega⟩
    · rw [if_neg hok, if_neg hok]
      exact hinfo

theorem loops_spend (m : Nat) (hreads : Reads data s)
    (h : ∀ e ∈ metadataLog host d m p s ++
      match p.parseMetadata host d m s with
      | none => []
      | some kvs => if kvs.1 = .returned true then tensorsLog host n kvs.2.1 kvs.2.2 else [],
      e.Advances) :
    iterations (metadataLog host d m p s ++
      match p.parseMetadata host d m s with
      | none => []
      | some kvs => if kvs.1 = .returned true then tensorsLog host n kvs.2.1 kvs.2.2 else []) +
      s.pos ≤ data.length + 1 := by
  have hmetadata := metadata_spends p hreads (fun e he ↦ h e (List.mem_append_left _ he))
  rw [iterations_append]
  cases hread : p.parseMetadata host d m s with
  | none => exact hmetadata.total
  | some kvs =>
    rw [hread] at hmetadata h
    dsimp only at h ⊢
    by_cases hok : kvs.1 = .returned true
    · obtain ⟨hreads', hle⟩ := hmetadata.passed kvs rfl hok
      rw [if_pos hok] at h ⊢
      have htensors := tensors_spends kvs.2.1 hreads' (fun e he ↦ h e (List.mem_append_right _ he))
      have := htensors.total
      omega
    · rw [if_neg hok]
      exact hmetadata.total

theorem stream_iterations (hreads : Reads data s) (hleft : Left s)
    (h : ∀ e ∈ streamLog host d s, e.Advances) :
    iterations (streamLog host d s) + s.pos ≤ data.length := by
  have hinside := hreads.inside
  have hstart := (moves_readLog 4 s).append (moves_readLog 4 (s.readNat 4).2)
  rw [streamLog] at h ⊢
  dsimp only at h ⊢
  split at h
  · next hvalid =>
    rw [if_pos hvalid, List.append_nil, hstart.iterations]
    omega
  · next hvalid =>
    rw [if_neg hvalid]
    rw [List.append_assoc (readLog 8 _ ++ readLog 8 _)] at h ⊢
    have hcounts (t : InputStream) := (moves_readLog 8 t).append (moves_readLog 8 (t.readNat 8).2)
    have hpos (t : InputStream) : t.pos ≤ (((t.readNat 4).2.readNat 8).2.readNat 8).2.pos :=
      (read_pos_le _ 4).trans ((read_pos_le _ 8).trans (read_pos_le _ 8))
    have hfirst : s.pos < (s.readNat 4).2.pos := read_left hleft (by decide)
    have hloops := loops_spend _ ((((hreads.readNat 4).readNat 4).readNat 8).readNat 8)
      (fun e he ↦ h e (List.mem_append_right _ (List.mem_append_right _ he)))
    rw [hstart.iterations_append, (hcounts _).iterations_append]
    exact Nat.le_of_lt_succ ((Nat.add_lt_add_left (hfirst.trans_le (hpos _)) _).trans_le hloops)

theorem memory_iterations (h : ∀ e ∈ memoryLog host d data, e.Advances) :
    iterations (memoryLog host d data) ≤ data.length := by
  rw [memoryLog] at h ⊢
  split
  · exact Nat.zero_le _
  · next hne =>
    split
    · exact Nat.zero_le _
    · next hsize =>
      rw [if_neg hne, if_neg hsize] at h
      have hreads : Reads data { kind := .memory, bytes := data } := ⟨rfl, rfl, Nat.zero_le _⟩
      exact stream_iterations hreads ⟨rfl, List.length_pos_of_ne_nil hne⟩ h

/-- Where the depth does not do, that many iterations are inside each other. -/
theorem kv_deep (h : p.parseMetadataKv host d s = none) : d + 1 ≤ iterations (kvLog host d s) := by
  rw [parseMetadataKv] at h
  rw [kvLog]
  cases hkey : Gguf.readString host s with
  | none =>
    rw [hkey] at h
    cases h
  | some e =>
    obtain ⟨key, s₁⟩ := e
    rw [hkey] at h
    dsimp only at h ⊢
    rw [Option.map_eq_none_iff] at h
    have hvalue : d + 1 ≤
        iterations (valueLog host d (.ofRaw (s₁.readNat 4).1) (s₁.readNat 4).2) := by
      generalize GgufMetadataType.ofRaw (s₁.readNat 4).1 = type at h ⊢
      cases type with
      | array =>
        rw [readValue, Option.map_eq_none_iff] at h
        rw [valueLog, iterations_append]
        exact (all_deep h).trans (Nat.le_add_left _ _)
      | _ => cases h
    rw [iterations_append, iterations_append]
    omega

theorem metadata_deep (h : p.parseMetadata host d n s = none) :
    d + 1 ≤ iterations (metadataLog host d n p s) := by
  induction n generalizing p s with
  | zero => cases h
  | succ n ih =>
    rw [parseMetadata] at h
    rw [metadataLog, iterations_append, iterations_begins]
    cases hread : p.parseMetadataKv host d s with
    | none =>
      have := kv_deep hread
      omega
    | some kv =>
      rw [hread, Option.bind_eq_bind, Option.bind_some] at h
      dsimp only at h ⊢
      rw [iterations_ends]
      split at h
      · next hok =>
        have := ih h
        rw [if_pos hok]
        omega
      · cases h

theorem memory_deep (h : parseFromMemory host d data = none) :
    d + 1 ≤ iterations (memoryLog host d data) := by
  rw [parseFromMemory] at h
  rw [memoryLog]
  split at h
  · cases h
  · next hne =>
    split at h
    · cases h
    · next hsize =>
      rw [if_neg hne, if_neg hsize, streamLog]
      rw [parseStream] at h
      dsimp only at h ⊢
      split at h
      · cases h
      · next hvalid =>
        rw [if_neg hvalid]
        rw [Option.map_eq_none_iff] at h
        have hdeep := metadata_deep h
        simp only [iterations_append]
        omega

end keys

/-- Reading makes progress: at any depth the run goes forward, an iteration that takes nothing is
the last of a parse that fails, the iterations are no more than the bytes, and the parse is over
at some depth. -/
structure Progresses (host : Host) (data : ByteString) : Prop where
  steady : ∀ d, Steady (memoryLog host d data)
  last : ∀ d, Stuck (memoryLog host d data) → Refuses (GgufParser.parseFromMemory host d data)
  bounded : ∀ d, iterations (memoryLog host d data) ≤ data.length
  returns : ∃ d r, GgufParser.parseFromMemory host d data = some r

theorem progresses_iff (host : Host) (data : ByteString) :
    Progresses host data ↔ ∀ d, ∀ e ∈ memoryLog host d data, e.Advances := by
  constructor
  · intro h d
    exact (memory_accounts d data).mpr ⟨h.steady d, h.last d⟩
  · intro h
    have hbounded : ∀ d, iterations (memoryLog host d data) ≤ data.length :=
      fun d ↦ memory_iterations (h d)
    refine ⟨fun d ↦ ((memory_accounts d data).mp (h d)).1,
      fun d ↦ ((memory_accounts d data).mp (h d)).2, hbounded, data.length, ?_⟩
    rw [← Option.ne_none_iff_exists']
    intro hnone
    have := memory_deep hnone
    have := hbounded data.length
    omega

def unknownElements : ByteString :=
  [0x47, 0x47, 0x55, 0x46] ++ littleEndian 4 3 ++ littleEndian 8 0 ++ littleEndian 8 1 ++
    littleEndian 8 0 ++ littleEndian 4 9 ++ littleEndian 4 13 ++ littleEndian 8 60

/-- The elements take no byte, and the forty-eight bytes are accepted after sixty-one iterations. -/
theorem unknownElements_counted : ¬∀ host data, Progresses host data := by
  intro h
  have hcount : iterations (memoryLog sampleHost 1 unknownElements) = 61 := by decide
  have hlen : unknownElements.length = 48 := by decide
  have := (h sampleHost unknownElements).bounded 1
  omega

end Cerberus.Gguf
