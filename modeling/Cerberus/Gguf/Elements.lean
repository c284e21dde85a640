import Cerberus.Gguf.Events

namespace Cerberus.Gguf

open Foundation Foundation.Bytes Foundation.LittleEndian InputStream

variable {log : Log} {ended : Prop} {loop : Loop} {s s' : InputStream} {type : GgufMetadataType}
  {n d w remaining : Nat} {ok : Bool}

theorem read_pos_le (s : InputStream) (n : Nat) : s.pos ≤ (s.read n).2.pos := by
  unfold InputStream.read
  split
  · exact Nat.le_add_right _ _
  · exact le_rfl

theorem moves_readLog (n : Nat) (s : InputStream) : Moves (readLog n s) := by
  intro e he
  obtain rfl := List.mem_singleton.mp he
  exact ⟨_, _, rfl, read_pos_le s n⟩

theorem read_left (h : Left s) (hn : 0 < n) : s.pos < (s.read n).2.pos := by
  obtain ⟨hgood, hpos⟩ := h
  simp only [InputStream.read, if_pos hgood, List.length_take, List.length_drop]
  omega

theorem read_not_left (h : ¬Left s) (hn : 0 < n) :
    (s.read n).2.pos = s.pos ∧ (s.read n).2.good = false := by
  by_cases hgood : s.good = true
  · have hpos : s.bytes.length ≤ s.pos := by
      by_contra hlt
      exact h ⟨hgood, by omega⟩
    simp only [InputStream.read, if_pos hgood, List.drop_eq_nil_of_le hpos, List.take_nil,
      List.length_nil, Nat.add_zero, decide_eq_false_iff_not, true_and]
    omega
  · rw [read_bad (by simpa using hgood)]
    exact ⟨rfl, by simpa using hgood⟩

@[simp] theorem read_bytes (s : InputStream) (n : Nat) : (s.read n).2.bytes = s.bytes := by
  unfold InputStream.read
  split <;> rfl

theorem good_of_read (h : (s.read n).2.good = true) : s.good = true := good_of_readNat h

theorem readNat_of_good (h : (s.readNat n).2.good = true) (hn : 0 < n) : s.good = true ∧
    s.pos + n ≤ s.bytes.length ∧ (s.readNat n).1 = readAt s.pos n s.bytes ∧
      (s.readNat n).2 = { s with pos := s.pos + n } := by
  obtain ⟨kind, bytes, pos, good⟩ := s
  have hgood : good = true := good_of_readNat h
  subst hgood
  have hlong : pos + n ≤ bytes.length := by
    by_contra hshort
    rw [show (⟨kind, bytes, pos, true⟩ : InputStream) = atPos kind bytes pos from rfl,
      readNat_short hn (by omega)] at h
    cases h
  have heq : (atPos kind bytes pos).readNat n = _ := readNat_full hlong
  exact ⟨rfl, hlong, congrArg Prod.fst heq, congrArg Prod.snd heq⟩

theorem admits_nonneg {kind : StreamKind} {size : Nat} {target : Int}
    (h : kind.admits size target) : 0 ≤ target := by
  cases kind <;> exact h.1

theorem seek_pos_le (s : InputStream) :
    (s.readNat 8).2.pos ≤ ((s.readNat 8).2.seekCur (signed64 (s.readNat 8).1)).pos ↔
      ¬SkipsBack s := by
  by_cases hgood : (s.readNat 8).2.good = true
  · obtain ⟨hs, hlong, hlen, heq⟩ := readNat_of_good hgood (by decide)
    rw [hlen, heq, InputStream.seekCur, if_pos hs]
    dsimp only
    have hbound : readAt s.pos 8 s.bytes < 2 ^ 64 := readAt_lt hlong
    split
    · next hadmits =>
      have htarget := admits_nonneg hadmits
      dsimp only
      by_cases hback : 2 ^ 63 ≤ readAt s.pos 8 s.bytes
      · apply iff_of_false
        · rw [signed64, if_neg (by omega)] at htarget ⊢
          omega
        · exact fun hno ↦ hno ⟨hs, hlong, hback, hadmits⟩
      · apply iff_of_true
        · rw [signed64, if_pos (by omega)]
          omega
        · exact fun h ↦ hback h.2.2.1
    · next hno => exact iff_of_true le_rfl (fun h ↦ hno h.2.2.2)
  · have hbad : (s.readNat 8).2.good = false := by simpa using hgood
    rw [seekCur_bad hbad]
    apply iff_of_true le_rfl
    rintro ⟨hs, hlong, -, -⟩
    obtain ⟨kind, bytes, pos, good⟩ := s
    subst hs
    have heq : (atPos kind bytes pos).readNat 8 = _ := readNat_full hlong
    rw [show (⟨kind, bytes, pos, true⟩ : InputStream) = atPos kind bytes pos from rfl, heq] at hbad
    cases hbad

section items

variable {skipItem : InputStream → Option (Bool × InputStream)} {itemLog : InputStream → Log}

theorem items_pos (loop : Loop) (hitem : ∀ s ok s', skipItem s = some (ok, s') →
      (∀ e ∈ itemLog s, e.Forward) → s.pos ≤ s'.pos)
    (h : skipItems skipItem n s = some (ok, s'))
    (hf : ∀ e ∈ itemsLog loop skipItem itemLog n s, e.Forward) : s.pos ≤ s'.pos := by
  induction n generalizing s with
  | zero =>
    cases h
    exact le_rfl
  | succ n ih =>
    rw [skipItems, Option.bind_eq_bind, Option.bind_eq_some_iff] at h
    obtain ⟨⟨ok₁, s₁⟩, hskip, h⟩ := h
    rw [itemsLog, hskip] at hf
    dsimp only at h hf
    have hfirst := hitem s ok₁ s₁ hskip (fun e he ↦ hf e (by simp [he]))
    split at h
    · next hok =>
      refine hfirst.trans (ih h ?_)
      intro e he
      exact hf e (by simp [hok, he])
    · cases h
      exact hfirst

/-- What is left of the run after a loop: it is over if the stream has failed and no element comes
after this one. -/
def Exits (remaining : Nat) (exit : Option (Bool × InputStream)) : Prop :=
  ∃ r, exit = some r ∧ r.2.good = false ∧ remaining = 0

def iterationLog (loop : Loop) (itemLog : Log) (s : InputStream)
    (exit : Option (Bool × InputStream)) : Log :=
  .begins loop :: itemLog ++ (exit.map (fun r ↦ .ends loop s r.2)).toList

theorem mem_iterationLog {e : Event} {exit : Option (Bool × InputStream)} (he : e ∈ log) :
    e ∈ iterationLog loop log s exit :=
  List.mem_append_left _ (List.mem_cons_of_mem _ he)

theorem ends_mem_iterationLog (loop : Loop) (log : Log) (s : InputStream) (r : Bool × InputStream) :
    .ends loop s r.2 ∈ iterationLog loop log s (some r) :=
  List.mem_append_right _ (List.mem_singleton.mpr rfl)

theorem items_accounts (hok : ∀ s ok s', skipItem s = some (ok, s') → ok = s'.good)
    (hitem : ∀ s, Accounts (iterationLog loop (itemLog s) s (skipItem s))
      (Exits remaining (skipItem s))) (n : Nat) (s : InputStream) :
    Accounts (itemsLog loop skipItem itemLog n s) (Exits remaining (skipItems skipItem n s)) := by
  induction n generalizing s with
  | zero => exact moves_nil.accounts
  | succ n ih =>
    have hfirst := hitem s
    cases hskip : skipItem s with
    | none =>
      rw [hskip] at hfirst
      rw [itemsLog, skipItems, hskip]
      exact hfirst
    | some r =>
      obtain ⟨ok, s₁⟩ := r
      rw [hskip] at hfirst
      rw [itemsLog, skipItems, hskip, Option.bind_eq_bind, Option.bind_some]
      dsimp only
      cases ok with
      | false => exact hfirst
      | true =>
        rw [if_pos rfl, if_pos rfl]
        have hgood : s₁.good = true := (hok s true s₁ hskip).symm
        have hon : Accounts (iterationLog loop (itemLog s) s (some (true, s₁))) False := by
          apply hfirst.weaken
          simp [Exits, hgood]
        have hall := hon.append (ih s₁) ?_
        · simpa [iterationLog] using hall
        · rintro hquiet ⟨r, hr, hbad, -⟩
          cases n with
          | zero =>
            cases hr
            rw [hgood] at hbad
            cases hbad
          | succ n =>
            exact hquiet (.begins loop) (by simp [itemsLog]) trivial

end items

theorem moves_width (hw : type.width = some w) (d : Nat) (s : InputStream) :
    skipLog remaining (d + 1) type s = readLog w s := by
  cases type <;> cases hw <;> rfl

theorem skip_pos (h : skipMetadataValue d type s = some (ok, s'))
    (hf : ∀ e ∈ skipLog remaining d type s, e.Forward) : s.pos ≤ s'.pos := by
  induction d generalizing type s ok s' with
  | zero => cases h
  | succ d ih =>
    cases type with
    | string =>
      cases h
      have hread := read_pos_le s 8
      split
      · next hlen =>
        refine hread.trans (hf (.moved _ _) ?_)
        rw [skipLog, if_pos hlen]
        exact List.mem_append_right _ (List.mem_singleton.mpr rfl)
      · exact hread
    | array =>
      have hread := (read_pos_le s 4).trans (read_pos_le (s.readNat 4).2 8)
      refine hread.trans (items_pos (.element (.ofRaw (s.readNat 4).1) remaining)
        (fun s ok s' hs hlog ↦ ih hs hlog) h ?_)
      intro e he
      apply hf
      rw [skipLog]
      exact List.mem_append_right _ he
    | unknown _ =>
      cases h
      exact le_rfl
    | _ =>
      cases h
      exact read_pos_le _ _

theorem width_known (hw : type.width = some w) : type.Known := by
  rintro raw rfl
  cases hw

def afterString (s : InputStream) : InputStream :=
  if 0 < (s.readNat 8).1 then (s.readNat 8).2.seekCur (signed64 (s.readNat 8).1)
  else (s.readNat 8).2

theorem skip_string (d : Nat) (s : InputStream) :
    skipMetadataValue (d + 1) .string s = some ((afterString s).good, afterString s) := rfl

theorem afterString_left (hback : ¬SkipsBack s) (hleft : Left s) : s.pos < (afterString s).pos := by
  have hread : s.pos < (s.readNat 8).2.pos := read_left hleft (by decide)
  unfold afterString
  split
  · exact hread.trans_le ((seek_pos_le s).mpr hback)
  · exact hread

theorem afterString_not_left (hleft : ¬Left s) :
    (afterString s).pos = s.pos ∧ (afterString s).good = false := by
  obtain ⟨hpos, hbad⟩ := read_not_left hleft (n := 8) (by decide)
  have hseek : (s.readNat 8).2.seekCur (signed64 (s.readNat 8).1) = (s.readNat 8).2 :=
    seekCur_bad hbad _
  rw [afterString, hseek, ite_self]
  exact ⟨hpos, hbad⟩

theorem moves_skip_string (hback : ¬SkipsBack s) : Moves (skipLog remaining (d + 1) .string s) := by
  rw [skipLog]
  apply (moves_readLog 8 s).append
  split
  · intro e he
    obtain rfl := List.mem_singleton.mp he
    exact ⟨_, _, rfl, (seek_pos_le s).mpr hback⟩
  · exact moves_nil

theorem SkipsBack.length_pos (hback : SkipsBack s) : 0 < (s.readNat 8).1 := by
  by_contra h0
  have hno := seek_pos_le s
  have hzero : (s.readNat 8).1 = 0 := by omega
  rw [hzero] at hno
  refine hno.mp ?_ hback
  have hsame : signed64 0 = 0 := by decide
  rw [hsame, InputStream.seekCur]
  split
  · split
    · simp
    · exact le_rfl
  · exact le_rfl

theorem skip_string_accounts (remaining d : Nat) (s : InputStream) :
    Accounts (iterationLog (.element .string remaining) (skipLog remaining (d + 1) .string s) s
      (skipMetadataValue (d + 1) .string s))
        (Exits remaining (skipMetadataValue (d + 1) .string s)) := by
  rw [skip_string]
  by_cases hback : SkipsBack s
  · have hmem : Event.moved (s.readNat 8).2.pos
        ((s.readNat 8).2.seekCur (signed64 (s.readNat 8).1)).pos ∈
          skipLog remaining (d + 1) .string s := by
      rw [skipLog, if_pos hback.length_pos]
      exact List.mem_append_right _ (List.mem_singleton.mpr rfl)
    apply iff_of_false
    · intro hall
      have hends : Loop.Advances s (.element .string remaining) :=
        hall _ (ends_mem_iterationLog _ _ s _)
      exact hends.2.2 rfl hback
    · rintro ⟨hsteady, -⟩
      exact (seek_pos_le s).mp (hsteady.forward _ (mem_iterationLog hmem)) hback
  · apply Accounts.ends ((moves_skip_string hback).accounts.begins _)
    intro _
    have hknown : GgufMetadataType.string.Known := fun _ h ↦ by cases h
    by_cases hleft : Left s
    · have hpos := afterString_left hback hleft
      exact iff_of_true ⟨fun _ ↦ hknown, .inl hleft, fun _ ↦ hback⟩
        (fun hle ↦ absurd hle (not_le.mpr hpos))
    · obtain ⟨hpos, hbad⟩ := afterString_not_left hleft
      simp [Loop.Advances, Exits, hleft, hpos, hbad, hknown, hback]

theorem skip_unknown_accounts (remaining d raw : Nat) (s : InputStream) :
    Accounts (iterationLog (.element (.unknown raw) remaining)
      (skipLog remaining (d + 1) (.unknown raw) s) s (skipMetadataValue (d + 1) (.unknown raw) s))
        (Exits remaining (skipMetadataValue (d + 1) (.unknown raw) s)) := by
  apply Accounts.ends (moves_nil.accounts.begins _)
  intro _
  have hunknown : ¬(GgufMetadataType.unknown raw).Known := fun h ↦ h raw rfl
  by_cases hgood : s.good = true
  · simp [Loop.Advances, Exits, skipMetadataValue, hgood, hunknown]
  · have hleft : ¬Left s := fun h ↦ hgood h.1
    simp [Loop.Advances, Exits, skipMetadataValue, hgood, hleft]

theorem readNat_twice_not_left (h : ¬Left s) :
    ((s.readNat 4).2.readNat 8).1 = 0 ∧ ((s.readNat 4).2.readNat 8).2 = (s.readNat 4).2 ∧
      (s.readNat 4).2.pos = s.pos ∧ (s.readNat 4).2.good = false := by
  obtain ⟨hpos, hbad⟩ := read_not_left h (n := 4) (by decide)
  have hagain : (s.readNat 4).2.readNat 8 = (0, (s.readNat 4).2) := readNat_bad hbad 8
  exact ⟨by rw [hagain], by rw [hagain], hpos, hbad⟩

theorem skip_array_accounts (s : InputStream)
    (ih : ∀ s', Accounts (iterationLog (.element (.ofRaw (s.readNat 4).1) remaining)
      (skipLog remaining d (.ofRaw (s.readNat 4).1) s') s'
      (skipMetadataValue d (.ofRaw (s.readNat 4).1) s'))
        (Exits remaining (skipMetadataValue d (.ofRaw (s.readNat 4).1) s'))) :
    Accounts (iterationLog (.element .array remaining) (skipLog remaining (d + 1) .array s) s
      (skipMetadataValue (d + 1) .array s)) (Exits remaining (skipMetadataValue (d + 1) .array s)) := by
  have hmoves := (moves_readLog 4 s).append (moves_readLog 8 (s.readNat 4).2)
  have hinside : Accounts (skipLog remaining (d + 1) .array s)
      (Exits remaining (skipMetadataValue (d + 1) .array s)) :=
    (items_accounts (fun _ _ _ h ↦ skip_ok h) ih _ _).after_moves hmoves
  cases hskip : skipMetadataValue (d + 1) .array s with
  | none =>
    rw [hskip] at hinside
    have := hinside.begins (.element .array remaining)
    simpa [iterationLog] using this
  | some r =>
    rw [hskip] at hinside
    apply Accounts.ends (hinside.begins _)
    intro hsteady
    have hknown : GgufMetadataType.array.Known := fun _ h ↦ by cases h
    by_cases hleft : Left s
    · have hpos : s.pos < r.2.pos := by
        refine (read_left hleft (n := 4) (by decide)).trans_le ?_
        refine (read_pos_le (s.readNat 4).2 8).trans ?_
        apply items_pos (.element (.ofRaw (s.readNat 4).1) remaining)
          (fun s ok s' hs hlog ↦ skip_pos hs hlog) (show _ = some (r.1, r.2) from hskip)
        intro e he
        exact hsteady.forward e (List.mem_cons_of_mem _ (List.mem_append_right _ he))
      exact iff_of_true ⟨fun _ ↦ hknown, .inl hleft, fun h ↦ by cases h⟩ (fun hle ↦ absurd hle (by omega))
    · obtain ⟨hzero, hsame, hpos, hbad⟩ := readNat_twice_not_left hleft
      rw [skipMetadataValue, hzero, hsame, skipItems] at hskip
      cases hskip
      simp [Loop.Advances, Exits, hleft, hpos, hbad, hknown]

/-- An element that is skipped: its end says what it should, with what is inside it. -/
theorem skip_accounts (remaining d : Nat) (type : GgufMetadataType) (s : InputStream) :
    Accounts (iterationLog (.element type remaining) (skipLog remaining d type s) s
      (skipMetadataValue d type s)) (Exits remaining (skipMetadataValue d type s)) := by
  induction d generalizing type s with
  | zero => exact moves_nil.accounts.begins _
  | succ d ih =>
    cases hw : type.width with
    | some w =>
      rw [moves_width hw, skip_scalar hw]
      apply Accounts.ends ((moves_readLog w s).accounts.begins _)
      intro _
      dsimp only
      by_cases hleft : Left s
      · have hpos := read_left hleft (width_pos hw)
        refine iff_of_true ⟨fun _ ↦ width_known hw, .inl hleft, ?_⟩ (fun hle ↦ absurd hle (by omega))
        rintro rfl
        cases hw
      · obtain ⟨hpos, hbad⟩ := read_not_left hleft (width_pos hw)
        have hnot : type ≠ .string := by
          rintro rfl
          cases hw
        simp [Loop.Advances, Exits, hleft, hpos, hbad, width_known hw, hnot]
    | none =>
      cases type with
      | string => exact skip_string_accounts remaining d s
      | unknown raw => exact skip_unknown_accounts remaining d raw s
      | array => exact skip_array_accounts s (ih _)
      | _ => cases hw

def Fails (exit : Option InputStream) : Prop := ∃ s, exit = some s ∧ s.good = false

theorem all_accounts (d : Nat) (type : GgufMetadataType) (n : Nat) (s : InputStream) :
    Accounts (allLog d type n s) (Fails (skipAll (skipMetadataValue d type) n s)) := by
  induction n generalizing s with
  | zero => exact moves_nil.accounts
  | succ n ih =>
    have hfirst := skip_accounts n d type s
    rw [allLog, skipAll]
    cases hskip : skipMetadataValue d type s with
    | none =>
      rw [hskip] at hfirst
      apply hfirst.weaken
      simp [Exits, Fails]
    | some r =>
      obtain ⟨ok, s₁⟩ := r
      rw [hskip] at hfirst
      rw [Option.bind_eq_bind, Option.bind_some]
      cases n with
      | zero =>
        apply hfirst.weaken
        simp [Exits, Fails, skipAll]
      | succ n =>
        have hon : Accounts (iterationLog (.element type (n + 1)) (skipLog (n + 1) d type s) s
            (some (ok, s₁))) False := hfirst.weaken (by simp [Exits])
        have hall := hon.append (ih s₁) (fun hquiet ↦
          absurd trivial (hquiet (.begins (.element type n)) (by simp [allLog])))
        simpa [iterationLog] using hall

theorem all_pos (h : skipAll (skipMetadataValue d type) n s = some s')
    (hf : ∀ e ∈ allLog d type n s, e.Forward) : s.pos ≤ s'.pos := by
  induction n generalizing s with
  | zero =>
    cases h
    exact le_rfl
  | succ n ih =>
    rw [skipAll, Option.bind_eq_bind, Option.bind_eq_some_iff] at h
    obtain ⟨⟨ok, s₁⟩, hskip, h⟩ := h
    rw [allLog, hskip] at hf
    have hitem : ∀ e ∈ skipLog n d type s, e.Forward := fun e he ↦ hf e (by simp [he])
    exact (skip_pos hskip hitem).trans (ih h (fun e he ↦ hf e (by simp [he])))

end Cerberus.Gguf
