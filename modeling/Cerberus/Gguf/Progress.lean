import Cerberus.Gguf.Elements

namespace Cerberus.Gguf

open Foundation Foundation.Bytes Foundation.LittleEndian InputStream

variable {s s' : InputStream} {type : GgufMetadataType} {n d : Nat} {host : Host}

theorem moves_stringLog (host : Host) (s : InputStream) : Moves (stringLog host s) := by
  rw [stringLog]
  apply (moves_readLog 8 s).append
  split
  · exact moves_nil
  · exact moves_readLog _ _

theorem moves_valueLog (host : Host) (htype : type ≠ .array) (d : Nat) (s : InputStream) :
    Moves (valueLog host d type s) := by
  cases type with
  | string => exact moves_stringLog host s
  | array => exact absurd rfl htype
  | unknown raw => exact moves_nil
  | _ => exact moves_readLog _ _

theorem value_accounts (host : Host) (d : Nat) (type : GgufMetadataType) (s : InputStream) :
    Accounts (valueLog host d type s) (∃ v s', readValue host d type s = some (some (v, s')) ∧
      s'.good = false) := by
  by_cases htype : type = .array
  · subst htype
    have hmoves := (moves_readLog 4 s).append (moves_readLog 8 (s.readNat 4).2)
    apply ((all_accounts d _ _ _).after_moves hmoves).weaken
    simp [Fails, readValue]
  · exact (moves_valueLog host htype d s).accounts

theorem string_pos {e : ByteString × InputStream} (h : readString host s = some e) :
    s.pos ≤ e.2.pos ∧ (Left s → s.pos < e.2.pos) := by
  rw [readString] at h
  dsimp only at h
  split at h
  · cases h
  · cases h
    have hsecond := read_pos_le (s.readNat 8).2 (s.readNat 8).1
    exact ⟨(read_pos_le s 8).trans hsecond, fun hleft ↦ (read_left hleft (by decide)).trans_le hsecond⟩

theorem good_of_readString {e : ByteString × InputStream} (h : readString host s = some e)
    (hgood : e.2.good = true) : (s.readNat 8).2.good = true := by
  rw [readString] at h
  dsimp only at h
  split at h
  · cases h
  · cases h
    exact good_of_read hgood

theorem left_of_readString {e : ByteString × InputStream} (h : readString host s = some e)
    (hgood : e.2.good = true) : Left s := by
  by_contra hleft
  have hbad := (read_not_left hleft (n := 8) (by decide)).2
  have := good_of_readString h hgood
  rw [show (s.readNat 8).2 = (s.read 8).2 from rfl, hbad] at this
  cases this

theorem value_pos {v : StoredValue} (h : readValue host d type s = some (some (v, s')))
    (hf : ∀ e ∈ valueLog host d type s, e.Forward) : s.pos ≤ s'.pos := by
  cases type with
  | string =>
    obtain ⟨e, he, heq⟩ := Option.map_eq_some_iff.mp (Option.some.inj h)
    cases heq
    exact (string_pos he).1
  | array =>
    obtain ⟨s₁, hall, heq⟩ := Option.map_eq_some_iff.mp h
    cases heq
    have hread := (read_pos_le s 4).trans (read_pos_le (s.readNat 4).2 8)
    refine hread.trans (all_pos hall ?_)
    intro e he
    exact hf e (List.mem_append_right _ he)
  | unknown raw =>
    cases h
    exact le_rfl
  | _ =>
    cases h
    exact read_pos_le _ _

theorem good_of_readValue {v : StoredValue} (h : readValue host d type s = some (some (v, s')))
    (hgood : s'.good = true) : s.good = true := by
  by_contra hs
  obtain ⟨v', hbad⟩ := @readValue_bad host _ (by simpa using hs) d type
  rw [hbad] at h
  cases h
  exact hs hgood

def Refuses {α : Type} (exit : Option (Outcome × α)) : Prop :=
  ∃ r, exit = some r ∧ r.1 ≠ .returned true

section keys

variable {p : GgufParser}

open GgufParser

theorem kv_accounts (host : Host) (d : Nat) (p : GgufParser) (s : InputStream) :
    Accounts (kvLog host d s) (Refuses (p.parseMetadataKv host d s)) := by
  have hstring := moves_stringLog host s
  rw [kvLog, parseMetadataKv]
  cases hkey : readString host s with
  | none => exact (hstring.append moves_nil).accounts
  | some e =>
    obtain ⟨key, s₁⟩ := e
    dsimp only
    have hvalue := value_accounts host d (.ofRaw (s₁.readNat 4).1) (s₁.readNat 4).2
    have hall := (hvalue.after_moves (moves_readLog 4 s₁)).after_moves hstring
    cases hread : readValue host d (.ofRaw (s₁.readNat 4).1) (s₁.readNat 4).2 with
    | none =>
      rw [hread] at hall
      apply hall.weaken
      simp [Refuses]
    | some v =>
      rw [hread] at hall
      cases v with
      | none =>
        have htype : GgufMetadataType.ofRaw (s₁.readNat 4).1 ≠ .array := by
          intro htype
          rw [htype] at hread
          simp [readValue] at hread
        exact (hstring.append ((moves_readLog 4 s₁).append (moves_valueLog host htype d _))).accounts
      | some v =>
        obtain ⟨v, s₂⟩ := v
        apply hall.weaken
        cases hgood : s₂.good with
        | true => simp [Refuses, keepValue, hgood]
        | false => simp [Refuses, keepValue, hgood]

theorem kv_cases {r : Outcome × GgufParser × InputStream} (h : p.parseMetadataKv host d s = some r)
    (hok : r.1 = .returned true) : ∃ key s₁ v, readString host s = some (key, s₁) ∧ Left s ∧
      readValue host d (.ofRaw (s₁.readNat 4).1) (s₁.readNat 4).2 = some (some (v, r.2.2)) ∧
        r.2.2.good = true := by
  rw [parseMetadataKv] at h
  cases hkey : readString host s with
  | none =>
    rw [hkey] at h
    cases h
    cases hok
  | some e =>
    obtain ⟨key, s₁⟩ := e
    rw [hkey] at h
    obtain ⟨v, hread, rfl⟩ := Option.map_eq_some_iff.mp h
    cases v with
    | none => cases hok
    | some v =>
      obtain ⟨v, s₂⟩ := v
      have hgood : s₂.good = true := by
        by_contra hbad
        simp [keepValue, hbad] at hok
      have hleft : Left s := left_of_readString hkey (good_of_readNat (good_of_readValue hread hgood))
      have hkeep : (p.keepValue s key (.ofRaw (s₁.readNat 4).1) (some (v, s₂))).2.2 = s₂ := by
        simp [keepValue, hgood]
      rw [hkeep]
      exact ⟨key, s₁, v, rfl, hleft, hread, hgood⟩

theorem kv_pos {r : Outcome × GgufParser × InputStream} (h : p.parseMetadataKv host d s = some r)
    (hok : r.1 = .returned true) (hf : ∀ e ∈ kvLog host d s, e.Forward) : s.pos < r.2.2.pos := by
  obtain ⟨key, s₁, v, hkey, hleft, hread, -⟩ := kv_cases h hok
  rw [kvLog, hkey] at hf
  have hvalue : (s₁.readNat 4).2.pos ≤ r.2.2.pos := by
    apply value_pos hread
    intro e he
    exact hf e (List.mem_append_right _ (List.mem_append_right _ he))
  calc s.pos < s₁.pos := (string_pos hkey).2 hleft
    _ ≤ (s₁.readNat 4).2.pos := read_pos_le s₁ 4
    _ ≤ r.2.2.pos := hvalue

theorem shape_accounts (n : Nat) (s : InputStream) :
    Accounts (shapeLog n s) ((readShape n s).2.good = false) := by
  induction n generalizing s with
  | zero => exact moves_nil.accounts
  | succ n ih =>
    have hown : Accounts (iterationLog (.dimension n) (readLog 8 s) s
        (some (true, (s.readNat 8).2))) ((s.readNat 8).2.good = false ∧ n = 0) := by
      apply Accounts.ends ((moves_readLog 8 s).accounts.begins _)
      intro _
      by_cases hleft : Left s
      · have hpos := read_left hleft (n := 8) (by decide)
        exact iff_of_true (.inl hleft) (fun hle ↦ absurd hle (not_le.mpr hpos))
      · obtain ⟨hpos, hbad⟩ := read_not_left hleft (n := 8) (by decide)
        have hpos' : (s.readNat 8).2.pos = s.pos := hpos
        have hbad' : (s.readNat 8).2.good = false := hbad
        simp [Loop.Advances, hleft, hpos', hbad']
    rw [shapeLog, readShape]
    dsimp only
    cases n with
    | zero =>
      apply hown.weaken
      simp [readShape]
    | succ n =>
      have hon := (hown.goes_on (by simp)).append (ih (s.readNat 8).2)
        (fun hquiet ↦ absurd trivial (hquiet (.begins (.dimension n)) (by simp [shapeLog])))
      simpa [iterationLog] using hon

theorem shape_pos (n : Nat) (s : InputStream) : s.pos ≤ (readShape n s).2.pos := by
  induction n generalizing s with
  | zero => exact le_rfl
  | succ n ih => exact (read_pos_le s 8).trans (ih (s.readNat 8).2)

theorem good_of_readShape (h : (readShape n s).2.good = true) : s.good = true := by
  by_contra hs
  rw [readShape_bad (by simpa using hs)] at h
  exact hs h

theorem shape_stuck (h : Stuck (shapeLog n s)) : (readShape n s).2.good = false := by
  induction n generalizing s with
  | zero =>
    obtain ⟨e, he, -⟩ := h
    cases he
  | succ n ih =>
    obtain ⟨e, he, hstalls⟩ := h
    rw [shapeLog, List.mem_append] at he
    rw [readShape]
    dsimp only
    rcases he with hmem | hmem
    · rcases List.mem_cons.mp hmem with rfl | hmem
      · exact hstalls.elim
      · obtain ⟨a, b, rfl, -⟩ := moves_readLog 8 s e hmem
        exact hstalls.elim
    · rcases List.mem_cons.mp hmem with rfl | hmem
      · have hleft : ¬Left s := fun hleft ↦
          absurd hstalls (not_le.mpr (read_left hleft (n := 8) (by decide)))
        have hbad : (s.readNat 8).2.good = false := (read_not_left hleft (by decide)).2
        rw [readShape_bad hbad]
        exact hbad
      · exact ih ⟨e, hmem, hstalls⟩

theorem tensor_accounts (p : GgufParser) (s : InputStream) :
    Accounts (tensorLog host s) ((p.parseTensorInfo host s).1 ≠ .returned true) := by
  have hstring := moves_stringLog host s
  rw [tensorLog, parseTensorInfo]
  cases hname : readString host s with
  | none => exact (hstring.append moves_nil).accounts
  | some e =>
    obtain ⟨name, s₁⟩ := e
    dsimp only
    let shape := readShape (s₁.readNat 4).1 (s₁.readNat 4).2
    have hshape : Accounts (shapeLog (s₁.readNat 4).1 (s₁.readNat 4).2)
        (((shape.2.readNat 4).2.readNat 8).2.good = false) := by
      apply (shape_accounts _ _).weaken_stuck
      intro hstuck
      have hbad : shape.2.good = false := shape_stuck hstuck
      have hlater : ((shape.2.readNat 4).2.readNat 8).2.good = false := by
        rw [readNat_bad hbad, readNat_bad hbad]
        exact hbad
      exact iff_of_true hbad hlater
    have hall := (((hshape.after_moves (moves_readLog 4 s₁)).moves (moves_readLog 4 shape.2)).moves
      (moves_readLog 8 (shape.2.readNat 4).2)).after_moves hstring
    apply hall.weaken
    simp [shape]

theorem tensor_left (h : (p.parseTensorInfo host s).1 = .returned true) : Left s := by
  rw [parseTensorInfo] at h
  cases hname : readString host s with
  | none =>
    rw [hname] at h
    cases h
  | some e =>
    rw [hname] at h
    apply left_of_readString hname
    have hgood := Outcome.returned.inj h
    exact good_of_readNat (good_of_readShape (good_of_readNat (good_of_readNat hgood)))

theorem tensor_pos (h : (p.parseTensorInfo host s).1 = .returned true) :
    s.pos < (p.parseTensorInfo host s).2.2.pos := by
  have hleft := tensor_left h
  rw [parseTensorInfo] at h ⊢
  cases hname : readString host s with
  | none =>
    rw [hname] at h
    cases h
  | some e =>
    calc s.pos < e.2.pos := (string_pos hname).2 hleft
      _ ≤ (e.2.readNat 4).2.pos := read_pos_le e.2 4
      _ ≤ (readShape (e.2.readNat 4).1 (e.2.readNat 4).2).2.pos := shape_pos _ _
      _ ≤ _ := (read_pos_le _ 4).trans (read_pos_le _ 8)

theorem metadata_accounts (host : Host) (d n : Nat) (p : GgufParser) (s : InputStream) :
    Accounts (metadataLog host d n p s) (Refuses (p.parseMetadata host d n s)) := by
  induction n generalizing p s with
  | zero => exact moves_nil.accounts
  | succ n ih =>
    have hkv := (kv_accounts host d p s).begins .metadata
    rw [metadataLog, parseMetadata]
    cases hread : p.parseMetadataKv host d s with
    | none =>
      rw [hread] at hkv
      apply (hkv.moves moves_nil).weaken
      simp [Refuses]
    | some kv =>
      rw [hread] at hkv
      have hends : Accounts (.begins .metadata :: kvLog host d s ++ [.ends .metadata s kv.2.2])
          (Refuses (some kv)) := by
        apply hkv.ends
        intro hsteady
        refine iff_of_true trivial (fun hle ↦ ⟨kv, rfl, fun hok ↦ ?_⟩)
        have hpos := kv_pos hread hok (fun e he ↦
          hsteady.forward e (List.mem_cons_of_mem _ he))
        omega
      rw [Option.bind_eq_bind, Option.bind_some]
      dsimp only
      by_cases hok : kv.1 = .returned true
      · rw [if_pos hok, if_pos hok]
        have hon := (hends.goes_on (by simp [Refuses, hok])).append (ih kv.2.1 kv.2.2) ?_
        · simpa using hon
        · rintro hquiet ⟨r, hr, hrefused⟩
          cases n with
          | zero =>
            cases hr
            exact hrefused rfl
          | succ n => exact hquiet (.begins .metadata) (by simp [metadataLog]) trivial
      · rw [if_neg hok, if_neg hok]
        exact hends

theorem tensors_accounts (host : Host) (n : Nat) (p : GgufParser) (s : InputStream) :
    Accounts (tensorsLog host n p s) ((p.parseTensors host n s).1 ≠ .returned true) := by
  induction n generalizing p s with
  | zero => exact moves_nil.accounts
  | succ n ih =>
    have hends : Accounts (.begins .tensor :: tensorLog host s ++
        [.ends .tensor s (p.parseTensorInfo host s).2.2])
          ((p.parseTensorInfo host s).1 ≠ .returned true) := by
      apply ((tensor_accounts p s).begins .tensor).ends
      intro _
      refine iff_of_true trivial (fun hle hok ↦ ?_)
      have := tensor_pos hok
      omega
    rw [tensorsLog, parseTensors]
    by_cases hok : (p.parseTensorInfo host s).1 = .returned true
    · rw [if_pos hok, if_pos hok]
      have hon := (hends.goes_on (by simp [hok])).append
        (ih (p.parseTensorInfo host s).2.1 (p.parseTensorInfo host s).2.2) ?_
      · simpa using hon
      · intro hquiet hrefused
        cases n with
        | zero => exact hrefused rfl
        | succ n => exact hquiet (.begins .tensor) (by simp [tensorsLog]) trivial
    · rw [if_neg hok, if_neg hok]
      exact hends

theorem loops_accounts (d m n : Nat) (p : GgufParser) (s : InputStream) :
    Accounts (metadataLog host d m p s ++
      match p.parseMetadata host d m s with
      | none => []
      | some kvs => if kvs.1 = .returned true then tensorsLog host n kvs.2.1 kvs.2.2 else [])
      (Refuses ((p.parseMetadata host d m s).map (fun kvs ↦
        if kvs.1 = .returned true then
          ((kvs.2.1.parseTensors host n kvs.2.2).1, (kvs.2.1.parseTensors host n kvs.2.2).2.1)
        else (kvs.1, kvs.2.1)))) := by
  have hmetadata := metadata_accounts host d m p s
  cases hread : p.parseMetadata host d m s with
  | none =>
    rw [hread] at hmetadata
    apply (hmetadata.moves moves_nil).weaken
    simp [Refuses]
  | some kvs =>
    rw [hread] at hmetadata
    dsimp only
    by_cases hok : kvs.1 = .returned true
    · rw [if_pos hok, Option.map_some, if_pos hok]
      have htensors := tensors_accounts host n kvs.2.1 kvs.2.2
      apply ((hmetadata.goes_on (by simp [Refuses, hok])).append htensors ?_).weaken
      · simp [Refuses]
      · intro hquiet hrefused
        cases n with
        | zero => exact hrefused rfl
        | succ n => exact hquiet (.begins .tensor) (by simp [tensorsLog]) trivial
    · rw [if_neg hok, Option.map_some, if_neg hok]
      apply (hmetadata.moves moves_nil).weaken
      simp [Refuses, hok]

theorem stream_accounts (d : Nat) (s : InputStream) :
    Accounts (streamLog host d s) (Refuses (parseStream host d s)) := by
  have hstart := (moves_readLog 4 s).append (moves_readLog 4 (s.readNat 4).2)
  rw [streamLog, parseStream]
  dsimp only
  split
  · exact (hstart.append moves_nil).accounts
  · rw [List.append_assoc (readLog 8 _ ++ readLog 8 _)]
    exact ((loops_accounts d _ _ _ _).after_moves
      ((moves_readLog 8 _).append (moves_readLog 8 _))).after_moves hstart

theorem memory_accounts (d : Nat) (data : ByteString) :
    Accounts (memoryLog host d data) (Refuses (parseFromMemory host d data)) := by
  rw [memoryLog, parseFromMemory]
  split
  · exact moves_nil.accounts
  · split
    · exact moves_nil.accounts
    · exact stream_accounts d _

end keys

end Cerberus.Gguf
