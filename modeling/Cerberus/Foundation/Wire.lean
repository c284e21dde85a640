import Cerberus.Foundation.FiniteMap
import Cerberus.Foundation.Bytes

namespace Cerberus.Foundation.Wire

open Std Bytes

/-- A map with string keys, in the order of their bytes. -/
abbrev Dict (V : Type) := ExtTreeMap ByteString V

/-- The four bytes of a 32-bit value, the most significant one first. Larger values are
truncated. -/
def packU32 (n : Nat) : ByteString :=
  [(n / 2 ^ 24).toUInt8, (n / 2 ^ 16).toUInt8, (n / 2 ^ 8).toUInt8, n.toUInt8]

def unpackU32 (a b c d : UInt8) : Nat :=
  a.toNat * 2 ^ 24 + b.toNat * 2 ^ 16 + c.toNat * 2 ^ 8 + d.toNat

abbrev Reader (α : Type) := StateM ByteString α

/-- The next value, or zero when fewer than four bytes are left. -/
def readU32 : Reader Nat
  | a :: b :: c :: d :: r => (unpackU32 a b c d, r)
  | r => (0, r)

def writeStr (s : ByteString) : ByteString := packU32 s.length ++ s

/-- The next string; a length that exceeds what is left reads as the empty string, and only
the length is consumed. -/
def readStr : Reader ByteString := fun r ↦
  let (n, r) := readU32 r
  if r.length < n then ([], r) else (r.take n, r.drop n)

variable {V : Type}

def writeEntries (writeValue : V → ByteString) (l : List (ByteString × V)) : ByteString :=
  l.flatMap (fun e ↦ writeStr e.1 ++ writeValue e.2)

def writeMap (writeValue : V → ByteString) (m : Dict V) : ByteString :=
  packU32 m.size ++ writeEntries writeValue m.toList

/-- The loop over the announced number of entries; those with an empty key are skipped. -/
def readEntries (readValue : Reader V) : Nat → Dict V → Reader (Dict V)
  | 0, m, r => (m, r)
  | n + 1, m, r =>
    let (key, r) := readStr r
    let (value, r) := readValue r
    readEntries readValue n (if key.isEmpty then m else m.insert key value) r

def readMap (readValue : Reader V) : Reader (Dict V) := fun r ↦
  let (count, r) := readU32 r
  readEntries readValue count ∅ r

def Parses {α : Type} (x : Reader α) (s : ByteString) (a : α) : Prop := ∀ r, x (s ++ r) = (a, r)

def Yields {α : Type} (x : Reader α) (P : α → Prop) : Prop := ∀ r, P (x r).1

theorem Parses.bind {α β : Type} {x : Reader α} {f : α → Reader β} {s s' : ByteString} {a : α}
    {b : β} (hx : Parses x s a) (hf : Parses (f a) s' b) : Parses (x >>= f) (s ++ s') b := by
  intro r
  have hstep : (x >>= f) (s ++ s' ++ r) = f a (s' ++ r) := by
    change f (x (s ++ s' ++ r)).1 (x (s ++ s' ++ r)).2 = f a (s' ++ r)
    rw [List.append_assoc, hx]
  rw [hstep, hf]

theorem Parses.pure {α : Type} (a : α) : Parses (pure a) [] a := fun _ ↦ rfl

theorem Yields.pure {α : Type} {P : α → Prop} {a : α} (ha : P a) : Yields (pure a) P := fun _ ↦ ha

theorem Yields.bind {α β : Type} {x : Reader α} {f : α → Reader β} {P : α → Prop} {Q : β → Prop}
    (hx : Yields x P) (hf : ∀ a, P a → Yields (f a) Q) : Yields (x >>= f) Q :=
  fun r ↦ hf _ (hx r) _

def Short (n : Nat) : Prop := n < 2 ^ 32

theorem readU32_packU32 {n : Nat} (hn : Short n) : Parses readU32 (packU32 n) n := by
  intro r
  have hbytes : unpackU32 (n / 2 ^ 24).toUInt8 (n / 2 ^ 16).toUInt8 (n / 2 ^ 8).toUInt8 n.toUInt8
      = n := by
    simp only [Short] at hn
    simp only [unpackU32, UInt8.toNat_ofNat']
    omega
  simp only [packU32, List.cons_append, List.nil_append, readU32, hbytes]

theorem readStr_writeStr {s : ByteString} (hs : Short s.length) : Parses readStr (writeStr s) s := by
  intro r
  simp [readStr, writeStr, List.append_assoc, readU32_packU32 hs _]

def Each (P : ByteString → V → Prop) (m : Dict V) : Prop := ∀ k v, m[k]? = some v → P k v

/-- A map of which no entry is lost on the way: its size and its keys are short, and no key
is empty. -/
structure Faithful (ok : V → Prop) (m : Dict V) : Prop where
  size : Short m.size
  entries : Each (fun k v ↦ k ≠ [] ∧ Short k.length ∧ ok v) m

variable {P : ByteString → V → Prop} {m : Dict V}

theorem each_empty : Each P (∅ : Dict V) := by
  intro k v h
  simp at h

theorem Each.insert {k : ByteString} {v : V} (hm : Each P m) (hv : P k v) :
    Each P (m.insert k v) := by
  intro j w h
  rw [FiniteMap.get_insert] at h
  split at h
  · next he =>
    cases h
    exact he ▸ hv
  · exact hm j w h

theorem each_insert {k : ByteString} {v : V} (hm : Each P m) :
    Each P (m.insert k v) ↔ P k v :=
  ⟨fun h ↦ h k v (by simp), hm.insert⟩

variable {writeValue : V → ByteString} {readValue : Reader V}

theorem readEntries_writeEntries (l : List (ByteString × V)) (m : Dict V) (r : ByteString)
    (hl : ∀ e ∈ l, e.1 ≠ [] ∧ Short e.1.length ∧ Parses readValue (writeValue e.2) e.2) :
    readEntries readValue l.length m (writeEntries writeValue l ++ r) = (m.insertMany l, r) := by
  induction l generalizing m with
  | nil => simp [readEntries, writeEntries]
  | cons e l ih =>
    obtain ⟨k, v⟩ := e
    obtain ⟨hk, hshort, hv⟩ := hl (k, v) (by simp)
    have hrest := ih (m.insert k v) (fun e he ↦ hl e (by simp [he]))
    simp only [writeEntries, List.flatMap_cons, List.append_assoc, List.length_cons] at hrest ⊢
    rw [readEntries, readStr_writeStr hshort _]
    simp only [hv _, List.isEmpty_iff, hk, if_false, hrest]
    simp [ExtTreeMap.insertMany_cons]

theorem readMap_writeMap (h : Faithful (fun v ↦ Parses readValue (writeValue v) v) m) :
    Parses (readMap readValue) (writeMap writeValue m) m := by
  intro r
  have hentries : ∀ e ∈ m.toList,
      e.1 ≠ [] ∧ Short e.1.length ∧ Parses readValue (writeValue e.2) e.2 :=
    fun e he ↦ h.entries e.1 e.2 (ExtTreeMap.mem_toList_iff_getElem?_eq_some.mp he)
  have hread := readEntries_writeEntries m.toList ∅ r hentries
  rw [ExtTreeMap.length_toList] at hread
  simp only [readMap, writeMap, List.append_assoc]
  rw [readU32_packU32 h.size _]
  simp only [hread, FiniteMap.insertMany_toList]

theorem readEntries_each {Q : V → Prop} (hQ : Yields readValue Q) (n : Nat) (m : Dict V)
    (hm : Each (fun k v ↦ k ≠ [] ∧ Q v) m) :
    Yields (readEntries readValue n m) (Each (fun k v ↦ k ≠ [] ∧ Q v)) := by
  induction n generalizing m with
  | zero => exact fun _ ↦ hm
  | succ n ih =>
    intro r
    simp only [readEntries]
    generalize readStr r = key
    apply ih
    by_cases hkey : key.1 = []
    · simpa [hkey] using hm
    · simpa [hkey] using hm.insert ⟨hkey, hQ key.2⟩

theorem readMap_each {Q : V → Prop} (hQ : Yields readValue Q) :
    Yields (readMap readValue) (Each (fun k v ↦ k ≠ [] ∧ Q v)) :=
  fun _ ↦ readEntries_each hQ _ ∅ each_empty _

@[simp] theorem length_packU32 (n : Nat) : (packU32 n).length = 4 := rfl

theorem length_entry_le {k : ByteString} {v : V} (h : m[k]? = some v) :
    k.length + (writeValue v).length ≤ (writeMap writeValue m).length := by
  have hmem := ExtTreeMap.mem_toList_iff_getElem?_eq_some.mpr h
  have hentry := (List.sublist_flatten_of_mem (List.mem_map_of_mem
    (f := fun e : ByteString × V ↦ writeStr e.1 ++ writeValue e.2) hmem)).length_le
  simp only [writeMap, writeEntries, List.flatMap, writeStr, List.length_append,
    length_packU32] at hentry ⊢
  omega

theorem size_le_length_writeMap : m.size ≤ (writeMap writeValue m).length := by
  have hentries (l : List (ByteString × V)) : l.length ≤ (writeEntries writeValue l).length := by
    induction l with
    | nil => simp
    | cons e l ih =>
      simp only [writeEntries, List.flatMap_cons, List.length_append, writeStr, length_packU32,
        List.length_cons] at ih ⊢
      omega
  have h := hentries m.toList
  rw [ExtTreeMap.length_toList] at h
  simp only [writeMap, List.length_append]
  omega

theorem faithful_of_length {ok : V → Prop} (hm : Each (fun k _ ↦ k ≠ []) m)
    (h : Short (writeMap writeValue m).length)
    (hok : Each (fun _ v ↦ Short (writeValue v).length → ok v) m) : Faithful ok m := by
  refine ⟨size_le_length_writeMap.trans_lt h, fun k v hk ↦ ?_⟩
  have hentry : k.length + (writeValue v).length ≤ _ := length_entry_le hk
  have hle := hentry.trans_lt h
  exact ⟨hm k v hk, (Nat.le_add_right _ _).trans_lt hle,
    hok k v hk ((Nat.le_add_left _ _).trans_lt hle)⟩

theorem four_le_length_writeMap : 4 ≤ (writeMap writeValue m).length := by
  simp [writeMap]

theorem length_writeMap_eq_four (h : (writeMap writeValue m).length = 4) : m = ∅ := by
  rw [← ExtTreeMap.toList_eq_nil_iff]
  cases he : m.toList with
  | nil => rfl
  | cons e l => simp [writeMap, writeEntries, writeStr, he] at h

end Cerberus.Foundation.Wire
