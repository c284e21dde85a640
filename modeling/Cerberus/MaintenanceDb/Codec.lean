import Cerberus.MaintenanceDb.Store

namespace Cerberus.MaintenanceDb

open Std Foundation Foundation.Bytes Foundation.Wire

theorem get_assign {m : Fields} {l : List (String × ByteString)} {name : String}
    {value : ByteString} (hl : (l.map Prod.fst).Nodup) (h : (name, value) ∈ l) :
    (assign m l)[lit name]? = some value := by
  have hdistinct : (l.map (fun e ↦ (lit e.1, e.2))).Pairwise
      (fun a b ↦ ¬ compare a.1 b.1 = Ordering.eq) := by
    rw [List.Nodup, List.pairwise_map] at hl
    rw [List.pairwise_map]
    exact hl.imp (fun hne heq ↦ hne (lit_injective (Std.compare_eq_iff_eq.mp heq)))
  have hmem : (lit name, value) ∈ l.map (fun e ↦ (lit e.1, e.2)) :=
    List.mem_map.mpr ⟨(name, value), h, rfl⟩
  exact ExtTreeMap.getElem?_insertMany_list_of_mem ReflCmp.compare_self hdistinct hmem

theorem TrustPolicy.entries_nodup (p : TrustPolicy) : (p.entries.map Prod.fst).Nodup := by
  simp [entries]

theorem TrustPolicy.text_toMap {p : TrustPolicy} {name : String} {value : ByteString}
    (h : (name, value) ∈ p.entries) : p.toMap.text name = value := by
  rw [Fields.text, toMap, get_assign p.entries_nodup h]
  rfl

theorem TrustPolicy.fromMap_toMap (p : TrustPolicy) : TrustPolicy.fromMap p.toMap = p := by
  cases p
  simp only [fromMap, TrustPolicy.mk.injEq]
  repeat' apply And.intro
  all_goals
    apply text_toMap
    simp [entries]

def Expressible (m : Fields) : Prop := Faithful (fun v ↦ Short v.length) m

theorem readFields_serializeFields {m : Fields} (h : Expressible m) :
    Parses readFields (serializeFields m) m :=
  readMap_writeMap ⟨h.size, fun k v hk ↦
    ⟨(h.entries k v hk).1, (h.entries k v hk).2.1, readStr_writeStr (h.entries k v hk).2.2⟩⟩

theorem readMapOfMaps_serializeTable {t : Table} (h : Faithful Expressible t) :
    Parses readMapOfMaps (serializeTable t) t :=
  readMap_writeMap ⟨h.size, fun k v hk ↦
    ⟨(h.entries k v hk).1, (h.entries k v hk).2.1,
      readFields_serializeFields (h.entries k v hk).2.2⟩⟩

theorem each_assign {P : ByteString → ByteString → Prop} {m : Fields}
    {l : List (String × ByteString)} (hm : Each P m) (hl : ∀ e ∈ l, P (lit e.1) e.2) :
    Each P (assign m l) := by
  induction l generalizing m with
  | nil => simpa [assign] using hm
  | cons e l ih =>
    have hrest := ih (hm.insert (hl e (by simp))) (fun e' he ↦ hl e' (by simp [he]))
    simpa [assign, ExtTreeMap.insertMany_cons] using hrest

theorem TrustPolicy.names {p : TrustPolicy} {e : String × ByteString} (he : e ∈ p.entries) :
    lit e.1 ≠ [] ∧ Short (lit e.1).length := by
  have hclosed : ∀ name ∈ ({} : TrustPolicy).entries.map Prod.fst,
      lit name ≠ [] ∧ (lit name).length < 2 ^ 32 := by decide
  have hsame : p.entries.map Prod.fst = ({} : TrustPolicy).entries.map Prod.fst := rfl
  exact hclosed e.1 (hsame ▸ List.mem_map_of_mem he)

theorem TrustPolicy.toMap_expressible {p : TrustPolicy}
    (h : ∀ e ∈ p.entries, Short e.2.length) : Expressible p.toMap where
  size := by
    have hsize : p.toMap.size ≤ 0 + p.entries.length := by
      simpa [toMap, assign] using ExtTreeMap.size_insertMany_list_le (t := (∅ : Fields))
        (l := p.entries.map (fun e ↦ (lit e.1, e.2)))
    have hlength : p.entries.length = 26 := rfl
    simp only [Short]
    omega
  entries := each_assign each_empty (fun e he ↦ ⟨(names he).1, (names he).2, h e he⟩)

structure Tables.Expressible (t : Tables) : Prop where
  table : ∀ n, Faithful MaintenanceDb.Expressible (t.get n)
  preferences : MaintenanceDb.Expressible t.preferences
  revokedHashes : MaintenanceDb.Expressible t.revokedHashes
  trustPolicy : ∀ p, t.trustPolicy = some p → ∀ e ∈ p.entries, Short e.2.length

theorem readPolicy_serializePolicy {policy : Option TrustPolicy}
    (h : ∀ p, policy = some p → ∀ e ∈ p.entries, Short e.2.length) :
    Parses (readPolicy none) (serializePolicy policy) policy := by
  unfold readPolicy
  cases policy with
  | none =>
    have hflag : Parses readU32 (packU32 0) 0 := readU32_packU32 (by simp [Short])
    rw [serializePolicy, ← List.append_nil (packU32 0)]
    apply hflag.bind
    exact Parses.pure none
  | some p =>
    have hflag : Parses readU32 (packU32 1) 1 := readU32_packU32 (by simp [Short])
    have hmap := readFields_serializeFields (TrustPolicy.toMap_expressible (h p rfl))
    apply hflag.bind
    rw [if_pos (by decide), ← List.append_nil (serializeFields p.toMap)]
    apply hmap.bind
    rw [TrustPolicy.fromMap_toMap]
    exact Parses.pure (some p)

theorem readTables_body {t t₀ : Tables} (h : t.Expressible) (h₀ : t₀.trustPolicy = none) :
    ∃ body, plaintext t = packU32 kMagic ++ body ∧ Parses (readTables t₀) body t := by
  have hversion : Parses readU32 (packU32 kVersion) kVersion := readU32_packU32 (by simp [Short, kVersion])
  have htable (n : TableName) := readMapOfMaps_serializeTable (h.table n)
  simp only [plaintext, List.flatten_cons, List.flatten_nil]
  refine ⟨_, rfl, ?_⟩
  rw [readTables, h₀]
  apply hversion.bind
  apply (htable .licenses).bind
  apply (htable .extensionEntries).bind
  apply (htable .revenueRecords).bind
  apply (htable .reviews).bind
  apply (htable .extensionStats).bind
  apply (htable .credentialRecords).bind
  apply (htable .auditEvents).bind
  apply (htable .rbpcStateRecords).bind
  apply (htable .vipKeys).bind
  apply (htable .onboardingGrants).bind
  apply (htable .inferenceRecords).bind
  apply (htable .fileVaultRecords).bind
  apply (readFields_serializeFields h.preferences).bind
  apply (readFields_serializeFields h.revokedHashes).bind
  apply (readPolicy_serializePolicy h.trustPolicy).bind
  exact Parses.pure t

theorem deserializeAll_plaintext {t t₀ : Tables} (h : t.Expressible)
    (h₀ : t₀.trustPolicy = none) : deserializeAll t₀ (plaintext t) = some t := by
  obtain ⟨body, hbody, hparse⟩ := readTables_body h h₀
  have hmagic : readU32 (plaintext t) = (kMagic, body) := by
    rw [hbody]
    exact readU32_packU32 (by simp [Short, kMagic]) body
  have htables : readTables t₀ body = (t, []) := by simpa using hparse []
  have hlong : ¬ (plaintext t).length < 4 := by
    rw [hbody]
    simp
  simp only [deserializeAll, hlong, if_false, hmagic, ne_eq, not_true_eq_false, htables]

def Named (m : Fields) : Prop := Each (fun k _ ↦ k ≠ []) m

def NamedTable (t : Table) : Prop := Each (fun k r ↦ k ≠ [] ∧ Named r) t

structure Tables.Named (t : Tables) : Prop where
  table : ∀ n, NamedTable (t.get n)
  preferences : MaintenanceDb.Named t.preferences
  revokedHashes : MaintenanceDb.Named t.revokedHashes

theorem readFields_named : Yields readFields Named := by
  intro r k v hk
  exact (readMap_each (Q := fun _ ↦ True) (fun _ ↦ trivial) r k v hk).1

theorem readMapOfMaps_named : Yields readMapOfMaps NamedTable := readMap_each readFields_named

theorem readTables_named (t₀ : Tables) : Yields (readTables t₀) Tables.Named := by
  unfold readTables
  refine Yields.bind (P := fun _ ↦ True) (fun _ ↦ trivial) (fun _ _ ↦ ?_)
  refine readMapOfMaps_named.bind (fun licenses hlicenses ↦ ?_)
  refine readMapOfMaps_named.bind (fun extensionEntries hextensionEntries ↦ ?_)
  refine readMapOfMaps_named.bind (fun revenueRecords hrevenueRecords ↦ ?_)
  refine readMapOfMaps_named.bind (fun reviews hreviews ↦ ?_)
  refine readMapOfMaps_named.bind (fun extensionStats hextensionStats ↦ ?_)
  refine readMapOfMaps_named.bind (fun credentialRecords hcredentialRecords ↦ ?_)
  refine readMapOfMaps_named.bind (fun auditEvents hauditEvents ↦ ?_)
  refine readMapOfMaps_named.bind (fun rbpcStateRecords hrbpcStateRecords ↦ ?_)
  refine readMapOfMaps_named.bind (fun vipKeys hvipKeys ↦ ?_)
  refine readMapOfMaps_named.bind (fun onboardingGrants honboardingGrants ↦ ?_)
  refine readMapOfMaps_named.bind (fun inferenceRecords hinferenceRecords ↦ ?_)
  refine readMapOfMaps_named.bind (fun fileVaultRecords hfileVaultRecords ↦ ?_)
  refine readFields_named.bind (fun preferences hpreferences ↦ ?_)
  refine readFields_named.bind (fun revokedHashes hrevokedHashes ↦ ?_)
  refine Yields.bind (P := fun _ ↦ True) (fun _ ↦ trivial) (fun trustPolicy _ ↦ ?_)
  refine Yields.pure ⟨fun n ↦ ?_, hpreferences, hrevokedHashes⟩
  cases n <;> assumption

/-- Whatever a file holds, the tables that are read from it have no empty key. -/
theorem deserializeAll_named {t t₀ : Tables} {input : ByteString}
    (h : deserializeAll t₀ input = some t) : t.Named := by
  unfold deserializeAll at h
  generalize readU32 input = x at h
  obtain ⟨magic, r⟩ := x
  by_cases hlong : input.length < 4
  · simp [hlong] at h
  · by_cases hmagic : magic = kMagic
    · simp only [hlong, hmagic, if_false, ne_eq, not_true_eq_false] at h
      rw [← Option.some.inj h]
      exact readTables_named t₀ r
    · simp [hlong, hmagic] at h

theorem length_plaintext (t : Tables) :
    (plaintext t).length = 8 + (serializeTable t.licenses).length +
      (serializeTable t.extensionEntries).length + (serializeTable t.revenueRecords).length +
      (serializeTable t.reviews).length + (serializeTable t.extensionStats).length +
      (serializeTable t.credentialRecords).length + (serializeTable t.auditEvents).length +
      (serializeTable t.rbpcStateRecords).length + (serializeTable t.vipKeys).length +
      (serializeTable t.onboardingGrants).length + (serializeTable t.inferenceRecords).length +
      (serializeTable t.fileVaultRecords).length + (serializeFields t.preferences).length +
      (serializeFields t.revokedHashes).length + (serializePolicy t.trustPolicy).length := by
  simp only [plaintext, List.flatten_cons, List.flatten_nil, List.length_append, length_packU32,
    List.length_nil]
  omega

theorem length_section_le (t : Tables) (n : TableName) :
    (serializeTable (t.get n)).length ≤ (plaintext t).length := by
  rw [length_plaintext]
  cases n <;> simp only [Tables.get] <;> omega

theorem expressible_of_length {m : Fields} (hm : Named m)
    (h : Short (serializeFields m).length) : Expressible m := by
  apply faithful_of_length hm h
  intro k v _ hv
  simp only [writeStr, Short, List.length_append] at hv ⊢
  omega

theorem expressible_table_of_length {t : Table} (ht : NamedTable t)
    (h : Short (serializeTable t).length) : Faithful Expressible t :=
  faithful_of_length (fun k v hk ↦ (ht k v hk).1) h
    (fun k v hk ↦ expressible_of_length (ht k v hk).2)

theorem Tables.Named.expressible {t : Tables} (hn : t.Named) (h : Short (plaintext t).length) :
    t.Expressible where
  table n := expressible_table_of_length (hn.table n) ((length_section_le t n).trans_lt h)
  preferences := by
    refine expressible_of_length hn.preferences (Nat.lt_of_le_of_lt ?_ h)
    rw [length_plaintext]
    omega
  revokedHashes := by
    refine expressible_of_length hn.revokedHashes (Nat.lt_of_le_of_lt ?_ h)
    rw [length_plaintext]
    omega
  trustPolicy p hp e he := by
    have hvalue : p.toMap[lit e.1]? = some e.2 := get_assign p.entries_nodup he
    have hle : _ + (writeStr e.2).length ≤ _ := length_entry_le hvalue
    have hpolicy : (serializeFields p.toMap).length ≤ (plaintext t).length := by
      rw [length_plaintext, hp, serializePolicy, List.length_append]
      omega
    simp only [writeStr, List.length_append] at hle
    simp only [serializeFields] at hpolicy
    simp only [Short] at h ⊢
    omega

end Cerberus.MaintenanceDb
