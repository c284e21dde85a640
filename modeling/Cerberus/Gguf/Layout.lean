import Cerberus.Gguf.Model

namespace Cerberus.Gguf

open Foundation Foundation.Bytes Foundation.LittleEndian InputStream

def GgufMetadataType.width : GgufMetadataType → Option Nat
  | .uint8 | .int8 | .bool => some 1
  | .uint16 | .int16 => some 2
  | .uint32 | .int32 | .float32 => some 4
  | .uint64 | .int64 | .float64 => some 8
  | .string | .array | .unknown _ => none

def GgufMetadataType.Known (type : GgufMetadataType) : Prop := ∀ raw, type ≠ .unknown raw

def typeAt (i : Nat) (b : ByteString) : GgufMetadataType := .ofRaw (readAt i 4 b)

/-- Between two offsets lies a value, as the parser skips it. If `lax`, its tags may be unknown,
which takes no bytes, and the length of a string may be read as a negative one. -/
inductive Lies (kind : StreamKind) (b : ByteString) (lax : Prop) :
    GgufMetadataType → Nat → Nat → Prop
  | scalar {type : GgufMetadataType} {w i : Nat} (hw : type.width = some w)
    (hi : i + w ≤ b.length) : Lies kind b lax type i (i + w)
  | string {i j : Nat} (hi : i + 8 ≤ b.length) (hj : (j : Int) = i + 8 + signed64 (readAt i 8 b))
    (hadmits : kind.admits b.length j) (hforward : lax ∨ readAt i 8 b < 2 ^ 63) :
    Lies kind b lax .string i j
  | array {i : Nat} {f : Nat → Nat} (hi : i + 12 ≤ b.length) (hf : f 0 = i + 12)
    (hitems : ∀ k < readAt (i + 4) 8 b, Lies kind b lax (typeAt i b) (f k) (f (k + 1)))
    (hknown : lax ∨ (typeAt i b).Known) :
    Lies kind b lax .array i (f (readAt (i + 4) 8 b))
  | unknown {raw i : Nat} (h : lax) : Lies kind b lax (.unknown raw) i i

inductive Chain (R : Nat → Nat → Prop) : Nat → Nat → Nat → Prop
  | nil (i : Nat) : Chain R 0 i i
  | cons {n i k j : Nat} (h : R i k) (hs : Chain R n k j) : Chain R (n + 1) i j

section

variable {R R' : Nat → Nat → Prop} {n m i j k : Nat}

theorem Chain.append (h : Chain R n i k) (h' : Chain R m k j) : Chain R (n + m) i j := by
  induction h with
  | nil i => rwa [Nat.zero_add]
  | @cons n i k' k hr hs ih =>
    rw [Nat.add_right_comm]
    exact .cons hr (ih h')

theorem Chain.snoc (h : Chain R n i k) (hr : R k j) : Chain R (n + 1) i j :=
  h.append (.cons hr (.nil j))

theorem Chain.mono (hR : ∀ i j, R i j → R' i j) (h : Chain R n i j) : Chain R' n i j := by
  induction h with
  | nil i => exact .nil i
  | cons hr hs ih => exact .cons (hR _ _ hr) ih

theorem chain_of_forall {f : Nat → Nat} (h : ∀ k < n, R (f k) (f (k + 1))) :
    Chain R n (f 0) (f n) := by
  induction n with
  | zero => exact .nil _
  | succ n ih => exact (ih (fun k hk ↦ h k (by omega))).snoc (h n (by omega))

theorem Chain.exists_forall (h : Chain R n i j) :
    ∃ f : Nat → Nat, f 0 = i ∧ f n = j ∧ ∀ k < n, R (f k) (f (k + 1)) := by
  induction h with
  | nil i => exact ⟨fun _ ↦ i, rfl, rfl, fun k hk ↦ absurd hk (by omega)⟩
  | @cons n i k j hr hs ih =>
    obtain ⟨f, h0, hn, hstep⟩ := ih
    refine ⟨fun m ↦ if m = 0 then i else f (m - 1), rfl, by simpa using hn, fun m hm ↦ ?_⟩
    cases m with
    | zero => simpa [h0] using hr
    | succ m => simpa using hstep m (by omega)

theorem Chain.unique (hR : ∀ i j j', R i j → R i j' → j = j') (h : Chain R n i j)
    (h' : Chain R n i k) : j = k := by
  induction h with
  | nil i =>
    cases h'
    rfl
  | cons hr hs ih =>
    cases h' with
    | cons hr' hs' =>
      rw [hR _ _ _ hr hr'] at ih
      exact ih hs'

end

variable {kind : StreamKind} {b : ByteString} {lax : Prop} {type : GgufMetadataType}
  {n i j d w : Nat} {s s' : InputStream} {ok : Bool}
  {skipItem skipItem' : InputStream → Option (Bool × InputStream)}

theorem lies_array {n : Nat} (hi : i + 12 ≤ b.length) (hn : readAt (i + 4) 8 b = n)
    (hitems : Chain (Lies kind b lax (typeAt i b)) n (i + 12) j)
    (hknown : lax ∨ (typeAt i b).Known) : Lies kind b lax .array i j := by
  obtain ⟨f, h0, rfl, hstep⟩ := hitems.exists_forall
  rw [← hn] at hstep ⊢
  exact .array hi h0 hstep hknown

theorem Lies.relax (h : Lies kind b lax type i j) : Lies kind b True type i j := by
  induction h with
  | scalar hw hi => exact .scalar hw hi
  | string hi hj hadmits _ => exact .string hi hj hadmits (.inl trivial)
  | array hi hf _ _ ih => exact .array hi hf ih (.inl trivial)
  | unknown _ => exact .unknown trivial

theorem Lies.unique {j' : Nat} (h : Lies kind b lax type i j) (h' : Lies kind b lax type i j') :
    j = j' := by
  induction h generalizing j' with
  | scalar hw hi =>
    cases h' with
    | scalar hw' _ =>
      rw [hw, Option.some_inj] at hw'
      rw [hw']
    | string => cases hw
    | array => cases hw
    | unknown => cases hw
  | string hi hj _ _ =>
    cases h' with
    | scalar hw _ => cases hw
    | string _ hj' _ _ => omega
  | @array i f hi hf hitems _ ih =>
    cases h' with
    | scalar hw _ => cases hw
    | @array _ f' _ hf' hitems' _ =>
      have heq : ∀ k ≤ readAt (i + 4) 8 b, f k = f' k := by
        intro k
        induction k with
        | zero => exact fun _ ↦ hf.trans hf'.symm
        | succ k ihk =>
          intro hk
          have hprev := ihk (by omega)
          refine ih k (by omega) ?_
          rw [hprev]
          exact hitems' k (by omega)
      exact heq _ le_rfl
  | unknown _ =>
    cases h' with
    | scalar hw _ => cases hw
    | unknown _ => rfl

theorem skip_scalar (hw : type.width = some w) (d : Nat) (s : InputStream) :
    skipMetadataValue (d + 1) type s = some ((s.read w).2.good, (s.read w).2) := by
  cases type <;> cases hw <;> rfl

theorem width_pos (hw : type.width = some w) : 0 < w := by
  cases type <;> cases hw <;> decide

theorem skipItems_mono (h : ∀ s r, skipItem s = some r → skipItem' s = some r)
    {r : Bool × InputStream} (hr : skipItems skipItem n s = some r) : skipItems skipItem' n s = some r := by
  induction n generalizing s with
  | zero => exact hr
  | succ n ih =>
    rw [skipItems, Option.bind_eq_bind, Option.bind_eq_some_iff] at hr
    obtain ⟨item, hitem, hr⟩ := hr
    rw [skipItems, Option.bind_eq_bind, h s item hitem, Option.bind_some]
    split at hr
    · rename_i hok
      rw [if_pos hok]
      exact ih hr
    · rename_i hok
      rw [if_neg hok]
      exact hr

theorem skipAll_mono (h : ∀ s r, skipItem s = some r → skipItem' s = some r)
    (hr : skipAll skipItem n s = some s') : skipAll skipItem' n s = some s' := by
  induction n generalizing s with
  | zero => exact hr
  | succ n ih =>
    rw [skipAll, Option.bind_eq_bind, Option.bind_eq_some_iff] at hr
    obtain ⟨item, hitem, hr⟩ := hr
    rw [skipAll, Option.bind_eq_bind, h s item hitem, Option.bind_some]
    exact ih hr

theorem skip_succ {r : Bool × InputStream} (h : skipMetadataValue d type s = some r) :
    skipMetadataValue (d + 1) type s = some r := by
  induction d generalizing type s r with
  | zero => cases h
  | succ d ih =>
    cases type with
    | array => exact skipItems_mono (fun s r hr ↦ ih hr) h
    | _ => exact h

theorem skip_mono {d' : Nat} (hd : d ≤ d') {r : Bool × InputStream}
    (h : skipMetadataValue d type s = some r) : skipMetadataValue d' type s = some r := by
  induction hd with
  | refl => exact h
  | step _ ih => exact skip_succ ih

theorem skip_bad (hs : s.good = false) (d : Nat) (type : GgufMetadataType) :
    skipMetadataValue (d + 1) type s = some (false, s) := by
  cases type with
  | string => simp [skipMetadataValue, readNat_bad hs, hs]
  | array => simp [skipMetadataValue, readNat_bad hs, skipItems, hs]
  | unknown raw => simp [skipMetadataValue, hs]
  | _ => simp [skipMetadataValue, read_bad hs, hs]

theorem skip_bad_eq (hs : s.good = false) (h : skipMetadataValue d type s = some (ok, s')) :
    s' = s := by
  cases d with
  | zero => cases h
  | succ d =>
    rw [skip_bad hs] at h
    cases h
    rfl

theorem skipAll_bad (hbad : ∀ s ok s', s.good = false → skipItem s = some (ok, s') → s' = s)
    (hs : s.good = false) (h : skipAll skipItem n s = some s') : s' = s := by
  induction n with
  | zero =>
    cases h
    rfl
  | succ n ih =>
    rw [skipAll, Option.bind_eq_bind, Option.bind_eq_some_iff] at h
    obtain ⟨⟨ok, s₁⟩, hitem, h⟩ := h
    rw [hbad s ok s₁ hs hitem] at h
    exact ih h

theorem skipItems_ok (hok : ∀ s ok s', skipItem s = some (ok, s') → ok = s'.good)
    (h : skipItems skipItem n s = some (ok, s')) : ok = s'.good := by
  induction n generalizing s with
  | zero =>
    cases h
    rfl
  | succ n ih =>
    rw [skipItems, Option.bind_eq_bind, Option.bind_eq_some_iff] at h
    obtain ⟨⟨ok₁, s₁⟩, hitem, h⟩ := h
    split at h
    · exact ih h
    · rename_i hfalse
      cases h
      rw [← hok s ok₁ s₁ hitem]
      simpa using hfalse

theorem skip_ok (h : skipMetadataValue d type s = some (ok, s')) : ok = s'.good := by
  induction d generalizing type s ok s' with
  | zero => cases h
  | succ d ih =>
    cases type with
    | array => exact skipItems_ok (fun s ok s' hitem ↦ ih hitem) h
    | _ =>
      cases h
      rfl

theorem skipAll_of_skipItems (hok : ∀ s ok s', skipItem s = some (ok, s') → ok = s'.good)
    (h : skipItems skipItem n s = some (ok, s')) (hs' : s'.good = true) :
    skipAll skipItem n s = some s' := by
  induction n generalizing s with
  | zero =>
    cases h
    rfl
  | succ n ih =>
    rw [skipItems, Option.bind_eq_bind, Option.bind_eq_some_iff] at h
    obtain ⟨⟨ok₁, s₁⟩, hitem, h⟩ := h
    rw [skipAll, Option.bind_eq_bind, hitem, Option.bind_some]
    split at h
    · exact ih h
    · rename_i hfalse
      cases h
      rw [hok s ok₁ s₁ hitem] at hfalse
      exact absurd hs' hfalse

section

variable {R : Nat → Nat → Prop}

theorem chain_of_skipAll (hbad : ∀ s ok s', s.good = false → skipItem s = some (ok, s') → s' = s)
    (hitem : ∀ i ok s', skipItem (atPos kind b i) = some (ok, s') → s'.good = true →
      ∃ j, s' = atPos kind b j ∧ R i j)
    (h : skipAll skipItem n (atPos kind b i) = some s') (hs' : s'.good = true) :
    ∃ j, s' = atPos kind b j ∧ Chain R n i j := by
  induction n generalizing i with
  | zero =>
    cases h
    exact ⟨i, rfl, .nil i⟩
  | succ n ih =>
    rw [skipAll, Option.bind_eq_bind, Option.bind_eq_some_iff] at h
    obtain ⟨⟨ok, s₁⟩, hfirst, h⟩ := h
    by_cases hs₁ : s₁.good = true
    · obtain ⟨k, rfl, hik⟩ := hitem i ok s₁ hfirst hs₁
      obtain ⟨j, hj, hchain⟩ := ih h
      exact ⟨j, hj, .cons hik hchain⟩
    · rw [skipAll_bad hbad (by simpa using hs₁) h] at hs'
      exact absurd hs' hs₁

theorem skipItems_of_chain
    (hitem : ∀ i j, R i j → skipItem (atPos kind b i) = some (true, atPos kind b j))
    (h : Chain R n i j) :
    skipItems skipItem n (atPos kind b i) = some (true, atPos kind b j) := by
  induction h with
  | nil i => rfl
  | cons hr _ ih =>
    rw [skipItems, Option.bind_eq_bind, hitem _ _ hr, Option.bind_some]
    exact ih

theorem skipAll_of_chain
    (hitem : ∀ i j, R i j → skipItem (atPos kind b i) = some (true, atPos kind b j))
    (h : Chain R n i j) : skipAll skipItem n (atPos kind b i) = some (atPos kind b j) := by
  induction h with
  | nil i => rfl
  | cons hr _ ih =>
    rw [skipAll, Option.bind_eq_bind, hitem _ _ hr, Option.bind_some]
    exact ih

end

theorem exists_depth {f g : Nat → Nat} (h : ∀ k < n, ∃ d, skipMetadataValue d type
      (atPos kind b (f k)) = some (true, atPos kind b (g k))) :
    ∃ d, ∀ k < n, skipMetadataValue d type (atPos kind b (f k)) =
      some (true, atPos kind b (g k)) := by
  induction n with
  | zero => exact ⟨0, fun k hk ↦ absurd hk (by omega)⟩
  | succ n ih =>
    obtain ⟨d, hd⟩ := ih (fun k hk ↦ h k (by omega))
    obtain ⟨d', hd'⟩ := h n (by omega)
    refine ⟨max d d', fun k hk ↦ ?_⟩
    rcases Nat.lt_succ_iff_lt_or_eq.mp hk with hk | rfl
    · exact skip_mono (le_max_left d d') (hd k hk)
    · exact skip_mono (le_max_right d d') hd'

theorem skip_array (hi : i + 12 ≤ b.length) (d : Nat) :
    skipMetadataValue (d + 1) .array (atPos kind b i) =
      skipItems (skipMetadataValue d (typeAt i b)) (readAt (i + 4) 8 b) (atPos kind b (i + 12)) := by
  rw [skipMetadataValue, readNat_full (by omega), readNat_full (by omega)]
  rfl

theorem skip_of_lies (h : Lies kind b True type i j) :
    ∃ d, skipMetadataValue d type (atPos kind b i) = some (true, atPos kind b j) := by
  induction h with
  | scalar hw hi => exact ⟨1, by rw [skip_scalar hw, read_full hi]; rfl⟩
  | @string i j hi hj hadmits _ =>
    refine ⟨1, ?_⟩
    rw [skipMetadataValue, readNat_full hi]
    by_cases hlen : 0 < readAt i 8 b
    · simp only [if_pos hlen, seekCur_ok (i := i + 8) (by simpa using hj) hadmits]
      rfl
    · have hzero : readAt i 8 b = 0 := by omega
      have hj' : j = i + 8 := by
        rw [hzero, signed64, if_pos (by decide)] at hj
        omega
      simp only [if_neg hlen, hj']
      rfl
  | @array i f hi hf _ _ ih =>
    obtain ⟨d, hd⟩ := exists_depth ih
    refine ⟨d + 1, ?_⟩
    rw [skip_array hi, ← hf]
    exact skipItems_of_chain (fun _ _ h ↦ h) (chain_of_forall hd)
  | unknown _ => exact ⟨1, rfl⟩

theorem array_header_short (hi : b.length < i + 12) :
    (((atPos kind b i).readNat 4).2.readNat 8).2.good = false := by
  by_cases h4 : i + 4 ≤ b.length
  · rw [readNat_full h4]
    exact readNat_short (by decide) (by omega)
  · have hbad : ((atPos kind b i).readNat 4).2.good = false :=
      readNat_short (by decide) (by omega)
    rw [readNat_bad hbad]
    exact hbad

theorem skipItems_bad (hbad : ∀ s ok s', s.good = false → skipItem s = some (ok, s') → s' = s)
    (hok : ∀ s ok s', skipItem s = some (ok, s') → ok = s'.good)
    (hs : s.good = false) (h : skipItems skipItem n s = some (ok, s')) : s'.good = false := by
  by_contra hs'
  have hall := skipAll_of_skipItems hok h (by simpa using hs')
  rw [skipAll_bad hbad hs hall] at hs'
  exact hs' hs

theorem admits_of_le (hb : b.length < 2 ^ 63) (hi : i ≤ b.length) :
    kind.admits b.length i := by
  cases kind <;> simp only [StreamKind.admits] <;> omega

theorem lies_string_of_skip (hb : b.length < 2 ^ 63)
    (h : skipMetadataValue (d + 1) .string (atPos kind b i) = some (ok, s'))
    (hs' : s'.good = true) : ∃ j, s' = atPos kind b j ∧ Lies kind b True .string i j := by
  rw [skipMetadataValue] at h
  by_cases hi : i + 8 ≤ b.length
  · rw [readNat_full hi] at h
    dsimp only at h
    split at h
    · by_cases hadmits : kind.admits b.length ((i + 8 : Nat) + signed64 (readAt i 8 b))
      · have hpos : 0 ≤ ((i + 8 : Nat) : Int) + signed64 (readAt i 8 b) := by
          cases kind <;> exact hadmits.1
        obtain ⟨j, hj⟩ := Int.eq_ofNat_of_zero_le hpos
        rw [hj] at hadmits
        rw [seekCur_ok hj.symm hadmits] at h
        cases h
        exact ⟨j, rfl, .string hi (by omega) hadmits (.inl trivial)⟩
      · cases h
        rw [seekCur_fail hadmits] at hs'
        cases hs'
    · rename_i hlen
      have hzero : readAt i 8 b = 0 := by omega
      cases h
      refine ⟨i + 8, rfl, .string hi ?_ (admits_of_le hb hi) (.inl trivial)⟩
      rw [hzero, signed64, if_pos (by decide)]
      omega
  · have hbad : ((atPos kind b i).readNat 8).2.good = false :=
      readNat_short (by decide) (by omega)
    cases h
    split at hs'
    · rw [seekCur_bad hbad, hbad] at hs'
      cases hs'
    · rw [hbad] at hs'
      cases hs'

theorem lies_of_skip (hb : b.length < 2 ^ 63)
    (h : skipMetadataValue d type (atPos kind b i) = some (ok, s'))
    (hs' : s'.good = true) : ∃ j, s' = atPos kind b j ∧ Lies kind b True type i j := by
  induction d generalizing type i ok s' with
  | zero => cases h
  | succ d ih =>
    cases hw : type.width with
    | some w =>
      rw [skip_scalar hw] at h
      by_cases hi : i + w ≤ b.length
      · rw [read_full hi] at h
        cases h
        exact ⟨i + w, rfl, .scalar hw hi⟩
      · cases h
        rw [read_short (width_pos hw) (by omega)] at hs'
        cases hs'
    | none =>
      cases type with
      | string => exact lies_string_of_skip hb h hs'
      | array =>
        by_cases hi : i + 12 ≤ b.length
        · rw [skip_array hi] at h
          have hall := skipAll_of_skipItems (fun _ _ _ h ↦ skip_ok h) h hs'
          obtain ⟨j, hj, hchain⟩ :=
            chain_of_skipAll (fun _ _ _ hs h ↦ skip_bad_eq hs h) (fun i ok s' h hs' ↦ ih h hs')
              hall hs'
          exact ⟨j, hj, lies_array hi rfl hchain (.inl trivial)⟩
        · have hbad : (((atPos kind b i).readNat 4).2.readNat 8).2.good = false :=
            array_header_short (by omega)
          rw [skipMetadataValue] at h
          have hfail := skipItems_bad (fun _ _ _ hs h ↦ skip_bad_eq hs h)
            (fun _ _ _ h ↦ skip_ok h) hbad h
          rw [hs'] at hfail
          cases hfail
      | unknown raw =>
        cases h
        exact ⟨i, rfl, .unknown trivial⟩
      | _ => cases hw

end Cerberus.Gguf
