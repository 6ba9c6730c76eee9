/-
What readers accept.

`Parses r W` says of a reader which byte strings it takes and which value it gives for them: with
the byte string `w` ahead, whatever follows it, the reader gives `v` and stops behind `w` exactly if
`W v w`.  There is one lemma for each way to put readers together, so the relation of a whole reader
comes from those of its parts.

* **`Parses.bind`** — one reader after another takes a byte string of each;
* **`parses_compactSize`** — a compact size is read in every one of its forms;
* **`parses_length`** — a count or length is, too, up to the largest that is allowed.
-/
import Utxo.Bytes.Cursor
import Utxo.Proofs.Bytes.CompactSize
import Utxo.Proofs.Steps

namespace Utxo

variable {α β ε ε' : Type}

/-- What a reader gives at a cursor, and the cursor afterwards. -/
def outcome (r : ExceptT ε (StateM Cursor) α) (c : Cursor) : Except ε α × Cursor := r.run c

/-- A reader gives a value exactly for the byte strings that a relation allows for it, and stops
behind them. -/
def Parses (r : ExceptT ε (StateM Cursor) α) (W : α → Bytes → Prop) : Prop :=
  ∀ (c c' : Cursor) (v : α), outcome r c = (.ok v, c') ↔
    ∃ w, W v w ∧ c.rest = w ++ c'.rest ∧ c'.position = c.position + w.length

/-! ### Running readers -/

theorem outcome_bind (r : ExceptT ε (StateM Cursor) α) (f : α → ExceptT ε (StateM Cursor) β)
    (c : Cursor) :
    outcome (r >>= f) c = match outcome r c with
      | (.ok a, c') => outcome (f a) c'
      | (.error e, c') => (.error e, c') := by
  rcases h : outcome r c with ⟨e | a, c'⟩
  · exact Steps.on_bind_of_error h
  · exact Steps.on_bind_of_ok h

theorem outcome_adapt (f : ε → ε') (r : ExceptT ε (StateM Cursor) α) (c : Cursor) :
    outcome (ExceptT.adapt f r) c = ((outcome r c).1.mapError f, (outcome r c).2) := rfl

namespace Parses

/-! ### Putting readers together -/

theorem of_iff {r : ExceptT ε (StateM Cursor) α} {W W' : α → Bytes → Prop} (hr : Parses r W)
    (h : ∀ v w, W v w ↔ W' v w) : Parses r W' := by
  intro c c' v
  rw [hr c c' v]
  simp only [h]

theorem pure (a : α) :
    Parses (Pure.pure a : ExceptT ε (StateM Cursor) α) fun v w => v = a ∧ w = [] := by
  intro c c' v
  show ((Except.ok a, c) = (Except.ok v, c')) ↔ _
  constructor
  · rintro ⟨⟩
    exact ⟨[], ⟨rfl, rfl⟩, rfl, rfl⟩
  · rintro ⟨w, ⟨rfl, rfl⟩, hrest, hpos⟩
    -- Nothing is read, so place and rest are the same.
    have hc : c = c' := by
      cases c
      cases c'
      simp_all
    rw [hc]

theorem throw (e : ε) : Parses (throw e : ExceptT ε (StateM Cursor) α) fun _ _ => False := by
  intro c c' v
  show ((Except.error e, c) = (Except.ok v, c')) ↔ _
  simp

theorem bind {r : ExceptT ε (StateM Cursor) α} {f : α → ExceptT ε (StateM Cursor) β}
    {W : α → Bytes → Prop} {V : α → β → Bytes → Prop} (hr : Parses r W)
    (hf : ∀ a, Parses (f a) (V a)) :
    Parses (r >>= f) fun v w => ∃ a w₁ w₂, W a w₁ ∧ V a v w₂ ∧ w = w₁ ++ w₂ := by
  intro c c' v
  rw [outcome_bind]
  constructor
  · intro h
    rcases hrun : outcome r c with ⟨e | a, c₁⟩
    · rw [hrun] at h
      exact absurd h (by simp)
    · rw [hrun] at h
      obtain ⟨w₁, hw₁, hrest₁, hpos₁⟩ := (hr c c₁ a).mp hrun
      obtain ⟨w₂, hw₂, hrest₂, hpos₂⟩ := (hf a c₁ c' v).mp h
      refine ⟨w₁ ++ w₂, ⟨a, w₁, w₂, hw₁, hw₂, rfl⟩, ?_, ?_⟩
      · rw [hrest₁, hrest₂, List.append_assoc]
      · rw [hpos₂, hpos₁, List.length_append, Nat.add_assoc]
  · rintro ⟨w, ⟨a, w₁, w₂, hw₁, hw₂, rfl⟩, hrest, hpos⟩
    -- The cursor between the two reads.
    let c₁ : Cursor := ⟨c.position + w₁.length, w₂ ++ c'.rest⟩
    have hrun : outcome r c = (.ok a, c₁) :=
      (hr c c₁ a).mpr ⟨w₁, hw₁, by rw [hrest, List.append_assoc], rfl⟩
    rw [hrun]
    refine (hf a c₁ c' v).mpr ⟨w₂, hw₂, rfl, ?_⟩
    rw [hpos, List.length_append, Nat.add_assoc]

theorem map {r : ExceptT ε (StateM Cursor) α} {W : α → Bytes → Prop} (hr : Parses r W)
    (g : α → β) :
    Parses (r >>= fun a => Pure.pure (g a)) fun v w => ∃ a, W a w ∧ v = g a := by
  refine (hr.bind fun a => Parses.pure (g a)).of_iff fun v w => ?_
  constructor
  · rintro ⟨a, w₁, w₂, hw, ⟨rfl, rfl⟩, rfl⟩
    exact ⟨a, by rwa [List.append_nil], rfl⟩
  · rintro ⟨a, hw, rfl⟩
    exact ⟨a, w, [], hw, ⟨rfl, rfl⟩, (List.append_nil w).symm⟩

theorem ite {p : Prop} [Decidable p] {r r' : ExceptT ε (StateM Cursor) α}
    {W W' : α → Bytes → Prop} (hr : Parses r W) (hr' : Parses r' W') :
    Parses (if p then r else r') fun v w => if p then W v w else W' v w := by
  split
  · exact hr
  · exact hr'

theorem adapt {r : ExceptT ε (StateM Cursor) α} {W : α → Bytes → Prop} (hr : Parses r W)
    (f : ε → ε') : Parses (ExceptT.adapt f r) W := by
  intro c c' v
  rw [← hr c c' v, outcome_adapt]
  rcases outcome r c with ⟨e | a, c₁⟩ <;> simp [Except.mapError]

end Parses

/-! ### The readers of fixed width -/

theorem parses_bytes (n : Nat) : Parses (Read.bytes n) fun v w => v = w ∧ w.length = n := by
  intro c c' v
  rw [outcome, Read.bytes_run]
  constructor
  · intro h
    split at h
    · next hn =>
      obtain ⟨rfl, rfl⟩ : c.rest.take n = v ∧ c.advance n = c' := by simpa using h
      have hlen : (c.rest.take n).length = n := List.length_take_of_le hn
      exact ⟨_, ⟨rfl, hlen⟩, (List.take_append_drop n c.rest).symm, by rw [hlen]; rfl⟩
    · simp at h
  · rintro ⟨w, ⟨rfl, rfl⟩, hrest, hpos⟩
    have hn : v.length ≤ c.remaining := by
      rw [Cursor.remaining, hrest, List.length_append]
      omega
    have hc : c.advance v.length = c' := by
      cases c'
      simp_all [Cursor.advance]
    rw [if_pos hn, hc, hrest, List.take_left]

theorem parses_natLE (w : Nat) :
    Parses (Read.natLE w) fun n bs => n < 256 ^ w ∧ bs = littleEndian w n := by
  refine ((parses_bytes w).map ofLittleEndian).of_iff fun n bs => ?_
  constructor
  · rintro ⟨bs, ⟨rfl, rfl⟩, rfl⟩
    exact ⟨ofLittleEndian_lt bs, (littleEndian_ofLittleEndian bs).symm⟩
  · rintro ⟨hn, rfl⟩
    exact ⟨_, ⟨rfl, length_littleEndian w n⟩, (ofLittleEndian_littleEndian_of_lt hn).symm⟩

/-- Words are read from the bytes of their integers. -/
theorem parses_word {w : Nat} {ofNat : Nat → α} {toNat : α → Nat} (hlt : ∀ v, toNat v < 256 ^ w)
    (hof : ∀ v, ofNat (toNat v) = v) (hto : ∀ n, n < 256 ^ w → toNat (ofNat n) = n) :
    Parses (Read.natLE w >>= fun n => Pure.pure (ofNat n)) fun v bs =>
      bs = littleEndian w (toNat v) := by
  refine ((parses_natLE w).map ofNat).of_iff fun v bs => ?_
  constructor
  · rintro ⟨n, ⟨hn, rfl⟩, rfl⟩
    rw [hto n hn]
  · rintro rfl
    exact ⟨toNat v, ⟨hlt v, rfl⟩, (hof v).symm⟩

theorem parses_u8 : Parses Read.u8 fun v bs => bs = [v] := by
  have h := parses_word (w := 1) UInt8.toNat_lt (fun _ => UInt8.ofNat_toNat)
    (fun _ hn => UInt8.toNat_ofNat_of_lt' hn)
  refine h.of_iff fun v bs => ?_
  rw [littleEndian, littleEndian, UInt8.ofNat_toNat]

theorem parses_u32 : Parses Read.u32 fun v bs => bs = littleEndian 4 v.toNat :=
  parses_word UInt32.toNat_lt (fun _ => UInt32.ofNat_toNat) fun _ hn => UInt32.toNat_ofNat_of_lt' hn

theorem parses_u64 : Parses Read.u64 fun v bs => bs = littleEndian 8 v.toNat :=
  parses_word UInt64.toNat_lt (fun _ => UInt64.ofNat_toNat) fun _ hn => UInt64.toNat_ofNat_of_lt' hn

/-! ### Compact sizes -/

/-- What stands behind a marker: nothing, or as many bytes of the value as it announces. -/
theorem parses_announced (marker : UInt8) :
    Parses (match CompactSize.announced marker with
        | 0 => Pure.pure marker.toUInt64
        | w => Read.natLE w >>= fun n => Pure.pure (UInt64.ofNat n) : Read UInt64) fun v bs =>
      CompactSize.Form v (marker :: bs) := by
  cases hann : CompactSize.announced marker with
  | zero =>
    refine (Parses.pure marker.toUInt64).of_iff fun v bs => ?_
    rw [CompactSize.form_cons_iff, if_pos hann]
  | succ w =>
    refine ((parses_natLE (w + 1)).map UInt64.ofNat).of_iff fun v bs => ?_
    rw [CompactSize.form_cons_iff, if_neg (by omega), hann]
    -- At most eight bytes are announced, so what they hold is a word.
    have hwide : 256 ^ (w + 1) ≤ 2 ^ 64 := by
      have hle := CompactSize.announced_le marker
      rw [hann] at hle
      exact Nat.pow_le_pow_right (by decide) hle
    constructor
    · rintro ⟨n, ⟨hn, rfl⟩, rfl⟩
      rw [UInt64.toNat_ofNat_of_lt' (Nat.lt_of_lt_of_le hn hwide)]
      exact ⟨hn, rfl⟩
    · rintro ⟨hv, rfl⟩
      exact ⟨v.toNat, ⟨hv, rfl⟩, UInt64.ofNat_toNat.symm⟩

/-- A compact size is read in every one of its forms. -/
theorem parses_compactSize : Parses Read.compactSize CompactSize.Form := by
  refine (parses_u8.bind parses_announced).of_iff fun v w => ?_
  constructor
  · rintro ⟨marker, _, w, rfl, h, rfl⟩
    exact h
  · intro h
    -- The marker is read first, and then what it announces.
    obtain ⟨marker, payload, rfl, -⟩ := h.exists_cons
    exact ⟨marker, [marker], payload, rfl, h, rfl⟩

/-- So is a count or a length, up to the largest that is allowed. -/
theorem parses_length :
    Parses Read.length fun v w => v ≤ CompactSize.maxLength ∧ CompactSize.Form v w := by
  refine (parses_compactSize.bind fun v => Parses.ite (p := CompactSize.maxLength < v)
    (.throw (.tooLarge v)) (.pure v)).of_iff fun v w => ?_
  constructor
  · rintro ⟨u, w₁, w₂, hform, hv, rfl⟩
    split at hv
    · exact hv.elim
    · next hle =>
      obtain ⟨rfl, rfl⟩ := hv
      exact ⟨UInt64.not_lt.mp hle, by rwa [List.append_nil]⟩
  · rintro ⟨hle, hform⟩
    refine ⟨v, w, [], hform, ?_, (List.append_nil w).symm⟩
    rw [if_neg (UInt64.not_lt.mpr hle)]
    exact ⟨rfl, rfl⟩

end Utxo
