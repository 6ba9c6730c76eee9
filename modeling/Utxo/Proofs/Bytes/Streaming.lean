/-
Readers and the bytes that follow.

A reader looks at no byte that it does not take.  So if more bytes are put at the end, it does what
it did before and leaves them where they are, unless the bytes had run out on it: then it may now go
on.

* **`Streams`** — a reader is of this kind;
* **`Streams.bind`** — two of them one after the other are;
* **`Streams.readLength`** — a count or a length is read in this way, in whatever form it is.
-/
import Utxo.Proofs.Bytes.Parsing

namespace Utxo

variable {α β ε ε' : Type}

/-- The cursor with more bytes at the end. -/
def Cursor.extend (c : Cursor) (more : Bytes) : Cursor := ⟨c.position, c.rest ++ more⟩

theorem Cursor.extend_start (bs more : Bytes) :
    (Cursor.start bs).extend more = .start (bs ++ more) := rfl

/-- With more bytes at the end a reader gives the same and leaves them, unless it failed for want of
bytes.  Which errors say so is a parameter. -/
def Streams (short : ε → Prop) (r : ExceptT ε (StateM Cursor) α) : Prop :=
  ∀ (c : Cursor) (more : Bytes),
    (∃ e c', outcome r c = (.error e, c') ∧ short e) ∨
      outcome r (c.extend more) = ((outcome r c).1, (outcome r c).2.extend more)

/-- A read fails because its bytes ran out. -/
def ReadError.IsShort (e : ReadError) : Prop := e = .endOfData

namespace Streams

variable {short : ε → Prop}

theorem pure (a : α) : Streams short (Pure.pure a) := fun _ _ => .inr rfl

theorem throw (e : ε) : Streams (α := α) short (throw e) := fun _ _ => .inr rfl

theorem bind {r : ExceptT ε (StateM Cursor) α} {f : α → ExceptT ε (StateM Cursor) β}
    (hr : Streams short r) (hf : ∀ a, Streams short (f a)) : Streams short (r >>= f) := by
  intro c more
  rw [outcome_bind, outcome_bind]
  rcases hrun : outcome r c with ⟨e | a, c₁⟩
  · -- The first reader fails, and with it both.
    rcases hr c more with ⟨e', c', he', hshort⟩ | hmore
    · rw [hrun] at he'
      cases he'
      exact .inl ⟨e, c₁, rfl, hshort⟩
    · rw [hrun] at hmore
      rw [hmore]
      exact .inr rfl
  · -- It gives a value, so it does with more bytes, and the second one starts before them.
    rcases hr c more with ⟨e', c', he', -⟩ | hmore
    · rw [hrun] at he'
      cases he'
    · rw [hrun] at hmore
      rw [hmore]
      exact hf a c₁ more

theorem ite {p : Prop} [Decidable p] {r r' : ExceptT ε (StateM Cursor) α}
    (hr : Streams short r) (hr' : Streams short r') : Streams short (if p then r else r') := by
  split
  · exact hr
  · exact hr'

theorem adapt {short' : ε' → Prop} {r : ExceptT ε (StateM Cursor) α} {f : ε → ε'}
    (hr : Streams short r) (hf : ∀ e, short e → short' (f e)) :
    Streams short' (ExceptT.adapt f r) := by
  intro c more
  rw [outcome_adapt, outcome_adapt]
  rcases hr c more with ⟨e, c', hrun, hshort⟩ | hmore
  · rw [hrun]
    exact .inl ⟨f e, c', rfl, hf e hshort⟩
  · rw [hmore]
    exact .inr rfl

/-! ### The readers of bytes, words and sizes -/

theorem readBytes (n : Nat) : Streams ReadError.IsShort (Read.bytes n) := by
  intro c more
  by_cases hn : n ≤ c.remaining
  · right
    have hn' : n ≤ (c.extend more).remaining := by
      show n ≤ (c.rest ++ more).length
      rw [List.length_append]
      exact Nat.le_add_right_of_le hn
    rw [outcome, outcome, Read.bytes_run, Read.bytes_run, if_pos hn, if_pos hn']
    have htake : (c.rest ++ more).take n = c.rest.take n := List.take_append_of_le_length hn
    have hdrop : (c.rest ++ more).drop n = c.rest.drop n ++ more :=
      List.drop_append_of_le_length hn
    simp only [Cursor.extend, Cursor.advance, htake, hdrop]
  · left
    refine ⟨.endOfData, c, ?_, rfl⟩
    rw [outcome, Read.bytes_run, if_neg hn]

theorem readNatLE (w : Nat) : Streams ReadError.IsShort (Read.natLE w) :=
  (readBytes w).bind fun _ => .pure _

theorem readU32 : Streams ReadError.IsShort Read.u32 := (readNatLE 4).bind fun _ => .pure _

theorem readU64 : Streams ReadError.IsShort Read.u64 := (readNatLE 8).bind fun _ => .pure _

theorem readCompactSize : Streams ReadError.IsShort Read.compactSize := by
  refine Streams.bind ((readNatLE 1).bind fun _ => .pure _) fun marker => ?_
  -- Behind the marker stands nothing more, or a word of the width that it announces.
  split
  · exact .pure _
  · exact (readNatLE _).bind fun _ => .pure _

theorem readLength : Streams ReadError.IsShort Read.length :=
  readCompactSize.bind fun v => .ite (.throw (ReadError.tooLarge v)) (.pure v)

end Streams

end Utxo
