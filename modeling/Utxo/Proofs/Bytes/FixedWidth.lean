/-
Readers of a fixed width, and where readers stop.

A reader of a fixed width takes as many bytes as it is wide, if so many are ahead, and makes a value of
them; otherwise it does not move.  All readers move forward, and over bytes that are there.

* **`IsFixed.map`** — a reader has the width of the reader that it makes its value from;
* **`Advances.bind`** — one reader after another moves forward if both do;
* **`Cursor.IsIn.advance`** — who moves over bytes that are there stays in the data;
* **`outcome_compactSize_eq_error`** — only bytes that are missing can keep a compact size from being
  read.
-/
import Utxo.Proofs.Bytes.Parsing

namespace Utxo

variable {α β ε : Type} {n : Nat}

/-! ### Readers of a fixed width -/

/-- A reader takes `n` bytes and makes a value of them, or leaves the cursor alone. -/
def IsFixed (r : Read α) (n : Nat) (f : Bytes → α) : Prop :=
  ∀ c : Cursor, outcome r c =
    if n ≤ c.remaining then (.ok (f (c.rest.take n)), c.advance n) else (.error .endOfData, c)

theorem isFixed_bytes (n : Nat) : IsFixed (Read.bytes n) n id := Read.bytes_run n

/-- A reader has the width of the reader that it makes its value from. -/
theorem IsFixed.map {r : Read α} {f : Bytes → α} (h : IsFixed r n f) (g : α → β) :
    IsFixed (r >>= fun a => Pure.pure (g a)) n (g ∘ f) := by
  intro c
  rw [outcome_bind, h c]
  split_ifs <;> rfl

theorem isFixed_reversed (n : Nat) : IsFixed (Read.reversed n) n List.reverse :=
  (isFixed_bytes n).map List.reverse

theorem isFixed_natLE (w : Nat) : IsFixed (Read.natLE w) w ofLittleEndian :=
  (isFixed_bytes w).map ofLittleEndian

theorem isFixed_u8 : IsFixed Read.u8 1 fun bs => UInt8.ofNat (ofLittleEndian bs) :=
  (isFixed_natLE 1).map UInt8.ofNat

theorem isFixed_u16 : IsFixed Read.u16 2 fun bs => UInt16.ofNat (ofLittleEndian bs) :=
  (isFixed_natLE 2).map UInt16.ofNat

theorem isFixed_u32 : IsFixed Read.u32 4 fun bs => UInt32.ofNat (ofLittleEndian bs) :=
  (isFixed_natLE 4).map UInt32.ofNat

theorem isFixed_i32 : IsFixed Read.i32 4 fun bs => (UInt32.ofNat (ofLittleEndian bs)).toInt32 :=
  isFixed_u32.map UInt32.toInt32

theorem isFixed_u64 : IsFixed Read.u64 8 fun bs => UInt64.ofNat (ofLittleEndian bs) :=
  (isFixed_natLE 8).map UInt64.ofNat

/-! ### Moving forward -/

namespace Cursor

theorem advance_zero (c : Cursor) : c.advance 0 = c := rfl

theorem advance_advance (c : Cursor) (m n : Nat) : (c.advance m).advance n = c.advance (m + n) := by
  simp [advance, Nat.add_assoc]

theorem remaining_advance (c : Cursor) (n : Nat) :
    (c.advance n).remaining = c.remaining - n := List.length_drop

/-- The cursor is at a place of the data, with what is behind the place ahead of it. -/
structure IsIn (c : Cursor) (data : Bytes) : Prop where
  position_le : c.position ≤ data.length
  rest_eq : c.rest = data.drop c.position

variable {c : Cursor} {data : Bytes}

theorem isIn_start (data : Bytes) : (start data).IsIn data := ⟨Nat.zero_le _, rfl⟩

/-- What is behind a cursor and what is ahead of it make up the data. -/
theorem IsIn.position_add_remaining (h : c.IsIn data) :
    c.position + c.remaining = data.length := by
  have := h.position_le
  rw [remaining, h.rest_eq, List.length_drop]
  omega

/-- A cursor that moves over bytes that are there stays in the data. -/
theorem IsIn.advance (h : c.IsIn data) (hn : n ≤ c.remaining) : (c.advance n).IsIn data := by
  have hsum := h.position_add_remaining
  refine ⟨?_, ?_⟩
  · show c.position + n ≤ data.length
    omega
  · show c.rest.drop n = data.drop (c.position + n)
    rw [h.rest_eq, List.drop_drop]

end Cursor

/-- A reader moves forward over bytes that are there, whether or not it gives a value. -/
def Advances (r : ExceptT ε (StateM Cursor) α) : Prop :=
  ∀ c : Cursor, ∃ n ≤ c.remaining, (outcome r c).2 = c.advance n

theorem IsFixed.advances {r : Read α} {f : Bytes → α} (h : IsFixed r n f) : Advances r := by
  intro c
  rw [h c]
  split_ifs with hn
  · exact ⟨n, hn, rfl⟩
  · exact ⟨0, Nat.zero_le _, c.advance_zero.symm⟩

namespace Advances

theorem pure (a : α) : Advances (Pure.pure a : ExceptT ε (StateM Cursor) α) :=
  fun c => ⟨0, Nat.zero_le _, c.advance_zero.symm⟩

theorem throw (e : ε) : Advances (throw e : ExceptT ε (StateM Cursor) α) :=
  fun c => ⟨0, Nat.zero_le _, c.advance_zero.symm⟩

theorem bind {r : ExceptT ε (StateM Cursor) α} {f : α → ExceptT ε (StateM Cursor) β}
    (hr : Advances r) (hf : ∀ a, Advances (f a)) : Advances (r >>= f) := by
  intro c
  obtain ⟨m, hm, hfirst⟩ := hr c
  rw [outcome_bind]
  rcases hrun : outcome r c with ⟨e | a, c₁⟩
  · rw [hrun] at hfirst
    exact ⟨m, hm, hfirst⟩
  · rw [hrun] at hfirst
    obtain rfl : c₁ = c.advance m := hfirst
    obtain ⟨n, hn, hsecond⟩ := hf a (c.advance m)
    rw [Cursor.remaining_advance] at hn
    exact ⟨m + n, by omega, by rw [hsecond, Cursor.advance_advance]⟩

theorem ite {p : Prop} [Decidable p] {r r' : ExceptT ε (StateM Cursor) α} (hr : Advances r)
    (hr' : Advances r') : Advances (if p then r else r') := by
  split
  · exact hr
  · exact hr'

/-- What stands behind a marker is nothing, or a word of the width that it announces. -/
theorem compactSize : Advances Read.compactSize := by
  refine isFixed_u8.advances.bind fun marker => ?_
  split
  · exact .pure _
  · exact (isFixed_natLE _).advances.bind fun _ => .pure _

theorem length : Advances Read.length :=
  compactSize.bind fun v => .ite (.throw (ReadError.tooLarge v)) (.pure v)

end Advances

/-! ### Reading compact sizes -/

/-- Only bytes that are missing can keep a compact size from being read. -/
theorem outcome_compactSize_eq_error {c c' : Cursor} {e : ReadError}
    (h : outcome Read.compactSize c = (.error e, c')) : e = .endOfData := by
  unfold Read.compactSize at h
  rw [outcome_bind, isFixed_u8 c] at h
  split_ifs at h
  · dsimp only at h
    split at h
    · cases h
    · rw [(isFixed_natLE _).map UInt64.ofNat] at h
      split_ifs at h
      · cases h
      · cases h
        rfl
  · cases h
    rfl

end Utxo
