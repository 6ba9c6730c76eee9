/-
Bytes stored over those of a buffer.

A buffer is written to place by place, from one place on, in the order of the bytes or against it.  If
the places are there, the bytes stand where they were stored and the others are what they were.  So a
compact size that is stored as a marker and what it announces stands in its shortest form.

* **`store_eq`** — the buffer after bytes have been stored in it;
* **`storeReversed_eq_store`** — against the order, the bytes are stored last one first;
* **`CompactSize.put_eq_overwrite`** — a compact size that is stored is written over the start.
-/
import Mathlib.Tactic.SplitIfs
import Utxo.Bytes.CompactSize

namespace Utxo

/-- Stores a byte at a place of a buffer and goes on to the next place. -/
def storeNext (p : Bytes × Nat) (b : UInt8) : Bytes × Nat := (p.1.set p.2 b, p.2 + 1)

/-- The buffer with bytes stored from a place on, first byte first. -/
def store (buffer : Bytes) (i : Nat) (bs : Bytes) : Bytes := (bs.foldl storeNext (buffer, i)).1

/-- The buffer with bytes stored from a place on, last byte first. -/
def storeReversed (buffer : Bytes) (i : Nat) (bs : Bytes) : Bytes :=
  (bs.foldr (fun b p => storeNext p b) (buffer, i)).1

variable {buffer bs : Bytes} {i : Nat}

/-- The bytes stand where they were stored, and the others are what they were. -/
theorem store_eq (h : i + bs.length ≤ buffer.length) :
    store buffer i bs = buffer.take i ++ bs ++ buffer.drop (i + bs.length) := by
  induction bs generalizing buffer i with
  | nil => simp [store]
  | cons b bs ih =>
    rw [List.length_cons] at h
    have hi : i < buffer.length := by omega
    have hnext : store buffer i (b :: bs) = store (buffer.set i b) (i + 1) bs := rfl
    have htake : (buffer.set i b).take (i + 1) = buffer.take i ++ [b] := by
      rw [List.set_eq_take_append_cons_drop, if_pos hi, List.append_cons]
      exact List.take_left' (by rw [List.length_append, List.length_take_of_le (Nat.le_of_lt hi)]; rfl)
    have hdrop : (buffer.set i b).drop (i + 1 + bs.length) =
        buffer.drop (i + (bs.length + 1)) := by
      rw [List.drop_set_of_lt (by omega)]
      congr 1
      omega
    rw [hnext, ih (by rw [List.length_set]; omega), htake, hdrop, List.length_cons]
    simp

theorem storeReversed_eq_store (buffer : Bytes) (i : Nat) (bs : Bytes) :
    storeReversed buffer i bs = store buffer i bs.reverse := by
  rw [storeReversed, store, List.foldl_reverse]

/-! ### Compact sizes -/

namespace CompactSize

/-- Stores a compact size at the start of a buffer: as a byte of its own, or as a marker and then what
the marker announces. Gives the number of bytes stored and the buffer. -/
def put (v : UInt64) (buffer : Bytes) : Nat × Bytes :=
  if v < 0xfd then (1, buffer.set 0 v.toUInt8)
  else if v ≤ 0xffff then (3, store (buffer.set 0 0xfd) 1 (littleEndian 2 v.toNat))
  else if v ≤ 0xffffffff then (5, store (buffer.set 0 0xfe) 1 (littleEndian 4 v.toNat))
  else (9, store (buffer.set 0 0xff) 1 (littleEndian 8 v.toNat))

/-- A compact size that is stored is the shortest form of its value, stored from the start on. -/
theorem put_eq_store (v : UInt64) (buffer : Bytes) :
    put v buffer = (size v, store buffer 0 (encode v)) := by
  unfold put size encode
  split_ifs <;> rfl

/-- What is stored is written over the start, and what follows it is left alone. -/
theorem put_eq_overwrite {v : UInt64} {buffer : Bytes} (h : size v ≤ buffer.length) :
    put v buffer = overwrite v buffer := by
  have hfits : 0 + (encode v).length ≤ buffer.length := by rwa [Nat.zero_add, length_encode]
  rw [put_eq_store, store_eq hfits, overwrite, length_encode]
  simp

end CompactSize

end Utxo
