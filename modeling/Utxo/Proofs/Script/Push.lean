/-
Reading back what was written.

The push of a byte string reads as one chunk and leaves what follows it alone.  So a script can be
written one piece after the other, and its chunks are those of the pieces.

* **`decode_opcode`** — an opcode that pushes no bytes is a chunk;
* **`decode_push`** — and so is the push of a byte string;
* **`isSome_data_of_mem_decode`** — of what is read, just the pushes hold bytes.
-/
import Utxo.Proofs.Bytes.Integers
import Utxo.Script.Basic

namespace Utxo

/-! ### The opcodes of pushes -/

theorem Push.lengthWidth_ofNat {n : Nat} (h : n ≤ 0x4b) : lengthWidth (UInt8.ofNat n) = 0 := by
  have hne (op : Opcode) (hop : 0x4b < op.toNat) : UInt8.ofNat n ≠ op := by
    rintro rfl
    rw [UInt8.toNat_ofNat'] at hop
    omega
  rw [lengthWidth, if_neg (hne _ (by decide)), if_neg (hne _ (by decide)),
    if_neg (hne _ (by decide))]

/-- The shortest opcode for `n` bytes pushes, and has room for that length. -/
theorem Push.of_opcode_eq_ok {n : Nat} {op : Opcode} (h : opcode n = .ok op) :
    op.isPush ∧ if lengthWidth op = 0 then op.toNat = n else n < 256 ^ lengthWidth op := by
  unfold opcode at h
  split_ifs at h with h₀ h₁ h₂ h₄ <;> cases h
  · refine ⟨?_, ?_⟩
    · simp only [Opcode.isPush, decide_eq_true_eq, UInt8.le_iff_toNat_le, UInt8.toNat_ofNat']
      exact (Nat.mod_le _ _).trans (h₀.trans (by decide))
    · rw [if_pos (lengthWidth_ofNat h₀), UInt8.toNat_ofNat']
      omega
  · exact ⟨rfl, Nat.lt_succ_of_le h₁⟩
  · exact ⟨rfl, Nat.lt_succ_of_le h₂⟩
  · exact ⟨rfl, Nat.lt_succ_of_le h₄⟩

/-- A short push has its length for an opcode. -/
theorem Push.encode_of_length_le {data : Bytes} (h : data.length ≤ 0x4b) :
    encode data = .ok (UInt8.ofNat data.length :: data) := by
  rw [encode, header, opcode, if_pos h]
  simp [Except.map, lengthWidth_ofNat h, littleEndian]

namespace Chunk

theorem read_of_not_isPush {op : Opcode} (h : op.isPush = false) (rest : Bytes) :
    read op rest = (ofOpcode op, rest) := by
  simp [read, h]

/-- An opcode that pushes no bytes is a chunk. -/
theorem decode_opcode {op : Opcode} (h : op.isPush = false) (rest : Bytes) :
    decode (op :: rest) = ofOpcode op :: decode rest := by
  rw [decode_cons, read_of_not_isPush h]

theorem read_push {n : Nat} {op : Opcode} (h : Push.opcode n = .ok op) {data : Bytes}
    (hn : data.length = n) (rest : Bytes) :
    read op (littleEndian (Push.lengthWidth op) n ++ data ++ rest) =
      (⟨op, some data, n, Push.lengthWidth op⟩, rest) := by
  obtain ⟨hpush, hroom⟩ := Push.of_opcode_eq_ok h
  have hdeclared : (if Push.lengthWidth op = 0 then op.toNat
      else ofLittleEndian (littleEndian (Push.lengthWidth op) n)) = n := by
    split_ifs at hroom ⊢ with hwidth
    · exact hroom
    · exact ofLittleEndian_littleEndian_of_lt hroom
  have htake : (littleEndian (Push.lengthWidth op) n ++ data ++ rest).take (Push.lengthWidth op) =
      littleEndian (Push.lengthWidth op) n := by
    rw [List.append_assoc]
    exact List.take_left' (length_littleEndian _ _)
  have hdrop : (littleEndian (Push.lengthWidth op) n ++ data ++ rest).drop (Push.lengthWidth op) =
      data ++ rest := by
    rw [List.append_assoc]
    exact List.drop_left' (length_littleEndian _ _)
  simp only [read, hpush, htake, hdrop, hdeclared, List.take_left' hn, List.drop_left' hn,
    length_littleEndian]
  rfl

/-- The push of a byte string reads as one chunk. -/
theorem decode_push {data p : Bytes} (h : Push.encode data = .ok p) (rest : Bytes) :
    ∃ c, push data = .ok c ∧ c.op.isPush ∧ c.data = some data ∧ c.isTruncated = false ∧
      decode (p ++ rest) = c :: decode rest := by
  unfold Push.encode Push.header at h
  cases hop : Push.opcode data.length with
  | error e =>
    rw [hop] at h
    cases h
  | ok op =>
    rw [hop] at h
    obtain rfl : op :: littleEndian (Push.lengthWidth op) data.length ++ data = p := Except.ok.inj h
    refine ⟨⟨op, some data, data.length, Push.lengthWidth op⟩, ?_, (Push.of_opcode_eq_ok hop).1,
      rfl, ?_, ?_⟩
    · rw [push, hop]
      rfl
    · simp [isTruncated]
    · rw [List.cons_append, List.cons_append, decode_cons, read_push hop rfl]

/-! ### What is read -/

theorem isSome_data_read (op : Opcode) (rest : Bytes) :
    (read op rest).1.data.isSome = (read op rest).1.op.isPush := by
  unfold read
  split_ifs with h
  · simpa [ofOpcode] using h
  · simpa using h

/-- What holds of every chunk that can be read holds of the chunks of a script. -/
theorem of_mem_decode {p : Chunk → Prop} {c : Chunk} {script : Bytes}
    (hread : ∀ op rest, p (read op rest).1) (h : c ∈ decode script) : p c := by
  induction script using decode_induction with
  | nil => simp at h
  | cons op rest ih =>
    rw [decode_cons] at h
    rcases List.mem_cons.mp h with rfl | h
    · exact hread op rest
    · exact ih h

/-- Of what is read, just the pushes hold bytes. -/
theorem isSome_data_of_mem_decode {c : Chunk} {script : Bytes} (h : c ∈ decode script) :
    c.data.isSome = c.op.isPush :=
  of_mem_decode (p := fun c => c.data.isSome = c.op.isPush) isSome_data_read h

end Chunk

end Utxo
