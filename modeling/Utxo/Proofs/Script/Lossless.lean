/-
Scripts are read without loss.

Every byte of a script belongs to one of its chunks, also where the script ends inside a push.  A
push that is whole tells where it ends, so what follows a script does not change how the script is
read.

* **`encode_read`** — a chunk and what it leaves are the bytes that it was read from;
* **`read_append`** — a whole chunk is read in the same way, whatever follows;
* **`decode_isLossless`** — so the chunks of a script are the script, all but the last are whole,
  and two scripts one behind the other are read as each of them.
-/
import Utxo.Proofs.Script.Push

namespace Utxo

theorem take_littleEndian (v w n : Nat) :
    (littleEndian w n).take v = littleEndian (min v w) n := by
  induction w generalizing v n with
  | zero => simp [littleEndian]
  | succ w ih =>
    cases v with
    | zero => simp [littleEndian]
    | succ v => rw [littleEndian, List.take_succ_cons, ih, Nat.succ_min_succ, littleEndian]

theorem Push.lengthWidth_le (op : Opcode) : lengthWidth op ≤ 4 := by
  unfold lengthWidth
  split_ifs <;> decide

namespace Chunk

/-- The number of bytes that a push opcode announces, with these bytes behind it. -/
def announced (op : Opcode) (rest : Bytes) : Nat :=
  if Push.lengthWidth op = 0 then op.toNat else ofLittleEndian (rest.take (Push.lengthWidth op))

variable {op : Opcode} {rest more script : Bytes} {c : Chunk}

/-! ### One chunk -/

theorem read_of_isPush (h : op.isPush) (rest : Bytes) :
    read op rest =
      (⟨op, some ((rest.drop (Push.lengthWidth op)).take (announced op rest)), announced op rest,
        (rest.take (Push.lengthWidth op)).length⟩,
        (rest.drop (Push.lengthWidth op)).drop (announced op rest)) := by
  simp [read, h, announced]

theorem announced_le (h : op.isPush) (rest : Bytes) : announced op rest ≤ Push.maxLength := by
  unfold announced
  split_ifs
  · have hop : op.toNat ≤ 0x4e := UInt8.le_iff_toNat_le.mp (of_decide_eq_true h)
    exact hop.trans (by decide)
  · have hlt := ofLittleEndian_lt (rest.take (Push.lengthWidth op))
    have hwidth : (rest.take (Push.lengthWidth op)).length ≤ 4 :=
      (List.length_take_le _ _).trans (Push.lengthWidth_le op)
    have hpow : 256 ^ (rest.take (Push.lengthWidth op)).length ≤ 256 ^ 4 :=
      Nat.pow_le_pow_right (by decide) hwidth
    exact Nat.le_of_lt_succ (Nat.lt_of_lt_of_le hlt hpow)

/-- What is written of the length of a push can be written again. -/
theorem take_littleEndian_announced (op : Opcode) (rest : Bytes) :
    (littleEndian 4 (announced op rest)).take (rest.take (Push.lengthWidth op)).length =
      rest.take (Push.lengthWidth op) := by
  by_cases hwidth : Push.lengthWidth op = 0
  · simp [hwidth]
  · have hle : (rest.take (Push.lengthWidth op)).length ≤ 4 :=
      (List.length_take_le _ _).trans (Push.lengthWidth_le op)
    rw [announced, if_neg hwidth, take_littleEndian, Nat.min_eq_left hle,
      littleEndian_ofLittleEndian]

/-- A chunk and what it leaves are the bytes that it was read from. -/
theorem encode_read (op : Opcode) (rest : Bytes) :
    (read op rest).1.encode ++ (read op rest).2 = op :: rest := by
  cases h : op.isPush with
  | false =>
    rw [read_of_not_isPush h]
    rfl
  | true =>
    rw [read_of_isPush h, encode, take_littleEndian_announced]
    simp only [Option.getD_some, List.cons_append, List.append_assoc, List.take_append_drop]

theorem isTruncated_read_eq_false_iff (h : op.isPush) (rest : Bytes) :
    (read op rest).1.isTruncated = false ↔
      Push.lengthWidth op ≤ rest.length ∧
        announced op rest ≤ (rest.drop (Push.lengthWidth op)).length := by
  rw [read_of_isPush h]
  simp only [isTruncated, Bool.or_eq_false_iff, decide_eq_false_iff_not, Nat.not_lt,
    List.length_take, Nat.le_min, le_refl, true_and]
  exact and_comm

/-- A whole chunk is read in the same way, whatever follows. -/
theorem read_append (hwhole : (read op rest).1.isTruncated = false) (more : Bytes) :
    read op (rest ++ more) = ((read op rest).1, (read op rest).2 ++ more) := by
  cases h : op.isPush with
  | false => rw [read_of_not_isPush h, read_of_not_isPush h]
  | true =>
    obtain ⟨hwidth, hsize⟩ := (isTruncated_read_eq_false_iff h rest).mp hwhole
    have htake : (rest ++ more).take (Push.lengthWidth op) = rest.take (Push.lengthWidth op) :=
      List.take_append_of_le_length hwidth
    have hdrop : (rest ++ more).drop (Push.lengthWidth op) =
        rest.drop (Push.lengthWidth op) ++ more := List.drop_append_of_le_length hwidth
    have hannounced : announced op (rest ++ more) = announced op rest := by
      rw [announced, announced, htake]
    rw [read_of_isPush h, read_of_isPush h, hannounced, htake, hdrop,
      List.take_append_of_le_length hsize, List.drop_append_of_le_length hsize]

/-- Nothing is left behind a truncated chunk. -/
theorem rest_eq_nil_of_isTruncated (h : (read op rest).1.isTruncated) : (read op rest).2 = [] := by
  cases hpush : op.isPush with
  | false =>
    rw [read_of_not_isPush hpush] at h
    cases h
  | true =>
    have hshort := mt (isTruncated_read_eq_false_iff hpush rest).mpr (by simp [h])
    rw [read_of_isPush hpush, List.drop_drop, List.drop_eq_nil_iff]
    rw [List.length_drop] at hshort
    omega

theorem dataLength_read_le (op : Opcode) (rest : Bytes) :
    (read op rest).1.dataLength ≤ (read op rest).1.declaredLength := by
  cases h : op.isPush with
  | false =>
    rw [read_of_not_isPush h]
    exact Nat.le_refl 0
  | true =>
    rw [read_of_isPush h]
    exact List.length_take_le _ _

theorem declaredLength_read_le (op : Opcode) (rest : Bytes) :
    (read op rest).1.declaredLength ≤ Push.maxLength := by
  cases h : op.isPush with
  | false =>
    rw [read_of_not_isPush h]
    exact Nat.zero_le _
  | true =>
    rw [read_of_isPush h]
    exact announced_le h rest

/-- A whole chunk that is read holds as many bytes as it declares. -/
theorem dataLength_read_of_whole (hwhole : (read op rest).1.isTruncated = false) :
    (read op rest).1.dataLength = (read op rest).1.declaredLength := by
  cases h : op.isPush with
  | false => rw [read_of_not_isPush h]; rfl
  | true =>
    obtain ⟨-, hsize⟩ := (isTruncated_read_eq_false_iff h rest).mp hwhole
    rw [read_of_isPush h]
    exact List.length_take_of_le hsize

/-! ### All chunks -/

/-- The chunks of a script, written one after the other, are the script. -/
theorem flatMap_encode_decode (script : Bytes) : (decode script).flatMap encode = script := by
  induction script using decode_induction with
  | nil => rfl
  | cons op rest ih => rw [decode_cons, List.flatMap_cons, ih, encode_read]

/-- There are no more chunks than bytes. -/
theorem length_decode_le (script : Bytes) : (decode script).length ≤ script.length := by
  induction script using decode_induction with
  | nil => exact Nat.le_refl 0
  | cons op rest ih =>
    have hrest := length_rest_le op rest
    rw [decode_cons, List.length_cons, List.length_cons]
    omega

/-- All chunks but the last are whole. -/
theorem isTruncated_of_mem_dropLast (h : c ∈ (decode script).dropLast) :
    c.isTruncated = false := by
  induction script using decode_induction with
  | nil => simp at h
  | cons op rest ih =>
    rw [decode_cons] at h
    cases htruncated : (read op rest).1.isTruncated with
    | true =>
      -- Nothing is left behind the chunk, so it is the last one.
      rw [rest_eq_nil_of_isTruncated htruncated] at h
      simp at h
    | false =>
      rcases hdecode : decode (read op rest).2 with _ | ⟨d, ds⟩
      · rw [hdecode] at h
        simp at h
      · rw [hdecode, List.dropLast_cons_cons, ← hdecode] at h
        rcases List.mem_cons.mp h with rfl | h
        · exact htruncated
        · exact ih h

/-- Two scripts one behind the other are read as each of them, if the first one ends with a whole
chunk. -/
theorem decode_append (hwhole : ∀ c ∈ decode script, c.isTruncated = false) (more : Bytes) :
    decode (script ++ more) = decode script ++ decode more := by
  induction script using decode_induction with
  | nil => rfl
  | cons op rest ih =>
    rw [decode_cons] at hwhole
    obtain ⟨hfirst, hrest⟩ := List.forall_mem_cons.mp hwhole
    rw [List.cons_append, decode_cons, read_append hfirst, decode_cons, ih hrest, List.cons_append]

end Chunk

theorem Script.ofChunks_chunks (s : Script) : ofChunks s.chunks = s :=
  congrArg Script.mk (Chunk.flatMap_encode_decode s.bytes)

namespace Chunk

/-- Reading a script comes to an end and loses nothing: the chunks are the script, just the push
opcodes have bytes, all chunks but the last are whole, a whole chunk has as many bytes as it
declares, and behind whole chunks any other script is read as if it stood alone. -/
theorem decode_isLossless (script : Bytes) :
    ((decode script).length ≤ script.length ∧
      ∀ n, script.length ≤ n → decodeUpTo n script = decode script) ∧
    ((decode script).flatMap encode = script ∧
      Script.ofChunks (Script.chunks ⟨script⟩) = ⟨script⟩) ∧
    (∀ c ∈ decode script, c.data.isSome ↔ c.op ≤ Opcode.pushData4) ∧
    (∀ c ∈ (decode script).dropLast, c.isTruncated = false) ∧
    (∀ c ∈ decode script, c.isTruncated = false → c.dataLength = c.declaredLength) ∧
    ((∀ c ∈ decode script, c.isTruncated = false) →
      ∀ more, decode (script ++ more) = decode script ++ decode more) := by
  refine ⟨⟨length_decode_le script, fun n hn => decodeUpTo_eq hn (Nat.le_refl _)⟩,
    ⟨flatMap_encode_decode script, Script.ofChunks_chunks ⟨script⟩⟩, fun c hc => ?_,
    fun c => isTruncated_of_mem_dropLast, fun c => ?_, decode_append⟩
  · rw [isSome_data_of_mem_decode hc, Opcode.isPush, decide_eq_true_iff]
  · exact of_mem_decode (p := fun c => c.isTruncated = false → c.dataLength = c.declaredLength)
      fun op rest => dataLength_read_of_whole

/-- A push of two bytes, and behind it a push that ends inside its length. -/
theorem decode_isLossless_cut_length :
    let script : Bytes := [0x76, 0x02, 0xaa, 0xbb]
    let more : Bytes := [0x4d, 0x03]
    (∀ c ∈ decode script, c.isTruncated = false) ∧
      decode (script ++ more) = decode script ++ [⟨0x4d, some [], 3, 1⟩] ∧
      (decode (script ++ more)).flatMap encode = script ++ more := by
  intro script more
  have hwhole : ∀ c ∈ decode script, c.isTruncated = false := by decide
  obtain ⟨-, -, -, -, -, happend⟩ := decode_isLossless script
  obtain ⟨-, ⟨hbytes, -⟩, -⟩ := decode_isLossless (script ++ more)
  exact ⟨hwhole, happend hwhole more, hbytes⟩

end Chunk

end Utxo
