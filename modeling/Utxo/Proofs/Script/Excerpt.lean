/-
Chunks picked out of a script.

A whole chunk is written as the bytes that it was read from, and these are read as the chunk again,
whatever stands behind them.  So whole chunks that are picked out of a script are read from what they
make together, and that is made of the bytes that each of them had in the script.

* **`sourced_eq`** — the bytes of a chunk in its script are those that the chunk is written as;
* **`ofChunks_filter`** — chunks picked out of a script are the chunks of what they make, and this is
  their bytes.
-/
import Utxo.Proofs.Script.Lossless

namespace Utxo

namespace Chunk

/-- The chunks of a script, each with the bytes of the script that it is read from. -/
def sourced : Bytes → List (Chunk × Bytes)
  | [] => []
  | op :: rest =>
    let left := (read op rest).2
    ((read op rest).1, (op :: rest).take ((op :: rest).length - left.length)) :: sourced left
termination_by script => script.length
decreasing_by exact Nat.lt_succ_of_le (length_rest_le op rest)

variable {op : Opcode} {rest script : Bytes} {c : Chunk}

/-- The bytes of a chunk in its script are those that the chunk is written as. -/
theorem sourced_eq (script : Bytes) : sourced script = (decode script).map fun c => (c, c.encode) := by
  induction script using decode_induction with
  | nil => rw [sourced, decode_nil, List.map_nil]
  | cons op rest ih =>
    have hsource : (op :: rest).take ((op :: rest).length - (read op rest).2.length) =
        (read op rest).1.encode := by
      rw [← encode_read op rest, List.length_append, Nat.add_sub_cancel]
      exact List.take_left
    rw [sourced, hsource, ih, decode_cons, List.map_cons]

/-- A chunk is written as its opcode and then its length and data. -/
theorem encode_read_of_isPush (h : op.isPush) (rest : Bytes) :
    (read op rest).1.encode =
      op :: (rest.take (Push.lengthWidth op) ++
        (rest.drop (Push.lengthWidth op)).take (announced op rest)) := by
  rw [read_of_isPush h, encode, take_littleEndian_announced]
  rfl

/-- The bytes of a whole chunk are read as this chunk alone. -/
theorem decode_encode_read (hwhole : (read op rest).1.isTruncated = false) :
    decode (read op rest).1.encode = [(read op rest).1] := by
  cases hpush : op.isPush with
  | false =>
    rw [read_of_not_isPush hpush]
    exact decode_opcode hpush []
  | true =>
    obtain ⟨hwidth, hsize⟩ := (isTruncated_read_eq_false_iff hpush rest).mp hwhole
    -- Behind the opcode stand the length and as much data as it says.
    let length := rest.take (Push.lengthWidth op)
    let data := (rest.drop (Push.lengthWidth op)).take (announced op rest)
    have hlength : length.length = Push.lengthWidth op := List.length_take_of_le hwidth
    have hdata : data.length = announced op rest := List.length_take_of_le hsize
    have htake : (length ++ data).take (Push.lengthWidth op) = length := List.take_left' hlength
    have hdrop : (length ++ data).drop (Push.lengthWidth op) = data := List.drop_left' hlength
    have hannounced : announced op (length ++ data) = announced op rest := by
      rw [announced, announced, htake]
    have hread : read op (length ++ data) = ((read op rest).1, []) := by
      have hall : data.take (announced op rest) = data := by rw [← hdata, List.take_length]
      have hnone : data.drop (announced op rest) = [] := by rw [← hdata, List.drop_length]
      rw [read_of_isPush hpush, read_of_isPush hpush, hannounced, htake, hdrop, hall, hnone]
    rw [encode_read_of_isPush hpush, decode_cons, hread, decode_nil]

/-- Whole chunks of a script are the chunks of what they make together. -/
theorem decode_flatMap_encode {cs : List Chunk}
    (h : ∀ c ∈ cs, c ∈ decode script ∧ c.isTruncated = false) :
    decode (cs.flatMap encode) = cs := by
  induction cs with
  | nil => rfl
  | cons c cs ih =>
    obtain ⟨⟨hmem, hwhole⟩, hcs⟩ := List.forall_mem_cons.mp h
    have halone : decode c.encode = [c] :=
      of_mem_decode (p := fun c => c.isTruncated = false → decode c.encode = [c])
        (fun _ _ => decode_encode_read) hmem hwhole
    have hwhole' : ∀ c' ∈ decode c.encode, c'.isTruncated = false := by
      rw [halone]
      intro c' hc'
      rwa [List.mem_singleton.mp hc']
    rw [List.flatMap_cons, decode_append hwhole', halone, ih hcs, List.singleton_append]

end Chunk

/-- Whole chunks that are picked out of a script are the chunks of what they make together, and that is
made of the bytes which each of them has in the script. -/
theorem Script.ofChunks_filter (script : Script) (start : Nat) (keep : Chunk → Bool)
    (hwhole : ∀ c ∈ script.chunks, c.isTruncated = false) :
    (ofChunks ((script.chunks.drop start).filter keep)).chunks =
        (script.chunks.drop start).filter keep ∧
      (ofChunks ((script.chunks.drop start).filter keep)).bytes =
        (((Chunk.sourced script.bytes).drop start).filter fun p => keep p.1).flatMap Prod.snd := by
  constructor
  · have hpicked : ∀ c ∈ (script.chunks.drop start).filter keep,
        c ∈ Chunk.decode script.bytes ∧ c.isTruncated = false := by
      intro c hc
      have hmem : c ∈ script.chunks := List.mem_of_mem_drop (List.mem_filter.mp hc).1
      exact ⟨hmem, hwhole c hmem⟩
    exact Chunk.decode_flatMap_encode hpicked
  · rw [Chunk.sourced_eq, ← List.map_drop, List.filter_map, List.flatMap_map]
    rfl

end Utxo
