/-
The script that unlocks with a signature.

* **`unlock_eq`** — it is two short pushes, and can always be made;
* **`exists_chunks_pushes`** — these are read back as two chunks;
* **`finishes_unlock`** — its evaluation leaves the key on top of the signature.
-/
import Utxo.Proofs.Machine.Handover
import Utxo.Proofs.Machine.Straight
import Utxo.Proofs.Script.Push
import Utxo.Proofs.Tx.SignedPreimage
import Utxo.Tx.P2pkh

namespace Utxo

/-- The chunk pushes these bytes, and all of them are there. -/
structure Chunk.IsPushOf (c : Chunk) (data : Bytes) : Prop where
  isPush : c.op.isPush
  data : c.data = some data
  whole : c.isTruncated = false

namespace Tx

open Machine

namespace P2pkh

variable (r : SignatureRecord)

/-- The pushes of a signature and of a key. -/
def pushes : Bytes :=
  UInt8.ofNat r.toCheckSig.length :: r.toCheckSig ++ 33 :: r.publicKey.compressed.bytes

theorem encode_signature :
    Push.encode r.toCheckSig = .ok (UInt8.ofNat r.toCheckSig.length :: r.toCheckSig) :=
  Push.encode_of_length_le (r.length_toCheckSig_le.trans (by decide))

theorem encode_key (k : PublicKey) :
    Push.encode k.compressed.bytes = .ok (33 :: k.compressed.bytes) := by
  have hlength : k.compressed.bytes.length ≤ 0x4b := by
    rw [k.compressed.length_bytes]
    decide
  have h := Push.encode_of_length_le hlength
  rwa [k.compressed.length_bytes] at h

/-- An unlocking script is two short pushes, and can always be made. -/
theorem unlock_eq : unlock r = .ok ⟨pushes r⟩ := by
  simp only [unlock, Script.pushData, encode_signature, encode_key]
  rfl

theorem length_pushes_le : (pushes r).length ≤ 108 := by
  have := r.length_toCheckSig_le
  simp only [pushes, List.length_cons, List.length_append, r.publicKey.compressed.length_bytes]
  omega

/-- The two pushes are read back as two chunks. -/
theorem exists_chunks_pushes :
    ∃ c c', (Script.mk (pushes r)).chunks = [c, c'] ∧ c.IsPushOf r.toCheckSig ∧
      c'.IsPushOf r.publicKey.compressed.bytes := by
  obtain ⟨c, -, hop, hdata, hwhole, hdecode⟩ :=
    Chunk.decode_push (encode_signature r) (33 :: r.publicKey.compressed.bytes)
  obtain ⟨c', -, hop', hdata', hwhole', hdecode'⟩ := Chunk.decode_push (encode_key r.publicKey) []
  rw [List.append_nil] at hdecode'
  refine ⟨c, c', ?_, ⟨hop, hdata, hwhole⟩, ⟨hop', hdata', hwhole'⟩⟩
  rw [Script.chunks, pushes, hdecode, hdecode', Chunk.decode_nil]

/-- The evaluation of an unlocking script leaves the key on top of the signature. -/
theorem finishes_unlock {setting : Setting} (hscript : 108 ≤ setting.limits.scriptSize)
    (helement : 73 ≤ setting.limits.elementSize) (hdepth : 2 ≤ setting.limits.stackDepth) :
    Finishes setting ⟨pushes r⟩
      (.straight ⟨[r.publicKey.compressed.bytes, r.toCheckSig],
        [Stack.defaultName, Stack.defaultName]⟩ [] 2 0) := by
  obtain ⟨c, c', hchunks, hsignature, hkey⟩ := exists_chunks_pushes r
  have hlength := r.length_toCheckSig_le
  have hkeylength := r.publicKey.compressed.length_bytes
  refine ⟨(length_pushes_le r).trans hscript, ?_, ?_⟩
  · rw [truncated?, hchunks]
    simp [hsignature.whole, hkey.whole]
  · rw [runScript, hchunks, State.initial, State.atStart_eq_straight,
      runChunks_push_straight hsignature.isPush hsignature.data,
      runChunks_push_straight hkey.isPush hkey.data]
    have hfirst : Stack.empty.depth < setting.limits.stackDepth :=
      Nat.lt_of_lt_of_le (by decide) hdepth
    exact ⟨by omega, Nat.zero_le _, hfirst, by omega, Nat.zero_le _, hdepth, rfl⟩

end P2pkh

end Tx

end Utxo
