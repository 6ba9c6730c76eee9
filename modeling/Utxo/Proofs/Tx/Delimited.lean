/-
A written transaction says where it ends.

Readers of transactions take their bytes one after the other, so what they accept can be neither cut
nor continued.

* **`exists_decode_eq_error_of_append`** — bytes that end too early for a transaction are refused
  because they end, wherever they were cut;
* **`decode_append_of_decode_eq_ok`** — bytes behind a transaction are refused, and counted;
* **`encode_isDelimited`** — with the round trip, all of this for what is written.
-/
import Utxo.Proofs.Bytes.Streaming
import Utxo.Proofs.Tx.RoundTrip

namespace Utxo

open Tx

namespace Tx

/-- A field cannot be read because the bytes ran out. -/
def Error.IsShort (e : Error) : Prop := ∃ field, e = .unreadable field .endOfData

variable {α : Type}

theorem streams_readField {r : Read α} (hr : Streams ReadError.IsShort r) (field : Field) :
    Streams Error.IsShort (readField field r) := by
  refine hr.adapt fun e he => ?_
  rw [he]
  exact ⟨field, rfl⟩

theorem streams_readMany {r : ReadTx α} (hr : Streams Error.IsShort r) (n : Nat) :
    Streams Error.IsShort (readMany r n) := by
  induction n with
  | zero => exact .pure []
  | succ n ih => exact hr.bind fun _ => ih.bind fun _ => .pure _

theorem streams_readScript (field : Field) : Streams Error.IsShort (readScript field) :=
  (streams_readField .readLength _).bind fun n => streams_readField (.readBytes n.toNat) field

theorem Input.streams_read : Streams Error.IsShort Input.read := by
  have hid : Streams ReadError.IsShort readTxId :=
    Streams.bind ((Streams.readBytes 32).bind fun _ => .pure _) fun _ => .pure _
  exact (streams_readField hid _).bind fun _ => (streams_readField .readU32 _).bind fun _ =>
    (streams_readScript _).bind fun _ => (streams_readField .readU32 _).bind fun _ => .pure _

theorem Output.streams_read : Streams Error.IsShort Output.read :=
  (streams_readField .readU64 _).bind fun _ => (streams_readScript _).bind fun _ => .pure _

end Tx

namespace Transaction

variable {tx : Transaction} {bs more : Bytes}

theorem streams_read : Streams Error.IsShort read :=
  (streams_readField .readU32 _).bind fun _ => (streams_readField .readLength _).bind fun _ =>
    (streams_readMany Input.streams_read _).bind fun _ =>
    (streams_readField .readLength _).bind fun _ =>
    (streams_readMany Output.streams_read _).bind fun _ =>
    (streams_readField .readU32 _).bind fun _ => .pure _

/-! ### Decoding with more bytes -/

theorem decode_eq_of_outcome_ok {c : Cursor} (h : outcome read (.start bs) = (.ok tx, c)) :
    decode bs = if c.isFinished then .ok tx else .error (.trailing c.remaining) := by
  unfold decode
  rw [show read.run (.start bs) = _ from h]

theorem decode_eq_of_outcome_error {e : Error} {c : Cursor}
    (h : outcome read (.start bs) = (.error e, c)) : decode bs = .error e := by
  unfold decode
  rw [show read.run (.start bs) = _ from h]

/-- Bytes behind a transaction are refused. -/
theorem decode_append_of_decode_eq_ok (h : decode bs = .ok tx) (hmore : more ≠ []) :
    decode (bs ++ more) = .error (.trailing more.length) := by
  obtain ⟨c, hrun, hc⟩ := decode_eq_ok_iff_outcome.mp h
  rcases streams_read (.start bs) more with ⟨e, c', herror, -⟩ | hstream
  · rw [hrun] at herror
    cases herror
  · rw [hrun, Cursor.extend_start] at hstream
    -- The cursor stops where the first bytes end.
    have hrest : (c.extend more).rest = more := by
      show c.rest ++ more = more
      rw [hc, List.nil_append]
    rw [decode_eq_of_outcome_ok hstream, Cursor.isFinished, Cursor.remaining, hrest,
      List.isEmpty_eq_false_iff.mpr hmore]
    rfl

/-- The start of a transaction is refused because its bytes end. -/
theorem exists_decode_eq_error_of_append (h : decode (bs ++ more) = .ok tx) (hmore : more ≠ []) :
    ∃ field, decode bs = .error (.unreadable field .endOfData) := by
  rcases streams_read (.start bs) more with ⟨e, c, herror, field, rfl⟩ | hstream
  · exact ⟨field, decode_eq_of_outcome_error herror⟩
  · -- Otherwise the bytes that were cut off would be left over.
    exfalso
    obtain ⟨c, hrun, hc⟩ := decode_eq_ok_iff_outcome.mp h
    rw [Cursor.extend_start, hrun] at hstream
    have hrest : c.rest = (outcome read (.start bs)).2.rest ++ more :=
      congrArg (·.2.rest) hstream
    rw [hc] at hrest
    exact hmore (List.append_eq_nil_iff.mp hrest.symm).2

/-- What is written is read as it was, its scripts as bytes.  Cut anywhere, it is refused for want of
bytes; and no bytes that are read are still read with more bytes behind them. -/
theorem encode_isDelimited (h : tx.Fits) :
    decode tx.encode = .ok tx.bare ∧
    (∀ cut, cut <+: tx.encode → cut ≠ tx.encode →
      ∃ field, decode cut = .error (.unreadable field .endOfData)) ∧
    ∀ bs more tx', decode bs = .ok tx' → more ≠ [] →
      decode (bs ++ more) = .error (.trailing more.length) := by
  refine ⟨decode_encode h, ?_, fun bs more tx' => decode_append_of_decode_eq_ok⟩
  rintro cut ⟨more, hmore⟩ hcut
  refine exists_decode_eq_error_of_append (hmore ▸ decode_encode h) ?_
  rintro rfl
  exact hcut (by rw [← hmore, List.append_nil])

/-- A transaction with a script of 253 bytes, cut inside the length of that script; and a count of no
inputs in three bytes, with one byte behind the transaction. -/
theorem encode_isDelimited_long_script :
    let i : Input := ⟨⟨.zero 32, 1⟩, 7, .parsed ⟨List.replicate 253 0x51⟩, some ⟨900, ⟨[0x51]⟩⟩⟩
    let tx : Transaction := ⟨2, [i], [⟨800, ⟨[0x51, 0x51]⟩⟩], 5⟩
    tx.Fits ∧ decode tx.encode = .ok tx.bare ∧
      (∃ field, decode (tx.encode.take 43) = .error (.unreadable field .endOfData)) ∧
      decode ([1, 0, 0, 0, 0xfd, 0, 0, 0, 0, 0, 0, 0] ++ [9]) = .error (.trailing 1) := by
  intro i tx
  have hfits : tx.Fits := by decide +kernel
  have hlength : (tx.encode.take 43).length ≠ tx.encode.length := by decide +kernel
  have hcut : tx.encode.take 43 ≠ tx.encode := fun heq => hlength (congrArg List.length heq)
  obtain ⟨hread, hprefix, happend⟩ := encode_isDelimited hfits
  exact ⟨hfits, hread, hprefix _ (List.take_prefix _ _) hcut,
    happend [1, 0, 0, 0, 0xfd, 0, 0, 0, 0, 0, 0, 0] [9] empty rfl (by decide)⟩

end Transaction

end Utxo
