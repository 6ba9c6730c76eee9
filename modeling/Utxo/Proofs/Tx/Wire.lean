/-
The wire format of transactions, byte for byte.

A transaction is written with a compact size before each list and each script.  Readers take a
compact size in all of its forms, so one transaction has several written forms; a `Spelling` is a
choice of a form for each of them.

* **`decode_eq_ok_iff`** — what is read are the spellings of a transaction, and nothing else;
* **`encodeWith_inj`** — two spellings of a transaction are never the same bytes;
* **`encode_eq_iff_isShortest`** — a transaction is written again as the bytes it was read from
  exactly if each compact size in them has its shortest form.  `decode_wide_count` is bytes in which
  one does not.
-/
import Utxo.Proofs.Bytes.Parsing
import Utxo.Tx.Basic

namespace Utxo

/-- The bytes from one place to a later one. -/
def Cursor.upTo (c c' : Cursor) : Bytes := c.rest.take (c'.position - c.position)

namespace Tx

/-- A form of a count or of a length, which is not too large to be read. -/
def IsSize (n : Nat) (size : Bytes) : Prop :=
  n ≤ CompactSize.maxLength.toNat ∧ CompactSize.Form (UInt64.ofNat n) size

theorem IsSize.ofLength {n : Nat} {size : Bytes} (h : IsSize n size) :
    IsSize n (CompactSize.ofLength n) := ⟨h.1, CompactSize.form_encode _⟩

theorem IsSize.isShortest_iff {n : Nat} {size : Bytes} (h : IsSize n size) :
    CompactSize.IsShortest size ↔ size = CompactSize.ofLength n := h.2.isShortest_iff

theorem parses_size : Parses Read.length fun v size => IsSize v.toNat size := by
  refine parses_length.of_iff fun v size => ?_
  rw [IsSize, UInt64.ofNat_toNat, UInt64.le_iff_toNat_le]

/-! ### Lists of parts -/

section Parts

variable {α : Type} {P : α → Prop} {Q : α → Bytes → Prop} {f : Bytes → α → Bytes}

/-- The parts of a list one after the other, each with a size of its own. -/
def encodeParts (f : Bytes → α → Bytes) (sizes : List Bytes) (xs : List α) : Bytes :=
  (List.zipWith f sizes xs).flatten

theorem encodeParts_cons (size : Bytes) (sizes : List Bytes) (x : α) (xs : List α) :
    encodeParts f (size :: sizes) (x :: xs) = f size x ++ encodeParts f sizes xs := rfl

theorem parses_readMany {r : ReadTx α}
    (hr : Parses r fun x w => P x ∧ ∃ size, Q x size ∧ w = f size x) (n : Nat) :
    Parses (readMany r n) fun xs w =>
      xs.length = n ∧ (∀ x ∈ xs, P x) ∧
        ∃ sizes, List.Forall₂ Q xs sizes ∧ w = encodeParts f sizes xs := by
  induction n with
  | zero =>
    refine (Parses.pure []).of_iff fun xs w => ?_
    constructor
    · rintro ⟨rfl, rfl⟩
      exact ⟨rfl, by simp, [], .nil, rfl⟩
    · rintro ⟨hlen, -, sizes, hsizes, rfl⟩
      obtain rfl := List.eq_nil_of_length_eq_zero hlen
      cases hsizes
      exact ⟨rfl, rfl⟩
  | succ n ih =>
    refine (hr.bind fun x => ih.map (x :: ·)).of_iff fun xs w => ?_
    constructor
    · rintro ⟨x, w₁, w₂, ⟨hP, size, hQ, rfl⟩, ⟨ys, ⟨hlen, hPs, sizes, hQs, rfl⟩, rfl⟩, rfl⟩
      refine ⟨by rw [List.length_cons, hlen], ?_, size :: sizes, .cons hQ hQs, rfl⟩
      exact List.forall_mem_cons.mpr ⟨hP, hPs⟩
    · rintro ⟨hlen, hPs, sizes, hQs, rfl⟩
      obtain ⟨x, ys, rfl⟩ := List.exists_cons_of_length_eq_add_one hlen
      obtain ⟨hP, hPs⟩ := List.forall_mem_cons.mp hPs
      cases hQs with
      | @cons _ size _ sizes hQ hQs =>
        refine ⟨x, f size x, encodeParts f sizes ys, ⟨hP, size, hQ, rfl⟩, ?_, rfl⟩
        exact ⟨ys, ⟨by simpa using hlen, hPs, sizes, hQs, rfl⟩, rfl⟩

theorem encodeParts_inj
    (hf : ∀ (x : α) (a b y z : Bytes), Q x a → Q x b → f a x ++ y = f b x ++ z → a = b ∧ y = z)
    {xs : List α} {as bs : List Bytes} (has : List.Forall₂ Q xs as) (hbs : List.Forall₂ Q xs bs)
    {y z : Bytes} (h : encodeParts f as xs ++ y = encodeParts f bs xs ++ z) : as = bs ∧ y = z := by
  -- Along the parts: the first sizes agree, and with them all that follows.
  induction has generalizing bs with
  | nil =>
    cases hbs
    exact ⟨rfl, h⟩
  | @cons x a xs as ha _ ih =>
    cases hbs with
    | @cons _ b _ bs hb hbs =>
      rw [encodeParts_cons, encodeParts_cons, List.append_assoc, List.append_assoc] at h
      obtain ⟨rfl, hrest⟩ := hf x a b _ _ ha hb h
      obtain ⟨rfl, rfl⟩ := ih hbs hrest
      exact ⟨rfl, rfl⟩

end Parts

/-! ### Inputs and outputs -/

theorem parses_readScript (field : Field) :
    Parses (readScript field) fun script w =>
      ∃ size, IsSize script.length size ∧ w = size ++ script := by
  refine ((parses_size.adapt _).bind fun n => (parses_bytes n.toNat).adapt _).of_iff
    fun script w => ?_
  constructor
  · rintro ⟨n, size, _, hsize, ⟨rfl, hlen⟩, rfl⟩
    exact ⟨size, hlen ▸ hsize, rfl⟩
  · rintro ⟨size, hsize, rfl⟩
    -- A length that is small enough to be read is the value of a word.
    have hn : (UInt64.ofNat script.length).toNat = script.length :=
      UInt64.toNat_ofNat_of_lt' (Nat.lt_of_le_of_lt hsize.1 (by decide))
    refine ⟨UInt64.ofNat script.length, size, script, ?_, ⟨rfl, hn.symm⟩, rfl⟩
    rwa [hn]

namespace Input

/-- The input as it is written, with a size of its script given. -/
def encodeWith (size : Bytes) (i : Input) : Bytes :=
  i.outpoint.encode ++ (size ++ i.scriptBytes) ++ littleEndian 4 i.sequence.toNat

/-- An input as it is read: its script is bytes, and the output that it spends is not known. -/
def IsBare (i : Input) : Prop := i.script = .raw i.scriptBytes ∧ i.spent = none

theorem encode_eq_encodeWith (i : Input) :
    i.encode = i.encodeWith (CompactSize.ofLength i.scriptBytes.length) := rfl

theorem parses_readTxId : Parses readTxId fun id w => w = id.bytes.reverse := by
  refine (((parses_bytes 32).map List.reverse).map fun bs =>
    (FixedBytes.ofBytes? 32 bs).getD default).of_iff fun id w => ?_
  constructor
  · rintro ⟨_, ⟨w, ⟨rfl, hlen⟩, rfl⟩, rfl⟩
    rw [FixedBytes.ofBytes?, dif_pos (by rw [List.length_reverse, hlen]), Option.getD_some,
      List.reverse_reverse]
  · rintro rfl
    refine ⟨id.bytes, ⟨id.bytes.reverse, ⟨rfl, ?_⟩, (List.reverse_reverse _).symm⟩, ?_⟩
    · rw [List.length_reverse, id.length_bytes]
    · rw [FixedBytes.ofBytes?, dif_pos id.length_bytes, Option.getD_some]

theorem parses_read :
    Parses read fun i w => i.IsBare ∧ ∃ size, IsSize i.scriptBytes.length size ∧
      w = i.encodeWith size := by
  refine ((parses_readTxId.adapt _).bind fun id => (parses_u32.adapt _).bind fun index =>
    (parses_readScript _).bind fun script => (parses_u32.adapt _).map fun sequence =>
      Input.mk ⟨id, index⟩ sequence (.raw script) none).of_iff fun i w => ?_
  constructor
  · rintro ⟨id, _, _, rfl, ⟨index, _, _, rfl, ⟨script, _, _, ⟨size, hsize, rfl⟩,
      ⟨sequence, rfl, rfl⟩, rfl⟩, rfl⟩, rfl⟩
    refine ⟨⟨rfl, rfl⟩, size, hsize, ?_⟩
    simp [encodeWith, Outpoint.encode, scriptBytes, InputScript.bytes]
  · obtain ⟨⟨id, index⟩, sequence, script, spent⟩ := i
    rintro ⟨⟨hscript, hspent⟩, size, hsize, rfl⟩
    subst hspent
    simp only [scriptBytes] at hscript hsize
    refine ⟨id, _, _, rfl, ⟨index, _, _, rfl, ⟨script.bytes, _, _, ⟨size, hsize, rfl⟩,
      ⟨sequence, rfl, ?_⟩, rfl⟩, rfl⟩, ?_⟩
    · rw [hscript]
      rfl
    · simp [encodeWith, Outpoint.encode, scriptBytes]

theorem encodeWith_append_inj (i : Input) (as bs y z : Bytes)
    (ha : IsSize i.scriptBytes.length as) (hb : IsSize i.scriptBytes.length bs)
    (h : i.encodeWith as ++ y = i.encodeWith bs ++ z) : as = bs ∧ y = z := by
  simp only [encodeWith, List.append_assoc, List.append_cancel_left_eq] at h
  obtain ⟨rfl, hrest⟩ := ha.2.append_inj hb.2 h
  exact ⟨rfl, by simpa using hrest⟩

end Input

namespace Output

/-- The output as it is written, with a size of its script given. -/
def encodeWith (size : Bytes) (o : Output) : Bytes :=
  littleEndian 8 o.satoshis.toNat ++ (size ++ o.lockingScript.bytes)

theorem parses_read :
    Parses read fun o w => ∃ size, IsSize o.lockingScript.bytes.length size ∧
      w = o.encodeWith size := by
  refine ((parses_u64.adapt _).bind fun satoshis => (parses_readScript _).map fun script =>
    Output.mk satoshis ⟨script⟩).of_iff fun o w => ?_
  constructor
  · rintro ⟨satoshis, _, _, rfl, ⟨script, ⟨size, hsize, rfl⟩, rfl⟩, rfl⟩
    exact ⟨size, hsize, rfl⟩
  · rintro ⟨size, hsize, rfl⟩
    exact ⟨o.satoshis, _, _, rfl, ⟨o.lockingScript.bytes, ⟨size, hsize, rfl⟩, rfl⟩, rfl⟩

theorem encodeWith_append_inj (o : Output) (as bs y z : Bytes)
    (ha : IsSize o.lockingScript.bytes.length as) (hb : IsSize o.lockingScript.bytes.length bs)
    (h : o.encodeWith as ++ y = o.encodeWith bs ++ z) : as = bs ∧ y = z := by
  simp only [encodeWith, List.append_assoc, List.append_cancel_left_eq] at h
  obtain ⟨rfl, hrest⟩ := ha.2.append_inj hb.2 h
  exact ⟨rfl, by simpa using hrest⟩

end Output

/-! ### Spellings of a transaction -/

/-- The compact sizes of a written transaction: its two counts and the size of each script. -/
structure Spelling where
  inputCount : Bytes
  inputSizes : List Bytes
  outputCount : Bytes
  outputSizes : List Bytes

namespace Spelling

/-- The compact sizes in the order in which they are written. -/
def sizes (sp : Spelling) : List Bytes :=
  sp.inputCount :: sp.inputSizes ++ sp.outputCount :: sp.outputSizes

/-- The compact sizes are forms of the counts and sizes of a transaction. -/
structure Of (sp : Spelling) (tx : Transaction) : Prop where
  inputCount : IsSize tx.inputs.length sp.inputCount
  inputSizes : List.Forall₂ (fun i => IsSize i.scriptBytes.length) tx.inputs sp.inputSizes
  outputCount : IsSize tx.outputs.length sp.outputCount
  outputSizes :
    List.Forall₂ (fun o => IsSize o.lockingScript.bytes.length) tx.outputs sp.outputSizes

/-- The compact sizes of a transaction in their shortest forms. -/
def shortest (tx : Transaction) : Spelling where
  inputCount := CompactSize.ofLength tx.inputs.length
  inputSizes := tx.inputs.map fun i => CompactSize.ofLength i.scriptBytes.length
  outputCount := CompactSize.ofLength tx.outputs.length
  outputSizes := tx.outputs.map fun o => CompactSize.ofLength o.lockingScript.bytes.length

end Spelling

end Tx

namespace Transaction

open Tx

/-- The transaction as it is written, in a spelling of its compact sizes. -/
def encodeWith (sp : Spelling) (tx : Transaction) : Bytes :=
  littleEndian 4 tx.version.toNat ++ sp.inputCount ++
    encodeParts Input.encodeWith sp.inputSizes tx.inputs ++ sp.outputCount ++
    encodeParts Output.encodeWith sp.outputSizes tx.outputs ++ littleEndian 4 tx.lockTime.toNat

theorem encode_eq_encodeWith (tx : Transaction) : tx.encode = tx.encodeWith (.shortest tx) := by
  simp only [encode, encodeWith, Spelling.shortest, encodeParts, List.zipWith_map_left,
    List.zipWith_self, List.flatMap_def]
  rfl

theorem parses_read :
    Parses read fun tx w => (∀ i ∈ tx.inputs, i.IsBare) ∧
      ∃ sp : Spelling, sp.Of tx ∧ w = tx.encodeWith sp := by
  have houtput : Parses Output.read fun o w => True ∧
      ∃ size, IsSize o.lockingScript.bytes.length size ∧ w = o.encodeWith size :=
    Output.parses_read.of_iff fun o w => by rw [true_and]
  refine ((parses_u32.adapt _).bind fun version => (parses_size.adapt _).bind fun inputCount =>
    (parses_readMany Input.parses_read inputCount.toNat).bind fun inputs =>
    (parses_size.adapt _).bind fun outputCount =>
    (parses_readMany houtput outputCount.toNat).bind fun outputs =>
    (parses_u32.adapt _).map fun lockTime =>
      Transaction.mk version inputs outputs lockTime).of_iff fun tx w => ?_
  constructor
  · rintro ⟨version, _, _, rfl, ⟨inputCount, _, _, hin, ⟨inputs, _, _, hinputs, ⟨outputCount, _, _,
      hout, ⟨outputs, _, _, houtputs, ⟨lockTime, rfl, rfl⟩, rfl⟩, rfl⟩, rfl⟩, rfl⟩, rfl⟩
    obtain ⟨hlen, hbare, sizes, hsizes, rfl⟩ := hinputs
    obtain ⟨hlen', -, sizes', hsizes', rfl⟩ := houtputs
    refine ⟨hbare, ⟨_, sizes, _, sizes'⟩, ⟨hlen ▸ hin, hsizes, hlen' ▸ hout, hsizes'⟩, ?_⟩
    simp [encodeWith]
  · rintro ⟨hbare, sp, hsp, rfl⟩
    -- Counts are read as words, and lists have lengths.
    have hcount {n : Nat} {size : Bytes} (h : IsSize n size) :
        n = (UInt64.ofNat n).toNat ∧ IsSize (UInt64.ofNat n).toNat size := by
      rw [UInt64.toNat_ofNat_of_lt' (Nat.lt_of_le_of_lt h.1 (by decide))]
      exact ⟨rfl, h⟩
    obtain ⟨hin, hinSize⟩ := hcount hsp.inputCount
    obtain ⟨hout, houtSize⟩ := hcount hsp.outputCount
    refine ⟨tx.version, _, _, rfl, ⟨_, _, _, hinSize, ⟨tx.inputs, _, _,
      ⟨hin, hbare, _, hsp.inputSizes, rfl⟩, ⟨_, _, _, houtSize, ⟨tx.outputs, _, _,
      ⟨hout, fun _ _ => trivial, _, hsp.outputSizes, rfl⟩, ⟨tx.lockTime, rfl, rfl⟩, rfl⟩, rfl⟩,
      rfl⟩, rfl⟩, ?_⟩
    simp [encodeWith]

theorem decode_eq_ok_iff_outcome {bs : Bytes} {tx : Transaction} :
    decode bs = .ok tx ↔ ∃ c, outcome read (.start bs) = (.ok tx, c) ∧ c.rest = [] := by
  unfold decode
  rw [show read.run (.start bs) = outcome read (.start bs) from rfl]
  rcases outcome read (.start bs) with ⟨e | tx', c⟩
  · simp
  · by_cases hc : c.rest = [] <;> simp [Cursor.isFinished, hc]

/-- What is read are the spellings of a transaction, and nothing else. -/
theorem decode_eq_ok_iff {bs : Bytes} {tx : Transaction} :
    decode bs = .ok tx ↔ (∀ i ∈ tx.inputs, i.IsBare) ∧
      ∃ sp : Spelling, sp.Of tx ∧ bs = tx.encodeWith sp := by
  rw [decode_eq_ok_iff_outcome]
  constructor
  · rintro ⟨c, hrun, hc⟩
    obtain ⟨w, ⟨hbare, sp, hsp, rfl⟩, hrest, -⟩ := (parses_read _ _ _).mp hrun
    rw [hc, List.append_nil] at hrest
    exact ⟨hbare, sp, hsp, hrest⟩
  · rintro ⟨hbare, sp, hsp, rfl⟩
    -- The cursor behind all of the bytes.
    refine ⟨⟨(tx.encodeWith sp).length, []⟩, ?_, rfl⟩
    refine (parses_read _ _ _).mpr ⟨_, ⟨hbare, sp, hsp, rfl⟩, (List.append_nil _).symm, ?_⟩
    exact (Nat.zero_add _).symm

/-- Two spellings of a transaction are never the same bytes. -/
theorem encodeWith_inj {tx : Transaction} {sp sp' : Spelling} (hsp : sp.Of tx) (hsp' : sp'.Of tx)
    (h : tx.encodeWith sp = tx.encodeWith sp') : sp = sp' := by
  simp only [encodeWith, List.append_assoc, List.append_cancel_left_eq] at h
  -- From left to right, each form ends where the other one does.
  obtain ⟨hin, h₁⟩ := hsp.inputCount.2.append_inj hsp'.inputCount.2 h
  obtain ⟨hins, h₂⟩ := encodeParts_inj Input.encodeWith_append_inj
    hsp.inputSizes hsp'.inputSizes h₁
  obtain ⟨hout, h₃⟩ := hsp.outputCount.2.append_inj hsp'.outputCount.2 h₂
  obtain ⟨houts, -⟩ := encodeParts_inj Output.encodeWith_append_inj
    hsp.outputSizes hsp'.outputSizes h₃
  cases sp
  cases sp'
  simp_all

end Transaction

namespace Tx.Spelling

section

variable {α : Type} {length : α → Nat} {xs : List α} {sizes : List Bytes}

theorem forall₂_ofLength (h : List.Forall₂ (fun x => IsSize (length x)) xs sizes) :
    List.Forall₂ (fun x => IsSize (length x)) xs
      (xs.map fun x => CompactSize.ofLength (length x)) := by
  induction h with
  | nil => exact .nil
  | cons hx _ ih => exact .cons hx.ofLength ih

theorem eq_map_ofLength_iff (h : List.Forall₂ (fun x => IsSize (length x)) xs sizes) :
    sizes = (xs.map fun x => CompactSize.ofLength (length x)) ↔
      ∀ size ∈ sizes, CompactSize.IsShortest size := by
  induction h with
  | nil => simp
  | cons hx _ ih =>
    rw [List.map_cons, List.cons.injEq, ih, ← hx.isShortest_iff, List.forall_mem_cons]

end

theorem of_shortest {tx : Transaction} {sp : Spelling} (h : sp.Of tx) : (shortest tx).Of tx where
  inputCount := h.inputCount.ofLength
  inputSizes := forall₂_ofLength h.inputSizes
  outputCount := h.outputCount.ofLength
  outputSizes := forall₂_ofLength h.outputSizes

/-- A spelling is the shortest exactly if each of its compact sizes has its shortest form. -/
theorem eq_shortest_iff {tx : Transaction} {sp : Spelling} (h : sp.Of tx) :
    sp = shortest tx ↔ ∀ size ∈ sp.sizes, CompactSize.IsShortest size := by
  rw [sizes, List.cons_append, List.forall_mem_cons, List.forall_mem_append, List.forall_mem_cons,
    h.inputCount.isShortest_iff, h.outputCount.isShortest_iff, ← eq_map_ofLength_iff h.inputSizes,
    ← eq_map_ofLength_iff h.outputSizes, shortest, mk.injEq]

end Tx.Spelling

/-! ### Writing what has been read -/

namespace Tx.Input

/-- What an input is read from are its spellings, and the bytes left behind are one of them. -/
theorem outcome_read_eq_ok {c c' : Cursor} {i : Input} (h : outcome read c = (.ok i, c')) :
    ∃ size, IsSize i.scriptBytes.length size ∧ c.upTo c' = i.encodeWith size ∧
      c.rest = c.upTo c' ++ c'.rest := by
  obtain ⟨w, ⟨-, size, hsize, rfl⟩, hrest, hpos⟩ := (parses_read c c' i).mp h
  have hupTo : c.upTo c' = i.encodeWith size := by
    rw [Cursor.upTo, hpos, Nat.add_sub_cancel_left, hrest, List.take_left]
  exact ⟨size, hsize, hupTo, by rw [hupTo, hrest]⟩

theorem encode_eq_encodeWith_iff {i : Input} {size : Bytes} (h : IsSize i.scriptBytes.length size) :
    i.encode = i.encodeWith size ↔ CompactSize.IsShortest size := by
  rw [h.isShortest_iff, encode_eq_encodeWith]
  constructor
  · intro heq
    exact (encodeWith_append_inj i _ _ [] [] h.ofLength h (by rw [heq])).1.symm
  · rintro rfl
    rfl

end Tx.Input

namespace Transaction

open Tx

theorem encode_eq_encodeWith_iff {tx : Transaction} {sp : Spelling} (h : sp.Of tx) :
    tx.encode = tx.encodeWith sp ↔ ∀ size ∈ sp.sizes, CompactSize.IsShortest size := by
  rw [← Spelling.eq_shortest_iff h, encode_eq_encodeWith]
  constructor
  · intro heq
    exact (encodeWith_inj (Spelling.of_shortest h) h heq).symm
  · rintro rfl
    rfl

/-- A transaction is written again as the bytes that it was read from exactly if each compact size
in them has its shortest form, and then its digest and its id are those of the bytes.  An input is
written again as the bytes that its read has left behind exactly if the size of its script has its
shortest form. -/
theorem encode_eq_iff_isShortest (bs : Bytes) (c : Cursor) :
    (∀ tx, decode bs = .ok tx → ∃ sp : Spelling, sp.Of tx ∧ bs = tx.encodeWith sp ∧
      (tx.encode = bs ↔ ∀ size ∈ sp.sizes, CompactSize.IsShortest size) ∧
      ((∀ size ∈ sp.sizes, CompactSize.IsShortest size) →
        tx.hash = Digest.sha256d bs ∧ tx.id = Hex.encode (Digest.sha256d bs).reverse.bytes)) ∧
    (∀ i c', outcome Input.read c = (.ok i, c') → ∃ size, IsSize i.scriptBytes.length size ∧
      c.rest = c.upTo c' ++ c'.rest ∧ c.upTo c' = i.encodeWith size ∧
      (i.encode = c.upTo c' ↔ CompactSize.IsShortest size)) := by
  constructor
  · intro tx h
    obtain ⟨-, sp, hsp, rfl⟩ := decode_eq_ok_iff.mp h
    have hiff := encode_eq_encodeWith_iff hsp
    refine ⟨sp, hsp, rfl, hiff, fun hshort => ?_⟩
    rw [id, hash, hiff.mpr hshort]
    exact ⟨rfl, rfl⟩
  · intro i c' h
    obtain ⟨size, hsize, hupTo, hrest⟩ := Input.outcome_read_eq_ok h
    refine ⟨size, hsize, hrest, hupTo, ?_⟩
    rw [hupTo]
    exact Input.encode_eq_encodeWith_iff hsize

/-- A count of no inputs in three bytes is read, and written again in one. -/
theorem decode_wide_count :
    decode [1, 0, 0, 0, 0xfd, 0, 0, 0, 0, 0, 0, 0] = .ok empty ∧
      empty.encode ≠ [1, 0, 0, 0, 0xfd, 0, 0, 0, 0, 0, 0, 0] := by
  constructor
  · rfl
  · decide

theorem encode_eq_iff_isShortest_wide_count :
    decode [1, 0, 0, 0, 0xfd, 0, 0, 0, 0, 0, 0, 0] = .ok empty ∧ ∃ sp : Spelling, sp.Of empty ∧
      [1, 0, 0, 0, 0xfd, 0, 0, 0, 0, 0, 0, 0] = empty.encodeWith sp ∧
      ¬∀ size ∈ sp.sizes, CompactSize.IsShortest size := by
  obtain ⟨sp, hsp, hbs, hiff, -⟩ := (encode_eq_iff_isShortest
    [1, 0, 0, 0, 0xfd, 0, 0, 0, 0, 0, 0, 0] (.start [])).1 empty rfl
  exact ⟨rfl, sp, hsp, hbs, fun h => absurd (hiff.mpr h) (by decide)⟩

end Transaction

end Utxo
