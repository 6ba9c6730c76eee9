/-
Assembly text is read back.

The word of a chunk stands for a chunk with the same word.  That chunk is the shortest push of the
same bytes, or the opcode of the mnemonic; an opcode without a mnemonic is written as its digits,
and these stand for the push of one byte.  So the text of a script is the text of the script that it
stands for, and the two scripts are equal where no chunk changes.

* **`Opcode.ofMnemonic?_of_mem`** — no mnemonic names two opcodes;
* **`encodeWord_encode`** — the digits of bytes are neither a mnemonic nor one of the two short
  words;
* **`Chunk.exists_respelling`** — what the word of a chunk stands for;
* **`ofAsm_toAsm`** — and the text of a script.
-/
import Mathlib.Data.List.Nodup
import Utxo.Proofs.Bytes.Hex
import Utxo.Proofs.Script.Building
import Utxo.Proofs.Text.Words

namespace Utxo

/-! ### Mnemonics -/

namespace Opcode

variable {op : Opcode} {name : String}

/-- All mnemonics start with the same letter, and no character of them is blank. -/
theorem all_mnemonics :
    (mnemonics.map (·.2.toList)).all fun w =>
      w.head? = some 'O' && w.all fun c => 0x21 ≤ c.toNat && c.toNat ≤ 0x7e := by
  simp only [mnemonics, List.map_cons, List.map_nil, String.reduceToList]
  decide +kernel

/-- All mnemonics start alike, so they are told apart by what follows. -/
theorem nodup_drop_mnemonics : (mnemonics.map fun e => e.2.toList.drop 3).Nodup := by
  simp only [mnemonics, List.map_cons, List.map_nil, String.reduceToList, List.drop_succ_cons,
    List.drop_zero]
  decide +kernel

theorem of_mem_mnemonics (h : (op, name) ∈ mnemonics) :
    name.toList.head? = some 'O' ∧ ∀ c ∈ name.toList, 0x21 ≤ c.toNat ∧ c.toNat ≤ 0x7e := by
  have hall := List.all_eq_true.mp all_mnemonics name.toList (List.mem_map_of_mem h)
  simpa using hall

/-- No mnemonic names two opcodes. -/
theorem ofMnemonic?_of_mem (h : (op, name) ∈ mnemonics) : ofMnemonic? name = some op := by
  obtain ⟨e, hfind⟩ : ∃ e, mnemonics.find? (·.2 = name) = some e :=
    Option.isSome_iff_exists.mp (List.find?_isSome.mpr ⟨_, h, by simp⟩)
  have hname : e.2 = name := by simpa using List.find?_some hfind
  have heq : e = (op, name) :=
    List.inj_on_of_nodup_map nodup_drop_mnemonics (List.mem_of_find?_eq_some hfind) h (by rw [hname])
  rw [ofMnemonic?, hfind, heq]
  rfl

theorem mem_of_mnemonic?_eq_some (h : mnemonic? op = some name) : (op, name) ∈ mnemonics := by
  obtain ⟨before, after, htable, -⟩ := List.lookup_eq_some_iff.mp h
  rw [htable]
  simp

end Opcode

/-! ### Words -/

namespace Script

/-- A mnemonic stands for its opcode. -/
theorem encodeWord_of_mem {op : Opcode} {name : String} (h : (op, name) ∈ Opcode.mnemonics) :
    encodeWord name = .ok [op] := by
  obtain ⟨hhead, -⟩ := Opcode.of_mem_mnemonics h
  have hzero : name ≠ "0" := by
    rintro rfl
    simp at hhead
  have hminus : name ≠ "-1" := by
    rintro rfl
    simp at hhead
  rw [encodeWord, if_neg hzero, if_neg hminus, Opcode.ofMnemonic?_of_mem h]

theorem ofMnemonic?_encode (data : Bytes) : Opcode.ofMnemonic? (Hex.encode data) = none := by
  rw [Opcode.ofMnemonic?, Option.map_eq_none_iff, List.find?_eq_none]
  rintro ⟨op, name⟩ hmem hname
  obtain rfl : name = Hex.encode data := by simpa using hname
  -- A mnemonic starts with a letter that is not a digit.
  have hO := List.mem_of_mem_head? (Opcode.of_mem_mnemonics hmem).1
  exact absurd (Hex.isDigit_of_mem_encode hO) (by decide)

/-- The digits of bytes stand for the push of the bytes. -/
theorem encodeWord_encode (data : Bytes) : encodeWord (Hex.encode data) = Push.encode data := by
  have hlength : (Hex.encode data).toList.length = 2 * data.length := by
    rw [Hex.toList_encode, Hex.length_flatMap_digits]
  -- One short word has an odd number of characters, and the other one a sign.
  have hzero : Hex.encode data ≠ "0" := by
    intro heq
    rw [heq] at hlength
    simp at hlength
    omega
  have hminus : Hex.encode data ≠ "-1" := by
    intro heq
    have hsign : '-' ∈ (Hex.encode data).toList := by simp [heq]
    exact absurd (Hex.isDigit_of_mem_encode hsign) (by decide)
  rw [encodeWord, if_neg hzero, if_neg hminus, ofMnemonic?_encode, Hex.decodeLenient_encode]

end Script

namespace Chunk

variable {c : Chunk} {op : Opcode} {rest script : Bytes}

theorem isWord_hex {data : Bytes} (h : data ≠ []) : Text.IsWord (Hex.encode data).toList := by
  have hdigit (n : Nat) (hn : n < 16) : Text.isBlank (Hex.digit n) = false := by
    have hrange := Hex.toNat_digit hn
    exact Text.isBlank_of_graphic ⟨by omega, by omega⟩
  refine ⟨fun hnil => h ?_, fun ch => Hex.of_mem_encode (p := (Text.isBlank · = false)) hdigit⟩
  have hlength := Hex.length_flatMap_digits data
  rw [← Hex.toList_encode, hnil, List.length_nil] at hlength
  exact List.length_eq_zero_iff.mp (by omega)

theorem isWord_text (op : Opcode) : Text.IsWord op.text.toList := by
  rw [Opcode.text]
  cases hname : Opcode.mnemonic? op with
  | none => exact isWord_hex (by simp)
  | some name =>
    obtain ⟨hhead, hchars⟩ := Opcode.of_mem_mnemonics (Opcode.mem_of_mnemonic?_eq_some hname)
    refine ⟨fun hnil => ?_, fun ch hch => Text.isBlank_of_graphic (hchars ch hch)⟩
    rw [Option.getD_some] at hnil
    rw [hnil] at hhead
    cases hhead

/-- The word of a chunk is neither empty nor falls apart. -/
theorem isWord_asm (c : Chunk) : Text.IsWord c.asm.toList := by
  have hshort : Text.IsWord "0".toList ∧ Text.IsWord "-1".toList := by
    simp [Text.IsWord, Text.isBlank]
  unfold asm
  split
  · exact hshort.1
  · next hne _ => exact isWord_hex hne
  · split_ifs
    · exact hshort.2
    · exact isWord_text c.op

theorem asm_ofOpcode (h : Opcode.mnemonic? op = none) : (ofOpcode op).asm = Hex.encode [op] := by
  have hminus : op ≠ Opcode.negativeOne := by
    rintro rfl
    cases h
  show (if op = Opcode.negativeOne then "-1" else op.text) = _
  rw [if_neg hminus, Opcode.text, h]
  rfl

/-- A whole push that is the shortest one of its bytes, or an opcode above the pushes that has a
mnemonic. -/
def IsExact (c : Chunk) : Prop :=
  (c.isTruncated = false ∧ c.data.map push = some (.ok c)) ∨
    (Opcode.pushData4 < c.op ∧ (Opcode.mnemonic? c.op).isSome)

instance : DecidablePred IsExact := fun c =>
  inferInstanceAs (Decidable ((c.isTruncated = false ∧ c.data.map push = some (.ok c)) ∨
    (Opcode.pushData4 < c.op ∧ (Opcode.mnemonic? c.op).isSome)))

/-- The word of the first chunk stands for the second one, which has the same word and is the first
one if that is exact. -/
structure Respelling (c d : Chunk) : Prop where
  encodeWord_asm : Script.encodeWord c.asm = .ok d.encode
  asm_eq : d.asm = c.asm
  decode_append : ∀ more, decode (d.encode ++ more) = d :: decode more
  eq_iff : d = c ↔ c.IsExact

/-- The word of a push stands for the shortest push of its bytes. -/
theorem exists_respelling_of_push {data : Bytes} (hpush : c.op.isPush) (hdata : c.data = some data)
    (hlength : data.length ≤ Push.maxLength) : ∃ d, Respelling c d := by
  obtain ⟨d, hd⟩ := exists_push hlength
  obtain ⟨hdata', hwhole, hdecode⟩ := of_push_eq_ok hd
  have hle : ¬Opcode.pushData4 < c.op := UInt8.not_lt.mpr (of_decide_eq_true hpush)
  refine ⟨d, ?_, ?_, hdecode, ?_⟩
  · rw [asm, hdata]
    cases data with
    | nil =>
      obtain rfl : ⟨0, some [], 0, 0⟩ = d := Except.ok.inj hd
      rfl
    | cons b bs =>
      show Script.encodeWord (Hex.encode (b :: bs)) = .ok d.encode
      rw [Script.encodeWord_encode, encode_push, hd]
      rfl
  · rw [asm, asm, hdata, hdata']
    cases data <;> rfl
  · simp only [IsExact, hle, false_and, or_false, hdata, Option.map_some, hd, Option.some.injEq,
      Except.ok.injEq]
    constructor
    · rintro rfl
      exact ⟨hwhole, rfl⟩
    · exact And.right

/-- A mnemonic stands for its opcode. -/
theorem respelling_of_mnemonic {name : String} (hop : op.isPush = false)
    (hname : Opcode.mnemonic? op = some name) : Respelling (ofOpcode op) (ofOpcode op) where
  encodeWord_asm := by
    show Script.encodeWord (if op = Opcode.negativeOne then "-1" else op.text) = .ok [op]
    split_ifs with hminus
    · rw [hminus]
      rfl
    · rw [Opcode.text, hname]
      exact Script.encodeWord_of_mem (Opcode.mem_of_mnemonic?_eq_some hname)
  asm_eq := rfl
  decode_append := decode_opcode hop
  eq_iff := iff_of_true rfl
    (.inr ⟨UInt8.not_le.mp (of_decide_eq_false hop), Option.isSome_of_eq_some hname⟩)

/-- The digits of an opcode without a mnemonic stand for the push of one byte. -/
theorem respelling_of_digits (hname : Opcode.mnemonic? op = none) :
    Respelling (ofOpcode op) ⟨1, some [op], 1, 0⟩ where
  encodeWord_asm := by
    rw [asm_ofOpcode hname, Script.encodeWord_encode]
    rfl
  asm_eq := (asm_ofOpcode hname).symm
  decode_append := by
    have hpush : push [op] = .ok ⟨1, some [op], 1, 0⟩ := rfl
    exact (of_push_eq_ok hpush).2.2
  eq_iff := iff_of_false nofun fun h => by
    simp [IsExact, ofOpcode, hname] at h

/-- The word of every chunk of a script stands for a chunk. -/
theorem exists_respelling (op : Opcode) (rest : Bytes) : ∃ d, Respelling (read op rest).1 d := by
  cases hpush : op.isPush with
  | true =>
    have hlength := (dataLength_read_le op rest).trans (declaredLength_read_le op rest)
    rw [read_of_isPush hpush] at hlength ⊢
    exact exists_respelling_of_push hpush rfl hlength
  | false =>
    rw [read_of_not_isPush hpush]
    cases hname : Opcode.mnemonic? op with
    | some name => exact ⟨_, respelling_of_mnemonic hpush hname⟩
    | none => exact ⟨_, respelling_of_digits hname⟩

/-- The words of a script stand for chunks with the same words. These are the chunks of the script
if each of them is exact. -/
theorem exists_mapM_encodeWord (script : Bytes) :
    ∃ ds, ((decode script).map asm).mapM Script.encodeWord = .ok (ds.map encode) ∧
      ds.map asm = (decode script).map asm ∧ decode (ds.flatMap encode) = ds ∧
      (ds = decode script ↔ ∀ c ∈ decode script, c.IsExact) := by
  induction script using decode_induction with
  | nil => exact ⟨[], rfl, rfl, rfl, by simp⟩
  | cons op rest ih =>
    obtain ⟨ds, hencode, hasm, hdecode, heq⟩ := ih
    obtain ⟨d, hd⟩ := exists_respelling op rest
    rw [decode_cons]
    refine ⟨d :: ds, ?_, ?_, ?_, ?_⟩
    · rw [List.map_cons, List.mapM_cons, hd.encodeWord_asm, hencode]
      rfl
    · rw [List.map_cons, List.map_cons, hd.asm_eq, hasm]
    · rw [List.flatMap_cons, hd.decode_append, hdecode]
    · rw [List.cons_eq_cons, List.forall_mem_cons, hd.eq_iff, heq]

end Chunk

/-! ### Texts -/

namespace Script

/-- The text of a script stands for a script with the same text, and for the script itself just if
each of its chunks is exact. -/
theorem ofAsm_toAsm (s : Script) :
    ∃ t, ofAsm s.toAsm = .ok t ∧ t.toAsm = s.toAsm ∧ (t = s ↔ ∀ c ∈ s.chunks, c.IsExact) := by
  obtain ⟨ds, hencode, hasm, hdecode, heq⟩ := Chunk.exists_mapM_encodeWord s.bytes
  have hwords : Text.words s.toAsm = s.chunks.map Chunk.asm := by
    refine Text.words_intercalate fun w hw => ?_
    obtain ⟨c, -, rfl⟩ := List.mem_map.mp hw
    exact c.isWord_asm
  have hchunks : (ofChunks ds).chunks = ds := hdecode
  refine ⟨ofChunks ds, ?_, ?_, ?_⟩
  · rw [ofAsm, hwords, ofWords, chunks, hencode, ofChunks, List.flatMap_def]
    rfl
  · rw [toAsm, hchunks, hasm, toAsm, chunks]
  · -- Different chunks are different bytes, as both scripts are made of their chunks.
    have hiff : ofChunks ds = s ↔ ds = s.chunks := by
      constructor
      · rintro rfl
        exact hchunks.symm
      · rintro rfl
        exact ofChunks_chunks s
    rw [hiff]
    exact heq

/-- The shortest push of a byte, a longer one, and an opcode without a mnemonic. -/
example : Chunk.IsExact ⟨0x01, some [7], 1, 0⟩ ∧ ¬Chunk.IsExact ⟨0x4c, some [7], 1, 1⟩ ∧
    ¬Chunk.IsExact (.ofOpcode 0xba) := by
  decide

end Script

end Utxo
