/-
The grammar of assembly text.

A word is one of two short ones, a mnemonic or a numeral, and stands for the bytes of an opcode or of a
push (`Spells`).  No mnemonic is a numeral, so the order in which the alternatives are tried only matters
for the word `0`.  The bytes of a word are a chunk by themselves, whatever follows, unless the word is the
mnemonic of an opcode that a length has to follow.

* **`encodeWord_eq_ok_iff`** — the words that are accepted, and what they stand for;
* **`Spells.exists_chunk`** — the bytes of a word are a chunk;
* **`ofAsm_isGrammatical`** — so a text is accepted just if its words are, and the script is made of what
  they stand for, one after the other.
-/
import Utxo.Proofs.Bytes.Numerals
import Utxo.Proofs.Itemwise
import Utxo.Proofs.Script.Assembly

namespace Utxo

/-! ### Mnemonics -/

namespace Opcode

variable {op : Opcode} {name : String}

theorem ofMnemonic?_eq_some_iff : ofMnemonic? name = some op ↔ (op, name) ∈ mnemonics := by
  refine ⟨fun h => ?_, ofMnemonic?_of_mem⟩
  obtain ⟨⟨op', name'⟩, hfind, rfl⟩ := Option.map_eq_some_iff.mp h
  obtain rfl : name' = name := by simpa using List.find?_some hfind
  exact List.mem_of_find?_eq_some hfind

/-- The mnemonics of the opcodes that a length has to follow. -/
def lengthMnemonics : List String := ["OP_PUSHDATA1", "OP_PUSHDATA2", "OP_PUSHDATA4"]

theorem filter_isPush_mnemonics : mnemonics.filter (fun e => e.1.isPush) =
    [(0x00, "OP_0"), (0x00, "OP_FALSE"), (0x4c, "OP_PUSHDATA1"), (0x4d, "OP_PUSHDATA2"),
      (0x4e, "OP_PUSHDATA4")] := rfl

/-- Any other mnemonic names the push of no bytes, or an opcode that pushes none. -/
theorem eq_zero_of_isPush (h : (op, name) ∈ mnemonics) (hpush : op.isPush)
    (hname : name ∉ lengthMnemonics) : op = 0 := by
  have hmem : (op, name) ∈ mnemonics.filter (fun e => e.1.isPush) := by simp [h, hpush]
  rw [filter_isPush_mnemonics] at hmem
  simp only [lengthMnemonics, List.mem_cons, List.not_mem_nil, or_false, not_or] at hname
  simp only [List.mem_cons, List.not_mem_nil, or_false, Prod.mk.injEq, hname, and_false] at hmem
  exact hmem.elim And.left And.left

end Opcode

namespace Script

variable {word : String} {bytes : Bytes} {digits : List Char}

/-! ### Words -/

/-- A word of assembly text, and the bytes that it stands for. -/
inductive Spells : String → Bytes → Prop where
  | zero : Spells "0" [0x00]
  | negativeOne : Spells "-1" [Opcode.negativeOne]
  | opcode {op : Opcode} {name : String} (h : (op, name) ∈ Opcode.mnemonics) : Spells name [op]
  /-- The push of the number that the digits stand for, in as many bytes as they need in pairs. -/
  | data {word : String} {digits : List Char} {bytes : Bytes} (hword : word ≠ "0")
      (hdigits : Hex.IsNumeral word.toList digits)
      (hpush : Push.encode (bigEndian ((digits.length + 1) / 2) (Hex.numeral digits)) =
        .ok bytes) : Spells word bytes

/-- The words of the grammar. -/
def IsToken (word : String) : Prop :=
  word = "0" ∨ word = "-1" ∨ (∃ op, (op, word) ∈ Opcode.mnemonics) ∨
    ∃ digits, Hex.IsNumeral word.toList digits

theorem Spells.isToken (h : Spells word bytes) : IsToken word := by
  cases h with
  | zero => exact .inl rfl
  | negativeOne => exact .inr (.inl rfl)
  | opcode h => exact .inr (.inr (.inl ⟨_, h⟩))
  | data _ hdigits _ => exact .inr (.inr (.inr ⟨_, hdigits⟩))

/-- A numeral is neither a sign and a digit nor a mnemonic. -/
theorem of_isNumeral (h : Hex.IsNumeral word.toList digits) :
    word ≠ "-1" ∧ Opcode.ofMnemonic? word = none := by
  obtain ⟨hdrop, hdigits⟩ := Hex.isNumeral_iff.mp h
  constructor
  · rintro rfl
    have hsign : '-' ∈ digits := by simp [← hdrop, Hex.dropMarker]
    exact absurd (hdigits '-' hsign) (by decide)
  · cases hop : Opcode.ofMnemonic? word with
    | none => rfl
    | some op =>
      -- A mnemonic starts with a letter that is neither a digit nor the start of a marker.
      obtain ⟨hhead, -⟩ := Opcode.of_mem_mnemonics (Opcode.ofMnemonic?_eq_some_iff.mp hop)
      rcases h.2 with htext | htext | htext
      · rw [htext] at hhead
        exact absurd (hdigits 'O' (List.mem_of_mem_head? hhead)) (by decide)
      · rw [htext] at hhead
        cases hhead
      · rw [htext] at hhead
        cases hhead

theorem encodeWord_of_isNumeral (hword : word ≠ "0") (h : Hex.IsNumeral word.toList digits) :
    encodeWord word = Push.encode (bigEndian ((digits.length + 1) / 2) (Hex.numeral digits)) := by
  obtain ⟨hminus, hmnemonic⟩ := of_isNumeral h
  rw [encodeWord, if_neg hword, if_neg hminus, hmnemonic, Hex.decodeLenient_of_isNumeral h]

/-- A word that is not in the grammar is refused, and named with one of its characters. -/
theorem exists_encodeWord_eq_error (h : ¬IsToken word) :
    ∃ c ∈ word.toList, Hex.isDigit c = false ∧
      encodeWord word = .error (.hex (.badChar c word)) := by
  simp only [IsToken, not_or] at h
  obtain ⟨hzero, hminus, hmnemonic, hnumeral⟩ := h
  obtain ⟨c, hc, hdigit, hdecode⟩ := Hex.exists_decodeLenient_eq_error hnumeral
  refine ⟨c, hc, hdigit, ?_⟩
  rw [encodeWord, if_neg hzero, if_neg hminus]
  cases hop : Opcode.ofMnemonic? word with
  | some op => exact absurd ⟨op, Opcode.ofMnemonic?_eq_some_iff.mp hop⟩ hmnemonic
  | none =>
    dsimp only
    rw [hdecode]

/-- The words that are accepted, and what they stand for. -/
theorem encodeWord_eq_ok_iff : encodeWord word = .ok bytes ↔ Spells word bytes := by
  constructor
  · intro h
    by_cases htoken : IsToken word
    · by_cases hzero : word = "0"
      · subst hzero
        cases h
        exact .zero
      · rcases htoken with rfl | rfl | ⟨op, hmem⟩ | ⟨digits, hdigits⟩
        · exact absurd rfl hzero
        · cases h
          exact .negativeOne
        · cases (encodeWord_of_mem hmem).symm.trans h
          exact .opcode hmem
        · rw [encodeWord_of_isNumeral hzero hdigits] at h
          exact .data hzero hdigits h
    · obtain ⟨c, -, -, herror⟩ := exists_encodeWord_eq_error htoken
      cases herror.symm.trans h
  · intro h
    cases h with
    | zero => rfl
    | negativeOne => rfl
    | opcode h => exact encodeWord_of_mem h
    | data hword hdigits hpush => rw [encodeWord_of_isNumeral hword hdigits, hpush]

/-- A word of the grammar whose digits are not too many stands for bytes. -/
theorem IsToken.exists_spells (h : IsToken word)
    (hroom : ∀ digits, Hex.IsNumeral word.toList digits → digits.length ≤ 2 ^ 33 - 2) :
    ∃ bytes, Spells word bytes := by
  by_cases hzero : word = "0"
  · subst hzero
    exact ⟨_, .zero⟩
  · rcases h with rfl | rfl | ⟨op, hmem⟩ | ⟨digits, hdigits⟩
    · exact absurd rfl hzero
    · exact ⟨_, .negativeOne⟩
    · exact ⟨_, .opcode hmem⟩
    · have hlength := hroom digits hdigits
      have hpushed : (bigEndian ((digits.length + 1) / 2) (Hex.numeral digits)).length ≤
          Push.maxLength := by
        have hmax : Push.maxLength = 2 ^ 32 - 1 := rfl
        rw [length_bigEndian, hmax]
        omega
      obtain ⟨c, hc⟩ := Chunk.exists_push hpushed
      refine ⟨c.encode, .data hzero hdigits ?_⟩
      rw [Chunk.encode_push, hc]
      rfl

/-- The bytes of a word are a chunk by themselves, whatever follows. -/
theorem Spells.exists_chunk (h : Spells word bytes) (hword : word ∉ Opcode.lengthMnemonics) :
    ∃ c : Chunk, c.encode = bytes ∧ c.isTruncated = false ∧
      ∀ rest, Chunk.decode (bytes ++ rest) = c :: Chunk.decode rest := by
  have hpushed {data bytes : Bytes} (hpush : Push.encode data = .ok bytes) :
      ∃ c : Chunk, c.encode = bytes ∧ c.isTruncated = false ∧
        ∀ rest, Chunk.decode (bytes ++ rest) = c :: Chunk.decode rest := by
    obtain ⟨c, hc, -, -, hwhole, hdecode⟩ := Chunk.decode_push hpush []
    rw [Chunk.encode_push, hc] at hpush
    obtain rfl := Except.ok.inj hpush
    exact ⟨c, rfl, hwhole, (Chunk.of_push_eq_ok hc).2.2⟩
  have hopcode {op : Opcode} (hop : op.isPush = false) :
      ∃ c : Chunk, c.encode = [op] ∧ c.isTruncated = false ∧
        ∀ rest, Chunk.decode ([op] ++ rest) = c :: Chunk.decode rest :=
    ⟨.ofOpcode op, rfl, rfl, Chunk.decode_opcode hop⟩
  have hnothing : Push.encode [] = .ok [0x00] := rfl
  cases h with
  | zero => exact hpushed hnothing
  | negativeOne => exact hopcode rfl
  | @opcode op _ hmem =>
    cases hpush : op.isPush with
    | false => exact hopcode hpush
    | true =>
      obtain rfl := Opcode.eq_zero_of_isPush hmem hpush hword
      exact hpushed hnothing
  | data _ _ hpush => exact hpushed hpush

/-! ### Texts -/

variable {text : String} {s : Script}

/-- The script of a text is made of what its words stand for. -/
theorem ofAsm_eq_ok_iff : ofAsm text = .ok s ↔
    ∃ parts, List.Forall₂ Spells (Text.words text) parts ∧ s.bytes = parts.flatten := by
  have hparts (parts : List Bytes) : (Text.words text).mapM encodeWord = .ok parts ↔
      List.Forall₂ Spells (Text.words text) parts := by
    simp only [mapM_eq_ok_iff, encodeWord_eq_ok_iff]
  rw [ofAsm, ofWords]
  cases hmapM : (Text.words text).mapM encodeWord with
  | error e =>
    constructor
    · intro h
      cases h
    · rintro ⟨parts, hspells, -⟩
      cases hmapM.symm.trans ((hparts parts).mpr hspells)
  | ok parts =>
    constructor
    · intro h
      cases h
      exact ⟨parts, (hparts parts).mp hmapM, rfl⟩
    · rintro ⟨parts', hspells, hbytes⟩
      cases hmapM.symm.trans ((hparts parts').mpr hspells)
      exact congrArg Except.ok (congrArg Script.mk hbytes.symm)

/-- What words stand for is read as one chunk for each. -/
theorem forall₂_decode {words : List String} {parts : List Bytes}
    (h : List.Forall₂ Spells words parts) (hwords : ∀ w ∈ words, w ∉ Opcode.lengthMnemonics) :
    List.Forall₂ (fun w c => c.isTruncated = false ∧ Spells w c.encode) words
      (Chunk.decode parts.flatten) := by
  induction h with
  | nil => exact .nil
  | cons hspells _ ih =>
    obtain ⟨hword, hrest⟩ := List.forall_mem_cons.mp hwords
    obtain ⟨c, rfl, hwhole, hdecode⟩ := hspells.exists_chunk hword
    rw [List.flatten_cons, hdecode]
    exact .cons ⟨hwhole, hspells⟩ (ih hrest)

/-- A text and another one behind a space are read one after the other. -/
theorem ofAsm_append (a b : String) : ofAsm (a ++ " " ++ b) = do
    let s ← ofAsm a
    let t ← ofAsm b
    return ⟨s.bytes ++ t.bytes⟩ := by
  simp only [ofAsm, ofWords, Text.words_append_space, List.mapM_append]
  cases (Text.words a).mapM encodeWord with
  | error e => rfl
  | ok parts =>
    cases (Text.words b).mapM encodeWord with
    | error e => rfl
    | ok parts' => exact congrArg (fun bytes => Except.ok (Script.mk bytes)) List.flatten_append

/-- All words of a text are in the grammar and it is accepted, or the first one that is not is named. -/
theorem ofAsm_cases (hroom : ∀ w ∈ Text.words text, ∀ digits, Hex.IsNumeral w.toList digits →
      digits.length ≤ 2 ^ 33 - 2) :
    ((∀ w ∈ Text.words text, IsToken w) ∧ ∃ s, ofAsm text = .ok s) ∨
      ∃ before w after c, Text.words text = before ++ w :: after ∧ (∀ v ∈ before, IsToken v) ∧
        ¬IsToken w ∧ c ∈ w.toList ∧ ofAsm text = .error (.hex (.badChar c w)) := by
  cases hmapM : (Text.words text).mapM encodeWord with
  | ok parts =>
    have htokens : List.Forall₂ (fun w p => IsToken w ∧ encodeWord w = .ok p) (Text.words text)
        parts :=
      (mapM_eq_ok_iff.mp hmapM).imp fun _ _ h => ⟨(encodeWord_eq_ok_iff.mp h).isToken, h⟩
    exact .inl ⟨((List.forall₂_and_left _ _).mp htokens).1, ⟨parts.flatten⟩, by
      rw [ofAsm, ofWords, hmapM]
      rfl⟩
  | error e =>
    obtain ⟨before, w, after, hwords, hbefore, hfails⟩ := mapM_eq_error_iff.mp hmapM
    have hw : ¬IsToken w := by
      intro htoken
      obtain ⟨bytes, hspells⟩ := htoken.exists_spells (hroom w (by simp [hwords]))
      cases hfails.symm.trans (encodeWord_eq_ok_iff.mpr hspells)
    obtain ⟨c, hc, -, herror⟩ := exists_encodeWord_eq_error hw
    refine .inr ⟨before, w, after, c, hwords, fun v hv => ?_, hw, hc, ?_⟩
    · obtain ⟨bytes, hbytes⟩ := hbefore v hv
      exact (encodeWord_eq_ok_iff.mp hbytes).isToken
    · obtain rfl := Except.error.inj (hfails.symm.trans herror)
      rw [ofAsm, ofWords, hmapM]
      rfl

/-- The message for a word that is not in the grammar shows one of its characters and the word. -/
theorem message_badChar (c : Char) (word : String) :
    (Error.hex (.badChar c word)).message =
      "invalid hex: invalid hex: invalid character " ++ Text.quoteChar c ++ " in " ++
        Text.quote word := by
  have hinner : (Hex.Error.badChar c word).message =
      "invalid character " ++ Text.quoteChar c ++ " in " ++ Text.quote word := rfl
  have houter : (Error.hex (.badChar c word)).message =
      "invalid hex: invalid hex: " ++ (Hex.Error.badChar c word).message := rfl
  have hstart : "invalid hex: invalid hex: invalid character " =
      "invalid hex: invalid hex: " ++ "invalid character " := by decide
  rw [houter, hinner, hstart]
  simp only [String.append_assoc]

/-- A text is accepted just if all its words are in the grammar; if not, the first one that is not is
named.  The script is made of what the words stand for, so that texts can be put together, and is read
as one chunk for each word unless an opcode has lost the length that has to follow it. -/
theorem ofAsm_isGrammatical :
    (∀ text, (∀ w ∈ Text.words text, ∀ digits, Hex.IsNumeral w.toList digits →
        digits.length ≤ 2 ^ 33 - 2) →
      ((∃ s, ofAsm text = .ok s) ↔ ∀ w ∈ Text.words text, IsToken w) ∧
        (¬(∀ w ∈ Text.words text, IsToken w) → ∃ before w after c,
          Text.words text = before ++ w :: after ∧ (∀ v ∈ before, IsToken v) ∧ ¬IsToken w ∧
            c ∈ w.toList ∧ ofAsm text = .error (.hex (.badChar c w)) ∧
            (Error.hex (.badChar c w)).message =
              "invalid hex: invalid hex: invalid character " ++ Text.quoteChar c ++ " in " ++
                Text.quote w)) ∧
    (∀ text s, ofAsm text = .ok s →
      (∃ parts, List.Forall₂ Spells (Text.words text) parts ∧ s.bytes = parts.flatten) ∧
        ((∀ w ∈ Text.words text, w ∉ Opcode.lengthMnemonics) →
          List.Forall₂ (fun w c => c.isTruncated = false ∧ Spells w c.encode) (Text.words text)
            s.chunks)) ∧
    ∀ a b, ofAsm (a ++ " " ++ b) = do
      let s ← ofAsm a
      let t ← ofAsm b
      return ⟨s.bytes ++ t.bytes⟩ := by
  refine ⟨fun text hroom => ?_, fun text s h => ?_, ofAsm_append⟩
  · rcases ofAsm_cases hroom with
      ⟨htokens, haccepted⟩ | ⟨before, w, after, c, hwords, hbefore, hw, hc, herror⟩
    · exact ⟨iff_of_true haccepted htokens, fun h => absurd htokens h⟩
    · have hrefused : ¬∃ s, ofAsm text = .ok s := by
        rintro ⟨s, hs⟩
        cases herror.symm.trans hs
      refine ⟨iff_of_false hrefused fun htokens => hw (htokens w (by simp [hwords])), fun _ => ?_⟩
      exact ⟨before, w, after, c, hwords, hbefore, hw, hc, herror, message_badChar c w⟩
  · obtain ⟨parts, hspells, hbytes⟩ := ofAsm_eq_ok_iff.mp h
    refine ⟨⟨parts, hspells, hbytes⟩, fun hwords => ?_⟩
    rw [chunks, hbytes]
    exact forall₂_decode hspells hwords

/-- Words of each kind, with a numeral of three digits and the mnemonic of a push of no bytes; and a text
with a marker behind a marker. -/
theorem ofAsm_isGrammatical_each_kind :
    let good := "0 -1 OP_DUP 0Xabc 00 OP_FALSE 0x"
    let bad := "0x OP_DUP 0x0xab zz"
    let s : Script := ⟨[0x00, 0x4f, 0x76, 0x02, 0x0a, 0xbc, 0x01, 0x00, 0x00, 0x00]⟩
    ofAsm good = .ok s ∧ (∀ w ∈ Text.words good, IsToken w) ∧
      List.Forall₂ (fun w c => c.isTruncated = false ∧ Spells w c.encode) (Text.words good)
        s.chunks ∧
      ∃ before w after c, Text.words bad = before ++ w :: after ∧ (∀ v ∈ before, IsToken v) ∧
        ¬IsToken w ∧ c ∈ w.toList ∧ ofAsm bad = .error (.hex (.badChar c w)) := by
  intro good bad s
  have hroom {text : String} (h : ∀ w ∈ Text.words text, w.toList.length ≤ 64) :
      ∀ w ∈ Text.words text, ∀ digits, Hex.IsNumeral w.toList digits →
        digits.length ≤ 2 ^ 33 - 2 :=
    fun w hw digits hdigits => (hdigits.length_le.trans (h w hw)).trans (by decide)
  have hgood : ofAsm good = .ok s := by decide +kernel
  have hbad : ¬∀ w ∈ Text.words bad, IsToken w := by
    intro htokens
    obtain ⟨t, ht⟩ := (ofAsm_isGrammatical.1 bad (hroom (by decide +kernel))).1.mpr htokens
    have herror : ofAsm bad = .error (.hex (.badChar 'x' "0x0xab")) := by decide +kernel
    cases herror.symm.trans ht
  obtain ⟨haccepted, -⟩ := ofAsm_isGrammatical.1 good (hroom (by decide +kernel))
  obtain ⟨-, hrefused⟩ := ofAsm_isGrammatical.1 bad (hroom (by decide +kernel))
  obtain ⟨before, w, after, c, hwords, hbefore, hw, hc, herror, -⟩ := hrefused hbad
  exact ⟨hgood, haccepted.mp ⟨s, hgood⟩, (ofAsm_isGrammatical.2.1 good s hgood).2 (by decide +kernel),
    before, w, after, c, hwords, hbefore, hw, hc, herror⟩

end Script

end Utxo
