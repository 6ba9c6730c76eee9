/-
Strings of JSON text are read as they were written.

* **`takeBody_bodyOf`** — the body of a string that was written ends at its quotation mark;
* **`text?_bodyOf`** — and stands for the text that was written.
-/
import Mathlib.Tactic.IntervalCases
import Utxo.Json.Printer
import Utxo.Json.Value
import Utxo.Proofs.Text.Utf8

namespace Utxo.Json

open Text

variable {b : UInt8} {c : Char}

/-! ### Bodies byte by byte -/

/-- A byte that stands for itself in the body of a string. -/
def IsPlain (b : UInt8) : Prop := 0x20 ≤ b ∧ b ≠ 0x22 ∧ b ≠ 0x5c

theorem takeBody_plain (h : IsPlain b) (rest : Bytes) :
    Token.takeBody (b :: rest) =
      (Token.takeBody rest).map fun (body, rest) => (b :: body, rest) := by
  obtain ⟨hlow, hquote, hslash⟩ := h
  rw [Token.takeBody]
  · rw [if_neg]
    simp [hslash, UInt8.not_lt.mpr hlow]
  all_goals
    intros
    contradiction

theorem unescape_plain (h : b ≠ 0x5c) (rest : Bytes) :
    unescape (b :: rest) = (unescape rest).map (b :: ·) := by
  rw [unescape]
  all_goals
    intros
    contradiction

theorem unescape_unit {p q r s : UInt8} (h : codeUnit p q r s < 0xd800) (rest : Bytes) :
    unescape (0x5c :: 0x75 :: p :: q :: r :: s :: rest) =
      (unescape rest).map (utf8 (codeUnit p q r s) ++ ·) := by
  have hlow : ¬(0xdc00 ≤ codeUnit p q r s ∧ codeUnit p q r s < 0xe000) := by omega
  have hhigh : ¬(0xd800 ≤ codeUnit p q r s ∧ codeUnit p q r s < 0xdc00) := by omega
  rw [unescape.eq_def]
  simp only [hlow, hhigh, if_false]

/-! ### Characters -/

/-- A character in the body of a string. -/
def writtenChar (c : Char) : Bytes := utf8Chars (escape c)

/-- What is written for a character is taken as it is, and stands for the character. -/
structure IsReadBack (c : Char) : Prop where
  takeBody (rest : Bytes) : Token.takeBody (writtenChar c ++ rest) =
    (Token.takeBody rest).map fun (body, rest) => (writtenChar c ++ body, rest)
  unescape (rest : Bytes) : unescape (writtenChar c ++ rest) =
    (unescape rest).map (String.utf8EncodeChar c ++ ·)

theorem takeBody_append {bs : Bytes} (h : ∀ b ∈ bs, IsPlain b) (rest : Bytes) :
    Token.takeBody (bs ++ rest) =
      (Token.takeBody rest).map fun (body, rest) => (bs ++ body, rest) := by
  induction bs with
  | nil =>
    simp
  | cons b bs ih =>
    obtain ⟨hb, hbs⟩ := List.forall_mem_cons.mp h
    rw [List.cons_append, takeBody_plain hb, ih hbs, Option.map_map]
    rfl

theorem unescape_append {bs : Bytes} (h : ∀ b ∈ bs, IsPlain b) (rest : Bytes) :
    unescape (bs ++ rest) = (unescape rest).map (bs ++ ·) := by
  induction bs with
  | nil =>
    simp
  | cons b bs ih =>
    obtain ⟨hb, hbs⟩ := List.forall_mem_cons.mp h
    rw [List.cons_append, unescape_plain hb.2.2, ih hbs, Option.map_map]
    rfl

theorem unescape_escape (h : b ≠ 0x75) (rest : Bytes) :
    unescape (0x5c :: b :: rest) = (unescape rest).map (plainEscape b :: ·) := by
  rw [unescape]
  intros
  contradiction

/-- A control character is written with a short escape or as its code point. -/
theorem isReadBack_of_control (h : c.toNat < 0x20) : IsReadBack c := by
  have hshort : ∀ n ∈ [0x08, 0x09, 0x0a, 0x0c, 0x0d], IsReadBack (Char.ofNat n) := by
    simp only [List.forall_mem_cons, List.not_mem_nil, false_implies, implies_true, and_true]
    refine ⟨?_, ?_, ?_, ?_, ?_⟩ <;> exact ⟨fun rest => rfl, unescape_escape (by decide)⟩
  have hunit : ∀ n < 0x20, n ∉ [0x08, 0x09, 0x0a, 0x0c, 0x0d] → IsReadBack (Char.ofNat n) := by
    intro n hn hlong
    interval_cases n <;> first
      | exact absurd (by decide) hlong
      | exact ⟨fun rest => rfl, unescape_unit (by decide)⟩
  rw [← Char.ofNat_toNat c]
  by_cases hmem : c.toNat ∈ [0x08, 0x09, 0x0a, 0x0c, 0x0d]
  · exact hshort _ hmem
  · exact hunit _ h hmem

/-- A character that is written as it is. -/
structure IsPlainChar (c : Char) : Prop where
  space : 0x20 ≤ c.toNat
  quote : c ≠ '"'
  slash : c ≠ '\\'

theorem writtenChar_of_plain (h : IsPlainChar c) : writtenChar c = String.utf8EncodeChar c := by
  obtain ⟨hspace, hquote, hslash⟩ := h
  have hescape : escape c = [c] := by
    have hne (d : Char) (hd : d.toNat < 0x20) : c ≠ d := by
      rintro rfl
      omega
    simp [escape, hquote, hslash, hne '\x08' (by decide), hne '\x0c' (by decide),
      hne '\n' (by decide), hne '\r' (by decide), hne '\t' (by decide), Nat.not_lt.mpr hspace]
  rw [writtenChar, hescape, utf8Chars, List.flatMap_singleton]

theorem isPlain_of_mem_utf8EncodeChar (h : IsPlainChar c) (hb : b ∈ String.utf8EncodeChar c) :
    IsPlain b := by
  by_cases hascii : c.toNat < 0x80
  · rw [utf8EncodeChar_of_lt hascii, List.mem_singleton] at hb
    have hnat : b.toNat = c.toNat := by
      rw [hb, UInt8.toNat_ofNat_of_lt' (Nat.lt_trans hascii (by decide))]
    have hne (d : Char) (hd : c ≠ d) : b.toNat ≠ d.toNat := by
      rw [hnat]
      exact fun heq => hd (Char.toNat_inj.mp heq)
    refine ⟨UInt8.le_iff_toNat_le.mpr (by rw [hnat]; exact h.space), ?_, ?_⟩
    · rintro rfl
      exact hne _ h.quote rfl
    · rintro rfl
      exact hne _ h.slash rfl
  · have hhigh := le_of_mem_utf8EncodeChar (Nat.le_of_not_lt hascii) hb
    refine ⟨UInt8.le_trans (by decide) hhigh, ?_, ?_⟩
    · rintro rfl
      exact absurd hhigh (by decide)
    · rintro rfl
      exact absurd hhigh (by decide)

theorem isReadBack_of_plain (h : IsPlainChar c) : IsReadBack c := by
  have hplain : ∀ b ∈ String.utf8EncodeChar c, IsPlain b := fun _ =>
    isPlain_of_mem_utf8EncodeChar h
  constructor
  · intro rest
    rw [writtenChar_of_plain h, takeBody_append hplain]
  · intro rest
    rw [writtenChar_of_plain h, unescape_append hplain]

theorem isReadBack (c : Char) : IsReadBack c := by
  by_cases hquote : c = '"'
  · subst hquote
    exact ⟨fun rest => rfl, unescape_escape (by decide)⟩
  by_cases hslash : c = '\\'
  · subst hslash
    exact ⟨fun rest => rfl, unescape_escape (by decide)⟩
  rcases Nat.lt_or_ge c.toNat 0x20 with hcontrol | hspace
  · exact isReadBack_of_control hcontrol
  · exact isReadBack_of_plain ⟨hspace, hquote, hslash⟩

/-! ### Texts -/

/-- The body of the string that is written for a text. -/
def bodyOf (s : String) : Bytes := s.toList.flatMap writtenChar

/-- A text without escapes is its own body. -/
theorem bodyOf_of_plain {s : String} (h : ∀ c ∈ s.toList, IsPlainChar c) :
    bodyOf s = Text.utf8 s := by
  rw [bodyOf, utf8_eq, utf8Chars]
  exact List.flatMap_congr fun c hc => writtenChar_of_plain (h c hc)

theorem utf8_printText (s : String) :
    Text.utf8 (printText s) = 0x22 :: (bodyOf s ++ [0x22]) := by
  have hbody : utf8Chars (s.toList.flatMap escape) = bodyOf s := by
    rw [utf8Chars, List.flatMap_assoc]
    rfl
  rw [printText, utf8_ofList, utf8Chars, List.flatMap_append, List.flatMap_cons, ← utf8Chars, hbody]
  rfl

/-- The body of a string that was written ends at its quotation mark. -/
theorem takeBody_bodyOf (s : String) (rest : Bytes) :
    Token.takeBody (bodyOf s ++ 0x22 :: rest) = some (bodyOf s, rest) := by
  rw [bodyOf]
  induction s.toList with
  | nil => rfl
  | cons c cs ih =>
    rw [List.flatMap_cons, List.append_assoc, (isReadBack c).takeBody, ih]
    rfl

theorem unescape_bodyOf (s : String) : unescape (bodyOf s) = some (Text.utf8 s) := by
  rw [utf8_eq]
  rw [bodyOf]
  induction s.toList with
  | nil => rw [List.flatMap_nil, unescape]; rfl
  | cons c cs ih =>
    rw [List.flatMap_cons, (isReadBack c).unescape, ih]
    rfl

/-- What is written stands for the text. -/
theorem text?_bodyOf (s : String) : text? (bodyOf s) = some s := by
  rw [text?, unescape_bodyOf, Option.bind_some, fromUTF8?_utf8]

end Utxo.Json
