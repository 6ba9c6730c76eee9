/-
Scripts and transactions are read from hexadecimal text of any shape.

A text may have a marker in front, letters of either case and an odd number of digits.  Each character is
looked at before the digits go to the strict reading, which therefore finds nothing to refuse.

* **`digitValue?_eq_some_iff`** — a digit stands in the alphabet at the place that is its value, in either
  case;
* **`decodeLenient_eq_ok_of_toLower_eq`** — so the case of letters does not matter;
* **`decodeStaged_eq`** — a check of the characters and then the strict reading are the lenient reading;
* **`decodeLenient_isNormalising`** — which texts are read, what is read, and what is named of the others.
-/
import Mathlib.Data.List.Forall2
import Utxo.Proofs.Bytes.Numerals
import Utxo.Proofs.Tx.Envelopes

namespace Utxo.Hex

variable {c d : Char} {n : Nat} {as bs digits : List Char} {s t : String} {data : Bytes}

/-! ### Letter case -/

/-- The digits in the order of their values. -/
def alphabet : List Char := "0123456789abcdef".toList

theorem getElem?_alphabet (h : n < 16) : alphabet[n]? = some (digit n) := by
  revert n
  decide

theorem toNat_digit_eq (h : n < 16) : (digit n).toNat = if n < 10 then 48 + n else 87 + n := by
  revert n
  decide

theorem toNat_toLower (c : Char) : c.toLower.toNat =
    if 65 ≤ c.toNat ∧ c.toNat ≤ 90 then c.toNat + 32 else c.toNat := by
  have hcapital : c.val ≥ 'A'.val ∧ c.val ≤ 'Z'.val ↔ 65 ≤ c.toNat ∧ c.toNat ≤ 90 := Iff.rfl
  by_cases h : 65 ≤ c.toNat ∧ c.toNat ≤ 90
  · have hlower : c.toLower = _ := dif_pos (hcapital.mpr h)
    have hle : c.val.toNat ≤ 90 := h.2
    rw [if_pos h, hlower]
    exact (UInt32.toNat_add c.val 32).trans (Nat.mod_eq_of_lt (by show _ + 32 < _; omega))
  · have hlower : c.toLower = c := dif_neg (mt hcapital.mp h)
    rw [if_neg h, hlower]

/-- A digit has the value at whose place its lower case stands in the alphabet. -/
theorem digitValue?_eq_some_iff : digitValue? c.toNat = some n ↔ alphabet[n]? = some c.toLower := by
  by_cases hn : n < 16
  · rw [getElem?_alphabet hn, Option.some_inj, ← Char.toNat_inj, toNat_toLower, toNat_digit_eq hn]
    -- Both sides say in which range the code point lies, and no two ranges meet.
    unfold digitValue?
    split_ifs <;> simp only [Option.some_inj, false_iff] <;> omega
  · have hend : alphabet[n]? = none := List.getElem?_eq_none (Nat.le_of_not_lt hn)
    have hvalue : digitValue? c.toNat ≠ some n := by
      intro h
      have hlt := value_lt c
      rw [value, h] at hlt
      exact hn hlt
    rw [hend]
    exact iff_of_false hvalue fun h => Option.some_ne_none _ h.symm

theorem getElem?_alphabet_eq_some_iff : alphabet[n]? = some c.toLower ↔ isDigit c ∧ value c = n := by
  rw [← digitValue?_eq_some_iff, isDigit, value]
  cases digitValue? c.toNat <;> simp

/-- The two characters are the same but for the case of a letter. -/
def SameLetter (c d : Char) : Prop := c.toLower = d.toLower

theorem SameLetter.digitValue?_eq (h : SameLetter c d) :
    digitValue? c.toNat = digitValue? d.toNat := by
  refine Option.ext fun n => ?_
  rw [digitValue?_eq_some_iff, h, digitValue?_eq_some_iff]

theorem SameLetter.isDigit_iff (h : SameLetter c d) : isDigit c ↔ isDigit d := by
  rw [isDigit, h.digitValue?_eq, isDigit]

theorem SameLetter.value_eq (h : SameLetter c d) : value c = value d := by
  rw [value, h.digitValue?_eq, value]

theorem SameLetter.eq_zero (h : SameLetter '0' d) : d = '0' := by
  have hd := congrArg Char.toNat h
  have hzero : '0'.toLower.toNat = 48 := rfl
  rw [toNat_toLower d, hzero] at hd
  refine Char.toNat_inj.mp (?_ : d.toNat = 48)
  split_ifs at hd <;> omega

theorem SameLetter.eq_marker (h : SameLetter 'x' d) : d = 'x' ∨ d = 'X' := by
  have hd := congrArg Char.toNat h
  have hmarker : 'x'.toLower.toNat = 120 := rfl
  rw [toNat_toLower d, hmarker] at hd
  rw [← Char.toNat_inj, ← Char.toNat_inj]
  show d.toNat = 120 ∨ d.toNat = 88
  split_ifs at hd <;> omega

theorem isDigit_of_sameLetter (h : List.Forall₂ SameLetter as bs) (hdigits : ∀ c ∈ as, isDigit c) :
    ∀ d ∈ bs, isDigit d := by
  induction h with
  | nil => exact hdigits
  | cons hc _ ih =>
    rw [List.forall_mem_cons] at hdigits ⊢
    exact ⟨hc.isDigit_iff.mp hdigits.1, ih hdigits.2⟩

theorem numeral_of_sameLetter (h : List.Forall₂ SameLetter as bs) : numeral as = numeral bs := by
  induction h with
  | nil => rfl
  | cons hc hrest ih => rw [numeral_cons, numeral_cons, hc.value_eq, hrest.length_eq, ih]

/-- A marker is one in either case. -/
theorem exists_marker {x : Char} (hx : SameLetter 'x' x)
    (hsame : List.Forall₂ SameLetter ('0' :: x :: digits) bs) :
    ∃ digits', (bs = '0' :: 'x' :: digits' ∨ bs = '0' :: 'X' :: digits') ∧
      List.Forall₂ SameLetter digits digits' := by
  obtain ⟨zero, tail, hzero, htail, rfl⟩ := List.forall₂_cons_left_iff.mp hsame
  obtain ⟨x', digits', hx', hdigits, rfl⟩ := List.forall₂_cons_left_iff.mp htail
  obtain rfl := hzero.eq_zero
  refine ⟨digits', ?_, hdigits⟩
  rcases SameLetter.eq_marker (hx.trans hx') with rfl | rfl
  · exact .inl rfl
  · exact .inr rfl

/-- A numeral is one in any case of its letters, that of its marker too. -/
theorem IsNumeral.of_sameLetter (h : IsNumeral as digits) (hsame : List.Forall₂ SameLetter as bs) :
    ∃ digits', IsNumeral bs digits' ∧ List.Forall₂ SameLetter digits digits' := by
  obtain ⟨hdigits, rfl | rfl | rfl⟩ := h
  · exact ⟨bs, ⟨isDigit_of_sameLetter hsame hdigits, .inl rfl⟩, hsame⟩
  · obtain ⟨digits', hbs, hrest⟩ := exists_marker rfl hsame
    exact ⟨digits', ⟨isDigit_of_sameLetter hrest hdigits, .inr hbs⟩, hrest⟩
  · obtain ⟨digits', hbs, hrest⟩ := exists_marker (show SameLetter 'x' 'X' from rfl) hsame
    exact ⟨digits', ⟨isDigit_of_sameLetter hrest hdigits, .inr hbs⟩, hrest⟩

theorem sameLetter_of_toLower_eq (h : s.toLower = t.toLower) :
    List.Forall₂ SameLetter s.toList t.toList := by
  have hlists : s.toList.map Char.toLower = t.toList.map Char.toLower := by
    rw [← String.toList_map, ← String.toList_map]
    exact congrArg String.toList h
  rw [← List.forall₂_eq_eq_eq, List.forall₂_map_left_iff, List.forall₂_map_right_iff] at hlists
  exact hlists

/-- Texts that are the same but for the case of letters are read as the same bytes. -/
theorem decodeLenient_eq_ok_of_toLower_eq (h : s.toLower = t.toLower)
    (hs : decodeLenient s = .ok data) : decodeLenient t = .ok data := by
  obtain ⟨digits, hdigits, rfl⟩ := decodeLenient_eq_ok_iff.mp hs
  obtain ⟨digits', hdigits', hsame⟩ := hdigits.of_sameLetter (sameLetter_of_toLower_eq h)
  rw [decodeLenient_of_isNumeral hdigits', numeral_of_sameLetter hsame, hsame.length_eq]

/-! ### The strict reading inside -/

/-- The text with a zero in front, if its bytes are odd in number. -/
def evened (text : String) : String :=
  if (Text.utf8 text).length % 2 = 1 then "0" ++ text else text

/-- The lenient reading in two stages: a check of each character behind the marker, and then the strict
reading of them all. -/
def decodeStaged (text : String) : Except Error Bytes :=
  match (dropMarker text.toList).find? (fun c => !isDigit c) with
  | some c => .error (.badChar c text)
  | none => decode (evened (String.ofList (dropMarker text.toList)))

/-- Behind the check the strict reading takes every text, as its characters are its bytes. -/
theorem decode_evened (h : ∀ c ∈ digits, isDigit c) : decode (evened (String.ofList digits)) =
    .ok (pairs (if digits.length % 2 = 1 then '0' :: digits else digits)) := by
  rw [evened, utf8_ofList_of_isDigit h, List.length_map]
  split_ifs with hodd
  · have hzero : "0" ++ String.ofList digits = String.ofList ('0' :: digits) := by
      rw [← String.toList_inj]
      simp
    rw [hzero, decode_ofList (List.forall_mem_cons.mpr ⟨rfl, h⟩)]
    rw [List.length_cons]
    omega
  · exact decode_ofList h (by omega)

theorem decodeStaged_eq (text : String) : decodeStaged text = decodeLenient text := by
  rw [decodeStaged, decodeLenient]
  cases hfind : (dropMarker text.toList).find? (fun c => !isDigit c) with
  | some c => rfl
  | none => exact decode_evened fun c hc => by simpa using List.find?_eq_none.mp hfind c hc

/-! ### Markers -/

/-- The text is `rest` behind a marker, or is `rest` and has none. -/
def IsUnmarked (rest text : List Char) : Prop :=
  text = '0' :: 'x' :: rest ∨ text = '0' :: 'X' :: rest ∨
    text = rest ∧ ¬['0', 'x'] <+: text ∧ ¬['0', 'X'] <+: text

theorem isUnmarked_dropMarker (cs : List Char) : IsUnmarked (dropMarker cs) cs := by
  unfold dropMarker
  split
  · exact .inl rfl
  · exact .inr (.inl rfl)
  · next hlower hupper =>
    refine .inr (.inr ⟨rfl, ?_, ?_⟩)
    · rintro ⟨rest, rfl⟩
      exact hlower rest rfl
    · rintro ⟨rest, rfl⟩
      exact hupper rest rfl

/-- What is written is read behind a marker too. -/
theorem decodeLenient_append_encode {m : String} (hm : m ∈ ["", "0x", "0X"]) (data : Bytes) :
    decodeLenient (m ++ encode data) = .ok data := by
  have hplain : IsNumeral (encode data).toList (encode data).toList :=
    ⟨fun c => isDigit_of_mem_encode, .inl rfl⟩
  have hmarked : IsNumeral (m ++ encode data).toList (encode data).toList := by
    refine ⟨hplain.1, ?_⟩
    rw [String.toList_append]
    simp only [List.mem_cons, List.not_mem_nil, or_false] at hm
    rcases hm with rfl | rfl | rfl
    · exact .inl rfl
    · exact .inr (.inl rfl)
    · exact .inr (.inr rfl)
  rw [decodeLenient_of_isNumeral hmarked, ← decodeLenient_of_isNumeral hplain, decodeLenient_encode]

/-! ### Scripts and transactions -/

/-- A text is read just if it is a row of digits, with a marker in front or without.  The bytes are
those of the number that the digits stand for, two digits a byte and an odd one by itself, whatever the
case of the letters.  Any other text is refused for the first character behind the marker that is not a
digit, so that the strict reading, to which the rest goes, refuses nothing.  What is written is read as
it was, and scripts and transactions are what the bytes are. -/
theorem decodeLenient_isNormalising :
    (∀ c n, alphabet[n]? = some c.toLower ↔ isDigit c ∧ value c = n) ∧
    (∀ text, (∃ data, decodeLenient text = .ok data) ↔ ∃ digits, IsNumeral text.toList digits) ∧
    (∀ text digits, IsNumeral text.toList digits → ∃ data, decodeLenient text = .ok data ∧
      data.length = (digits.length + 1) / 2 ∧ ofBigEndian data = numeral digits ∧
      decode (evened (String.ofList digits)) = .ok data) ∧
    (∀ s t, s.toLower = t.toLower →
      ∀ data, decodeLenient s = .ok data → decodeLenient t = .ok data) ∧
    (∀ text, (¬∃ digits, IsNumeral text.toList digits) → ∃ before c after,
      IsUnmarked (before ++ c :: after) text.toList ∧ (∀ d ∈ before, isDigit d) ∧
      isDigit c = false ∧ decodeLenient text = .error (.badChar c text) ∧
      (Error.badChar c text).message =
        "invalid character " ++ Text.quoteChar c ++ " in " ++ Text.quote text) ∧
    (∀ text, decodeLenient text = decodeStaged text ∧
      ∀ e, decodeStaged text = .error e → ∃ c, e = .badChar c text) ∧
    (∀ m ∈ ["", "0x", "0X"], ∀ data, decodeLenient (m ++ encode data) = .ok data) ∧
    (∀ s : Script, Script.ofHex s.toHex = .ok s) ∧
    ∀ text,
      (∀ data, decodeLenient text = .ok data →
        Script.ofHex text = .ok ⟨data⟩ ∧ Transaction.ofHex text = Transaction.decode data) ∧
      ∀ e, decodeLenient text = .error e →
        Script.ofHex text = .error (.hex e) ∧ Transaction.ofHex text = .error (.hex e) := by
  refine ⟨fun c n => getElem?_alphabet_eq_some_iff, fun text => ?_, fun text digits h => ?_,
    fun s t h data hs => decodeLenient_eq_ok_of_toLower_eq h hs, fun text h => ?_,
    fun text => ⟨(decodeStaged_eq text).symm, fun e he => ?_⟩,
    fun m hm => decodeLenient_append_encode hm, Script.ofHex_toHex,
    fun text => ⟨fun data h => ?_, fun e h => ?_⟩⟩
  · simp only [decodeLenient_eq_ok_iff]
    exact ⟨fun ⟨_, digits, hdigits, _⟩ => ⟨digits, hdigits⟩, fun ⟨digits, hdigits⟩ =>
      ⟨_, digits, hdigits, rfl⟩⟩
  · refine ⟨_, decodeLenient_of_isNumeral h, length_bigEndian _ _,
      ofBigEndian_bigEndian_of_lt (numeral_lt digits), ?_⟩
    obtain ⟨hdrop, hdigits⟩ := isNumeral_iff.mp h
    rw [decode_evened hdigits, ← decodeLenient_eq_pairs hdrop hdigits, decodeLenient_of_isNumeral h]
  · -- What stands behind the marker is split where the check stops.
    obtain ⟨before, c, after, hcs, hbefore, hc, herror⟩ := exists_first_decodeLenient_eq_error h
    exact ⟨before, c, after, hcs ▸ isUnmarked_dropMarker _, hbefore, hc, herror, rfl⟩
  · -- Numerals are read, so a text with an error is none.
    rw [decodeStaged_eq] at he
    have hnumeral : ¬∃ digits, IsNumeral text.toList digits := by
      rintro ⟨digits, hdigits⟩
      cases he.symm.trans (decodeLenient_of_isNumeral hdigits)
    obtain ⟨c, -, -, herror⟩ := exists_decodeLenient_eq_error hnumeral
    exact ⟨c, Except.error.inj (he.symm.trans herror)⟩
  · rw [Script.ofHex, Transaction.ofHex, h]
    exact ⟨rfl, rfl⟩
  · rw [Script.ofHex, Transaction.ofHex, h]
    exact ⟨rfl, rfl⟩

/-- Three digits in both cases behind a marker; and an Arabic digit, which is not one, before another
letter. -/
theorem decodeLenient_isNormalising_mixed_case :
    let good := "0XaBc"
    let bad := "0x0\u0661x"
    let data : Bytes := [0x0a, 0xbc]
    (IsNumeral good.toList ['a', 'B', 'c'] ∧ decodeLenient good = .ok data ∧ data.length = 2 ∧
        ofBigEndian data = numeral ['a', 'B', 'c'] ∧ decode (evened "aBc") = .ok data) ∧
      (good.toLower = "0xAbC".toLower ∧ decodeLenient "0xAbC" = .ok data) ∧
      ("0X" ∈ ["", "0x", "0X"] ∧ decodeLenient ("0X" ++ encode data) = .ok data) ∧
      (Script.ofHex good = .ok ⟨data⟩ ∧ Transaction.ofHex good = Transaction.decode data) ∧
      (¬∃ digits, IsNumeral bad.toList digits) ∧
      ∃ before c after, IsUnmarked (before ++ c :: after) bad.toList ∧ (∀ d ∈ before, isDigit d) ∧
        isDigit c = false ∧ decodeLenient bad = .error (.badChar c bad) ∧
        Transaction.ofHex bad = .error (.hex (.badChar c bad)) := by
  intro good bad data
  obtain ⟨-, -, hread, hcase, hnamed, -, hmarked, -, htexts⟩ := decodeLenient_isNormalising
  have hgood : IsNumeral good.toList ['a', 'B', 'c'] :=
    ⟨List.all_eq_true.mp (by decide), .inr (.inr (by decide))⟩
  have hbad : ¬∃ digits, IsNumeral bad.toList digits := by
    rintro ⟨digits, hdigits⟩
    obtain ⟨rfl, hall⟩ := isNumeral_iff.mp hdigits
    exact absurd (List.all_eq_true.mpr hall) (by decide)
  have hmember : "0X" ∈ ["", "0x", "0X"] := by decide
  have hlower : good.toLower = "0xAbC".toLower := by
    rw [← String.toList_inj]
    exact String.toList_map.trans (Eq.trans (by decide) String.toList_map.symm)
  obtain ⟨bytes, hok, hlength, hvalue, hstrict⟩ := hread good _ hgood
  obtain rfl : bytes = data := Except.ok.inj (hok.symm.trans (by decide +kernel))
  obtain ⟨before, c, after, hrest, hbefore, hc, herror, -⟩ := hnamed bad hbad
  exact ⟨⟨hgood, hok, hlength, hvalue, hstrict⟩, ⟨hlower, hcase _ _ hlower _ hok⟩,
    ⟨hmember, hmarked _ hmember _⟩, (htexts good).1 _ hok, hbad, before, c, after, hrest, hbefore, hc,
    herror, ((htexts bad).2 _ herror).2⟩

end Utxo.Hex
