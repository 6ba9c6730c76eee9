/-
Hexadecimal text is read as it was written.

* **`of_mem_encode`** — what holds of the sixteen digits holds of every character that is written;
* **`pairs_flatMap_digits`** — two digits a byte are read as the byte;
* **`decodeLenient_encode`** — so the reading that takes a marker and odd digits undoes writing too;
* **`decode_ofList`** — the strict one, which reads bytes, takes digits that are even in number;
* **`decode_encode`** — and so it undoes writing as well.
-/
import Mathlib.Data.List.Induction
import Mathlib.Tactic.IntervalCases
import Utxo.Bytes.Hex
import Utxo.Proofs.Text.Utf8

namespace Utxo.Hex

theorem digitValue?_digit {n : Nat} (h : n < 16) : digitValue? (digit n).toNat = some n := by
  interval_cases n <;> rfl

theorem value_digit {n : Nat} (h : n < 16) : value (digit n) = n := by
  rw [value, digitValue?_digit h, Option.getD_some]

/-- A digit is one of `0` to `9` or one of `a` to `f`. -/
theorem toNat_digit {n : Nat} (h : n < 16) : 0x30 ≤ (digit n).toNat ∧ (digit n).toNat ≤ 0x66 := by
  interval_cases n <;> decide

theorem digits_eq (b : UInt8) : ∃ hi lo, hi < 16 ∧ lo < 16 ∧ 16 * hi + lo = b.toNat ∧
    digits b = [digit hi, digit lo] :=
  ⟨b.toNat / 16, b.toNat % 16, Nat.div_lt_of_lt_mul b.toNat_lt, Nat.mod_lt _ (by decide),
    Nat.div_add_mod _ _, rfl⟩

theorem length_flatMap_digits (bs : Bytes) : (bs.flatMap digits).length = 2 * bs.length := by
  induction bs with
  | nil => rfl
  | cons b bs ih =>
    have hb : (digits b).length = 2 := rfl
    rw [List.flatMap_cons, List.length_append, hb, ih, List.length_cons]
    omega

theorem toList_encode (bs : Bytes) : (encode bs).toList = bs.flatMap digits :=
  String.toList_ofList

/-- What holds of the sixteen digits holds of every character that is written. -/
theorem of_mem_encode {p : Char → Prop} (hdigit : ∀ n < 16, p (digit n)) {bs : Bytes} {c : Char}
    (h : c ∈ (encode bs).toList) : p c := by
  rw [toList_encode] at h
  obtain ⟨b, -, hc⟩ := List.mem_flatMap.mp h
  obtain ⟨hi, lo, hhi, hlo, -, hb⟩ := digits_eq b
  rw [hb, List.mem_cons, List.mem_singleton] at hc
  rcases hc with rfl | rfl
  · exact hdigit hi hhi
  · exact hdigit lo hlo

theorem isDigit_of_mem_encode {bs : Bytes} {c : Char} (h : c ∈ (encode bs).toList) :
    isDigit c :=
  of_mem_encode (p := fun c => isDigit c) (fun n hn => by rw [isDigit, digitValue?_digit hn]; rfl) h

/-- Two digits a byte are read as the byte. -/
theorem pairs_flatMap_digits (bs : Bytes) : pairs (bs.flatMap digits) = bs := by
  induction bs with
  | nil => rfl
  | cons b bs ih =>
    obtain ⟨hi, lo, hhi, hlo, hvalue, hb⟩ := digits_eq b
    rw [List.flatMap_cons, hb]
    show UInt8.ofNat (16 * value (digit hi) + value (digit lo)) :: pairs (bs.flatMap digits) = _
    rw [value_digit hhi, value_digit hlo, hvalue, ih, UInt8.ofNat_toNat]

/-- A text of digits has no marker. -/
theorem dropMarker_of_isDigit {cs : List Char} (h : ∀ c ∈ cs, isDigit c) : dropMarker cs = cs := by
  unfold dropMarker
  split
  · exact absurd (h 'x' (by simp)) (by decide)
  · exact absurd (h 'X' (by simp)) (by decide)
  · rfl

/-- Digits behind a marker or without one are read pair by pair, once they are even in number. -/
theorem decodeLenient_eq_pairs {text : String} {cs : List Char} (hcs : dropMarker text.toList = cs)
    (h : ∀ c ∈ cs, isDigit c) :
    decodeLenient text = .ok (pairs (if cs.length % 2 = 1 then '0' :: cs else cs)) := by
  have hfind : cs.find? (fun c => !isDigit c) = none := by
    rw [List.find?_eq_none]
    intro c hc
    simp [h c hc]
  rw [decodeLenient, hcs, hfind]

theorem decodeLenient_encode (bs : Bytes) : decodeLenient (encode bs) = .ok bs := by
  have hdigits : ∀ c ∈ (encode bs).toList, isDigit c := fun c => isDigit_of_mem_encode
  have heven : ¬(bs.flatMap digits).length % 2 = 1 := by
    rw [length_flatMap_digits]
    omega
  rw [decodeLenient_eq_pairs (dropMarker_of_isDigit hdigits) hdigits, toList_encode, if_neg heven,
    pairs_flatMap_digits]

/-! ### Reading bytes -/

theorem toNat_lt_of_isDigit {c : Char} (h : isDigit c) : c.toNat < 0x80 := by
  by_contra hwide
  have hnone : digitValue? c.toNat = none := by
    rw [digitValue?, if_neg (by omega), if_neg (by omega), if_neg (by omega)]
  rw [isDigit, hnone] at h
  cases h

/-- A digit is one byte of the text, which has its value. -/
theorem digitValue?_ofNat_of_isDigit {c : Char} (h : isDigit c) :
    digitValue? (UInt8.ofNat c.toNat).toNat = some (value c) := by
  have hbyte : c.toNat < UInt8.size := Nat.lt_of_lt_of_le (toNat_lt_of_isDigit h) (by decide)
  obtain ⟨n, hn⟩ := Option.isSome_iff_exists.mp h
  rw [UInt8.toNat_ofNat_of_lt' hbyte, value, hn, Option.getD_some]

theorem utf8_ofList_of_isDigit {cs : List Char} (h : ∀ c ∈ cs, isDigit c) :
    Text.utf8 (String.ofList cs) = cs.map fun c => UInt8.ofNat c.toNat := by
  rw [Text.utf8_ofList, Text.utf8Chars_of_lt fun c hc => toNat_lt_of_isDigit (h c hc)]

theorem decodeFrom_of_isDigit (i : Nat) {cs : List Char} (h : ∀ c ∈ cs, isDigit c) :
    decodeFrom i (cs.map fun c => UInt8.ofNat c.toNat) = .ok (pairs cs) := by
  induction cs using List.twoStepInduction generalizing i with
  | nil => rfl
  | singleton c => rfl
  | cons_cons hi lo rest ih _ =>
    obtain ⟨hhi, hlo, hrest⟩ := by simpa only [List.forall_mem_cons] using h
    rw [List.map_cons, List.map_cons, decodeFrom, digitValue?_ofNat_of_isDigit hhi,
      digitValue?_ofNat_of_isDigit hlo, ih (i + 2) hrest]
    rfl

/-- The strict reading takes every text of digits that is even in length. -/
theorem decode_ofList {cs : List Char} (h : ∀ c ∈ cs, isDigit c) (heven : cs.length % 2 = 0) :
    decode (String.ofList cs) = .ok (pairs cs) := by
  have hbytes := utf8_ofList_of_isDigit h
  have hlength : ¬(Text.utf8 (String.ofList cs)).length % 2 = 1 := by
    rw [hbytes, List.length_map]
    omega
  refine (if_neg hlength).trans ?_
  rw [← decodeFrom_of_isDigit 0 h, ← hbytes]
  rfl

theorem decode_encode (bs : Bytes) : decode (encode bs) = .ok bs := by
  have hdigits : ∀ c ∈ bs.flatMap digits, isDigit c := by
    rw [← toList_encode]
    exact fun c => isDigit_of_mem_encode
  have heven : (bs.flatMap digits).length % 2 = 0 := by
    rw [length_flatMap_digits]
    omega
  rw [encode, decode_ofList hdigits heven, pairs_flatMap_digits]

end Utxo.Hex
