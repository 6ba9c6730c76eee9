/-
Hexadecimal numerals.

A numeral is a row of digits, with or without a marker in front.  Reading it in the lenient way gives the
number that the digits stand for, most significant byte first, in as many bytes as they need in pairs; an
odd first digit makes a byte by itself.

* **`pairs_eq_bigEndian`** — two digits a byte are the bytes of a number;
* **`decodeLenient_of_isNumeral`** — so a numeral is read as its number;
* **`exists_first_decodeLenient_eq_error`** — and of all else the first character that is not a digit is
  named.
-/
import Utxo.Proofs.Bytes.Hex
import Utxo.Proofs.Bytes.Integers

namespace Utxo.Hex

/-- The text is a row of digits, or a marker and a row of digits. -/
def IsNumeral (text digits : List Char) : Prop :=
  (∀ c ∈ digits, isDigit c) ∧
    (text = digits ∨ text = '0' :: 'x' :: digits ∨ text = '0' :: 'X' :: digits)

/-- The number that a row of digits stands for. -/
def numeral (digits : List Char) : Nat := digits.foldl (fun n c => 16 * n + value c) 0

variable {digits : List Char} {text : String}

/-! ### Numbers -/

theorem value_lt (c : Char) : value c < 16 := by
  unfold value digitValue?
  split_ifs <;> simp only [Option.getD_some, Option.getD_none] <;> omega

theorem numeral_cons (c : Char) (digits : List Char) :
    numeral (c :: digits) = value c * 16 ^ digits.length + numeral digits := by
  have hfold (n : Nat) : digits.foldl (fun n c => 16 * n + value c) n =
      n * 16 ^ digits.length + numeral digits := by
    induction digits generalizing n with
    | nil => simp [numeral]
    | cons d digits ih =>
      rw [numeral, List.foldl_cons, List.foldl_cons, ih, ih (16 * 0 + value d), List.length_cons,
        Nat.pow_succ]
      ring
  rw [numeral, List.foldl_cons, hfold]
  simp

/-- The number fits the bytes that are written for it. -/
theorem numeral_lt (digits : List Char) : numeral digits < 256 ^ ((digits.length + 1) / 2) := by
  have hplaces : numeral digits < 16 ^ digits.length := by
    induction digits with
    | nil => exact Nat.one_pos
    | cons c digits ih =>
      have hc := value_lt c
      calc numeral (c :: digits) = value c * 16 ^ digits.length + numeral digits :=
            numeral_cons c digits
        _ < (value c + 1) * 16 ^ digits.length := by rw [Nat.succ_mul]; omega
        _ ≤ 16 * 16 ^ digits.length := Nat.mul_le_mul_right _ hc
        _ = 16 ^ (c :: digits).length := by rw [List.length_cons, Nat.pow_succ, Nat.mul_comm]
  calc numeral digits < 16 ^ digits.length := hplaces
    _ ≤ 16 ^ (2 * ((digits.length + 1) / 2)) := Nat.pow_le_pow_right (by decide) (by omega)
    _ = 256 ^ ((digits.length + 1) / 2) := Nat.pow_mul 16 2 _

theorem numeral_zero_cons (digits : List Char) : numeral ('0' :: digits) = numeral digits := by
  have hzero : value '0' = 0 := rfl
  rw [numeral_cons, hzero, Nat.zero_mul, Nat.zero_add]

/-- Two digits a byte hold the number, most significant byte first. -/
theorem ofBigEndian_pairs (h : digits.length % 2 = 0) :
    (pairs digits).length = digits.length / 2 ∧ ofBigEndian (pairs digits) = numeral digits := by
  induction digits using List.twoStepInduction with
  | nil => exact ⟨rfl, rfl⟩
  | singleton c => simp at h
  | cons_cons hi lo rest ih _ =>
    rw [List.length_cons, List.length_cons] at h ⊢
    obtain ⟨hlength, hvalue⟩ := ih (by omega)
    have hhi := value_lt hi
    have hlo := value_lt lo
    have hbyte : (UInt8.ofNat (16 * value hi + value lo)).toNat = 16 * value hi + value lo :=
      UInt8.toNat_ofNat_of_lt' (by show _ < 256; omega)
    have hpower : 16 ^ rest.length = 256 ^ (rest.length / 2) := by
      rw [show 256 = 16 ^ 2 from rfl, ← Nat.pow_mul]
      congr 1
      omega
    refine ⟨?_, ?_⟩
    · rw [pairs, List.length_cons, hlength]
      omega
    · rw [pairs, ofBigEndian_cons, hbyte, hvalue, hlength, numeral_cons, numeral_cons,
        List.length_cons, Nat.pow_succ, hpower]
      ring

/-- Two digits a byte are the bytes of a number. -/
theorem pairs_eq_bigEndian (h : digits.length % 2 = 0) :
    pairs digits = bigEndian (digits.length / 2) (numeral digits) := by
  obtain ⟨hlength, hvalue⟩ := ofBigEndian_pairs h
  rw [← hvalue, ← hlength, bigEndian_ofBigEndian]

/-! ### Texts -/

theorem isNumeral_iff {cs : List Char} :
    IsNumeral cs digits ↔ dropMarker cs = digits ∧ ∀ c ∈ digits, isDigit c := by
  constructor
  · rintro ⟨hdigits, rfl | rfl | rfl⟩
    · exact ⟨dropMarker_of_isDigit hdigits, hdigits⟩
    · exact ⟨rfl, hdigits⟩
    · exact ⟨rfl, hdigits⟩
  · rintro ⟨rfl, hdigits⟩
    refine ⟨hdigits, ?_⟩
    unfold dropMarker
    split
    · exact .inr (.inl rfl)
    · exact .inr (.inr rfl)
    · exact .inl rfl

theorem IsNumeral.length_le {cs : List Char} (h : IsNumeral cs digits) :
    digits.length ≤ cs.length := by
  rcases h.2 with rfl | rfl | rfl
  · exact Nat.le_refl _
  · exact Nat.le_add_right _ 2
  · exact Nat.le_add_right _ 2

/-- A numeral is read as its number. -/
theorem decodeLenient_of_isNumeral (h : IsNumeral text.toList digits) :
    decodeLenient text = .ok (bigEndian ((digits.length + 1) / 2) (numeral digits)) := by
  obtain ⟨hdrop, hdigits⟩ := isNumeral_iff.mp h
  rw [decodeLenient_eq_pairs hdrop hdigits]
  split_ifs with hodd
  · rw [pairs_eq_bigEndian (by rw [List.length_cons]; omega), numeral_zero_cons, List.length_cons]
  · rw [pairs_eq_bigEndian (by omega)]
    congr 2
    omega

theorem mem_of_mem_dropMarker {c : Char} {cs : List Char} (h : c ∈ dropMarker cs) : c ∈ cs := by
  unfold dropMarker at h
  split at h
  · exact List.mem_cons_of_mem _ (List.mem_cons_of_mem _ h)
  · exact List.mem_cons_of_mem _ (List.mem_cons_of_mem _ h)
  · exact h

/-- What is not a numeral is not read, for the first character behind the marker that is not a digit. -/
theorem exists_first_decodeLenient_eq_error (h : ¬∃ digits, IsNumeral text.toList digits) :
    ∃ before c after, dropMarker text.toList = before ++ c :: after ∧ (∀ d ∈ before, isDigit d) ∧
      isDigit c = false ∧ decodeLenient text = .error (.badChar c text) := by
  cases hfind : (dropMarker text.toList).find? (fun c => !isDigit c) with
  | none =>
    refine absurd ⟨_, isNumeral_iff.mpr ⟨rfl, fun c hc => ?_⟩⟩ h
    simpa using List.find?_eq_none.mp hfind c hc
  | some c =>
    obtain ⟨hc, before, after, hcs, hbefore⟩ := List.find?_eq_some_iff_append.mp hfind
    refine ⟨before, c, after, hcs, fun d hd => by simpa using hbefore d hd, by simpa using hc, ?_⟩
    rw [decodeLenient, hfind]

/-- What is not a numeral is not read, for a character that is not a digit. -/
theorem exists_decodeLenient_eq_error (h : ¬∃ digits, IsNumeral text.toList digits) :
    ∃ c ∈ text.toList, isDigit c = false ∧ decodeLenient text = .error (.badChar c text) := by
  obtain ⟨before, c, after, hcs, -, hc, herror⟩ := exists_first_decodeLenient_eq_error h
  exact ⟨c, mem_of_mem_dropMarker (by simp [hcs]), hc, herror⟩

/-- The texts that are read, and what is read. -/
theorem decodeLenient_eq_ok_iff {bs : Bytes} : decodeLenient text = .ok bs ↔
    ∃ digits, IsNumeral text.toList digits ∧
      bs = bigEndian ((digits.length + 1) / 2) (numeral digits) := by
  constructor
  · intro hok
    by_cases hnumeral : ∃ digits, IsNumeral text.toList digits
    · obtain ⟨digits, hdigits⟩ := hnumeral
      exact ⟨digits, hdigits, Except.ok.inj (hok.symm.trans (decodeLenient_of_isNumeral hdigits))⟩
    · obtain ⟨c, -, -, herror⟩ := exists_decodeLenient_eq_error hnumeral
      cases hok.symm.trans herror
  · rintro ⟨digits, hdigits, rfl⟩
    exact decodeLenient_of_isNumeral hdigits

end Utxo.Hex
