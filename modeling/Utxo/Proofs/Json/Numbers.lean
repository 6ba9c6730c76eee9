/-
Numbers of JSON text are read as they were written.

* **`isNumeral_toString`** — a natural number is written in digits of its value, without leading zeros;
* **`IsNumeral.takeMagnitude`** — such digits are taken as a whole, if the text does not go on with them;
* **`IsNumeral.asNat?`** — and are read as the number.
-/
import Utxo.Json.Value
import Utxo.Proofs.Text.Utf8

namespace Utxo.Json

open Text

/-- Digits of a number: a zero stands alone, and no other number starts with one. -/
structure IsNumeral (n : Nat) (ds : Bytes) : Prop where
  isDigit : ∀ d ∈ ds, Token.isDigit d
  value : ds.foldl (fun n d => 10 * n + (d.toNat - 0x30)) 0 = n
  leading : ds = [0x30] ∨ ∃ d rest, ds = d :: rest ∧ d ≠ 0x30

/-- What follows a number does not go on with it. -/
def EndsNumber (rest : Bytes) : Prop :=
  ∀ b ∈ rest.head?, Token.isDigit b = false ∧ b ≠ 0x2e ∧ b ≠ 0x65 ∧ b ≠ 0x45

variable {n : Nat} {ds rest : Bytes}

/-- A digit in ASCII. -/
def digitByte (n : Nat) : UInt8 := UInt8.ofNat (0x30 + n)

theorem toNat_digitByte (h : n < 10) : (digitByte n).toNat = 0x30 + n :=
  UInt8.toNat_ofNat_of_lt' (Nat.lt_of_lt_of_le (Nat.add_lt_add_left h 0x30) (by decide))

theorem isDigit_digitByte (h : n < 10) : Token.isDigit (digitByte n) := by
  have hlow : 0x30 ≤ digitByte n := by
    rw [UInt8.le_iff_toNat_le, toNat_digitByte h]
    exact Nat.le_add_right _ _
  have hhigh : digitByte n ≤ 0x39 := by
    rw [UInt8.le_iff_toNat_le, toNat_digitByte h]
    exact Nat.add_le_add_left (Nat.le_of_lt_succ h) _
  simp [Token.isDigit, hlow, hhigh]

theorem utf8EncodeChar_digitChar (h : n < 10) :
    String.utf8EncodeChar n.digitChar = [digitByte n] := by
  have hvalue : n.digitChar.toNat = 0x30 + n := Nat.toNat_digitChar_of_lt_ten h
  rw [utf8EncodeChar_of_lt (by omega), hvalue]
  rfl

/-- The last digit is written behind the others. -/
theorem utf8_toString (n : Nat) :
    Text.utf8 (toString n) =
      if n < 10 then [digitByte n] else Text.utf8 (toString (n / 10)) ++ [digitByte (n % 10)] := by
  simp only [Nat.toString_eq_ofList_toDigits, utf8_ofList]
  rw [Nat.toDigits_eq_if (by decide)]
  split
  case isTrue h => rw [utf8Chars, List.flatMap_singleton, utf8EncodeChar_digitChar h]
  case isFalse h =>
    rw [utf8Chars, List.flatMap_append, List.flatMap_singleton,
      utf8EncodeChar_digitChar (Nat.mod_lt _ (by decide))]
    rfl

/-- One digit more makes ten times the number and the digit. -/
theorem IsNumeral.append {d : Nat} (h : IsNumeral n ds) (hn : n ≠ 0) (hd : d < 10) :
    IsNumeral (10 * n + d) (ds ++ [digitByte d]) := by
  constructor
  · simp only [List.mem_append, List.mem_singleton]
    rintro b (hb | rfl)
    · exact h.isDigit b hb
    · exact isDigit_digitByte hd
  · rw [List.foldl_append, h.value, List.foldl_cons, List.foldl_nil, toNat_digitByte hd,
      Nat.add_sub_cancel_left]
  · obtain hzero | ⟨b, rest, hds, hb⟩ := h.leading
    · have := h.value
      rw [hzero] at this
      exact absurd this.symm hn
    · exact .inr ⟨b, rest ++ [digitByte d], by rw [hds, List.cons_append], hb⟩

theorem isNumeral_toString (n : Nat) : IsNumeral n (Text.utf8 (toString n)) := by
  induction n using Nat.strongRecOn with
  | _ n ih =>
    rw [utf8_toString]
    split
    case isTrue h =>
      refine ⟨fun b hb => ?_, ?_, ?_⟩
      · rw [List.mem_singleton.mp hb]
        exact isDigit_digitByte h
      · rw [List.foldl_cons, List.foldl_nil, toNat_digitByte h, Nat.add_sub_cancel_left,
          Nat.mul_zero, Nat.zero_add]
      · rcases Nat.eq_zero_or_pos n with rfl | hpos
        · exact .inl rfl
        · refine .inr ⟨_, _, rfl, fun hzero => ?_⟩
          have := congrArg UInt8.toNat hzero
          rw [toNat_digitByte h] at this
          exact absurd this (by simpa using Nat.ne_of_gt hpos)
    case isFalse h =>
      have hprefix := (ih (n / 10) (by omega)).append (d := n % 10) (by omega) (by omega)
      rwa [Nat.div_add_mod] at hprefix

namespace IsNumeral

theorem takeDigits (h : IsNumeral n ds) (hends : EndsNumber rest) :
    Token.takeDigits (ds ++ rest) = some (ds, rest) := by
  have hstop : rest.takeWhile Token.isDigit = [] ∧ rest.dropWhile Token.isDigit = rest := by
    cases rest with
    | nil => exact ⟨rfl, rfl⟩
    | cons b rest =>
      have hb := (hends b rfl).1
      exact ⟨List.takeWhile_cons_of_neg (by simp [hb]), List.dropWhile_cons_of_neg (by simp [hb])⟩
  have hne : ds ≠ [] := by
    obtain hzero | ⟨d, rest, hds, -⟩ := h.leading <;> simp [*]
  rw [Token.takeDigits, List.takeWhile_append_of_pos h.isDigit, hstop.1, List.append_nil,
    List.dropWhile_append_of_pos h.isDigit, hstop.2]
  simp [hne]

theorem takeMagnitude (h : IsNumeral n ds) (hends : EndsNumber rest) :
    Token.takeMagnitude (ds ++ rest) = some (ds, rest) := by
  have hwhole : Token.takeWhole (ds ++ rest) = some (ds, rest) := by
    obtain rfl | ⟨d, tail, rfl, hd⟩ := h.leading
    · rfl
    · rw [← h.takeDigits hends, List.cons_append, Token.takeWhole]
      intro tail hzero
      exact hd (List.cons.inj hzero).1
  have hfraction : Token.takeFraction rest = some ([], rest) := by
    rw [Token.takeFraction]
    rintro tail rfl
    exact (hends 0x2e rfl).2.1 rfl
  have hexponent : Token.takeExponent rest = some ([], rest) := by
    cases rest with
    | nil => rfl
    | cons b rest =>
      obtain ⟨-, -, hlower, hupper⟩ := hends b rfl
      simp [Token.takeExponent, hlower, hupper]
  simp [Token.takeMagnitude, hwhole, hfraction, hexponent]

/-- A numeral makes one token. -/
theorem take {d : UInt8} (h : IsNumeral n (d :: ds)) (hends : EndsNumber rest) :
    Token.take d (ds ++ rest) = some (.number (d :: ds), rest) := by
  have hdigit := h.isDigit d List.mem_cons_self
  rw [Token.take, ← List.cons_append, h.takeMagnitude hends]
  · rfl
  all_goals
    intros
    subst d
    contradiction

theorem asNat? (h : IsNumeral n ds) {bound : Nat} (hn : n < bound) :
    Json.asNat? bound (.number ds) = some n := by
  have hdigits : ds.all Token.isDigit := List.all_eq_true.mpr h.isDigit
  simp [Json.asNat?, hdigits, h.value, hn]

end IsNumeral

end Utxo.Json
