/-
The lengths of numbers.

A form of `w` bytes has room for a magnitude of all their bits but one, which is for the sign.  A
number that fits (`Fits`) has a shortest form of at most `w` bytes.

* **`length_encode_le_iff`** — the shortest form has at most `w` bytes just if the number fits them;
* **`fits_value`** — the number that a byte string stands for fits its length;
* **`Fits.add`**, **`Fits.mul`** — a sum takes at most one byte more than its terms, a product at most
  as many as its factors together.
-/
import Utxo.Proofs.Bytes.Integers
import Utxo.Script.Number

namespace Utxo.Number

/-- A number has a form of `w` bytes. -/
def Fits (w : Nat) (n : Int) : Prop := 2 * n.natAbs < 256 ^ w

instance (w : Nat) (n : Int) : Decidable (Fits w n) := inferInstanceAs (Decidable (_ < _))

variable {v w : Nat} {m n : Int}

/-! ### The shortest form -/

theorem length_encode (n : Int) : (encode n).length = width n := length_littleEndian _ _

theorem width_le_iff : width n ≤ w ↔ Fits w n := by
  unfold width Fits
  by_cases hn : n = 0
  · simp [hn]
  · rw [if_neg hn]
    have hpos : n.natAbs ≠ 0 := Int.natAbs_ne_zero.mpr hn
    cases w with
    | zero =>
      simp only [Nat.pow_zero]
      omega
    | succ w =>
      -- Of the bits of `w + 1` bytes all but one are for the magnitude.
      have hbits : 256 ^ (w + 1) = 2 * 2 ^ (8 * w + 7) := by
        rw [show 256 = 2 ^ 8 from rfl, ← Nat.pow_mul, ← Nat.pow_succ']
        congr 1
      have hlog : n.natAbs.log2 < 8 * w + 7 ↔ n.natAbs < 2 ^ (8 * w + 7) := Nat.log2_lt hpos
      omega

/-- The shortest form has at most `w` bytes just if the number fits them. -/
theorem length_encode_le_iff : (encode n).length ≤ w ↔ Fits w n := by
  rw [length_encode, width_le_iff]

theorem length_ofBool_le (b : Bool) : (ofBool b).length ≤ 1 := by
  cases b <;> decide

/-- Shortening a form makes it no longer. -/
theorem length_minimal_le (bs : Bytes) : (minimal bs).length ≤ bs.length := by
  have hattach (sign : UInt8) (rest : Bytes) :
      (attachSign sign rest).length ≤ rest.length + 1 := by
    cases rest with
    | nil => exact Nat.zero_le _
    | cons b rest =>
      simp only [attachSign]
      split_ifs
      · exact Nat.le_refl _
      · exact Nat.le_succ _
  unfold minimal
  split
  · exact Nat.zero_le _
  · next last rest hreverse =>
    have hlength : bs.length = rest.length + 1 := by
      rw [← List.length_reverse, hreverse, List.length_cons]
    have hdropped := (List.dropWhile_suffix (l := rest) (· = 0)).length_le
    have hattached := hattach last (rest.dropWhile (· = 0))
    split_ifs
    · exact Nat.le_refl _
    · rw [List.length_reverse]
      omega

/-! ### What forms stand for -/

/-- Of the bits of `w` bytes one is for the sign. -/
theorem two_mul_signWeight (h : 0 < w) : 2 * signWeight w = 256 ^ w := by
  rw [signWeight, Nat.shiftLeft_eq, Nat.one_mul, show 256 = 2 ^ 8 from rfl, ← Nat.pow_mul,
    ← Nat.pow_succ']
  congr 1
  omega

/-- The number that a byte string stands for fits its length. -/
theorem fits_value (bs : Bytes) : Fits bs.length (value bs) := by
  unfold Fits value
  cases bs with
  | nil => decide
  | cons b bs =>
    have hlt := ofLittleEndian_lt (b :: bs)
    set raw := ofLittleEndian (b :: bs)
    have hsign : 2 * signWeight (b :: bs).length = 256 ^ (b :: bs).length :=
      two_mul_signWeight (Nat.succ_pos bs.length)
    set sign := signWeight (b :: bs).length
    rw [if_neg (by simp)]
    dsimp only
    split_ifs <;> omega

theorem Fits.mono (h : Fits v n) (hle : v ≤ w) : Fits w n :=
  Nat.lt_of_lt_of_le h (Nat.pow_le_pow_right (by decide) hle)

theorem fits_of_natAbs_le (h : Fits w m) (hle : n.natAbs ≤ m.natAbs) : Fits w n := by
  unfold Fits at h ⊢
  omega

/-! ### Arithmetic -/

theorem Fits.neg (h : Fits w n) : Fits w (-n) :=
  fits_of_natAbs_le h (Nat.le_of_eq (Int.natAbs_neg n))

theorem Fits.natAbs (h : Fits w n) : Fits w n.natAbs :=
  fits_of_natAbs_le h (Nat.le_of_eq (Int.natAbs_natCast _))

/-- A sum takes at most one byte more than its terms. -/
theorem Fits.add (hm : Fits w m) (hn : Fits w n) : Fits (w + 1) (m + n) := by
  unfold Fits at *
  rw [Nat.pow_succ]
  omega

theorem Fits.sub (hm : Fits w m) (hn : Fits w n) : Fits (w + 1) (m - n) := by
  rw [Int.sub_eq_add_neg]
  exact hm.add hn.neg

theorem Fits.add_small (hn : Fits w n) (hm : m.natAbs ≤ 1) : Fits (w + 1) (n + m) := by
  have hpos : 0 < 256 ^ w := Nat.pow_pos (by decide)
  unfold Fits at *
  rw [Nat.pow_succ]
  omega

/-- A product takes at most as many bytes as its factors together. -/
theorem Fits.mul (hm : Fits v m) (hn : Fits w n) : Fits (v + w) (m * n) := by
  unfold Fits at *
  rw [Nat.pow_add, Int.natAbs_mul]
  have hproduct := Nat.mul_lt_mul'' hm hn
  calc 2 * (m.natAbs * n.natAbs) ≤ 2 * m.natAbs * (2 * n.natAbs) := by
        rw [← Nat.mul_assoc]
        exact Nat.mul_le_mul_left _ (by omega)
    _ < 256 ^ v * 256 ^ w := hproduct

theorem Fits.tdiv (h : Fits w m) (n : Int) : Fits w (m.tdiv n) := by
  refine fits_of_natAbs_le h ?_
  rw [Int.natAbs_tdiv]
  exact Nat.div_le_self _ _

theorem Fits.tmod (h : Fits w m) (n : Int) : Fits w (m.tmod n) := by
  refine fits_of_natAbs_le h ?_
  rw [Int.natAbs_tmod]
  exact Nat.mod_le _ _

/-- A count that a 64 bit word can hold takes at most nine bytes. -/
theorem fits_of_lt_size {k : Nat} (h : k < UInt64.size) : Fits 9 k := by
  unfold Fits
  have hsize : UInt64.size = 2 ^ 64 := rfl
  rw [Int.natAbs_natCast]
  omega

end Utxo.Number
