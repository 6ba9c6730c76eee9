/-
Integers and the bytes they are written in.

Writing in `w` bytes and reading are inverse.

* **`ofLittleEndian_littleEndian`** — reading gives the integer modulo `256 ^ w`;
* **`littleEndian_ofLittleEndian`** — what has been read is written with the same bytes;
* **`ofBigEndian_take`**, **`ofBigEndian_drop`** — the bytes on one side of a place hold the quotient,
  and those on the other side the remainder;
* **`le_iff_ofBigEndian_le`** — byte strings of one width, most significant byte first, are ordered
  as their integers are.
-/
import Utxo.Bytes.Basic
import Mathlib.Tactic.Ring
import Mathlib.Tactic.Set

namespace Utxo

/-! ### Least significant byte first -/

theorem ofLittleEndian_lt (bs : Bytes) : ofLittleEndian bs < 256 ^ bs.length := by
  induction bs with
  | nil => exact Nat.one_pos
  | cons b bs ih =>
    have hb := b.toNat_lt
    rw [ofLittleEndian_cons, List.length_cons, Nat.pow_succ]
    omega

/-- Reading `w` bytes gives back what they can hold of the integer written. -/
theorem ofLittleEndian_littleEndian (w n : Nat) :
    ofLittleEndian (littleEndian w n) = n % 256 ^ w := by
  induction w generalizing n with
  | zero => simp [littleEndian, Nat.mod_one]
  | succ w ih =>
    have h : (UInt8.ofNat n).toNat = n % 256 := by simp
    rw [littleEndian, ofLittleEndian_cons, ih, h, Nat.pow_succ, Nat.mul_comm (256 ^ w) 256,
      Nat.mod_mul]

theorem littleEndian_ofLittleEndian (bs : Bytes) :
    littleEndian bs.length (ofLittleEndian bs) = bs := by
  induction bs with
  | nil => rfl
  | cons b bs ih =>
    have hb := b.toNat_lt
    have hlow : UInt8.ofNat (b.toNat + 256 * ofLittleEndian bs) = b := by
      rw [← UInt8.toNat_inj, UInt8.toNat_ofNat']
      omega
    have hhigh : (b.toNat + 256 * ofLittleEndian bs) / 256 = ofLittleEndian bs := by omega
    rw [List.length_cons, ofLittleEndian_cons, littleEndian, hlow, hhigh, ih]

theorem ofLittleEndian_littleEndian_of_lt {w n : Nat} (h : n < 256 ^ w) :
    ofLittleEndian (littleEndian w n) = n := by
  rw [ofLittleEndian_littleEndian, Nat.mod_eq_of_lt h]

theorem littleEndian_inj {w m n : Nat} (hm : m < 256 ^ w) (hn : n < 256 ^ w)
    (h : littleEndian w m = littleEndian w n) : m = n := by
  rw [← ofLittleEndian_littleEndian_of_lt hm, h, ofLittleEndian_littleEndian_of_lt hn]

theorem ofLittleEndian_append (as bs : Bytes) :
    ofLittleEndian (as ++ bs) = ofLittleEndian as + 256 ^ as.length * ofLittleEndian bs := by
  induction as with
  | nil => simp
  | cons a as ih =>
    rw [List.cons_append, ofLittleEndian_cons, ih, ofLittleEndian_cons, List.length_cons,
      Nat.pow_succ]
    ring

/-! ### Most significant byte first -/

theorem ofBigEndian_lt (bs : Bytes) : ofBigEndian bs < 256 ^ bs.length := by
  rw [ofBigEndian_eq_reverse, ← List.length_reverse]
  exact ofLittleEndian_lt bs.reverse

theorem ofBigEndian_bigEndian_of_lt {w n : Nat} (h : n < 256 ^ w) :
    ofBigEndian (bigEndian w n) = n := by
  rw [bigEndian, ofBigEndian_eq_reverse, List.reverse_reverse, ofLittleEndian_littleEndian_of_lt h]

theorem bigEndian_ofBigEndian (bs : Bytes) : bigEndian bs.length (ofBigEndian bs) = bs := by
  rw [bigEndian, ofBigEndian_eq_reverse, ← List.length_reverse, littleEndian_ofLittleEndian,
    List.reverse_reverse]

theorem ofBigEndian_append (as bs : Bytes) :
    ofBigEndian (as ++ bs) = ofBigEndian as * 256 ^ bs.length + ofBigEndian bs := by
  rw [ofBigEndian_eq_reverse, ofBigEndian_eq_reverse, ofBigEndian_eq_reverse, List.reverse_append,
    ofLittleEndian_append, List.length_reverse]
  ring

theorem ofBigEndian_cons (b : UInt8) (bs : Bytes) :
    ofBigEndian (b :: bs) = b.toNat * 256 ^ bs.length + ofBigEndian bs := by
  rw [← List.singleton_append, ofBigEndian_append]
  simp [ofBigEndian]

theorem ofBigEndian_replicate_zero (n : Nat) : ofBigEndian (List.replicate n 0) = 0 := by
  induction n with
  | zero => rfl
  | succ n ih => rw [List.replicate_succ, ofBigEndian_cons, ih]; simp

/-- The first bytes hold what is left of an integer without the others. -/
theorem ofBigEndian_take (bs : Bytes) (n : Nat) :
    ofBigEndian (bs.take n) = ofBigEndian bs / 256 ^ (bs.length - n) := by
  have hlow := ofBigEndian_lt (bs.drop n)
  have hsplit := ofBigEndian_append (bs.take n) (bs.drop n)
  rw [List.take_append_drop] at hsplit
  rw [List.length_drop] at hlow hsplit
  rw [hsplit, Nat.mul_comm, Nat.mul_add_div (Nat.pow_pos (by decide)), Nat.div_eq_of_lt hlow,
    Nat.add_zero]

/-- The last bytes hold an integer as far as it fits them. -/
theorem ofBigEndian_drop (bs : Bytes) (n : Nat) :
    ofBigEndian (bs.drop n) = ofBigEndian bs % 256 ^ (bs.length - n) := by
  have hlow := ofBigEndian_lt (bs.drop n)
  have hsplit := ofBigEndian_append (bs.take n) (bs.drop n)
  rw [List.take_append_drop] at hsplit
  rw [List.length_drop] at hlow hsplit
  rw [hsplit, Nat.mul_add_mod_self_right, Nat.mod_eq_of_lt hlow]

/-- Byte strings of one width are ordered as the integers whose most significant byte comes
first. -/
theorem le_iff_ofBigEndian_le {as bs : Bytes} (h : as.length = bs.length) :
    as ≤ bs ↔ ofBigEndian as ≤ ofBigEndian bs := by
  induction as generalizing bs with
  | nil =>
    cases bs with
    | nil => simp
    | cons b bs => simp at h
  | cons a as ih =>
    cases bs with
    | nil => simp at h
    | cons b bs =>
      have hlen : as.length = bs.length := by simpa using h
      have hlta := ofBigEndian_lt as
      have hltb := ofBigEndian_lt bs
      rw [List.cons_le_cons_iff, ih hlen, ofBigEndian_cons, ofBigEndian_cons, hlen]
      rw [hlen] at hlta
      set p := 256 ^ bs.length
      -- All that follows a first byte stays below `p`, so it only decides between equal first bytes.
      rcases Nat.lt_trichotomy a.toNat b.toNat with hab | hab | hab
      · have hstep : a.toNat * p + p ≤ b.toNat * p := by
          rw [← Nat.succ_mul]
          exact Nat.mul_le_mul_right p hab
        have hlt : a < b := UInt8.lt_iff_toNat_lt.mpr hab
        exact ⟨fun _ => by omega, fun _ => Or.inl hlt⟩
      · have heq : a = b := UInt8.toNat_inj.mp hab
        subst heq
        simp
      · have hstep : b.toNat * p + p ≤ a.toNat * p := by
          rw [← Nat.succ_mul]
          exact Nat.mul_le_mul_right p hab
        constructor
        · rintro (hlt | ⟨heq, -⟩)
          · exact absurd (UInt8.lt_iff_toNat_lt.mp hlt) (by omega)
          · exact absurd hab (by rw [heq]; omega)
        · intro hle
          omega

end Utxo
