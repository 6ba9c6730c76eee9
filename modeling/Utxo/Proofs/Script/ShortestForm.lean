/-
The shortest form of a number.

A form is a magnitude, least significant byte first, with a sign in the top bit of its last byte. A
form other than zero is fixed by its number and its length, so the shortest form is only one.

* **`value_encode`** — a number is read from its shortest form;
* **`eq_encode_of_length_le`** — no other form of the number is as short;
* **`value_append_singleton`** — what a form stands for, told by its last byte;
* **`minimal_eq_encode`** — shortening a form gives the shortest form of its number;
* **`truth_iff`** — a form is true just if its number is not zero.
-/
import Utxo.Machine.Operand
import Utxo.Proofs.Script.Number

namespace Utxo.Number

variable {w : Nat} {n : Int} {bs : Bytes}

/-! ### Forms of one length -/

/-- The number that is written for `n` in `w` bytes, sign and all. -/
def raw (w : Nat) (n : Int) : Nat := n.natAbs + if n < 0 then signWeight w else 0

theorem encode_eq (n : Int) : encode n = littleEndian (width n) (raw (width n) n) := rfl

theorem value_of_ne_nil (h : bs ≠ []) :
    value bs = if ofLittleEndian bs < signWeight bs.length then (ofLittleEndian bs : Int)
      else -((ofLittleEndian bs - signWeight bs.length : Nat) : Int) := by
  rw [value, if_neg (by simpa using h)]

/-- A number is read from each of its forms that is long enough. -/
theorem value_littleEndian (h : Fits w n) : value (littleEndian w (raw w n)) = n := by
  unfold Fits at h
  cases w with
  | zero =>
    have hn : n = 0 := by
      rw [Nat.pow_zero] at h
      omega
    rw [hn]
    rfl
  | succ w =>
    have hsign : 2 * signWeight (w + 1) = 256 ^ (w + 1) := two_mul_signWeight (Nat.succ_pos w)
    have hraw : raw (w + 1) n < 256 ^ (w + 1) := by
      unfold raw
      split_ifs <;> omega
    have hne : littleEndian (w + 1) (raw (w + 1) n) ≠ [] := nofun
    rw [value_of_ne_nil hne, length_littleEndian, ofLittleEndian_littleEndian_of_lt hraw]
    unfold raw
    split_ifs <;> omega

theorem value_encode (n : Int) : value (encode n) = n := by
  rw [encode_eq]
  exact value_littleEndian (width_le_iff.mp (Nat.le_refl _))

/-- A form other than zero is fixed by its number and its length. -/
theorem eq_littleEndian_of_value (h : value bs = n) (hn : n ≠ 0) :
    bs = littleEndian bs.length (raw bs.length n) := by
  have hne : bs ≠ [] := by
    rintro rfl
    exact hn h.symm
  rw [value_of_ne_nil hne] at h
  have hraw : raw bs.length n = ofLittleEndian bs := by
    unfold raw
    split_ifs at h ⊢ <;> omega
  rw [hraw, littleEndian_ofLittleEndian]

theorem length_encode_value_le (bs : Bytes) : (encode (value bs)).length ≤ bs.length :=
  length_encode_le_iff.mpr (fits_value bs)

/-- No other form of a number is as short as its shortest form. -/
theorem eq_encode_of_length_le (h : bs.length ≤ (encode (value bs)).length) :
    bs = encode (value bs) := by
  by_cases hn : value bs = 0
  · rw [hn] at h ⊢
    exact List.eq_nil_of_length_eq_zero (Nat.le_zero.mp h)
  · have hlength : bs.length = width (value bs) := by
      rw [← length_encode]
      exact Nat.le_antisymm h (length_encode_value_le bs)
    have hbs := eq_littleEndian_of_value rfl hn
    rw [hlength] at hbs
    rw [encode_eq]
    exact hbs

/-! ### The last byte -/

/-- The number of this magnitude, negative if the sign bit of a byte is set. -/
def signed (last : UInt8) (magnitude : Nat) : Int :=
  if last < 0x80 then magnitude else -(magnitude : Int)

theorem natAbs_signed (last : UInt8) (magnitude : Nat) :
    (signed last magnitude).natAbs = magnitude := by
  unfold signed
  split_ifs
  · exact Int.natAbs_natCast _
  · rw [Int.natAbs_neg, Int.natAbs_natCast]

/-- The last byte holds the sign and the top of the magnitude. -/
theorem value_append_singleton (body : Bytes) (last : UInt8) :
    value (body ++ [last]) =
      signed last (ofLittleEndian body + 256 ^ body.length * (last.toNat % 128)) := by
  have hne : body ++ [last] ≠ [] := by simp
  have hlength : (body ++ [last]).length = body.length + 1 := by simp
  have hraw : ofLittleEndian (body ++ [last]) =
      ofLittleEndian body + 256 ^ body.length * last.toNat := by
    simp [ofLittleEndian_append]
  have hbody := ofLittleEndian_lt body
  have hsign : 2 * signWeight (body.length + 1) = 256 ^ body.length * 256 :=
    two_mul_signWeight (Nat.succ_pos body.length)
  have hlast := last.toNat_lt
  have hlow : last < 0x80 ↔ last.toNat < 128 := UInt8.lt_iff_toNat_lt
  rw [value_of_ne_nil hne, hlength, hraw, signed]
  set p := 256 ^ body.length
  have hweight : signWeight (body.length + 1) = p * 128 := by omega
  rw [hweight]
  by_cases h : last < 0x80
  · have hle : p * last.toNat ≤ p * 127 := Nat.mul_le_mul_left p (Nat.le_of_lt_succ (hlow.mp h))
    rw [if_pos h, if_pos (by omega), Nat.mod_eq_of_lt (hlow.mp h)]
  · have hge : 128 ≤ last.toNat := Nat.le_of_not_lt fun hlt => h (hlow.mpr hlt)
    have hmod : last.toNat % 128 = last.toNat - 128 := by omega
    have hle : p * 128 ≤ p * last.toNat := Nat.mul_le_mul_left p hge
    rw [if_neg h, if_neg (by omega), hmod, Nat.mul_sub, Nat.add_sub_assoc hle]

/-! ### Shortening -/

theorem and_low_eq_zero_iff (b : UInt8) : b &&& 0x7f = 0 ↔ b.toNat % 128 = 0 := by
  rw [← UInt8.toNat_inj, UInt8.toNat_and]
  exact Eq.congr_left (Nat.and_two_pow_sub_one_eq_mod b.toNat 7)

/-- A sign that is put into a byte with room for it changes nothing but the sign. -/
theorem or_sign {b sign : UInt8} (hb : b < 0x80) (hsign : sign.toNat % 128 = 0) :
    (b ||| sign).toNat % 128 = b.toNat ∧ (b ||| sign < 0x80 ↔ sign < 0x80) := by
  have hlow : b.toNat < 2 ^ 7 := UInt8.lt_iff_toNat_lt.mp hb
  have hsigns : sign = 0 ∨ sign = 0x80 := by
    have hlt := sign.toNat_lt
    have hcases : sign.toNat = 0 ∨ sign.toNat = 128 := by omega
    exact hcases.imp UInt8.toNat_inj.mp UInt8.toNat_inj.mp
  rcases hsigns with rfl | rfl
  · rw [UInt8.or_zero]
    exact ⟨Nat.mod_eq_of_lt hlow, iff_of_true hb (by decide)⟩
  · have hor : (b ||| 0x80).toNat = 128 + b.toNat := by
      rw [UInt8.toNat_or, Nat.or_comm]
      exact (Nat.two_pow_add_eq_or_of_lt hlow 1).symm
    refine ⟨by omega, iff_of_false ?_ (by decide)⟩
    rw [UInt8.lt_iff_toNat_lt, hor]
    exact Nat.not_lt.mpr (Nat.le_add_right 128 _)

/-- A form, last byte first, from which no byte can be taken: the last byte has a bit of the
magnitude, or keeps the sign apart from a bit of the byte before. -/
def IsTight : Bytes → Prop
  | [] => True
  | [last] => last.toNat % 128 ≠ 0
  | last :: b :: _ => last.toNat % 128 ≠ 0 ∨ 0x80 ≤ b

theorem length_le_of_isTight {last : UInt8} {rest : Bytes} (h : IsTight (last :: rest))
    (hfits : Fits w (value (last :: rest).reverse)) : rest.length < w := by
  by_contra hw
  have hle := hfits.mono (Nat.le_of_not_lt hw)
  rw [Fits, List.reverse_cons, value_append_singleton, natAbs_signed, List.length_reverse] at hle
  have hlast : last.toNat % 128 = 0 := by
    by_contra hne
    have hp : 256 ^ rest.length ≤ 256 ^ rest.length * (last.toNat % 128) :=
      Nat.le_mul_of_pos_right _ (Nat.pos_of_ne_zero hne)
    omega
  match rest, h with
  | [], h => exact h hlast
  | b :: rest, h =>
    have hb : 128 ≤ b.toNat := UInt8.le_iff_toNat_le.mp (h.resolve_left (not_not_intro hlast))
    have hp : 256 ^ rest.length * 128 ≤ 256 ^ rest.length * b.toNat := Nat.mul_le_mul_left _ hb
    rw [hlast, List.reverse_cons, ofLittleEndian_append, List.length_reverse, List.length_cons,
      Nat.pow_succ, ofLittleEndian_cons, ofLittleEndian_nil] at hle
    simp only [Nat.mul_zero, Nat.add_zero] at hle
    omega

/-- A sign in a byte of its own moves down over zeros and into the first byte with room for it. -/
theorem value_attachSign {sign : UInt8} (hsign : sign.toNat % 128 = 0) (rest : Bytes) :
    value (attachSign sign (rest.dropWhile (· = 0))).reverse = value (sign :: rest).reverse := by
  induction rest with
  | nil =>
    rw [List.reverse_cons, value_append_singleton, hsign]
    simp [attachSign, signed, value]
  | cons b rest ih =>
    by_cases hb : b = 0
    · rw [List.dropWhile_cons_of_pos (by simpa using hb), ih, hb]
      simp only [List.reverse_cons, value_append_singleton, hsign, ofLittleEndian_append]
      simp
    · rw [List.dropWhile_cons_of_neg (by simpa using hb), attachSign]
      split_ifs with hhigh
      · rfl
      · obtain ⟨hlow, hnegative⟩ := or_sign (UInt8.not_le.mp hhigh) hsign
        simp only [List.reverse_cons, value_append_singleton, ofLittleEndian_append, hlow, hsign,
          signed, hnegative]
        simp

theorem isTight_attachSign (sign : UInt8) (hsign : sign.toNat % 128 = 0) (rest : Bytes) :
    IsTight (attachSign sign (rest.dropWhile (· = 0))) := by
  have hhead := List.head?_dropWhile_not (fun b : UInt8 => decide (b = 0)) rest
  cases h : rest.dropWhile (· = 0) with
  | nil => trivial
  | cons b more =>
    rw [h] at hhead
    have hb : b ≠ 0 := by simpa using hhead
    rw [attachSign]
    split_ifs with hhigh
    · exact .inr hhigh
    · have hlow : (b ||| sign).toNat % 128 ≠ 0 := by
        rw [(or_sign (UInt8.not_le.mp hhigh) hsign).1]
        exact fun hzero => hb (UInt8.toNat_inj.mp hzero)
      cases more with
      | nil => exact hlow
      | cons c more => exact .inl hlow

/-- Shortening keeps the number and leaves no byte that could be taken. -/
theorem minimal_spec (bs : Bytes) : value (minimal bs) = value bs ∧ IsTight (minimal bs).reverse := by
  unfold minimal
  split
  · next hnil =>
    rw [List.reverse_eq_nil_iff.mp hnil]
    exact ⟨rfl, trivial⟩
  · next last rest hbs =>
    have hbs' : bs = (last :: rest).reverse := by rw [← hbs, List.reverse_reverse]
    split_ifs with hlast
    · refine ⟨rfl, ?_⟩
      rw [Ne, and_low_eq_zero_iff] at hlast
      rw [hbs]
      cases rest with
      | nil => exact hlast
      | cons b rest => exact .inl hlast
    · have hsign := (and_low_eq_zero_iff last).mp (not_not.mp hlast)
      rw [List.reverse_reverse, hbs']
      exact ⟨value_attachSign hsign rest, isTight_attachSign last hsign rest⟩

/-- Shortening a form gives the shortest form of its number. -/
theorem minimal_eq_encode (bs : Bytes) : minimal bs = encode (value bs) := by
  obtain ⟨hvalue, htight⟩ := minimal_spec bs
  rw [← hvalue]
  refine eq_encode_of_length_le ?_
  cases hreverse : (minimal bs).reverse with
  | nil =>
    rw [List.reverse_eq_nil_iff.mp hreverse]
    exact Nat.zero_le _
  | cons last rest =>
    have hform : minimal bs = (last :: rest).reverse := by rw [← hreverse, List.reverse_reverse]
    rw [hreverse] at htight
    rw [hform, List.length_reverse, List.length_cons]
    exact length_le_of_isTight htight (length_encode_le_iff.mp (Nat.le_refl _))

/-! ### Truth -/

/-- A form with a sign stands for zero if it has no bit or the sign bit alone. -/
theorem value_eq_zero_iff (h : bs ≠ []) :
    value bs = 0 ↔ ofLittleEndian bs = 0 ∨ ofLittleEndian bs = signWeight bs.length := by
  have hsign := two_mul_signWeight (List.length_pos_iff.mpr h)
  have hpos : 0 < 256 ^ bs.length := Nat.pow_pos (by decide)
  rw [value_of_ne_nil h]
  split_ifs <;> omega

theorem signWeight_succ (h : 0 < w) : signWeight (w + 1) = 256 * signWeight w := by
  have hlong := two_mul_signWeight (Nat.succ_pos w)
  have hshort := two_mul_signWeight h
  rw [Nat.pow_succ, ← hshort] at hlong
  exact Nat.mul_left_cancel (by decide : 0 < 2) (by rw [hlong]; omega)

/-- A byte string is true just if it stands for a number other than zero. -/
theorem truth_iff (bs : Bytes) : truth bs = true ↔ value bs ≠ 0 := by
  induction bs with
  | nil => decide
  | cons b bs ih =>
    rw [Ne, value_eq_zero_iff (List.cons_ne_nil b bs), ofLittleEndian_cons]
    cases bs with
    | nil =>
      have hweight : signWeight [b].length = (0x80 : UInt8).toNat := rfl
      have hzero : 0 = (0 : UInt8).toNat := rfl
      rw [hweight, ofLittleEndian_nil, Nat.mul_zero, Nat.add_zero, hzero, UInt8.toNat_inj,
        UInt8.toNat_inj, not_or]
      simp [truth]
    | cons c bs =>
      -- The weight of the sign is a multiple of 256, so the first byte has no part in it.
      have hweight : signWeight (b :: c :: bs).length = 256 * signWeight (c :: bs).length :=
        signWeight_succ (Nat.succ_pos bs.length)
      have htruth : truth (b :: c :: bs) = (decide (b ≠ 0) || truth (c :: bs)) := rfl
      have hb := b.toNat_lt
      have hbyte : b ≠ 0 ↔ b.toNat ≠ 0 := not_congr UInt8.toNat_inj.symm
      rw [Ne, value_eq_zero_iff (List.cons_ne_nil c bs)] at ih
      rw [htruth, Bool.or_eq_true, ih, decide_eq_true_iff, hbyte, hweight]
      omega

theorem ofLittleEndian_replicate_zero (k : Nat) : ofLittleEndian (List.replicate k 0) = 0 := by
  induction k with
  | zero => rfl
  | succ k ih => rw [List.replicate_succ, ofLittleEndian_cons, ih, UInt8.toNat_zero]

/-! ### The codec -/

theorem number_eq (limit : Nat) (bs : Bytes) :
    Machine.number limit bs =
      if bs.length ≤ limit then .ok (value bs) else .error (.numberTooBig bs.length limit) := by
  unfold Machine.number decode?
  split_ifs <;> rfl

/-- Reading undoes writing, and writing what was read shortens it; what is too long, and nothing else,
is not read. Shortening is done once for all, keeps the number, and comes to the one form that no
other form of the number is as short as. Truth is to stand for a number other than zero, so a sign
behind zeros is not true. -/
theorem encode_isCanonical :
    (∀ (n : Int) (limit : Nat), (encode n).length ≤ limit →
      Machine.number limit (encode n) = .ok n) ∧
    (∀ (bs : Bytes) (limit : Nat),
      (bs.length ≤ limit → ∃ n, Machine.number limit bs = .ok n ∧ encode n = minimal bs ∧
        (truth bs = true ↔ n ≠ 0)) ∧
      (Machine.number limit bs = .error (.numberTooBig bs.length limit) ↔ limit < bs.length)) ∧
    (∀ bs : Bytes, minimal (minimal bs) = minimal bs ∧ value (minimal bs) = value bs ∧
      ∀ form, value form = value bs →
        form = minimal bs ∨ (minimal bs).length < form.length) ∧
    ∀ zeros : Nat, truth (List.replicate zeros 0 ++ [0x80]) = false := by
  refine ⟨fun n limit hlimit => ?_, fun bs limit => ⟨fun hlimit => ?_, ?_⟩, fun bs => ?_,
    fun zeros => ?_⟩
  · rw [number_eq, if_pos hlimit, value_encode]
  · refine ⟨value bs, ?_, (minimal_eq_encode bs).symm, truth_iff bs⟩
    rw [number_eq, if_pos hlimit]
  · rw [number_eq]
    split_ifs with h
    · exact iff_of_false nofun (Nat.not_lt.mpr h)
    · exact iff_of_true rfl (Nat.lt_of_not_le h)
  · rw [minimal_eq_encode bs]
    refine ⟨?_, value_encode _, fun form hform => ?_⟩
    · rw [minimal_eq_encode, value_encode]
    · rw [← hform]
      rcases Nat.lt_or_ge (encode (value form)).length form.length with hlt | hge
      · exact .inr hlt
      · exact .inl (eq_encode_of_length_le hge)
  · have hzero : value (List.replicate zeros 0 ++ [0x80]) = 0 := by
      rw [value_append_singleton, ofLittleEndian_replicate_zero]
      simp [signed]
    rw [Bool.eq_false_iff, Ne, truth_iff]
    exact not_not_intro hzero

/-- The form of -65280 with two zeros to spare before the sign, and its shortest form, which keeps the
sign in a byte of its own. -/
theorem encode_isCanonical_spare_zeros :
    let bs : Bytes := [0x00, 0xff, 0x00, 0x00, 0x80]
    (encode (-65280)).length ≤ 3 ∧ Machine.number 3 (encode (-65280)) = .ok (-65280) ∧
      bs.length ≤ 5 ∧ (∃ n, Machine.number 5 bs = .ok n ∧ encode n = [0x00, 0xff, 0x80]) ∧
      Machine.number 4 bs = .error (.numberTooBig 5 4) ∧
      value bs = value [0x00, 0xff, 0x80] ∧ minimal bs = [0x00, 0xff, 0x80] := by
  intro bs
  obtain ⟨hencode, hnumber, hminimal, -⟩ := encode_isCanonical
  have hshort : (encode (-65280)).length ≤ 3 := by decide
  have hform : value [0x00, 0xff, 0x80] = value bs := by decide
  obtain ⟨n, hn, hencoded, -⟩ := (hnumber bs 5).1 (by decide)
  refine ⟨hshort, hencode _ 3 hshort, by decide, ⟨n, hn, hencoded⟩,
    (hnumber bs 4).2.mpr (by decide), hform.symm, ?_⟩
  exact (((hminimal bs).2.2 _ hform).resolve_right (by decide)).symm

end Utxo.Number
