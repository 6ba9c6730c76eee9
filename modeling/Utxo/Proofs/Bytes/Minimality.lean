/-
Compact sizes are written as short as they can be, and read in any form.

A byte string is read if it starts with a form of some value, and then the value and the length of the
form are known.  Its first byte says how long the form is, so the only way to fail is that the byte
string ends before the form does.

* **`Form.size_le_length`** — no form of a value is shorter than the one that is written;
* **`Form.length_eq_size_iff`** — and no other is as short;
* **`decode_eq_ok_iff`** — what is read is a form at the start;
* **`decode_eq_error_iff`** — nothing is read just if the byte string is cut off;
* **`codec_isExact`** — so reading undoes writing, and tells whether what it read was written so.
-/
import Utxo.Proofs.Bytes.FixedWidth
import Utxo.Proofs.Bytes.Overwriting

namespace Utxo.CompactSize

variable {v : UInt64} {as bs d : Bytes} {u : Nat}

/-! ### The shortest form -/

/-- How many bytes the form that is written has, told by the value as an integer. -/
theorem size_eq (v : UInt64) :
    size v = if v.toNat < 253 then 1 else if v.toNat < 256 ^ 2 then 3
      else if v.toNat < 256 ^ 4 then 5 else 9 := by
  have hbyte : v < 0xfd ↔ v.toNat < 253 := UInt64.lt_iff_toNat_lt
  have htwo : v ≤ 0xffff ↔ v.toNat < 256 ^ 2 :=
    UInt64.le_iff_toNat_le.trans Nat.lt_succ_iff.symm
  have hfour : v ≤ 0xffffffff ↔ v.toNat < 256 ^ 4 :=
    UInt64.le_iff_toNat_le.trans Nat.lt_succ_iff.symm
  simp only [size, hbyte, htwo, hfour]

/-- No form of a value is shorter than the one that is written. -/
theorem Form.size_le_length (h : Form v bs) : size v ≤ bs.length := by
  rw [size_eq]
  cases h with
  | byte h =>
    have hv : v.toNat < 253 := UInt64.lt_iff_toNat_lt.mp h
    rw [if_pos hv]
    exact Nat.le_refl 1
  | two h =>
    rw [List.length_cons, length_littleEndian]
    split_ifs <;> omega
  | four h =>
    rw [List.length_cons, length_littleEndian]
    split_ifs <;> omega
  | eight =>
    rw [List.length_cons, length_littleEndian]
    split_ifs <;> omega

/-- A value has one form of each length. -/
theorem Form.eq_of_length_eq (ha : Form v as) (hb : Form v bs) (h : as.length = bs.length) :
    as = bs := by
  cases ha <;> cases hb <;> simp_all

/-- No other form of a value is as short as the one that is written. -/
theorem Form.length_eq_size_iff (h : Form v bs) : bs.length = size v ↔ bs = encode v := by
  constructor
  · intro hlength
    exact h.eq_of_length_eq (form_encode v) (by rw [hlength, length_encode])
  · rintro rfl
    exact length_encode v

/-! ### Reading -/

theorem decode_eq_outcome (d : Bytes) :
    decode d = match outcome Read.compactSize (.start d) with
      | (.ok v, c) => .ok (v, c.position)
      | (.error e, _) => .error e := rfl

/-- What is read is a form at the start of the byte string. -/
theorem decode_eq_ok_iff :
    decode d = .ok (v, u) ↔ ∃ w rest, Form v w ∧ d = w ++ rest ∧ u = w.length := by
  have hdecode : decode d = .ok (v, u) ↔
      ∃ c', outcome Read.compactSize (.start d) = (.ok v, c') ∧ c'.position = u := by
    rw [decode_eq_outcome]
    rcases outcome Read.compactSize (.start d) with ⟨e | a, c'⟩ <;> simp
  rw [hdecode]
  constructor
  · rintro ⟨c', hrun, rfl⟩
    obtain ⟨w, hw, hrest, hpos⟩ := (parses_compactSize _ c' v).mp hrun
    exact ⟨w, c'.rest, hw, hrest, hpos.trans (Nat.zero_add _)⟩
  · rintro ⟨w, rest, hw, rfl, rfl⟩
    refine ⟨⟨w.length, rest⟩, ?_, rfl⟩
    exact (parses_compactSize _ _ v).mpr ⟨w, hw, rfl, (Nat.zero_add _).symm⟩

/-- The byte string is empty, or shorter than its first byte announces. -/
def IsCut : Bytes → Prop
  | [] => True
  | marker :: payload => payload.length < announced marker

instance : DecidablePred IsCut
  | [] => inferInstanceAs (Decidable True)
  | marker :: payload => inferInstanceAs (Decidable (payload.length < announced marker))

/-- A first byte and as many bytes as it announces are a form. -/
theorem exists_form_cons {marker : UInt8} {payload : Bytes}
    (h : payload.length = announced marker) : ∃ v, Form v (marker :: payload) := by
  by_cases hbyte : announced marker = 0
  · refine ⟨marker.toUInt64, (form_cons_iff _ _ _).mpr ?_⟩
    rw [if_pos hbyte]
    exact ⟨rfl, List.length_eq_zero_iff.mp (h.trans hbyte)⟩
  · -- At most eight bytes are announced, so what they hold is a word.
    have hlt := ofLittleEndian_lt payload
    have hwide : 256 ^ payload.length ≤ 2 ^ 64 :=
      Nat.pow_le_pow_right (by decide) (h ▸ announced_le marker)
    have hvalue : (UInt64.ofNat (ofLittleEndian payload)).toNat = ofLittleEndian payload :=
      UInt64.toNat_ofNat_of_lt' (Nat.lt_of_lt_of_le hlt hwide)
    refine ⟨UInt64.ofNat (ofLittleEndian payload), (form_cons_iff _ _ _).mpr ?_⟩
    rw [if_neg hbyte, hvalue, ← h]
    exact ⟨hlt, (littleEndian_ofLittleEndian payload).symm⟩

/-- A byte string starts with a form just if it is not cut off. -/
theorem exists_form_iff : (∃ v w rest, Form v w ∧ d = w ++ rest) ↔ ¬IsCut d := by
  constructor
  · rintro ⟨v, w, rest, hw, rfl⟩
    obtain ⟨marker, payload, rfl⟩ := hw.exists_cons
    show ¬(payload ++ rest).length < announced marker
    rw [List.length_append, hw.length_payload]
    omega
  · intro hwhole
    cases d with
    | nil => exact absurd trivial hwhole
    | cons marker tail =>
      have hroom : announced marker ≤ tail.length := Nat.le_of_not_lt hwhole
      obtain ⟨v, hv⟩ := exists_form_cons (List.length_take_of_le hroom)
      exact ⟨v, _, tail.drop (announced marker), hv, by simp⟩

/-- Nothing is read just if the byte string is cut off, and the error says so. -/
theorem decode_eq_error_iff {e : ReadError} :
    decode d = .error e ↔ e = .endOfData ∧ IsCut d := by
  have hform : (∃ v u, decode d = .ok (v, u)) ↔ ¬IsCut d := by
    rw [← exists_form_iff]
    simp only [decode_eq_ok_iff]
    constructor
    · rintro ⟨v, -, w, rest, hw, hd, -⟩
      exact ⟨v, w, rest, hw, hd⟩
    · rintro ⟨v, w, rest, hw, hd⟩
      exact ⟨v, _, w, rest, hw, hd, rfl⟩
  cases hdecode : decode d with
  | ok r =>
    have hwhole := hform.mp ⟨r.1, r.2, hdecode⟩
    exact iff_of_false nofun fun h => hwhole h.2
  | error e' =>
    have hcut : IsCut d := by
      by_contra hwhole
      obtain ⟨v, u, hok⟩ := hform.mpr hwhole
      rw [hdecode] at hok
      cases hok
    have herror : e' = .endOfData := by
      rw [decode_eq_outcome] at hdecode
      rcases hrun : outcome Read.compactSize (.start d) with ⟨e'' | a, c'⟩
      · rw [hrun] at hdecode
        cases hdecode
        exact outcome_compactSize_eq_error hrun
      · rw [hrun] at hdecode
        cases hdecode
    rw [herror, Except.error.injEq]
    exact ⟨fun h => ⟨h.symm, hcut⟩, fun h => h.1.symm⟩

/-- Writing takes the shortest form, at the start of whatever buffer has room for it, and reading
undoes it whatever follows.  What is read has no fewer bytes than are written for its value, and as
few just if they are those.  Nothing is read just if a byte string ends before its form does. -/
theorem codec_isExact :
    (∀ v rest, decode (encode v ++ rest) = .ok (v, size v)) ∧
    (∀ v, (encode v).length = size v ∧ (put v (List.replicate (size v) 0)).2 = encode v ∧
      ∀ buffer, size v ≤ buffer.length →
        put v buffer = overwrite v buffer ∧ (put v buffer).1 = size v ∧
        (put v buffer).2.take (size v) = encode v ∧
        (put v buffer).2.drop (size v) = buffer.drop (size v)) ∧
    (∀ d v u, decode d = .ok (v, u) →
      size v ≤ u ∧ u ≤ d.length ∧ (u = size v ↔ d.take u = encode v)) ∧
    ∀ d e, decode d = .error e ↔ e = .endOfData ∧ IsCut d := by
  refine ⟨fun v rest => ?_, fun v => ⟨length_encode v, ?_, fun buffer hroom => ?_⟩,
    fun d v u h => ?_, fun d e => decode_eq_error_iff⟩
  · exact decode_eq_ok_iff.mpr ⟨_, rest, form_encode v, rfl, (length_encode v).symm⟩
  · rw [put_eq_overwrite List.length_replicate.ge, overwrite, length_encode, List.drop_replicate,
      Nat.sub_self, List.replicate_zero, List.append_nil]
  · have hlength := length_encode v
    rw [put_eq_overwrite hroom, overwrite]
    exact ⟨rfl, hlength, List.take_left' hlength, by rw [List.drop_left' hlength, hlength]⟩
  · obtain ⟨w, rest, hw, rfl, rfl⟩ := decode_eq_ok_iff.mp h
    refine ⟨hw.size_le_length, by simp, ?_⟩
    rw [List.take_left, hw.length_eq_size_iff]

/-- The value 253 in a buffer of twelve bytes; the value one behind a marker, in two bytes more than it
takes; and a marker that announces four bytes before one. -/
theorem codec_isExact_wide_one :
    size 0xfd ≤ (List.replicate 12 0xee).length ∧
      (put 0xfd (List.replicate 12 0xee)).2.take 3 = [0xfd, 0xfd, 0x00] ∧
      (put 0xfd (List.replicate 12 0xee)).2.drop 3 = List.replicate 9 0xee ∧
      decode [0xfd, 0x01, 0x00, 0xaa] = .ok (1, 3) ∧ size 1 < 3 ∧
      [0xfd, 0x01, 0x00] ≠ encode 1 ∧ decode [0xfe, 0x01] = .error .endOfData := by
  obtain ⟨-, hput, hread, hcut⟩ := codec_isExact
  have hroom : size 0xfd ≤ (List.replicate 12 0xee : Bytes).length := by decide
  have hwide : decode [0xfd, 0x01, 0x00, 0xaa] = .ok (1, 3) := rfl
  obtain ⟨-, -, htake, hdrop⟩ := (hput 0xfd).2.2 _ hroom
  obtain ⟨-, -, hshort⟩ := hread _ _ _ hwide
  have hlonger : size 1 < 3 := by decide
  exact ⟨hroom, htake, hdrop, hwide, hlonger, fun h => hlonger.ne' (hshort.mpr h),
    (hcut _ _).mpr ⟨rfl, by decide⟩⟩

end Utxo.CompactSize
