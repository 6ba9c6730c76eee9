/-
The forms of a compact size.

A value may be written in any of the widths that hold it; `CompactSize.Form` lists them. The first
byte of a form says how wide it is, so forms are never a proper start of one another.

* **`Form.append_inj`** — a form at the start of a byte string ends in one place only;
* **`Form.value_inj`** — a form stands for one value;
* **`Form.isShortest_iff`** — the shortest form of a value is the one that is written.
-/
import Utxo.Bytes.CompactSize
import Utxo.Proofs.Bytes.Integers

namespace Utxo.CompactSize

/-- The ways to write a value: as a byte of its own, or behind a marker in any width that holds
it. -/
inductive Form (v : UInt64) : Bytes → Prop where
  | byte (h : v < 0xfd) : Form v [v.toUInt8]
  | two (h : v.toNat < 256 ^ 2) : Form v (0xfd :: littleEndian 2 v.toNat)
  | four (h : v.toNat < 256 ^ 4) : Form v (0xfe :: littleEndian 4 v.toNat)
  | eight : Form v (0xff :: littleEndian 8 v.toNat)

/-- A form of the shortest width that holds its value. -/
def IsShortest (bs : Bytes) : Prop := ∃ v, bs = encode v

theorem form_encode (v : UInt64) : Form v (encode v) := by
  unfold encode
  split
  · next h => exact .byte h
  · split
    · next h =>
      have hv : v.toNat ≤ 0xffff := UInt64.le_iff_toNat_le.mp h
      exact .two (by omega)
    · split
      · next h =>
        have hv : v.toNat ≤ 0xffffffff := UInt64.le_iff_toNat_le.mp h
        exact .four (by omega)
      · exact .eight

theorem toNat_toUInt8_of_lt {v : UInt64} (h : v < 0xfd) : v.toUInt8.toNat = v.toNat := by
  have hv : v.toNat < 0xfd := UInt64.lt_iff_toNat_lt.mp h
  rw [UInt64.toNat_toUInt8]
  omega

theorem announced_eq_zero_iff (b : UInt8) : announced b = 0 ↔ b < 0xfd := by
  have hb := b.toNat_lt
  rw [UInt8.lt_iff_toNat_lt, show (0xfd : UInt8).toNat = 253 from rfl]
  unfold announced
  split_ifs with h8 h4 h2
  · subst h8
    decide
  · subst h4
    decide
  · subst h2
    decide
  · rw [← UInt8.toNat_inj] at h8 h4 h2
    simp only [UInt8.reduceToNat] at h8 h4 h2
    omega

theorem announced_le (b : UInt8) : announced b ≤ 8 := by
  unfold announced
  split_ifs <;> decide

/-- The first byte of a form tells what the rest of it is. -/
theorem form_cons_iff (v : UInt64) (marker : UInt8) (payload : Bytes) :
    Form v (marker :: payload) ↔
      if announced marker = 0 then v = marker.toUInt64 ∧ payload = []
      else v.toNat < 256 ^ announced marker ∧
        payload = littleEndian (announced marker) v.toNat := by
  constructor
  · intro h
    cases h with
    | byte h =>
      have hb := toNat_toUInt8_of_lt h
      have hv : v.toNat < 0xfd := UInt64.lt_iff_toNat_lt.mp h
      have hlt : v.toUInt8 < 0xfd := UInt8.lt_iff_toNat_lt.mpr (hb ▸ hv)
      rw [if_pos ((announced_eq_zero_iff _).mpr hlt)]
      exact ⟨by rw [← UInt64.toNat_inj, UInt8.toNat_toUInt64, hb], rfl⟩
    | two h => exact ⟨h, rfl⟩
    | four h => exact ⟨h, rfl⟩
    | eight => exact ⟨v.toNat_lt, rfl⟩
  · intro h
    -- Three markers announce a width; any other first byte is the value itself.
    by_cases h8 : marker = 0xff
    · subst h8
      obtain ⟨-, rfl⟩ : _ ∧ payload = littleEndian 8 v.toNat := h
      exact .eight
    by_cases h4 : marker = 0xfe
    · subst h4
      obtain ⟨hv, rfl⟩ : v.toNat < 256 ^ 4 ∧ payload = littleEndian 4 v.toNat := h
      exact .four hv
    by_cases h2 : marker = 0xfd
    · subst h2
      obtain ⟨hv, rfl⟩ : v.toNat < 256 ^ 2 ∧ payload = littleEndian 2 v.toNat := h
      exact .two hv
    have hann : announced marker = 0 := by
      rw [announced, if_neg h8, if_neg h4, if_neg h2]
    rw [if_pos hann] at h
    obtain ⟨rfl, rfl⟩ := h
    have hlt : marker.toUInt64 < 0xfd := by
      rw [UInt64.lt_iff_toNat_lt, UInt8.toNat_toUInt64]
      exact UInt8.lt_iff_toNat_lt.mp ((announced_eq_zero_iff marker).mp hann)
    have hbyte := Form.byte hlt
    rwa [UInt8.toUInt8_toUInt64] at hbyte

theorem Form.exists_cons {v : UInt64} {bs : Bytes} (h : Form v bs) :
    ∃ marker payload, bs = marker :: payload := by
  cases h <;> exact ⟨_, _, rfl⟩

/-- The number of bytes behind a first byte that a form has. -/
theorem Form.length_payload {v : UInt64} {marker : UInt8} {payload : Bytes}
    (h : Form v (marker :: payload)) : payload.length = announced marker := by
  rw [form_cons_iff] at h
  split at h
  · next h0 => rw [h.2, h0, List.length_nil]
  · rw [h.2, length_littleEndian]

/-- A form at the start of a byte string ends in one place only. -/
theorem Form.append_inj {u v : UInt64} {as bs x y : Bytes} (ha : Form u as) (hb : Form v bs)
    (h : as ++ x = bs ++ y) : as = bs ∧ x = y := by
  obtain ⟨a, as, rfl⟩ := ha.exists_cons
  obtain ⟨b, bs, rfl⟩ := hb.exists_cons
  simp only [List.cons_append, List.cons.injEq] at h
  obtain ⟨rfl, h⟩ := h
  obtain ⟨rfl, rfl⟩ := List.append_inj h (ha.length_payload.trans hb.length_payload.symm)
  exact ⟨rfl, rfl⟩

/-- A form stands for one value. -/
theorem Form.value_inj {u v : UInt64} {bs : Bytes} (hu : Form u bs) (hv : Form v bs) : u = v := by
  obtain ⟨marker, payload, rfl⟩ := hu.exists_cons
  rw [form_cons_iff] at hu hv
  split at hu
  · next h0 =>
    rw [if_pos h0] at hv
    rw [hu.1, hv.1]
  · next h0 =>
    rw [if_neg h0] at hv
    exact UInt64.toNat_inj.mp (littleEndian_inj hu.1 hv.1 (hu.2.symm.trans hv.2))

/-- The shortest form of a value is the one that is written. -/
theorem Form.isShortest_iff {v : UInt64} {bs : Bytes} (h : Form v bs) :
    IsShortest bs ↔ bs = encode v := by
  constructor
  · rintro ⟨u, rfl⟩
    rw [h.value_inj (form_encode u)]
  · rintro rfl
    exact ⟨v, rfl⟩

end Utxo.CompactSize
