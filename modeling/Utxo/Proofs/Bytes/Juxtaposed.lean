/-
Written forms one behind the other.

A form of known width ends in one place, so if two byte strings start with forms of that width and are
equal, the forms are equal and so is what follows.

* **`u32_append_inj`**, **`FixedBytes.append_inj`** — this for words and for bytes of known width;
* **`flatMap_inj`** — items whose forms are of this kind can be told from the forms one after the
  other, however many there are.
-/
import Utxo.Proofs.Bytes.Integers

namespace Utxo

variable {x y : Bytes}

theorem littleEndian_append_inj {w m n : Nat} (hm : m < 256 ^ w) (hn : n < 256 ^ w)
    (h : littleEndian w m ++ x = littleEndian w n ++ y) : m = n ∧ x = y := by
  have hlength : (littleEndian w m).length = (littleEndian w n).length := by
    rw [length_littleEndian, length_littleEndian]
  obtain ⟨hword, hrest⟩ := List.append_inj h hlength
  exact ⟨littleEndian_inj hm hn hword, hrest⟩

theorem u32_append_inj {u v : UInt32}
    (h : littleEndian 4 u.toNat ++ x = littleEndian 4 v.toNat ++ y) : u = v ∧ x = y := by
  obtain ⟨hword, hrest⟩ := littleEndian_append_inj u.toNat_lt v.toNat_lt h
  exact ⟨UInt32.toNat_inj.mp hword, hrest⟩

theorem u64_append_inj {u v : UInt64}
    (h : littleEndian 8 u.toNat ++ x = littleEndian 8 v.toNat ++ y) : u = v ∧ x = y := by
  obtain ⟨hword, hrest⟩ := littleEndian_append_inj u.toNat_lt v.toNat_lt h
  exact ⟨UInt64.toNat_inj.mp hword, hrest⟩

theorem FixedBytes.append_inj {n : Nat} {a b : FixedBytes n} (h : a.bytes ++ x = b.bytes ++ y) :
    a = b ∧ x = y := by
  obtain ⟨hbytes, hrest⟩ := List.append_inj h (a.length_bytes.trans b.length_bytes.symm)
  exact ⟨FixedBytes.ext hbytes, hrest⟩

/-- Items are determined by their forms one after the other, if each form tells where it ends. -/
theorem flatMap_inj {α : Type} {f : α → Bytes} {P : α → Prop} (hne : ∀ a, f a ≠ [])
    (hf : ∀ a b x y, P a → P b → f a ++ x = f b ++ y → a = b ∧ x = y) {as bs : List α}
    (has : ∀ a ∈ as, P a) (hbs : ∀ b ∈ bs, P b) (h : as.flatMap f = bs.flatMap f) : as = bs := by
  induction as generalizing bs with
  | nil =>
    cases bs with
    | nil => rfl
    | cons b bs => exact absurd (List.append_eq_nil_iff.mp h.symm).1 (hne b)
  | cons a as ih =>
    cases bs with
    | nil => exact absurd (List.append_eq_nil_iff.mp h).1 (hne a)
    | cons b bs =>
      obtain ⟨ha, has⟩ := List.forall_mem_cons.mp has
      obtain ⟨hb, hbs⟩ := List.forall_mem_cons.mp hbs
      rw [List.flatMap_cons, List.flatMap_cons] at h
      obtain ⟨hab, hrest⟩ := hf a b _ _ ha hb h
      rw [hab, ih has hbs hrest]

end Utxo
