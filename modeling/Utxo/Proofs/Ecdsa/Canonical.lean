/-
A signature has one DER form.

What is taken as an integer is in canonical form, and so stands for no other integer of 32 bytes than
the one it is widened to.

* **`takeInteger?_eq_some`** — an integer that is taken was written as one;
* **`canonical_of_isContent`** — a content is the canonical form of itself;
* **`toDer_of_ofDer_eq_ok`** — bytes that are read as a signature are its DER form;
* **`ofDer_isBijective`** — so reading and writing are inverse between signatures whose components
  are not zero and the bytes that are read.
-/
import Mathlib.Data.List.DropRight
import Utxo.Proofs.Ecdsa.Der

namespace Utxo.Signature

variable {bs content rest : Bytes} {sig : Signature}

/-! ### Integers -/

/-- An integer that is taken was written as one, and what is left stood behind it. -/
theorem takeInteger?_eq_some (h : takeInteger? bs = some (content, rest)) :
    IsContent content ∧ bs = derInteger content ++ rest := by
  obtain _ | ⟨tag, _ | ⟨len, tail⟩⟩ := bs
  · cases h
  · cases h
  rw [takeInteger?] at h
  split_ifs at h with hframe
  simp only [Bool.or_eq_true, decide_eq_true_eq, not_or, not_not, Nat.not_lt] at hframe
  obtain ⟨⟨htag, -⟩, hroom⟩ := hframe
  -- The content has the length that is announced, and no length is beyond a byte.
  have hform (hcontent : content = tail.take len.toNat) (hrest : rest = tail.drop len.toNat) :
      tag :: len :: tail = derInteger content ++ rest := by
    have hlength : UInt8.ofNat content.length = len := by
      rw [hcontent, List.length_take_of_le hroom, UInt8.ofNat_toNat]
    rw [derInteger, hlength, htag, hcontent, hrest, List.cons_append, List.cons_append,
      List.take_append_drop]
  generalize htaken : tail.take len.toNat = taken at h
  obtain _ | ⟨first, _ | ⟨second, more⟩⟩ := taken
  · cases h
  · dsimp only at h
    split_ifs at h with hlow
    obtain ⟨rfl, rfl⟩ := Prod.mk.inj (Option.some.inj h)
    exact ⟨UInt8.not_le.mp hlow, hform htaken.symm rfl⟩
  · dsimp only at h
    split_ifs at h with hlow hspare
    obtain ⟨rfl, rfl⟩ := Prod.mk.inj (Option.some.inj h)
    have hkept : first = 0 → 0x80 ≤ second := by
      simpa [UInt8.not_lt] using hspare
    exact ⟨⟨UInt8.not_le.mp hlow, hkept⟩, hform htaken.symm rfl⟩

/-- A content is the canonical form of itself. -/
theorem canonical_of_isContent (h : IsContent content) : canonical content = content := by
  match content, h with
  | [a], h =>
    by_cases ha : a = 0
    · rw [ha]
      rfl
    · have hlow : ¬(0x80 : UInt8) ≤ a := UInt8.not_le.mpr h
      simp [canonical, ha, hlow]
  | a :: b :: more, ⟨h, hb⟩ =>
    have hlow : ¬(0x80 : UInt8) ≤ a := UInt8.not_le.mpr h
    by_cases ha : a = 0
    · -- The zero in front keeps the sign apart from a high byte, which is the first significant one.
      have hhigh := hb ha
      have hne : b ≠ 0 := by
        rintro rfl
        exact absurd hhigh (by decide)
      simp [canonical, ha, hne, hhigh]
    · simp [canonical, ha, hlow]

/-! ### Components -/

/-- Widening keeps the significant bytes. -/
theorem significant_of_widen_eq_ok {b : FixedBytes 32} (h : widen bs = .ok b) :
    significant b.bytes = significant bs := by
  unfold widen at h
  dsimp only at h
  split_ifs at h
  obtain rfl := Except.ok.inj h
  show significant (List.replicate _ 0 ++ significant bs) = significant bs
  rw [significant, List.dropWhile_append_of_pos (by simp), significant,
    List.dropWhile_idempotent]

/-- The canonical form of a component is the content that it was widened from. -/
theorem canonical_of_widen_eq_ok {b : FixedBytes 32} (hcontent : IsContent content)
    (h : widen content = .ok b) : canonical b.bytes = content := by
  rw [canonical_eq, significant_of_widen_eq_ok h, ← canonical_eq, canonical_of_isContent hcontent]

/-! ### Signatures -/

theorem eq_cons_cons_drop {a b : UInt8} (ha : bs.head? = some a) (hb : bs.tail.head? = some b) :
    bs = a :: b :: bs.drop 2 := by
  match bs, ha, hb with
  | c :: d :: rest, ha, hb =>
    cases ha
    cases hb
    rfl

/-- The two contents fill the bytes behind the outer tag and length. -/
theorem eq_of_derContents_eq_ok {r s : Bytes} (h : derContents bs = .ok (r, s)) :
    IsContent r ∧ IsContent s ∧
      bs = 0x30 :: UInt8.ofNat (bs.length - 2) :: (derInteger r ++ derInteger s) := by
  unfold derContents at h
  split_ifs at h with hsize htag hlength
  split at h
  · cases h
  · next r' rest hr =>
    split at h
    · cases h
    · next s' rest' hs =>
      split_ifs at h with hrest
      obtain ⟨rfl, rfl⟩ := Prod.mk.inj (Except.ok.inj h)
      obtain ⟨hrcontent, hbody⟩ := takeInteger?_eq_some hr
      obtain ⟨hscontent, htail⟩ := takeInteger?_eq_some hs
      rw [List.isEmpty_iff.mp hrest, List.append_nil] at htail
      refine ⟨hrcontent, hscontent, ?_⟩
      rw [← htail, ← hbody]
      exact eq_cons_cons_drop (not_not.mp htag) (not_not.mp hlength)

theorem bind_eq_ok {α β : Type} {result : Except Error α} {next : α → Except Error β} {b : β}
    (h : result >>= next = .ok b) : ∃ a, result = .ok a ∧ next a = .ok b := by
  cases result with
  | error e => cases h
  | ok a => exact ⟨a, rfl, h⟩

theorem exists_contents_of_ofDer_eq_ok (h : ofDer bs = .ok sig) :
    ∃ r s, derContents bs = .ok (r, s) ∧ widen r = .ok sig.r ∧ widen s = .ok sig.s ∧
      sig.r ≠ .zero 32 ∧ sig.s ≠ .zero 32 := by
  obtain ⟨⟨r, s⟩, hcontents, h⟩ := bind_eq_ok h
  obtain ⟨r', hr, h⟩ := bind_eq_ok h
  obtain ⟨s', hs, h⟩ := bind_eq_ok h
  split_ifs at h with hzero
  obtain rfl := Except.ok.inj h
  rw [Bool.or_eq_true, decide_eq_true_iff, decide_eq_true_iff, not_or] at hzero
  exact ⟨r, s, hcontents, hr, hs, hzero.1, hzero.2⟩

/-- Bytes that are read as a signature are its DER form. -/
theorem toDer_of_ofDer_eq_ok (h : ofDer bs = .ok sig) : sig.toDer = bs := by
  obtain ⟨r, s, hcontents, hr, hs, -, -⟩ := exists_contents_of_ofDer_eq_ok h
  obtain ⟨hrcontent, hscontent, hbs⟩ := eq_of_derContents_eq_ok hcontents
  have hlength : (derInteger r ++ derInteger s).length = bs.length - 2 := by
    rw [hbs]
    simp
  rw [toDer, canonical_of_widen_eq_ok hrcontent hr, canonical_of_widen_eq_ok hscontent hs]
  rw [hlength, ← hbs]

/-- Reading undoes writing and writing undoes reading, so exactly the DER forms of signatures whose
components are not zero are read, and no signature is read from two byte strings. -/
theorem ofDer_isBijective :
    (∀ r s : FixedBytes 32, r ≠ .zero 32 → s ≠ .zero 32 → ofDer (toDer ⟨r, s⟩) = .ok ⟨r, s⟩) ∧
    (∀ bs sig, ofDer bs = .ok sig → sig.toDer = bs) ∧
    (∀ bs, (∃ sig, ofDer bs = .ok sig) ↔
      ∃ sig : Signature, sig.r ≠ .zero 32 ∧ sig.s ≠ .zero 32 ∧ bs = sig.toDer) ∧
    ∀ bs bs' sig, ofDer bs = .ok sig → ofDer bs' = .ok sig → bs = bs' := by
  refine ⟨fun r s hr hs => ofDer_toDer hr hs, fun bs sig => toDer_of_ofDer_eq_ok, fun bs => ⟨?_, ?_⟩,
    fun bs bs' sig h h' => ?_⟩
  · rintro ⟨sig, h⟩
    obtain ⟨-, -, -, -, -, hr, hs⟩ := exists_contents_of_ofDer_eq_ok h
    exact ⟨sig, hr, hs, (toDer_of_ofDer_eq_ok h).symm⟩
  · rintro ⟨sig, hr, hs, rfl⟩
    exact ⟨sig, ofDer_toDer hr hs⟩
  · rw [← toDer_of_ofDer_eq_ok h, toDer_of_ofDer_eq_ok h']

/-- A component with the high bit set, which takes 33 bytes, beside one that takes a single byte. -/
theorem ofDer_isBijective_widest_beside_narrowest :
    let r : FixedBytes 32 := ⟨0x80 :: List.replicate 31 0, rfl⟩
    let s : FixedBytes 32 := ⟨List.replicate 31 0 ++ [0x01], rfl⟩
    let bs : Bytes :=
      [0x30, 0x26, 0x02, 0x21, 0x00, 0x80] ++ List.replicate 31 0 ++ [0x02, 0x01, 0x01]
    r ≠ .zero 32 ∧ s ≠ .zero 32 ∧ toDer ⟨r, s⟩ = bs ∧ ofDer bs = .ok ⟨r, s⟩ ∧
      ∀ bs', ofDer bs' = .ok ⟨r, s⟩ → bs' = bs := by
  intro r s bs
  obtain ⟨hread, -, -, hunique⟩ := ofDer_isBijective
  have hr : r ≠ .zero 32 := by decide
  have hs : s ≠ .zero 32 := by decide
  have hbs : ofDer bs = .ok ⟨r, s⟩ := hread r s hr hs
  exact ⟨hr, hs, rfl, hbs, fun bs' h => hunique bs' bs ⟨r, s⟩ h hbs⟩

end Utxo.Signature
