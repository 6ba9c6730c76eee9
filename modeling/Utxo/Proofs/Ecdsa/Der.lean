/-
The DER form of a signature is read back.

* **`significant`** — a byte string without its leading zeros, which is what the DER form keeps;
* **`takeInteger?_derInteger`** — an integer in its canonical form is taken, and what follows it is
  left alone;
* **`ofDer_toDer`** — so a signature whose components are not zero is read from its DER form.
-/
import Utxo.Ecdsa.Signature
import Mathlib.Data.List.TakeWhile
import Mathlib.Tactic.SplitIfs

namespace Utxo.Signature

/-! ### Leading zeros -/

/-- The bytes from the first one on that is not zero. -/
def significant (bs : Bytes) : Bytes := bs.dropWhile (· = 0)

theorem length_significant_le (bs : Bytes) : (significant bs).length ≤ bs.length :=
  (List.dropWhile_suffix _).length_le

theorem head_significant_ne {b : UInt8} {bs rest : Bytes} (h : significant bs = b :: rest) :
    b ≠ 0 := by
  have hhead := List.head?_dropWhile_not (fun b : UInt8 => decide (b = 0)) bs
  rw [significant] at h
  rw [h] at hhead
  simpa using hhead

/-- Only zeros stand before the significant bytes. -/
theorem replicate_append_significant (bs : Bytes) :
    List.replicate (bs.length - (significant bs).length) 0 ++ significant bs = bs := by
  have hzeros : bs.takeWhile (· = 0) =
      List.replicate (bs.takeWhile (· = 0)).length (0 : UInt8) := by
    refine List.eq_replicate_of_mem fun b hb => ?_
    simpa using List.mem_takeWhile_imp hb
  have hlength : bs.length - (significant bs).length = (bs.takeWhile (· = 0)).length := by
    have h := congrArg List.length
      (List.takeWhile_append_dropWhile (p := fun b : UInt8 => decide (b = 0)) (l := bs))
    rw [List.length_append] at h
    unfold significant
    omega
  rw [hlength, ← hzeros]
  exact List.takeWhile_append_dropWhile

theorem canonical_eq (bs : Bytes) :
    canonical bs = match significant bs with
      | [] => [0]
      | b :: rest => if b ≥ 0x80 then 0 :: b :: rest else b :: rest := rfl

theorem significant_canonical (bs : Bytes) : significant (canonical bs) = significant bs := by
  rw [canonical_eq]
  cases h : significant bs with
  | nil => rfl
  | cons b rest =>
    have hb := head_significant_ne h
    dsimp only
    split_ifs <;> simp [significant, hb]

theorem widen_eq_ok {bs : Bytes} {b : FixedBytes 32} (h : significant bs = significant b.bytes) :
    widen bs = .ok b := by
  have hle := length_significant_le b.bytes
  rw [b.length_bytes] at hle
  have hbytes := replicate_append_significant b.bytes
  rw [b.length_bytes] at hbytes
  have hlength : (bs.dropWhile (· = 0)).length ≤ 32 := by
    show (significant bs).length ≤ 32
    rwa [h]
  rw [widen, dif_pos hlength]
  congr 1
  ext1
  show List.replicate (32 - (significant bs).length) 0 ++ significant bs = b.bytes
  rwa [h]

/-! ### Integers -/

/-- A content that is not empty, not negative, and has no zero byte to spare. -/
def IsContent : Bytes → Prop
  | [] => False
  | [a] => a < 0x80
  | a :: b :: _ => a < 0x80 ∧ (a = 0 → 0x80 ≤ b)

theorem isContent_canonical (bs : Bytes) : IsContent (canonical bs) := by
  rw [canonical_eq]
  cases h : significant bs with
  | nil => exact (by decide : (0 : UInt8) < 0x80)
  | cons b rest =>
    have hb := head_significant_ne h
    dsimp only
    -- A high first byte is kept apart from the sign by a zero byte.
    split_ifs with hhigh
    · exact ⟨by decide, fun _ => hhigh⟩
    · have hlow : b < 0x80 := UInt8.not_le.mp hhigh
      cases rest with
      | nil => exact hlow
      | cons c rest => exact ⟨hlow, fun h => absurd h hb⟩

theorem length_canonical_le (bs : Bytes) : (canonical bs).length ≤ bs.length + 1 := by
  have hle := length_significant_le bs
  rw [canonical_eq]
  cases h : significant bs with
  | nil => simp
  | cons b rest =>
    rw [h] at hle
    dsimp only
    split_ifs <;> simp only [List.length_cons] at hle ⊢ <;> omega

theorem IsContent.length_pos {content : Bytes} (h : IsContent content) : 0 < content.length := by
  cases content with
  | nil => exact h.elim
  | cons a rest => exact Nat.succ_pos _

/-- An integer is taken, and what follows it is left alone. -/
theorem takeInteger?_derInteger {content : Bytes} (h : IsContent content)
    (hlength : content.length < 256) (rest : Bytes) :
    takeInteger? (derInteger content ++ rest) = some (content, rest) := by
  -- The second byte is the length, and not zero.
  have hnat : (UInt8.ofNat content.length).toNat = content.length := by
    rw [UInt8.toNat_ofNat']
    exact Nat.mod_eq_of_lt hlength
  have hpos := h.length_pos
  have hne : UInt8.ofNat content.length ≠ 0 := by
    intro heq
    rw [heq] at hnat
    exact absurd hnat (by simpa using hpos.ne)
  have htake : (content ++ rest).take content.length = content := List.take_left
  have hdrop : (content ++ rest).drop content.length = rest := List.drop_left
  have hroom : ¬(content ++ rest).length < content.length := by simp
  simp only [derInteger, List.cons_append, takeInteger?, hnat, hne, htake, hdrop, hroom]
  -- None of the three ways to refuse a content applies.
  match content, h with
  | [a], h =>
    simp [UInt8.not_le.mpr h]
  | a :: b :: more, ⟨ha, hb⟩ =>
    have hspare : ¬(a = 0 ∧ b < 0x80) := fun h => UInt8.not_le.mpr h.2 (hb h.1)
    simp [UInt8.not_le.mpr ha, hspare]

/-! ### Signatures -/

@[simp] theorem length_derInteger (content : Bytes) :
    (derInteger content).length = content.length + 2 := rfl

theorem length_toDer (sig : Signature) :
    sig.toDer.length = (canonical sig.r.bytes).length + (canonical sig.s.bytes).length + 6 := by
  simp [toDer]
  omega

theorem length_toDer_le (sig : Signature) : sig.toDer.length ≤ 72 := by
  have hr := length_canonical_le sig.r.bytes
  have hs := length_canonical_le sig.s.bytes
  rw [sig.r.length_bytes] at hr
  rw [sig.s.length_bytes] at hs
  rw [length_toDer]
  omega

theorem derContents_toDer (sig : Signature) :
    derContents sig.toDer = .ok (canonical sig.r.bytes, canonical sig.s.bytes) := by
  have hr := isContent_canonical sig.r.bytes
  have hs := isContent_canonical sig.s.bytes
  have hlength := length_toDer sig
  have hmax := length_toDer_le sig
  -- The outer length and tag are right, and the two integers follow each other.
  have hsize : ¬(sig.toDer.length < 8 || 72 < sig.toDer.length) := by
    have := hr.length_pos
    have := hs.length_pos
    simp only [Bool.or_eq_true, decide_eq_true_eq]
    omega
  have htail : sig.toDer.tail.head? = some (UInt8.ofNat (sig.toDer.length - 2)) := rfl
  have htaker := takeInteger?_derInteger hr (by omega) (derInteger (canonical sig.s.bytes))
  have htakes := takeInteger?_derInteger hs (by omega) []
  rw [List.append_nil] at htakes
  have hbody : sig.toDer.drop 2 =
      derInteger (canonical sig.r.bytes) ++ derInteger (canonical sig.s.bytes) := rfl
  have hhead : sig.toDer.head? = some 0x30 := rfl
  rw [derContents, if_neg hsize, if_neg (not_not_intro hhead), if_neg (not_not_intro htail), hbody,
    htaker]
  dsimp only
  rw [htakes]
  rfl

/-- A signature whose components are not zero is read from its DER form. -/
theorem ofDer_toDer {sig : Signature} (hr : sig.r ≠ .zero 32) (hs : sig.s ≠ .zero 32) :
    ofDer sig.toDer = .ok sig := by
  have hzero : ¬(sig.r = .zero 32 || sig.s = .zero 32) := by simp [hr, hs]
  simp only [ofDer, derContents_toDer, bind, Except.bind, widen_eq_ok (significant_canonical _),
    if_neg hzero]

end Utxo.Signature
