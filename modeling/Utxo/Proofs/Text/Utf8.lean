/-
Texts in UTF-8.

* **`utf8_eq`** — the bytes of a text are those of its characters one after the other;
* **`fromUTF8?_utf8`** — and the text is read from them;
* **`utf8EncodeChar_of_lt`**, **`le_of_mem_utf8EncodeChar`** — a character of ASCII is one byte, and the
  bytes of all others are beyond ASCII.
-/
import Mathlib.Data.List.Basic
import Mathlib.Tactic.SplitIfs
import Utxo.Bytes.Basic

namespace Utxo.Text

variable {c : Char}

/-- The bytes of a text. -/
def utf8 (s : String) : Bytes := s.toUTF8.toList

/-- The bytes of characters one after the other. -/
def utf8Chars (cs : List Char) : Bytes := cs.flatMap String.utf8EncodeChar

theorem toList_byteArray (bs : ByteArray) : bs.toList = bs.data.toList := by
  have hsize : bs.size = bs.data.toList.length := rfl
  -- The loop reads the bytes from `i` on behind those that it has read.
  have hloop (n i : Nat) (hn : bs.size - i = n) (read : List UInt8) :
      ByteArray.toList.loop bs i read = read.reverse ++ bs.data.toList.drop i := by
    induction n generalizing i read with
    | zero =>
      rw [ByteArray.toList.loop, if_neg (by omega), List.drop_eq_nil_of_le (by omega),
        List.append_nil]
    | succ n ih =>
      have hi : i < bs.data.toList.length := by omega
      have hget : bs.get! i = bs.data.toList[i] := by
        show bs.data[i]! = _
        rw [getElem!_pos bs.data i hi, Array.getElem_toList]
      rw [ByteArray.toList.loop, if_pos (by omega), ih (i + 1) (by omega), hget,
        List.drop_eq_getElem_cons hi, List.reverse_cons, List.append_assoc, List.singleton_append]
  rw [ByteArray.toList, hloop _ 0 rfl, List.reverse_nil, List.nil_append, List.drop_zero]

theorem utf8_ofList (cs : List Char) : utf8 (String.ofList cs) = utf8Chars cs := by
  rw [utf8, toList_byteArray, String.toUTF8, String.toByteArray_ofList]
  exact List.toList_data_toByteArray

theorem utf8_eq (s : String) : utf8 s = utf8Chars s.toList := by
  rw [← utf8_ofList, String.ofList_toList]

theorem utf8_append (s t : String) : utf8 (s ++ t) = utf8 s ++ utf8 t := by
  simp only [utf8_eq, String.toList_append, utf8Chars, List.flatMap_append]

theorem fromUTF8?_utf8 (s : String) : String.fromUTF8? ⟨(utf8 s).toArray⟩ = some s := by
  have hbytes : (⟨(utf8 s).toArray⟩ : ByteArray) = s.toByteArray := by
    rw [utf8, toList_byteArray]
    rfl
  rw [hbytes, String.fromUTF8?, dif_pos s.isValidUTF8]
  rfl

theorem utf8EncodeChar_of_lt (h : c.toNat < 0x80) :
    String.utf8EncodeChar c = [UInt8.ofNat c.toNat] :=
  if_pos (Nat.le_of_lt_succ h)

theorem utf8Chars_of_lt {cs : List Char} (h : ∀ c ∈ cs, c.toNat < 0x80) :
    utf8Chars cs = cs.map fun c => UInt8.ofNat c.toNat := by
  rw [utf8Chars, List.map_eq_flatMap]
  exact List.flatMap_congr fun c hc => utf8EncodeChar_of_lt (h c hc)

theorem le_of_mem_utf8EncodeChar (h : 0x80 ≤ c.toNat) {b : UInt8}
    (hb : b ∈ String.utf8EncodeChar c) : 0x80 ≤ b := by
  have hhigh (n : Nat) (hn : 0x80 ≤ n) (hlt : n < 0x100) : 0x80 ≤ UInt8.ofNat n := by
    rw [UInt8.le_iff_toNat_le, UInt8.toNat_ofNat_of_lt' hlt]
    exact hn
  have hascii : ¬c.val.toNat ≤ 0x7f := Nat.not_le_of_lt h
  rw [String.utf8EncodeChar] at hb
  simp only [hascii, if_false] at hb
  split_ifs at hb <;> simp only [List.mem_cons, List.not_mem_nil, or_false] at hb
  · rcases hb with rfl | rfl <;> exact hhigh _ (by omega) (by omega)
  · rcases hb with rfl | rfl | rfl <;> exact hhigh _ (by omega) (by omega)
  · rcases hb with rfl | rfl | rfl | rfl <;> exact hhigh _ (by omega) (by omega)

end Utxo.Text
