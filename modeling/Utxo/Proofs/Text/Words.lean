/-
Words that are set apart by spaces are read one by one.

* **`wordsFrom_append_blank`** — no word reaches across a blank;
* **`words_intercalate`** — what is joined from words falls apart into them.
-/
import Mathlib.Data.List.Basic
import Utxo.Text.Blank

namespace Utxo.Text

variable {w : List Char} {c : Char}

/-- A word has a character, and none of its characters is blank. -/
def IsWord (w : List Char) : Prop := w ≠ [] ∧ ∀ c ∈ w, isBlank c = false

/-- No character of ASCII that has ink is blank. -/
theorem isBlank_of_graphic (h : 0x21 ≤ c.toNat ∧ c.toNat ≤ 0x7e) : isBlank c = false := by
  simp only [isBlank, Bool.or_eq_false_iff, Bool.and_eq_false_iff, decide_eq_false_iff_not]
  omega

/-- Characters that are not blank are put to the word that is being read. -/
theorem wordsFrom_append (h : ∀ c ∈ w, isBlank c = false) (word rest : List Char) :
    wordsFrom word (w ++ rest) = wordsFrom (w.reverse ++ word) rest := by
  induction w generalizing word with
  | nil => rfl
  | cons c w ih =>
    obtain ⟨hc, hw⟩ := List.forall_mem_cons.mp h
    rw [List.cons_append, wordsFrom, if_neg (by simp [hc]), ih hw, List.reverse_cons,
      List.append_assoc, List.singleton_append]

theorem wordsFrom_of_isWord (h : IsWord w) : wordsFrom [] w = [w] := by
  have hread := wordsFrom_append h.2 [] []
  rw [List.append_nil, List.append_nil] at hread
  rw [hread, wordsFrom, if_neg (by simpa using h.1), List.reverse_reverse]

/-- A blank ends the word before it, so the texts on its two sides have their words apart. -/
theorem wordsFrom_append_blank (hc : isBlank c) (word text rest : List Char) :
    wordsFrom word (text ++ c :: rest) = wordsFrom word text ++ wordsFrom [] rest := by
  induction text generalizing word with
  | nil =>
    simp only [List.nil_append, wordsFrom, hc, if_true]
    split_ifs <;> rfl
  | cons d text ih =>
    rw [List.cons_append, wordsFrom, wordsFrom, ih, ih]
    split_ifs <;> rfl

theorem wordsFrom_intercalate {ws : List (List Char)} (h : ∀ w ∈ ws, IsWord w) :
    wordsFrom [] ([' '].intercalate ws) = ws := by
  induction ws with
  | nil => rfl
  | cons w ws ih =>
    obtain ⟨hw, hws⟩ := List.forall_mem_cons.mp h
    cases ws with
    | nil => rw [List.intercalate_singleton, wordsFrom_of_isWord hw]
    | cons v vs =>
      rw [List.intercalate_cons_cons, List.append_assoc, List.singleton_append,
        wordsFrom_append_blank (by decide), wordsFrom_of_isWord hw, ih hws, List.singleton_append]

/-- What is joined from words falls apart into them. -/
theorem words_intercalate {ws : List String} (h : ∀ w ∈ ws, IsWord w.toList) :
    words (String.intercalate " " ws) = ws := by
  have hwords : ∀ w ∈ ws.map String.toList, IsWord w := by simpa using h
  rw [words, String.toList_intercalate]
  show (wordsFrom [] ([' '].intercalate (ws.map String.toList))).map String.ofList = ws
  rw [wordsFrom_intercalate hwords, List.map_map]
  exact (List.map_congr_left fun w _ => String.ofList_toList).trans (List.map_id ws)

/-- The words of two texts with a space between them are those of the one and then of the other. -/
theorem words_append_space (a b : String) : words (a ++ " " ++ b) = words a ++ words b := by
  have htext : (a ++ " " ++ b).toList = a.toList ++ ' ' :: b.toList := by simp
  rw [words, htext, wordsFrom_append_blank (by decide), List.map_append]
  rfl

end Utxo.Text
