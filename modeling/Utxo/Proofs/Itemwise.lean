/-
One item after the other.

A computation that may fail is made for every item of a list, in order.

* **`mapM_eq_ok_iff`** — it succeeds just if it does so for each item;
* **`mapM_eq_error_iff`** — if not, the first item for which it fails says why.
-/
import Mathlib.Data.List.Forall2

namespace Utxo

variable {α β ε : Type} {f : α → Except ε β} {xs : List α}

/-- All items succeed just if each one does, with these results. -/
theorem mapM_eq_ok_iff {ys : List β} :
    xs.mapM f = .ok ys ↔ List.Forall₂ (fun x y => f x = .ok y) xs ys := by
  induction xs generalizing ys with
  | nil =>
    constructor
    · intro h
      cases h
      exact .nil
    · rintro ⟨⟩
      rfl
  | cons x xs ih =>
    rw [List.mapM_cons]
    cases hx : f x with
    | error e =>
      constructor
      · intro h
        cases h
      · rintro (_ | ⟨hy, -⟩)
        cases hx.symm.trans hy
    | ok z =>
      cases hxs : xs.mapM f with
      | error e =>
        constructor
        · intro h
          cases h
        · rintro (_ | ⟨-, hys⟩)
          cases hxs.symm.trans (ih.mpr hys)
      | ok zs =>
        constructor
        · intro h
          cases h
          exact .cons hx (ih.mp hxs)
        · rintro (_ | ⟨hy, hys⟩)
          cases hx.symm.trans hy
          cases hxs.symm.trans (ih.mpr hys)
          rfl

/-- If they do not, the first item that fails says why. -/
theorem mapM_eq_error_iff {e : ε} :
    xs.mapM f = .error e ↔ ∃ before x after, xs = before ++ x :: after ∧
      (∀ y ∈ before, ∃ z, f y = .ok z) ∧ f x = .error e := by
  induction xs with
  | nil =>
    constructor
    · intro h
      cases h
    · rintro ⟨before, x, after, hxs, -⟩
      cases before <;> cases hxs
  | cons x xs ih =>
    rw [List.mapM_cons]
    cases hx : f x with
    | error e' =>
      constructor
      · intro h
        cases h
        exact ⟨[], x, xs, rfl, nofun, hx⟩
      · rintro ⟨_ | ⟨y, before⟩, x', after, hxs, hbefore, hfails⟩
        · cases hxs
          cases hx.symm.trans hfails
          rfl
        · cases hxs
          obtain ⟨z, hz⟩ := hbefore x List.mem_cons_self
          cases hx.symm.trans hz
    | ok z =>
      -- The first item that fails is one of the others.
      have hrest : (do let zs ← xs.mapM f; pure (z :: zs) : Except ε (List β)) = .error e ↔
          xs.mapM f = .error e := by
        cases xs.mapM f with
        | error e' =>
          constructor
          · intro h
            cases h
            rfl
          · intro h
            cases h
            rfl
        | ok zs =>
          constructor
          · intro h
            cases h
          · intro h
            cases h
      refine hrest.trans (ih.trans ?_)
      constructor
      · rintro ⟨before, x', after, rfl, hbefore, hfails⟩
        refine ⟨x :: before, x', after, rfl, fun y hy => ?_, hfails⟩
        rcases List.mem_cons.mp hy with rfl | hy
        · exact ⟨z, hx⟩
        · exact hbefore y hy
      · rintro ⟨_ | ⟨y, before⟩, x', after, hxs, hbefore, hfails⟩
        · cases hxs
          cases hx.symm.trans hfails
        · cases hxs
          exact ⟨before, x', after, rfl, fun y hy => hbefore y (List.mem_cons_of_mem _ hy), hfails⟩

end Utxo
