/-
Steps on a state.

What steps have changed stays if a later one fails, so whether a failure leaves the state as it was
depends on their order.

* **`Steps.on_bind_of_ok`** — steps after others go on from the state that those leave;
* **`Steps.Performs`** — steps that fail do so before they change anything.
-/

namespace Utxo

variable {ε σ α β : Type}

/-- Steps that change a state and may fail. What has been changed stays if a later step fails. -/
abbrev Steps (ε σ : Type) := ExceptT ε (StateM σ)

namespace Steps

/-- What steps give on a state, and the state that they leave. -/
def on (steps : Steps ε σ α) (s : σ) : Except ε α × σ := steps.run s

section

variable {first : Steps ε σ α} {next : α → Steps ε σ β} {s t : σ}

theorem on_bind_of_ok {a : α} (h : first.on s = (.ok a, t)) :
    (first >>= next).on s = (next a).on t := by
  rw [on, ExceptT.run_bind]
  simp only [bind, StateT.bind]
  rw [show first.run s = _ from h]
  rfl

theorem on_bind_of_error {e : ε} (h : first.on s = (.error e, t)) :
    (first >>= next).on s = (.error e, t) := by
  rw [on, ExceptT.run_bind]
  simp only [bind, StateT.bind]
  rw [show first.run s = _ from h]
  rfl

end

/-- Steps do what a function says that may fail, and leave the state as it was if it does. -/
def Performs (steps : Steps ε σ Unit) (f : σ → Except ε σ) : Prop :=
  ∀ s, steps.on s = match f s with
    | .ok t => (.ok (), t)
    | .error e => (.error e, s)

namespace Performs

variable {steps : Steps ε σ Unit} {f : σ → Except ε σ} {s t : σ} {e : ε}

theorem on_of_ok (h : steps.Performs f) (hs : f s = .ok t) : steps.on s = (.ok (), t) := by
  rw [h s, hs]

theorem on_of_error (h : steps.Performs f) (hs : f s = .error e) : steps.on s = (.error e, s) := by
  rw [h s, hs]

end Performs

end Steps

end Utxo
