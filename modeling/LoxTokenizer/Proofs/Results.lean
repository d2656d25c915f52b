/-!
# Steps that may fail

What the result of two steps says of each: where the second is only a change of what the first
gives, it cannot fail, and where both may fail, a result needs both.

* **`exists_of_map_eq_ok`**, **`eq_error_of_map`**: a step whose result is changed.
* **`exists_of_bind_eq_ok`**: two steps that may fail.
-/

namespace LoxTokenizer

variable {ε α β : Type} {step : Except ε α} {change : α → β} {next : α → Except ε β} {e : ε} {b : β}

theorem exists_of_map_eq_ok (h : step.map change = .ok b) : ∃ a, step = .ok a ∧ change a = b := by
  cases step with
  | error e => cases h
  | ok a => exact ⟨a, rfl, Except.ok.inj h⟩

theorem eq_error_of_map (h : step.map change = .error e) : step = .error e := by
  cases step with
  | error e' => rw [Except.error.inj h]
  | ok a => cases h

theorem exists_of_bind_eq_ok (h : step.bind next = .ok b) : ∃ a, step = .ok a ∧ next a = .ok b := by
  cases step with
  | error e => cases h
  | ok a => exact ⟨a, rfl, h⟩

end LoxTokenizer
