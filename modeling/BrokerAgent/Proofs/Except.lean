/-!
# Steps that may fail

What it takes for one step after another to succeed or to fail. The options of a command line and
the members of an object are both taken by such steps.
-/

namespace BrokerAgent

variable {ε δ α β : Type}

theorem bind_eq_ok {result : Except ε α} {next : α → Except ε β} {b : β} :
    result >>= next = .ok b ↔ ∃ a, result = .ok a ∧ next a = .ok b := by
  constructor
  · intro h
    cases result with
    | error refused => cases h
    | ok a => exact ⟨a, rfl, h⟩
  · rintro ⟨a, rfl, h⟩
    exact h

/-- Two steps fail exactly if the first fails or the second does after it. -/
theorem bind_eq_error {result : Except ε α} {next : α → Except ε β} {refused : ε} :
    result >>= next = .error refused ↔
      result = .error refused ∨ ∃ a, result = .ok a ∧ next a = .error refused := by
  constructor
  · intro h
    cases result with
    | error other =>
      cases h
      exact .inl rfl
    | ok a => exact .inr ⟨a, rfl, h⟩
  · rintro (rfl | ⟨a, rfl, h⟩)
    · rfl
    · exact h

theorem map_eq_ok {result : Except ε α} {f : α → β} {b : β} :
    result.map f = .ok b ↔ ∃ a, result = .ok a ∧ f a = b := by
  cases result with
  | error refused => simp [Except.map]
  | ok a => simp [Except.map]

theorem map_eq_error {result : Except ε α} {f : α → β} {refused : ε} :
    result.map f = .error refused ↔ result = .error refused := by
  cases result with
  | error other => simp [Except.map]
  | ok a => simp [Except.map]

/-- A change of the failure applies to failures only. -/
theorem mapError_eq_error {result : Except ε α} {f : ε → δ} {refused : δ} :
    result.mapError f = .error refused ↔ ∃ e, result = .error e ∧ f e = refused := by
  constructor
  · intro h
    cases result with
    | error e => exact ⟨e, rfl, Except.error.inj h⟩
    | ok a => cases h
  · rintro ⟨e, rfl, rfl⟩
    rfl

end BrokerAgent
