/-! Two steps in a row succeed when both of them do, and otherwise they fail with the first error. -/

namespace MessageCatalogue

variable {ε α β : Type} {first : Except ε α} {continuation : α → Except ε β}

/-- Two steps in a row succeed when the second one succeeds with the value of the first one. -/
theorem bind_ok_iff {value : β} :
    first >>= continuation = .ok value ↔ ∃ middle, first = .ok middle ∧ continuation middle = .ok value := by
  cases first with
  | error error => simp [Bind.bind, Except.bind]
  | ok middle => simp [Bind.bind, Except.bind]

/-- Two steps in a row fail when the first one fails, or else when the second one fails with its value. -/
theorem bind_error_iff {error : ε} :
    first >>= continuation = .error error ↔
      first = .error error ∨ ∃ middle, first = .ok middle ∧ continuation middle = .error error := by
  cases first with
  | error cause => simp [Bind.bind, Except.bind]
  | ok middle => simp [Bind.bind, Except.bind]

/-- A step whose value is only changed succeeds when it does so unchanged. -/
theorem map_ok_iff {change : α → β} {value : β} :
    first.map change = .ok value ↔ ∃ own, first = .ok own ∧ change own = value := by
  cases first <;> simp [Except.map]

/-- A step whose value is only changed fails when it does so unchanged. -/
theorem map_error_iff {change : α → β} {error : ε} : first.map change = .error error ↔ first = .error error := by
  cases first <;> simp [Except.map]

/-- A step whose error is only changed succeeds when it does so unchanged. -/
theorem mapError_ok_iff {ε' : Type} {change : ε → ε'} {value : α} :
    first.mapError change = .ok value ↔ first = .ok value := by
  cases first with
  | error cause =>
    change Except.error (change cause) = .ok value ↔ _
    simp
  | ok own =>
    change Except.ok own = .ok value ↔ _
    simp

/-- A step whose error is only changed fails when it does so unchanged. -/
theorem mapError_error_iff {ε' : Type} {change : ε → ε'} {error : ε'} :
    first.mapError change = .error error ↔ ∃ own, first = .error own ∧ change own = error := by
  cases first with
  | error cause =>
    change Except.error (change cause) = .error error ↔ _
    simp
  | ok own =>
    change Except.ok own = .error error ↔ _
    simp

/-- A step has a value for those who do not ask for its error when it succeeds with that value. -/
theorem toOption_eq_some_iff {value : α} : first.toOption = some value ↔ first = .ok value := by
  cases first <;> simp [Except.toOption]

end MessageCatalogue
