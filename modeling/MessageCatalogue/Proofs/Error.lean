import MessageCatalogue.Error

/-! Errors are gathered into aggregates without losing any of them and without needless nesting. -/

namespace MessageCatalogue.MessageError

/-- Whether an error stands for several. -/
def isAggregate : MessageError → Bool
  | .aggregate _ => true
  | _ => false

mutual

/-- The errors that an error stands for, which is itself alone unless it is an aggregate. -/
def leaves : MessageError → List MessageError
  | .aggregate errors => leavesOfAll errors
  | error => [error]

/-- The errors that several errors stand for, in order. -/
def leavesOfAll : List MessageError → List MessageError
  | [] => []
  | first :: rest => leaves first ++ leavesOfAll rest

end

/-- An error is grouped when every aggregate in it holds at least two errors. -/
inductive IsGrouped : MessageError → Prop where
  | single {error : MessageError} (single : error.isAggregate = false) : IsGrouped error
  | aggregate {errors : List MessageError} (several : 2 ≤ errors.length)
      (each : ∀ error ∈ errors, IsGrouped error) : IsGrouped (.aggregate errors)

/-- An error that is no aggregate stands for itself. -/
theorem leaves_of_single {error : MessageError} (single : error.isAggregate = false) :
    error.leaves = [error] := by
  cases error with
  | aggregate errors => cases single
  | _ => simp only [leaves]

/-- Several errors stand for what each of them stands for. -/
theorem leavesOfAll_eq (errors : List MessageError) : leavesOfAll errors = errors.flatMap leaves := by
  induction errors with
  | nil => simp only [leavesOfAll, List.flatMap_nil]
  | cons first rest ih => rw [leavesOfAll, ih, List.flatMap_cons]

/-- A grouped error stands for at least one error. -/
theorem IsGrouped.leaves_ne_nil {error : MessageError} (grouped : error.IsGrouped) : error.leaves ≠ [] := by
  -- An aggregate has a first error, which stands for at least one.
  induction grouped with
  | single single => simp [leaves_of_single single]
  | @aggregate errors several each ih =>
    rw [leaves, leavesOfAll_eq]
    cases errors with
    | nil => simp at several
    | cons first rest => simp [ih first List.mem_cons_self]

/-- A grouped error that stands for one error alone is that error. -/
theorem IsGrouped.eq_of_leaves {error leaf : MessageError} (grouped : error.IsGrouped)
    (alone : error.leaves = [leaf]) : error = leaf := by
  cases grouped with
  | single single => simpa [leaves_of_single single] using alone
  | @aggregate errors several each =>
    -- Each of the two errors at the front stands for at least one.
    rw [leaves, leavesOfAll_eq] at alone
    obtain _ | ⟨first, _ | ⟨second, rest⟩⟩ := errors
    · simp at several
    · simp at several
    · have some := List.length_pos_iff.mpr (each first (by simp)).leaves_ne_nil
      have more := List.length_pos_iff.mpr (each second (by simp)).leaves_ne_nil
      have length := congrArg List.length alone
      simp only [List.flatMap_cons, List.length_append, List.length_singleton] at length
      omega

/-- There is nothing to report exactly when there are no errors. -/
theorem combined?_eq_none_iff {errors : List MessageError} : combined? errors = none ↔ errors = [] := by
  obtain _ | ⟨first, _ | ⟨second, rest⟩⟩ := errors <;> simp [combined?]

/-- One error for several stands for what they stand for. -/
theorem leaves_of_combined {errors : List MessageError} {error : MessageError}
    (combined : combined? errors = some error) : error.leaves = errors.flatMap leaves := by
  -- A single error is reported as it is, and only two or more make an aggregate.
  obtain _ | ⟨first, _ | ⟨second, rest⟩⟩ := errors
  · cases combined
  · cases combined
    simp
  · cases combined
    rw [leaves, leavesOfAll_eq]

/-- One error for several grouped ones is grouped. -/
theorem isGrouped_of_combined {errors : List MessageError} {error : MessageError}
    (grouped : ∀ error ∈ errors, error.IsGrouped) (combined : combined? errors = some error) :
    error.IsGrouped := by
  obtain _ | ⟨first, _ | ⟨second, rest⟩⟩ := errors
  · cases combined
  · cases combined
    exact grouped _ List.mem_cons_self
  · cases combined
    exact .aggregate (by simp) grouped

end MessageCatalogue.MessageError
