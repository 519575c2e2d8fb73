import Mathlib.Data.List.Forall2
import MessageCatalogue.Resource.Enumerator

/-! Loading from holdings that stay as they are succeeds exactly when each of its steps does. -/

namespace MessageCatalogue.Loading

variable {α β : Type}

/-- What loading comes to when its requests are answered from some holdings. -/
def outcome (holdings : Holdings) (loading : Loading α) : Except MessageError α := loading.run.run holdings

@[simp] theorem outcome_pure (holdings : Holdings) (value : α) :
    outcome holdings (pure value) = .ok value := rfl

@[simp] theorem outcome_throw (holdings : Holdings) (error : MessageError) :
    outcome holdings (throw error : Loading α) = .error error := rfl

@[simp] theorem outcome_ofExcept (holdings : Holdings) (result : Except MessageError α) :
    outcome holdings (ofExcept result) = result := rfl

@[simp] theorem outcome_liftM (holdings : Holdings) (computation : Fetch α) :
    outcome holdings (liftM computation : Loading α) = .ok (computation.run holdings) := by
  -- A computation that cannot fail only has its value wrapped.
  change (computation.bind fun value => .done (Except.ok value : Except MessageError α)).run holdings = _
  rw [Fetch.run_bind, Fetch.run_done]

@[simp] theorem outcome_ofRequest (holdings : Holdings) (toError : ResourceFault → MessageError)
    (answered : Fetch (Except ResourceFault α)) :
    outcome holdings (ofRequest toError answered) = (answered.run holdings).mapError toError := by
  -- The answer is passed on with its fault explained and nothing else asked.
  simp [outcome, ofRequest, ExceptT.run_mk]

/-- Two steps in a row come to what the second one makes of the value of the first one. -/
theorem outcome_bind (holdings : Holdings) (first : Loading α) (continuation : α → Loading β) :
    outcome holdings (first >>= continuation) =
      (outcome holdings first).bind fun value => outcome holdings (continuation value) := by
  -- An error of the first step ends the computation before the second one.
  simp only [outcome, ExceptT.run_bind, Fetch.bind_eq, Fetch.run_bind]
  cases first.run.run holdings with
  | error error => rfl
  | ok value => rfl

/-- Two steps in a row succeed when the second one succeeds with the value of the first one. -/
theorem outcome_bind_ok {holdings : Holdings} {first : Loading α} {continuation : α → Loading β}
    {value : β} :
    outcome holdings (first >>= continuation) = .ok value ↔
      ∃ middle, outcome holdings first = .ok middle ∧ outcome holdings (continuation middle) = .ok value := by
  -- An error of the first step leaves the second one no value to start from.
  rw [outcome_bind]
  cases outcome holdings first with
  | error error => simp [Except.bind]
  | ok middle => simp [Except.bind]

/-- Two steps in a row fail when the first one fails, or else when the second one fails with its value. -/
theorem outcome_bind_error {holdings : Holdings} {first : Loading α} {continuation : α → Loading β}
    {error : MessageError} :
    outcome holdings (first >>= continuation) = .error error ↔ outcome holdings first = .error error ∨
      ∃ middle, outcome holdings first = .ok middle ∧
        outcome holdings (continuation middle) = .error error := by
  -- Only the value of the first step, if there is one, gets the second step started.
  rw [outcome_bind]
  cases outcome holdings first with
  | error cause => simp [Except.bind]
  | ok middle => simp [Except.bind]

/-- A step for each element of a list succeeds when each of these steps does. -/
theorem outcome_mapM_ok {holdings : Holdings} {step : α → Loading β} {elements : List α} {values : List β} :
    outcome holdings (elements.mapM step) = .ok values ↔
      List.Forall₂ (fun element value => outcome holdings (step element) = .ok value) elements values := by
  -- The first element comes before the rest, in the steps as in the list.
  induction elements generalizing values with
  | nil => cases values <;> simp
  | cons element rest ih =>
    rw [List.mapM_cons]
    simp only [outcome_bind_ok, outcome_pure, Except.ok.injEq, ih]
    constructor
    · rintro ⟨value, own, others, each, rfl⟩
      exact .cons own each
    · rintro (_ | ⟨own, each⟩)
      exact ⟨_, own, _, each, rfl⟩

/-- A step for each element of a list fails with the error of the first of these steps to fail. -/
theorem outcome_mapM_error {holdings : Holdings} {step : α → Loading β} {elements : List α}
    {error : MessageError} :
    outcome holdings (elements.mapM step) = .error error ↔
      ∃ earlier failing later, elements = earlier ++ failing :: later ∧
        (∀ element ∈ earlier, ∃ value, outcome holdings (step element) = .ok value) ∧
        outcome holdings (step failing) = .error error := by
  -- Either the first step fails or, behind it, one of the rest does.
  induction elements with
  | nil => simp
  | cons first rest ih =>
    rw [List.mapM_cons]
    simp only [outcome_bind_error, outcome_pure, reduceCtorEq, and_false, exists_false, or_false, ih]
    constructor
    · intro failed
      rcases failed with fails | ⟨value, own, earlier, failing, later, rfl, before, fails⟩
      · exact ⟨[], first, rest, rfl, by simp, fails⟩
      · exact ⟨first :: earlier, failing, later, rfl, List.forall_mem_cons.mpr ⟨⟨value, own⟩, before⟩, fails⟩
    · intro found
      obtain ⟨earlier, failing, later, split, before, fails⟩ := found
      cases earlier with
      | nil =>
        obtain ⟨rfl, rfl⟩ := List.cons.inj split
        exact .inl fails
      | cons start earlier =>
        obtain ⟨rfl, rfl⟩ := List.cons.inj split
        obtain ⟨⟨value, own⟩, before⟩ := List.forall_mem_cons.mp before
        exact .inr ⟨value, own, earlier, failing, later, rfl, before, fails⟩

/-- Steps that come to the same for each element of a list come to the same for all of them together. -/
theorem outcome_mapM_congr {before after : Holdings} {step step' : α → Loading β} {elements : List α}
    (agree : ∀ element ∈ elements, outcome before (step element) = outcome after (step' element)) :
    outcome before (elements.mapM step) = outcome after (elements.mapM step') := by
  -- The induction is on the list, whose first step comes before the others.
  induction elements with
  | nil => rfl
  | cons element rest ih =>
    have own := agree element List.mem_cons_self
    have others := ih fun other member => agree other (List.mem_cons_of_mem element member)
    simp only [List.mapM_cons, outcome_bind, own, others, outcome_pure]

end MessageCatalogue.Loading
