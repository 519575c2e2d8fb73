import MessageCatalogue.Resource.Enumerator

/-! An exchange is a request with its answer, and a computation can be accompanied by a record of its exchanges. -/

namespace MessageCatalogue

/-- A request about a collection with its answer. -/
structure Exchange where
  collection : Collection
  request : Request
  answer : request.Answer

namespace Fetch

variable {α : Type}

/-- A computation that gives its exchanges, in order, besides its value. -/
def recorded : Fetch α → Fetch (α × List Exchange)
  -- Each exchange stands before those that its answer leads to.
  | .done value => .done (value, [])
  | .ask collection request next =>
    .ask collection request fun answer =>
      (next answer).recorded.bind fun (value, exchanges) =>
        .done (value, ⟨collection, request, answer⟩ :: exchanges)

/-- A record does not change the value of a computation. -/
@[simp] theorem fst_run_recorded (holdings : Holdings) (computation : Fetch α) :
    (computation.recorded.run holdings).1 = computation.run holdings := by
  -- Every answer is passed on as it is.
  induction computation with
  | done value => rfl
  | ask collection request next ih => simp only [recorded, run, run_bind, ih]

end Fetch

end MessageCatalogue
