import MessageCatalogue.Resource.Fetch

/-! An enumerator answers requests from resources that stay as they are. -/

namespace MessageCatalogue

/-- The answers to every question about the resources of a collection. -/
structure Enumerator where
  list : String → Except ResourceFault (List String)
  resources : String → Except ResourceFault (List ResourceId)
  read : ResourceId → Except ResourceFault ByteArray

/-- The answer of an enumerator to a request. -/
def Enumerator.answer (enumerator : Enumerator) : (request : Request) → request.Answer
  | .list directory => enumerator.list directory
  | .resources name => enumerator.resources name
  | .read id => enumerator.read id

/-- The resources of every collection. -/
abbrev Holdings : Type := Collection → Enumerator

namespace Fetch

variable {α β : Type}

/-- The outcome of a computation whose requests are answered from some holdings. -/
def run (holdings : Holdings) : Fetch α → α
  | .done value => value
  | .ask collection request next => (next ((holdings collection).answer request)).run holdings

/-- The requests that a computation makes when they are answered from some holdings, in order. -/
def requests (holdings : Holdings) : Fetch α → List (Collection × Request)
  | .done _ => []
  | .ask collection request next =>
    (collection, request) :: (next ((holdings collection).answer request)).requests holdings

@[simp] theorem run_done (holdings : Holdings) (value : α) : (Fetch.done value).run holdings = value := rfl

@[simp] theorem run_bind (holdings : Holdings) (first : Fetch α) (continuation : α → Fetch β) :
    (first.bind continuation).run holdings = (continuation (first.run holdings)).run holdings := by
  -- The first computation gets the same answers on its own.
  induction first with
  | done value => rfl
  | ask collection request next ih => simp only [bind, run, ih]

@[simp] theorem requests_bind (holdings : Holdings) (first : Fetch α) (continuation : α → Fetch β) :
    (first.bind continuation).requests holdings =
      first.requests holdings ++ (continuation (first.run holdings)).requests holdings := by
  -- The requests of the first computation come before those that depend on its value.
  induction first with
  | done value => rfl
  | ask collection request next ih => simp only [bind, requests, run, ih, List.cons_append]

@[simp] theorem run_request (holdings : Holdings) (collection : Collection) (request : Request) :
    (Fetch.request collection request).run holdings = (holdings collection).answer request := rfl

end Fetch

end MessageCatalogue
