import MessageCatalogue.Error

/-! Whatever needs resources asks for them step by step, so its requests can be answered, counted or denied. -/

namespace MessageCatalogue

/-- The resources that a loader reads, either shared with others or below directories of its own. -/
inductive Collection where
  | shared
  | directories (roots : List String)
deriving DecidableEq, Repr, Inhabited

/-- A question about the resources of a collection. -/
inductive Request where
  | list (directory : String)
  | resources (name : String)
  | read (id : ResourceId)
deriving DecidableEq, Repr

/-- A request is answered by file names, identifiers or bytes, unless it fails. -/
@[reducible] def Request.Answer : Request → Type
  | .list _ => Except ResourceFault (List String)
  | .resources _ => Except ResourceFault (List ResourceId)
  | .read _ => Except ResourceFault ByteArray

/-- A computation that asks for resources and goes on with each answer. -/
inductive Fetch (α : Type) : Type where
  | done (value : α)
  | ask (collection : Collection) (request : Request) (next : request.Answer → Fetch α)

namespace Fetch

variable {α β : Type}

/-- A computation followed by another one that depends on its value. -/
def bind : Fetch α → (α → Fetch β) → Fetch β
  | .done value, continuation => continuation value
  | .ask collection request next, continuation =>
    .ask collection request fun answer => (next answer).bind continuation

instance : Monad Fetch where
  pure := done
  bind := bind

/-- One request with its answer as the value. -/
def request (collection : Collection) (request : Request) : Fetch request.Answer :=
  .ask collection request .done

/-- The outcome when every request is answered in a monad of effects. -/
def runIn {m : Type → Type} [Monad m] (answer : Collection → (request : Request) → m request.Answer) :
    Fetch α → m α
  -- The requests reach the monad one by one, in the order in which they are made.
  | .done value => Pure.pure value
  | .ask collection request next => do
    let answered ← answer collection request
    (next answered).runIn answer

@[simp] theorem pure_eq (value : α) : (Pure.pure value : Fetch α) = .done value := rfl

@[simp] theorem bind_eq (first : Fetch α) (continuation : α → Fetch β) :
    first >>= continuation = first.bind continuation := rfl

@[simp] theorem done_bind (value : α) (continuation : α → Fetch β) :
    (Fetch.done value).bind continuation = continuation value := rfl

/-- A computation that stops with its own value is unchanged. -/
theorem bind_done (first : Fetch α) : first.bind .done = first := by
  -- Every answer leads on to a computation of which this holds.
  induction first with
  | done value => rfl
  | ask collection request next ih => simp only [bind, ih]

/-- Three computations in a row can be grouped either way. -/
theorem bind_assoc {γ : Type} (first : Fetch α) (second : α → Fetch β) (third : β → Fetch γ) :
    (first.bind second).bind third = first.bind fun value => (second value).bind third := by
  -- The grouping only matters once the first computation has its value.
  induction first with
  | done value => rfl
  | ask collection request next ih => simp only [bind, ih]

instance : LawfulMonad Fetch := LawfulMonad.mk' Fetch
  (fun computation => bind_done computation) (fun _ _ => rfl) bind_assoc

end Fetch

/-- A computation that asks for resources and may fail with an error of this library. -/
abbrev Loading (α : Type) : Type := ExceptT MessageError Fetch α

namespace Loading

variable {α : Type}

/-- A value that is known without asking for anything. -/
def ofExcept (result : Except MessageError α) : Loading α := ExceptT.mk (.done result)

/-- A request whose failure becomes an error. -/
def ofRequest (toError : ResourceFault → MessageError) (answered : Fetch (Except ResourceFault α)) :
    Loading α :=
  ExceptT.mk (answered.bind fun answer => .done (answer.mapError toError))

end Loading

end MessageCatalogue
