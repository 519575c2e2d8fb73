import MessageCatalogue.Resource.Exchange

/-! A transcript holds the exchanges of a computation under any answers, even ones that change on the way. -/

namespace MessageCatalogue

/-- An exchange has the answer that some holdings give. -/
def Exchange.IsFrom (holdings : Holdings) (exchange : Exchange) : Prop :=
  exchange.answer = (holdings exchange.collection).answer exchange.request

namespace Fetch

variable {α β : Type}

/-- A computation can have some exchanges, in order, and come to a value after them. -/
inductive Transcript : Fetch α → List Exchange → α → Prop where
  | done (value : α) : Transcript (.done value) [] value
  | ask (collection : Collection) {request : Request} {next : request.Answer → Fetch α}
      (answer : request.Answer) {exchanges : List Exchange} {value : α}
      (rest : Transcript (next answer) exchanges value) :
      Transcript (.ask collection request next) (⟨collection, request, answer⟩ :: exchanges) value

/-- A computation that is done has no exchanges and its own value. -/
@[simp] theorem transcript_done {own value : α} {exchanges : List Exchange} :
    Transcript (.done own) exchanges value ↔ exchanges = [] ∧ value = own := by
  -- No constructor but the first one speaks of a computation that is done.
  constructor
  · intro transcript
    cases transcript with
    | done => exact ⟨rfl, rfl⟩
  · rintro ⟨rfl, rfl⟩
    exact .done _

/-- A computation that is done with two values has no exchanges and these values. -/
theorem transcript_done_mk {one value : α} {other rest : β} {exchanges : List Exchange} :
    Transcript (.done (one, other)) exchanges (value, rest) ↔ exchanges = [] ∧ value = one ∧ rest = other := by
  rw [transcript_done, Prod.mk.injEq]

/-- A request is one exchange, with its answer as the value. -/
@[simp] theorem transcript_request {collection : Collection} {request : Request} {answer : request.Answer}
    {exchanges : List Exchange} :
    Transcript (Fetch.request collection request) exchanges answer ↔
      exchanges = [⟨collection, request, answer⟩] := by
  -- The only answer there is to a request is the value that it comes to.
  constructor
  · intro transcript
    cases transcript with
    | ask _ own rest =>
      obtain ⟨rfl, rfl⟩ := transcript_done.mp rest
      rfl
  · rintro rfl
    exact .ask collection answer (.done answer)

/-- The exchanges of two computations in a row are those of the first and then those of the second. -/
theorem transcript_bind {first : Fetch α} {continuation : α → Fetch β} {exchanges : List Exchange}
    {value : β} :
    Transcript (first.bind continuation) exchanges value ↔
      ∃ earlier later middle, exchanges = earlier ++ later ∧
        Transcript first earlier middle ∧ Transcript (continuation middle) later value := by
  -- Each answer to the first computation leads on to a shorter one, with the second still to come.
  induction first generalizing exchanges with
  | done own =>
    constructor
    · intro second
      exact ⟨[], exchanges, own, rfl, .done own, second⟩
    · rintro ⟨earlier, later, middle, rfl, first, second⟩
      obtain ⟨rfl, rfl⟩ := transcript_done.mp first
      exact second
  | ask collection request next ih =>
    constructor
    · intro whole
      cases whole with
      | ask _ answer rest =>
        obtain ⟨earlier, later, middle, rfl, first, second⟩ := (ih answer).mp rest
        exact ⟨_, later, middle, rfl, .ask collection answer first, second⟩
    · rintro ⟨earlier, later, middle, rfl, first, second⟩
      cases first with
      | ask _ answer rest =>
        exact .ask collection answer ((ih answer).mpr ⟨_, later, middle, rfl, rest, second⟩)

/-- Computations that go on alike after every value that the first one can have are equal. -/
theorem bind_congr_of_transcript {first : Fetch α} {one other : α → Fetch β}
    (alike : ∀ exchanges value, Transcript first exchanges value → one value = other value) :
    first.bind one = first.bind other := by
  -- Each answer leads on to a computation whose values the first one can have.
  induction first with
  | done value => exact alike [] value (.done value)
  | ask collection request next ih =>
    simp only [bind]
    congr 1
    funext answer
    exact ih answer fun exchanges value transcript => alike _ value (.ask collection answer transcript)

/-- Answers to requests, each of which may depend on all the exchanges before it. -/
abbrev Responder : Type := List Exchange → Collection → (request : Request) → request.Answer

/-- Some exchanges have the answers that a responder gives after earlier exchanges. -/
def AnsweredBy (responder : Responder) (earlier : List Exchange) : List Exchange → Prop
  | [] => True
  -- An answer may depend on all exchanges before it.
  | exchange :: rest =>
    exchange.answer = responder earlier exchange.collection exchange.request ∧
      AnsweredBy responder (earlier ++ [exchange]) rest

/-- A computation comes to an end, whatever it is answered. -/
theorem exists_transcript (responder : Responder) (computation : Fetch α) (earlier : List Exchange) :
    ∃ exchanges value, Transcript computation exchanges value ∧ AnsweredBy responder earlier exchanges := by
  -- Every answer leads on to a computation that comes to an end.
  induction computation generalizing earlier with
  | done value => exact ⟨[], value, .done value, trivial⟩
  | ask collection request next ih =>
    let answer := responder earlier collection request
    obtain ⟨exchanges, value, rest, answered⟩ := ih answer (earlier ++ [⟨collection, request, answer⟩])
    exact ⟨_, value, .ask collection answer rest, rfl, answered⟩

/-- Holdings that stay as they are lead to one transcript, which is the recorded one. -/
theorem transcript_recorded (holdings : Holdings) (computation : Fetch α) :
    Transcript computation (computation.recorded.run holdings).2 (computation.run holdings) := by
  -- Every request is recorded with the answer that the rest of the computation gets.
  induction computation with
  | done value => exact .done value
  | ask collection request next ih =>
    have rest := ih ((holdings collection).answer request)
    simpa only [recorded, run, run_bind] using Transcript.ask collection _ rest

/-- The exchanges that are recorded have the answers of the holdings. -/
theorem isFrom_recorded (holdings : Holdings) (computation : Fetch α) :
    ∀ exchange ∈ (computation.recorded.run holdings).2, exchange.IsFrom holdings := by
  -- Each request is recorded with the answer of an enumerator.
  induction computation with
  | done value => simp [recorded]
  | ask collection request next ih =>
    intro exchange member
    simp only [recorded, run, run_bind, List.mem_cons] at member
    rcases member with rfl | later
    · rfl
    · exact ih _ exchange later

/-- A computation whose exchanges have the answers of some holdings comes to what it comes to under these. -/
theorem run_eq_of_transcript {holdings : Holdings} {computation : Fetch α} {exchanges : List Exchange} {value : α}
    (transcript : Transcript computation exchanges value) (each : ∀ exchange ∈ exchanges, exchange.IsFrom holdings) :
    computation.run holdings = value := by
  -- Each request has the answer of the holdings, so the computation goes on in the same way.
  induction transcript with
  | done value => rfl
  | ask collection answer rest ih =>
    obtain ⟨here, later⟩ := List.forall_mem_cons.mp each
    have same : answer = (holdings collection).answer _ := here
    rw [run, ← same]
    exact ih later

/-- The requests of a computation are those of its recorded exchanges. -/
theorem requests_eq_recorded (holdings : Holdings) (computation : Fetch α) :
    computation.requests holdings =
      (computation.recorded.run holdings).2.map fun exchange => (exchange.collection, exchange.request) := by
  -- Every request is recorded when it is made.
  induction computation with
  | done value => rfl
  | ask collection request next ih => simp only [requests, recorded, run, run_bind, List.map_cons, ih]

end Fetch

end MessageCatalogue
