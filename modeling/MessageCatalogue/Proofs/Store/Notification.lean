import Mathlib
import MessageCatalogue.Proofs.Store.Assembly
import MessageCatalogue.Proofs.Store.CallTree

/-! Every reload that publishes tells each of its listeners once, also when listeners reload or destroy the store. -/

namespace MessageCatalogue

open Fetch

namespace Opening

variable {opening : Opening} {exchanges : List Exchange}

/-- A publication that comes to a notice has put another snapshot in the place of the one before. -/
theorem Begins.published (begins : opening.Begins exchanges) {notice : Notice}
    (noticed : opening.outcome = .ok (some notice)) :
    ∃ current next, opening.met.lifecycle = .initialized current ∧
      opening.published = { opening.met with lifecycle := .initialized next } ∧
      notice = opening.met.setup.noticeOf current opening.event := by
  -- A notice comes only of a publication that succeeds.
  have publication := Store.publication_of_transcript begins
  obtain ⟨met, event, outcome, published⟩ := opening
  dsimp only at noticed publication ⊢
  subst noticed
  cases publication with
  | @published current next _ serving affected loading => exact ⟨current, next, serving, rfl, rfl⟩

/-- A publication that comes to no notice leaves the store as it was. -/
theorem Begins.unpublished (begins : opening.Begins exchanges)
    (silent : ∀ notice, opening.outcome ≠ .ok (some notice)) : opening.published = opening.met := by
  have publication := Store.publication_of_transcript begins
  obtain ⟨met, event, outcome, published⟩ := opening
  dsimp only at silent publication ⊢
  cases publication with
  | published serving affected loading => exact absurd rfl (silent _)
  | _ => rfl

/-- The publication of a destroyed store is refused. -/
theorem Begins.refused (begins : opening.Begins exchanges) (destroyed : opening.met.lifecycle = .destroyed) :
    opening.outcome = .error opening.met.destroyedError := by
  -- All other publications meet a store that is not destroyed.
  have publication := Store.publication_of_transcript begins
  obtain ⟨met, event, outcome, published⟩ := opening
  dsimp only at destroyed publication ⊢
  cases publication with
  | destroyed lifecycle => rfl
  | uninitialized lifecycle => cases destroyed.symm.trans lifecycle
  | unaffected serving nothing => cases destroyed.symm.trans serving
  | failed serving affected loading => cases destroyed.symm.trans serving
  | published serving affected loading => cases destroyed.symm.trans serving

/-- Whoever listens to the store when it has published is told the notice. -/
theorem map_queue {notice : Notice} (noticed : opening.outcome = .ok (some notice)) :
    opening.queue.map (·.1) = opening.published.callsWith notice := by
  -- Positions play no part in what the listeners are told.
  calc opening.queue.map (·.1)
    _ = (opening.published.listeners.zipIdx.map Prod.fst).map fun listener => (⟨listener.tag, notice⟩ : Delivery) := by
      rw [queue, noticed, List.map_map, List.map_map]
      rfl
    _ = opening.published.callsWith notice := by rw [List.zipIdx_map_fst, Store.callsWith]

end Opening

namespace Plays

variable {queue : List (Delivery × Nat)} {scene after : Scene} {turns : Turns} {exchanges : List Exchange}

/-- The listeners that take their turns are those of the queue, whatever they do. -/
theorem told_eq (plays : Plays queue scene turns exchanges after) : turns.told = queue.map (·.1) := by
  induction plays with
  | done scene => rfl
  | record listens onward ih => exact congrArg _ ih
  | destroy listens onward ih => exact congrArg _ ih
  -- The turns within the reload that a listener makes are not turns of this queue.
  | reload listens met begins nested onward inner ih => exact congrArg _ ih

/-- The first listener meets the store that the queue began with. -/
theorem met_eq (plays : Plays queue scene turns exchanges after) : ∀ first ∈ turns.met.head?, first = scene.store := by
  intro first member
  cases plays with
  | done scene => cases member
  | record listens onward => exact (Option.mem_some.mp member).symm
  | destroy listens onward => exact (Option.mem_some.mp member).symm
  | reload listens met begins nested onward => exact (Option.mem_some.mp member).symm

/-- Every reload that a listener makes is a run like the one that called the listener. -/
theorem runs_of_mem (plays : Plays queue scene turns exchanges after) {call : ReloadCall}
    (member : call ∈ turns.reloads) : ∃ scene exchanges after, call.Runs scene exchanges after := by
  -- The induction is on the turns, those within the reloads of listeners included.
  induction plays with
  | done scene => simp [Turns.reloads] at member
  | record listens onward ih => exact ih member
  | destroy listens onward ih => exact ih member
  | @reload told position queue scene middle after opening inner rest opened within later listens met begins
      nested onward ihInner ihRest =>
    rcases List.mem_cons.mp member with rfl | member
    · exact ⟨scene.spend position, opened ++ within, middle, met, opened, within, rfl, begins, nested⟩
    · rcases List.mem_append.mp member with member | member
      · exact ihInner member
      · exact ihRest member

end Plays

namespace ReloadCall

variable {call : ReloadCall}

/-- A reload tells everyone who listens exactly once if it publishes, and nobody anything if it does not. -/
structure TellsOnce (call : ReloadCall) : Prop where
  published : ∀ notice, call.opening.outcome = .ok (some notice) →
    ∃ current next, call.opening.met.lifecycle = .initialized current ∧
      call.opening.published = { call.opening.met with lifecycle := .initialized next } ∧
      notice = call.opening.met.setup.noticeOf current call.opening.event ∧
      call.turns.told = call.opening.met.callsWith notice ∧
      (∀ first ∈ call.turns.met.head?, first = call.opening.published) ∧
      call.result = .ok ⟨[notice]⟩
  silent : (∀ notice, call.opening.outcome ≠ .ok (some notice)) →
    call.turns = .done ∧ call.opening.published = call.opening.met ∧
      (call.result = .ok .unaffected ∨ ∃ error, call.result = .error error)
  refused : call.opening.met.lifecycle = .destroyed →
    call.turns = .done ∧ call.result = .error call.opening.met.destroyedError

/-- Whatever its listeners do, a reload that is run tells each of them once. -/
theorem Runs.tellsOnce {scene after : Scene} {exchanges : List Exchange} (runs : call.Runs scene exchanges after) :
    call.TellsOnce := by
  obtain ⟨opening, turns⟩ := call
  obtain ⟨met, opened, within, rfl, begins, plays⟩ := runs
  dsimp only at met begins plays
  -- Without a notice nobody is queued up, so no turn is taken.
  have quiet : (∀ notice, opening.outcome ≠ .ok (some notice)) → turns = .done := by
    intro silent
    rw [Opening.queue_eq_nil silent] at plays
    cases plays
    rfl
  refine ⟨?_, ?_, ?_⟩
  · intro notice noticed
    obtain ⟨current, next, serving, renewed, own⟩ := begins.published noticed
    refine ⟨current, next, serving, renewed, own, ?_, plays.met_eq, ?_⟩
    · -- The published store has the listeners of the one that was met.
      rw [plays.told_eq, Opening.map_queue noticed, renewed]
      rfl
    · rw [result, noticed]
      rfl
  · intro silent
    refine ⟨quiet silent, begins.unpublished silent, ?_⟩
    cases outcome : opening.outcome with
    | error error => exact .inr ⟨error, by simp only [result, outcome, Except.map]⟩
    | ok notice =>
      cases notice with
      | none => exact .inl (by rw [result, outcome]; rfl)
      | some notice => exact absurd outcome (silent notice)
  · intro destroyed
    have refused := begins.refused destroyed
    refine ⟨quiet (by simp [refused]), ?_⟩
    rw [result, refused]
    rfl

/-- A reload tells each of its listeners once, and so does every reload that came of it. -/
theorem Runs.tellsOnce_of_mem {scene after : Scene} {exchanges : List Exchange}
    (runs : call.Runs scene exchanges after) :
    ∀ inner ∈ call.reloads, inner.TellsOnce := by
  -- A reload in the tree is the one at the top or one that a listener made.
  intro inner member
  rcases List.mem_cons.mp member with rfl | member
  · exact runs.tellsOnce
  · obtain ⟨_, _, _, _, _, plays⟩ := runs
    obtain ⟨_, _, _, own⟩ := plays.runs_of_mem member
    exact own.tellsOnce

end ReloadCall

namespace Store

/--
Every reload, also one that a listener makes while another one is calling its listeners, tells each listener once.

The calls come to an end, whatever is answered to the requests and whatever the listeners do.
-/
theorem publications_are_told_once (store : Store) (event : ChangeEvent) :
    (∀ responder : Responder, ∃ exchanges reloaded,
      Transcript (store.reload event) exchanges reloaded ∧ AnsweredBy responder [] exchanges) ∧
    ∀ exchanges reloaded, Transcript (store.reload event) exchanges reloaded →
      ∃ (call : ReloadCall) (after : Scene), call.opening.event = event ∧
        call.Runs ⟨store, store.listeners⟩ exchanges after ∧ after.store = reloaded.store ∧
        call.result = reloaded.result ∧ call.turns.deliveries = reloaded.deliveries ∧
        ∀ inner ∈ call.reloads, inner.TellsOnce := by
  -- The reload is unfolded into a tree of calls, of which every reload in it is a part.
  refine ⟨fun responder => exists_transcript responder _ [], ?_⟩
  intro exchanges reloaded transcript
  obtain ⟨call, after, named, runs, left, result, calls⟩ := exists_reloadCall transcript
  exact ⟨call, after, named, runs, left, result, calls, runs.tellsOnce_of_mem⟩

/-- A store of two languages with a listener that reloads it again and two others, of which one destroys it. -/
def overheard : Store :=
  let started := ((ofSetup .bilingual).init.run (Setup.bilingual.holding [("a", .english, "a=1")])).2
  { started with
    listeners := [⟨"again", .reloadOnce (.ofList ["fr"])⟩, ⟨"end", .destroy⟩, ⟨"last", .record⟩] }

/-- The listeners are told of the reload within the first one before the others are told of that, even if it is the
end. -/
theorem overheard_is_told_of_both :
    let reloaded := (overheard.reload (.ofList ["en"])).run (Setup.bilingual.holding [("a", .english, "a=2")])
    reloaded.deliveries.map (fun delivery => (delivery.tag, delivery.notice.resources)) =
        [("again", ["en"]), ("again", ["fr"]), ("end", ["fr"]), ("last", ["fr"]), ("end", ["en"]), ("last", ["en"])] ∧
      ∃ (call : ReloadCall) (after : Scene) (exchanges : List Exchange), call.opening.event = .ofList ["en"] ∧
        call.Runs ⟨overheard, overheard.listeners⟩ exchanges after ∧ after.store = reloaded.store ∧
        call.result = reloaded.result ∧ call.turns.deliveries = reloaded.deliveries ∧
        ∀ inner ∈ call.reloads, inner.TellsOnce := by
  intro reloaded
  -- The calls themselves are evaluated, and the tree of them is given by the theorem.
  have heard : (((overheard.reload (.ofList ["en"])).run
      (Setup.bilingual.holding [("a", .english, "a=2")])).deliveries.map
        fun delivery => (delivery.tag, delivery.notice.resources)) =
      [("again", ["en"]), ("again", ["fr"]), ("end", ["fr"]), ("last", ["fr"]), ("end", ["en"]), ("last", ["en"])] := by
    cbv
  obtain ⟨_, told⟩ := publications_are_told_once overheard (.ofList ["en"])
  obtain ⟨call, after, made⟩ := told _ reloaded (transcript_recorded _ _)
  exact ⟨heard, call, after, _, made⟩

end Store

end MessageCatalogue
