import MessageCatalogue.Proofs.Store.History
import MessageCatalogue.Proofs.Store.Notification

/-! A store is initialized once and destroyed for good, whatever is asked of it and answered to it. -/

namespace MessageCatalogue

open Fetch

/-- How far a store has come on its way from being made to being destroyed. -/
def Lifecycle.stage : Lifecycle → Nat
  | .uninitialized => 0
  | .initialized _ => 1
  | .destroyed => 2

/-- How far a store has come on its way. -/
def Store.stage (store : Store) : Nat := store.lifecycle.stage

/-- A store that has come furthest is destroyed. -/
theorem Store.two_le_stage_iff {store : Store} : 2 ≤ store.stage ↔ store.lifecycle = .destroyed := by
  cases lifecycle : store.lifecycle <;> simp [stage, lifecycle, Lifecycle.stage]

/-- A store is on its way between the beginning and the end when it is initialized. -/
theorem Store.stage_eq_one_iff {store : Store} : store.stage = 1 ↔ store.isInitialized = true := by
  cases lifecycle : store.lifecycle <;> simp [stage, isInitialized, snapshot?, lifecycle, Lifecycle.stage]

/-- No store comes further than a destroyed one. -/
theorem Store.stage_le_destroy (store : Store) : store.stage ≤ store.destroy.stage := by
  cases lifecycle : store.lifecycle <;> simp [stage, destroy, lifecycle, Lifecycle.stage]

/-- Stores at some moments between a first and a last one never go back on their way. -/
def Advances (first : Store) (moments : List Store) (last : Store) : Prop :=
  (first :: (moments ++ [last])).Pairwise (·.stage ≤ ·.stage)

namespace Advances

variable {first middle last : Store} {before after : List Store}

/-- A store stays where it is or goes on. -/
theorem nil (later : first.stage ≤ last.stage) : Advances first [] last := by
  simpa [Advances] using later

/-- The last moment is not before the first one. -/
theorem le (advances : Advances first before last) : first.stage ≤ last.stage :=
  (List.pairwise_cons.mp advances).1 last (List.mem_append_right _ (List.mem_singleton_self last))

/-- What is not after the next moment is not after anything that follows it. -/
theorem cons (step : first.stage ≤ middle.stage) (onward : Advances middle after last) :
    Advances first (middle :: after) last := by
  refine List.pairwise_cons.mpr ⟨?_, onward⟩
  intro moment member
  rcases List.mem_cons.mp member with rfl | member
  · exact step
  · exact Nat.le_trans step ((List.pairwise_cons.mp onward).1 moment member)

/-- The moments up to some store and those from it on follow each other. -/
theorem append (one : Advances first before middle) (other : Advances middle after last) :
    Advances first (before ++ after) last := by
  -- The store in the middle need not be a moment of its own.
  induction before generalizing first with
  | nil => exact (cons one.le other).sublist (((List.sublist_cons_self middle _)).cons_cons first)
  | cons next rest ih =>
    obtain ⟨earliest, onward⟩ := List.pairwise_cons.mp one
    exact cons (earliest next List.mem_cons_self) (ih onward)

end Advances

/-- The stores that listeners met and those that their reloads met and published, in order of time. -/
def Turns.moments : Turns → List Store
  | .done => []
  | .quiet met _ rest => met :: rest.moments
  | .reload met _ opening inner rest => met :: opening.met :: opening.published :: (inner.moments ++ rest.moments)

/-- The stores that a reload and those of its listeners met and published, in order of time. -/
def ReloadCall.moments (call : ReloadCall) : List Store :=
  call.opening.met :: call.opening.published :: call.turns.moments

/-- A publication does not bring a store back, and it does not destroy it. -/
theorem Opening.Begins.stage_eq {opening : Opening} {exchanges : List Exchange} (begins : opening.Begins exchanges) :
    opening.published.stage = opening.met.stage := by
  have publication := Store.publication_of_transcript begins
  generalize opening.outcome = outcome, opening.published = published at publication
  cases publication with
  | published serving affected loading => simp only [Store.stage, serving, Lifecycle.stage]
  | _ => rfl

/-- Using up a reload makes no destroyer of anyone. -/
theorem Scene.destroyers_spend {scene : Scene} {position : Nat} {listener : Listener}
    (member : listener ∈ (scene.spend position).audience) (destroys : listener.reaction = .destroy) :
    listener ∈ scene.audience := by
  obtain ⟨index, found⟩ := List.getElem?_of_mem member
  rw [Scene.spend, List.getElem?_modify] at found
  split at found
  · obtain ⟨own, _, rfl⟩ := Option.map_eq_some_iff.mp found
    cases destroys
  · exact List.mem_of_getElem? (by simpa using found)

namespace Plays

variable {queue : List (Delivery × Nat)} {scene after : Scene} {turns : Turns} {exchanges : List Exchange}

/-- While listeners take their turns, their store does not go back on its way. -/
theorem advances (plays : Plays queue scene turns exchanges after) :
    Advances scene.store turns.moments after.store := by
  induction plays with
  | done scene => exact .nil (Nat.le_refl _)
  | record listens onward ih => exact .cons (Nat.le_refl _) ih
  | @destroy told position queue scene after rest exchanges listens onward ih =>
    -- The destruction is between this moment and the next one.
    exact .cons (Nat.le_refl _) (Advances.append (.nil scene.store.stage_le_destroy) ih)
  | @reload told position queue scene middle after opening inner rest opened within later listens met begins
      nested onward ihInner ihRest =>
    have same : scene.store.stage ≤ opening.met.stage := by rw [met]; exact Nat.le_refl _
    have published : opening.met.stage ≤ opening.published.stage := Nat.le_of_eq begins.stage_eq.symm
    exact .cons (Nat.le_refl _) (.cons same (.cons published (ihInner.append ihRest)))

/-- Whoever would destroy the store in the end would have done so at the beginning. -/
theorem destroyers (plays : Plays queue scene turns exchanges after) :
    ∀ listener ∈ after.audience, listener.reaction = .destroy → listener ∈ scene.audience := by
  induction plays with
  | done scene => exact fun listener member _ => member
  | record listens onward ih => exact ih
  | destroy listens onward ih => exact ih
  | reload listens met begins nested onward ihInner ihRest =>
    intro listener member destroys
    exact Scene.destroyers_spend (ihInner listener (ihRest listener member destroys) destroys) destroys

/-- A store that is destroyed on the way is destroyed by a listener that was called. -/
theorem exists_destroyer (plays : Plays queue scene turns exchanges after)
    (alive : scene.store.lifecycle ≠ .destroyed) (destroyed : after.store.lifecycle = .destroyed) :
    ∃ listener ∈ scene.audience, listener.reaction = .destroy ∧ ∃ told ∈ turns.deliveries, told.tag = listener.tag := by
  induction plays with
  | done scene => exact absurd destroyed alive
  | record listens onward ih =>
    obtain ⟨listener, member, destroys, told, called, tag⟩ := ih alive destroyed
    exact ⟨listener, member, destroys, told, List.mem_cons_of_mem _ called, tag⟩
  | @destroy told position queue scene after rest exchanges listens onward ih =>
    exact ⟨_, List.mem_of_getElem? listens, rfl, told, List.mem_cons_self, rfl⟩
  | @reload told position queue scene middle after opening inner rest opened within later listens met begins
      nested onward ihInner ihRest =>
    -- Either a listener of the reload that is made here destroys the store or one that is called later.
    by_cases early : middle.store.lifecycle = .destroyed
    · have published : opening.published.lifecycle ≠ .destroyed := by
        rw [ne_eq, ← Store.two_le_stage_iff, begins.stage_eq, met, Store.two_le_stage_iff]
        exact alive
      obtain ⟨listener, member, destroys, told, called, tag⟩ := ihInner published early
      exact ⟨listener, Scene.destroyers_spend member destroys, destroys, told,
        List.mem_cons_of_mem _ (List.mem_append_left _ called), tag⟩
    · obtain ⟨listener, member, destroys, told, called, tag⟩ := ihRest early destroyed
      exact ⟨listener, Scene.destroyers_spend (nested.destroyers listener member destroys) destroys, destroys, told,
        List.mem_cons_of_mem _ (List.mem_append_right _ called), tag⟩

end Plays

/-- While a reload is made, its store does not go back on its way. -/
theorem ReloadCall.Runs.advances {call : ReloadCall} {scene after : Scene} {exchanges : List Exchange}
    (runs : call.Runs scene exchanges after) : Advances scene.store call.moments after.store := by
  obtain ⟨met, opened, within, rfl, begins, plays⟩ := runs
  refine .cons ?_ (.cons ?_ plays.advances)
  · rw [met]
  · exact Nat.le_of_eq begins.stage_eq.symm

/-- A store that is destroyed by a reload is destroyed by a listener that was called. -/
theorem ReloadCall.Runs.exists_destroyer {call : ReloadCall} {scene after : Scene} {exchanges : List Exchange}
    (runs : call.Runs scene exchanges after) (alive : scene.store.lifecycle ≠ .destroyed)
    (destroyed : after.store.lifecycle = .destroyed) :
    ∃ listener ∈ scene.audience, listener.reaction = .destroy ∧
      ∃ told ∈ call.turns.deliveries, told.tag = listener.tag := by
  obtain ⟨met, opened, within, rfl, begins, plays⟩ := runs
  refine plays.exists_destroyer ?_ destroyed
  rwa [ne_eq, ← Store.two_le_stage_iff, begins.stage_eq, met, Store.two_le_stage_iff]

namespace Store

/-- What a store does in one call, with the calls of listeners that it leads to, whatever its requests are answered. -/
inductive Passes (store : Store) : Call → List Delivery → Store → Prop where
  | init {exchanges : List Exchange} {result : Except MessageError Unit} {after : Store}
      (transcript : Transcript store.init exchanges (result, after)) : Passes store .init [] after
  | reload {event : ChangeEvent} {exchanges : List Exchange} {reloaded : Reloaded}
      (transcript : Transcript (store.reload event) exchanges reloaded) :
      Passes store (.reload event) reloaded.deliveries reloaded.store
  | subscribe (listener : Listener) : Passes store (.subscribe listener) [] (store.subscribe listener)
  | destroy : Passes store .destroy [] store.destroy

/-- Some calls of a store in a row, each with the calls of listeners that it leads to. -/
inductive Lives : Store → List (Call × List Delivery) → Store → Prop where
  | done (store : Store) : Lives store [] store
  | call {store middle after : Store} {call : Call} {deliveries : List Delivery} {rest : List (Call × List Delivery)}
      (passes : store.Passes call deliveries middle) (onward : Lives middle rest after) :
      Lives store ((call, deliveries) :: rest) after

/-- What brings a store from one stage of its life to the next, if anything does. -/
inductive Moves (store after : Store) : Call → List Delivery → Prop where
  | stays {call : Call} {deliveries : List Delivery} (same : after.stage = store.stage) :
      Moves store after call deliveries
  | initialized {deliveries : List Delivery} (before : store.lifecycle = .uninitialized)
      (serves : after.isInitialized = true) : Moves store after .init deliveries
  | destroyed {deliveries : List Delivery} (gone : after.lifecycle = .destroyed) : Moves store after .destroy deliveries
  | destroyedBy {event : ChangeEvent} {deliveries : List Delivery} {listener : Listener} {told : Delivery}
      (before : store.isInitialized = true) (gone : after.lifecycle = .destroyed)
      (subscribed : listener ∈ store.listeners) (reaction : listener.reaction = .destroy)
      (called : told ∈ deliveries) (tag : told.tag = listener.tag) :
      Moves store after (.reload event) deliveries

/-- A store with nothing to serve answers as if it had no messages and just its default locale. -/
structure IsSilent (store : Store) : Prop where
  lookup : ∀ code locale arguments, store.lookup code locale arguments = none
  owns : ∀ identifier, store.owns identifier = false
  counts : store.messageCounts = []
  locales : store.supportedLocales = [store.setup.defaultLocale]

/-- A store that was never initialized is silent, ignores changes and is initialized as soon as that succeeds. -/
structure Waits (store : Store) : Prop where
  silent : store.IsSilent
  init : ∀ exchanges result after, Transcript store.init exchanges (result, after) →
    (∃ error, result = .error error) ∧ after = store ∨
      result = .ok () ∧ ∃ snapshot, after = { store with lifecycle := .initialized snapshot }
  reload : ∀ event, store.reload event = .done ⟨.ok .unaffected, store, []⟩

/-- A store that serves something is not initialized again, and no reload takes it back or brings it back. -/
structure Serves (store : Store) : Prop where
  init : store.init = .done (.ok (), store)
  reload : ∀ event exchanges reloaded, Transcript (store.reload event) exchanges reloaded →
    ∃ (call : ReloadCall) (after : Scene), call.opening.event = event ∧
      call.Runs ⟨store, store.listeners⟩ exchanges after ∧ after.store = reloaded.store ∧
      call.result = reloaded.result ∧ call.turns.deliveries = reloaded.deliveries ∧
      Advances store call.moments reloaded.store ∧
      (∀ inner ∈ call.reloads, inner.opening.met.lifecycle = .destroyed →
        inner.turns = .done ∧ inner.result = .error inner.opening.met.destroyedError) ∧
      (reloaded.store.isInitialized = true ∨ reloaded.store.lifecycle = .destroyed ∧
        ∃ listener ∈ store.listeners, listener.reaction = .destroy ∧
          ∃ told ∈ reloaded.deliveries, told.tag = listener.tag)

/-- A destroyed store is silent, refuses to be initialized or reloaded and calls nobody. -/
structure IsGone (store : Store) : Prop where
  silent : store.IsSilent
  init : store.init = .done (.error store.destroyedError, store)
  reload : ∀ event, store.reload event = .done ⟨.error store.destroyedError, store, []⟩

/-- A store does what a store at its stage does. -/
def KeepsToLifecycle (store : Store) : Prop :=
  -- Each stage is described by what all calls do at it.
  match store.lifecycle with
  | .uninitialized => store.Waits
  | .initialized _ => store.Serves
  | .destroyed => store.IsGone

variable {store after : Store}

/-- A store without a snapshot is silent. -/
theorem isSilent_of_isInitialized_eq_false (nothing : store.isInitialized = false) : store.IsSilent := by
  have nothing : store.snapshot? = none := by simpa [isInitialized] using nothing
  exact {
    lookup := fun code locale arguments => by rw [lookup, nothing]; rfl
    owns := fun identifier => by rw [owns, nothing]
    counts := by rw [messageCounts, nothing]
    locales := by rw [supportedLocales, nothing] }

/-- A reload for which nothing is asked or published is done at once. -/
theorem reload_of_publish_done {event : ChangeEvent} {result : Except MessageError (Option Notice)}
    (publishes : store.publish event = .done (result, store)) (silent : ∀ notice, result ≠ .ok (some notice)) :
    store.reload event = .done ⟨result.map fun notice => ⟨notice.toList⟩, store, []⟩ := by
  rw [reload_eq, reloadBy, publishes, done_bind]
  rcases result with error | notice
  · rfl
  · cases notice with
    | none => rfl
    | some notice => exact absurd rfl (silent notice)

/-- A store that was never initialized waits for that. -/
theorem waits_of_uninitialized (uninitialized : store.lifecycle = .uninitialized) : store.Waits where
  silent := isSilent_of_isInitialized_eq_false (by simp [isInitialized, snapshot?, uninitialized])
  init := fun exchanges result after transcript => by
    -- Only an initialization that loads everything changes the store.
    cases initialization_of_transcript transcript with
    | again serving => cases uninitialized.symm.trans serving
    | destroyed lifecycle => cases uninitialized.symm.trans lifecycle
    | failed lifecycle loading => exact .inl ⟨⟨_, rfl⟩, rfl⟩
    | loaded lifecycle loading => exact .inr ⟨rfl, _, rfl⟩
  reload := fun event => by
    have publishes : store.publish event = .done (.ok none, store) := by rw [publish, uninitialized]; rfl
    exact reload_of_publish_done publishes (by simp)

/-- A store that serves a snapshot serves one until it is destroyed. -/
theorem serves_of_initialized {snapshot : Snapshot} (serving : store.lifecycle = .initialized snapshot) :
    store.Serves where
  init := by rw [init, serving]; rfl
  reload := fun event exchanges reloaded transcript => by
    obtain ⟨call, after, named, runs, left, result, calls⟩ := exists_reloadCall transcript
    have advances : Advances store call.moments reloaded.store := left ▸ runs.advances
    refine ⟨call, after, named, runs, left, result, calls, advances,
      fun inner member => (runs.tellsOnce_of_mem inner member).refused, ?_⟩
    -- The store does not go back to where it was not initialized.
    cases lifecycle : reloaded.store.lifecycle with
    | uninitialized =>
      have back := advances.le
      rw [stage, stage, serving, lifecycle] at back
      cases back
    | initialized next => exact .inl (by simp [isInitialized, snapshot?, lifecycle])
    | destroyed =>
      have alive : store.lifecycle ≠ .destroyed := by simp [serving]
      exact .inr ⟨rfl, calls ▸ runs.exists_destroyer alive (left ▸ lifecycle)⟩

/-- A store that was destroyed is gone. -/
theorem isGone_of_destroyed (destroyed : store.lifecycle = .destroyed) : store.IsGone where
  silent := isSilent_of_isInitialized_eq_false (by simp [isInitialized, snapshot?, destroyed])
  init := by rw [init, destroyed]; rfl
  reload := fun event => by
    have publishes : store.publish event = .done (.error store.destroyedError, store) := by
      rw [publish, destroyed]
      rfl
    exact reload_of_publish_done publishes (by simp)

/-- Every store does what a store at its stage does. -/
theorem keepsToLifecycle (store : Store) : store.KeepsToLifecycle := by
  unfold KeepsToLifecycle
  split
  · exact waits_of_uninitialized ‹_›
  · exact serves_of_initialized ‹_›
  · exact isGone_of_destroyed ‹_›

/-- No step of a reload gives a store another setup. -/
theorem Step.setup_eq {met : Exchange → Prop} (step : Step met store after) : after.setup = store.setup := by
  cases step with
  | publish publication each => cases publication <;> rfl
  | spend position => rfl
  | destroy subscribed reaction => rfl

/-- No reload gives a store another setup. -/
theorem Course.setup_eq {met : Exchange → Prop} (course : Course met store after) : after.setup = store.setup := by
  induction course with
  | refl => rfl
  | tail _ step ih => exact step.setup_eq.trans ih

namespace Passes

variable {call : Call} {deliveries : List Delivery}

/-- No call gives a store another setup. -/
theorem setup_eq (passes : store.Passes call deliveries after) : after.setup = store.setup := by
  cases passes with
  | init transcript => cases initialization_of_transcript transcript <;> rfl
  | reload transcript =>
    have course : Course (fun _ => True) store _ := course_of_reload transcript fun _ _ => trivial
    exact course.setup_eq
  | subscribe listener => rfl
  | destroy => rfl

/-- A store is only initialized by an initialization and only destroyed by a destruction, also by that of a listener. -/
theorem moves (passes : store.Passes call deliveries after) : store.Moves after call deliveries := by
  cases passes with
  -- What a call does is known from the stage at which it is made.
  | init transcript =>
    cases initialization_of_transcript transcript with
    | loaded lifecycle loading => exact .initialized lifecycle rfl
    | _ => exact .stays rfl
  | reload transcript =>
    cases lifecycle : store.lifecycle with
    | uninitialized =>
      rw [(waits_of_uninitialized lifecycle).reload] at transcript
      obtain ⟨_, rfl⟩ := transcript_done.mp transcript
      exact .stays rfl
    | initialized current =>
      have serving : store.isInitialized = true := by simp [isInitialized, snapshot?, lifecycle]
      obtain ⟨_, _, _, _, _, _, _, _, _, ended⟩ := (serves_of_initialized lifecycle).reload _ _ _ transcript
      rcases ended with still | ⟨gone, listener, subscribed, reaction, told, called, tag⟩
      · exact .stays ((stage_eq_one_iff.mpr still).trans (stage_eq_one_iff.mpr serving).symm)
      · exact .destroyedBy serving gone subscribed reaction called tag
    | destroyed =>
      rw [(isGone_of_destroyed lifecycle).reload] at transcript
      obtain ⟨_, rfl⟩ := transcript_done.mp transcript
      exact .stays rfl
  | subscribe listener => exact .stays rfl
  | destroy => exact .destroyed rfl

/-- No call takes a store back. -/
theorem stage_le (passes : store.Passes call deliveries after) : store.stage ≤ after.stage := by
  -- A move goes to the stage at which the store is already or to a later one.
  cases passes.moves with
  | stays same => exact Nat.le_of_eq same.symm
  | initialized before serves =>
    rw [stage, before]
    exact Nat.zero_le _
  | destroyed gone =>
    exact Nat.le_trans store.stage_le_destroy (two_le_stage_iff.mpr gone)
  | destroyedBy before gone subscribed reaction called tag =>
    exact Nat.le_trans store.stage_le_destroy (two_le_stage_iff.mpr gone)

/-- A destroyed store calls nobody. -/
theorem deliveries_eq_nil (passes : store.Passes call deliveries after) (destroyed : store.lifecycle = .destroyed) :
    deliveries = [] := by
  cases passes with
  | reload transcript =>
    rw [(isGone_of_destroyed destroyed).reload] at transcript
    obtain ⟨_, rfl⟩ := transcript_done.mp transcript
    rfl
  | _ => rfl

end Passes

namespace Lives

variable {log : List (Call × List Delivery)}

/-- No calls in a row give a store another setup. -/
theorem setup_eq (lives : Lives store log after) : after.setup = store.setup := by
  induction lives with
  | done store => rfl
  | call passes onward ih => exact ih.trans passes.setup_eq

/-- No calls in a row take a store back. -/
theorem stage_le (lives : Lives store log after) : store.stage ≤ after.stage := by
  induction lives with
  | done store => exact Nat.le_refl _
  | call passes onward ih => exact Nat.le_trans passes.stage_le ih

/-- A store that is destroyed stays so and never calls anybody again. -/
theorem silent_of_destroyed (lives : Lives store log after) (destroyed : store.lifecycle = .destroyed) :
    after.lifecycle = .destroyed ∧ ∀ entry ∈ log, entry.2 = [] := by
  -- Each call finds the store destroyed and leaves it so.
  induction lives with
  | done store => exact ⟨destroyed, fun _ none => nomatch none⟩
  | call passes onward ih =>
    have gone := two_le_stage_iff.mp (Nat.le_trans (two_le_stage_iff.mpr destroyed) passes.stage_le)
    obtain ⟨last, others⟩ := ih gone
    exact ⟨last, List.forall_mem_cons.mpr ⟨passes.deliveries_eq_nil destroyed, others⟩⟩

end Lives

/--
Whatever is asked of a store in a row and whatever its requests are answered, it is initialized once and then destroyed
for good.

Before and after that it is silent, and once it is destroyed it calls nobody but those that it was calling already.
-/
theorem lifecycle_only_advances {setup : Setup} {past : List (Call × List Delivery)} {store : Store}
    (lived : Lives (ofSetup setup) past store) :
    store.setup = setup ∧ store.KeepsToLifecycle ∧
      (∀ call deliveries next, store.Passes call deliveries next → store.Moves next call deliveries) ∧
      ∀ future after, Lives store future after →
        store.stage ≤ after.stage ∧
          (store.lifecycle = .destroyed → after.lifecycle = .destroyed ∧ ∀ entry ∈ future, entry.2 = []) := by
  -- The stage of the store decides what it does, and the run is taken apart into its calls.
  refine ⟨lived.setup_eq, keepsToLifecycle store, fun call deliveries next => Passes.moves, ?_⟩
  intro future after lives
  exact ⟨lives.stage_le, lives.silent_of_destroyed⟩

/-- A store of two languages with a listener that destroys it before another one is told of a reload. -/
def departing : Store :=
  let started := ((ofSetup .bilingual).init.run (Setup.bilingual.holding [("a", .english, "a=1")])).2
  (started.subscribe ⟨"end", .destroy⟩).subscribe ⟨"last", .record⟩

/-- The listener that destroys its store is not the last one to be called, but nobody is called in any later reload. -/
theorem departing_calls_everyone_once_more :
    let texts := Setup.bilingual.holding [("a", .english, "a=1")]
    let reloaded := (departing.reload (.ofList ["en"])).run texts
    departing.messageCounts = [(.english, 1), (Setup.french, 1)] ∧
      reloaded.deliveries.map (·.tag) = ["end", "last"] ∧ reloaded.store.KeepsToLifecycle ∧
      ∀ future after, Lives reloaded.store future after →
        after.lifecycle = .destroyed ∧ ∀ entry ∈ future, entry.2 = [] := by
  intro texts reloaded
  have counts : departing.messageCounts = [(.english, 1), (Setup.french, 1)] := by cbv
  have called : ((departing.reload (.ofList ["en"])).run
      (Setup.bilingual.holding [("a", .english, "a=1")])).deliveries.map (·.tag) = ["end", "last"] := by cbv
  have stage : ((departing.reload (.ofList ["en"])).run
      (Setup.bilingual.holding [("a", .english, "a=1")])).store.stage = 2 := by cbv
  -- The store is initialized, gets its two listeners and is reloaded.
  have lived : Lives (ofSetup .bilingual) [(.init, []), (.subscribe ⟨"end", .destroy⟩, []),
      (.subscribe ⟨"last", .record⟩, []), (.reload (.ofList ["en"]), reloaded.deliveries)] reloaded.store :=
    .call (.init (transcript_recorded texts _)) <| .call (.subscribe _) <| .call (.subscribe _) <|
      .call (.reload (transcript_recorded texts _)) <| .done _
  obtain ⟨_, keeps, _, onward⟩ := lifecycle_only_advances lived
  have gone : reloaded.store.lifecycle = .destroyed := two_le_stage_iff.mp (Nat.le_of_eq stage.symm)
  exact ⟨counts, called, keeps, fun future after lives => (onward future after lives).2 gone⟩

end Store

end MessageCatalogue
