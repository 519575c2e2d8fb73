import MessageCatalogue.Proofs.Store.Nesting

/-! A reload and the reloads of its listeners form a tree of calls, whatever the listeners do when they are called. -/

namespace MessageCatalogue

open Fetch

/-- A store with everyone who ever listened to it, each with what it still does when it is called. -/
structure Scene where
  -- A destroyed store lets its listeners go, but a loop over them that is going on still calls them.
  store : Store
  audience : List Listener

/-- The scene in which the listener at a position has used up its reload. -/
def Scene.spend (scene : Scene) (position : Nat) : Scene where
  store := scene.store.spend position
  audience := scene.audience.modify position fun listener => { listener with reaction := .record }

/-- The beginning of a reload, up to the store after its publication. -/
structure Opening where
  met : Store
  event : ChangeEvent
  outcome : Except MessageError (Option Notice)
  published : Store

namespace Opening

/-- The listeners that a publication has to tell its notice, with their positions. -/
def queue (opening : Opening) : List (Delivery × Nat) :=
  -- Nobody is told of a reload that fails or that concerns nothing.
  match opening.outcome with
  | .ok (some notice) =>
    opening.published.listeners.zipIdx.map fun (listener, position) => (⟨listener.tag, notice⟩, position)
  | _ => []

/-- Nobody is told anything when there is no notice. -/
theorem queue_eq_nil {opening : Opening} (silent : ∀ notice, opening.outcome ≠ .ok (some notice)) :
    opening.queue = [] := by
  unfold queue
  split
  · exact absurd ‹_› (silent _)
  · rfl

/-- A reload of a store begins in some way when its publication comes to that after some exchanges. -/
def Begins (opening : Opening) (exchanges : List Exchange) : Prop :=
  Transcript (opening.met.publish opening.event) exchanges (opening.outcome, opening.published)

end Opening

/-- The calls of listeners that one reload makes in turn, each with the store it met and the reload it made. -/
inductive Turns where
  | done
  | quiet (met : Store) (told : Delivery) (rest : Turns)
  | reload (met : Store) (told : Delivery) (opening : Opening) (inner rest : Turns)

/-- A reload with the turns of the listeners that it called itself. -/
structure ReloadCall where
  opening : Opening
  turns : Turns

namespace Turns

/-- The stores that the listeners in turn met. -/
def met : Turns → List Store
  | .done => []
  | .quiet met _ rest => met :: rest.met
  | .reload met _ _ _ rest => met :: rest.met

/-- What the listeners in turn were told, leaving out those that were called by reloads of others. -/
def told : Turns → List Delivery
  | .done => []
  | .quiet _ told rest => told :: rest.told
  | .reload _ told _ _ rest => told :: rest.told

/-- All calls of listeners, where those that a reload makes follow the call of the listener that made it. -/
def deliveries : Turns → List Delivery
  | .done => []
  | .quiet _ told rest => told :: rest.deliveries
  | .reload _ told _ inner rest => told :: (inner.deliveries ++ rest.deliveries)

/-- The reloads that listeners made, each before those of its own listeners. -/
def reloads : Turns → List ReloadCall
  | .done => []
  | .quiet _ _ rest => rest.reloads
  | .reload _ _ opening inner rest => ⟨opening, inner⟩ :: (inner.reloads ++ rest.reloads)

end Turns

/-- Listeners are called one after the other, each meets what those before it left, and does what it does by then. -/
inductive Plays : List (Delivery × Nat) → Scene → Turns → List Exchange → Scene → Prop where
  | done (scene : Scene) : Plays [] scene .done [] scene
  | record {told : Delivery} {position : Nat} {queue : List (Delivery × Nat)} {scene after : Scene} {rest : Turns}
      {exchanges : List Exchange} (listens : scene.audience[position]? = some ⟨told.tag, .record⟩)
      (onward : Plays queue scene rest exchanges after) :
      Plays ((told, position) :: queue) scene (.quiet scene.store told rest) exchanges after
  | destroy {told : Delivery} {position : Nat} {queue : List (Delivery × Nat)} {scene after : Scene} {rest : Turns}
      {exchanges : List Exchange} (listens : scene.audience[position]? = some ⟨told.tag, .destroy⟩)
      (onward : Plays queue { scene with store := scene.store.destroy } rest exchanges after) :
      Plays ((told, position) :: queue) scene (.quiet scene.store told rest) exchanges after
  | reload {told : Delivery} {position : Nat} {queue : List (Delivery × Nat)} {scene middle after : Scene}
      {opening : Opening} {inner rest : Turns} {opened within later : List Exchange}
      (listens : scene.audience[position]? = some ⟨told.tag, .reloadOnce opening.event⟩)
      (met : opening.met = (scene.spend position).store) (begins : opening.Begins opened)
      (nested : Plays opening.queue ⟨opening.published, (scene.spend position).audience⟩ inner within middle)
      (onward : Plays queue middle rest later after) :
      Plays ((told, position) :: queue) scene (.reload scene.store told opening inner rest)
        (opened ++ (within ++ later)) after

namespace ReloadCall

/-- What a reload returns, which is decided by its publication. -/
def result (call : ReloadCall) : Except MessageError ReloadOutcome :=
  call.opening.outcome.map fun notice => ⟨notice.toList⟩

/-- A reload and all the reloads that came of it. -/
def reloads (call : ReloadCall) : List ReloadCall := call :: call.turns.reloads

/-- A reload in a scene is made in some way when it begins so and its listeners then take their turns. -/
def Runs (call : ReloadCall) (scene : Scene) (exchanges : List Exchange) (after : Scene) : Prop :=
  call.opening.met = scene.store ∧ ∃ opened within, exchanges = opened ++ within ∧ call.opening.Begins opened ∧
    Plays call.opening.queue ⟨call.opening.published, scene.audience⟩ call.turns within after

end ReloadCall

namespace Scene

variable {scene after : Scene}

/-- A store still has everyone who listened to it, or else it was destroyed and has nobody. -/
def IsCoherent (scene : Scene) : Prop :=
  scene.store.listeners = scene.audience ∨ scene.store.lifecycle = .destroyed ∧ scene.store.listeners = []

/-- A store whose listener uses up its reload has everyone it had. -/
theorem IsCoherent.spend (coherent : scene.IsCoherent) (position : Nat) : (scene.spend position).IsCoherent := by
  rcases coherent with same | ⟨destroyed, nobody⟩
  · exact .inl (by simp only [Scene.spend, Store.spend, same])
  · exact .inr ⟨destroyed, by simp only [Scene.spend, Store.spend, nobody, List.modify_nil]⟩

/-- Whoever uses up a reload, the same listeners make up the audience. -/
theorem tags_spend (scene : Scene) (position : Nat) :
    (scene.spend position).audience.map (·.tag) = scene.audience.map (·.tag) := by
  -- Only what a listener does has changed at the position.
  refine List.ext_getElem? fun index => ?_
  rw [List.getElem?_map, List.getElem?_map, Scene.spend, List.getElem?_modify]
  cases scene.audience[index]? <;> split <;> rfl

/-- A publication leaves a store everyone it had. -/
theorem IsCoherent.publish {opening : Opening} {exchanges : List Exchange} (coherent : scene.IsCoherent)
    (met : opening.met = scene.store) (begins : opening.Begins exchanges) :
    IsCoherent ⟨opening.published, scene.audience⟩ := by
  -- A publication changes what is served, but not who listens.
  have publication := Store.publication_of_transcript begins
  rcases coherent with same | ⟨destroyed, nobody⟩
  · exact .inl (publication.listeners_eq.trans (met ▸ same))
  · -- Nothing is published for a store that was destroyed.
    refine .inr ⟨?_, publication.listeners_eq.trans (met ▸ nobody)⟩
    rw [← met] at destroyed
    generalize opening.outcome = outcome, opening.published = published at publication
    cases publication with
    | published serving affected loading => cases destroyed.symm.trans serving
    | _ => exact destroyed

/-- The listeners of a loop are those of an audience at their positions. -/
def Calls (audience : List Listener) (listeners : List (Listener × Nat)) : Prop :=
  ∀ listener position, (listener, position) ∈ listeners →
    (audience.map (·.tag))[position]? = some listener.tag

/-- A loop over the listeners of a store calls those of the audience. -/
theorem IsCoherent.calls (coherent : scene.IsCoherent) : Calls scene.audience scene.store.listeners.zipIdx := by
  intro listener position member
  have found := List.mem_zipIdx_iff_getElem?.mp member
  rcases coherent with same | ⟨_, nobody⟩
  · rw [← same, List.getElem?_map, found]
    rfl
  · -- A store that has nobody calls nobody.
    rw [nobody, List.getElem?_nil] at found
    cases found

end Scene

namespace Store

/-- A destroyed store refuses to publish anything. -/
theorem transcript_publish_of_destroyed {store : Store} (destroyed : store.lifecycle = .destroyed)
    (event : ChangeEvent) : Transcript (store.publish event) [] (.error store.destroyedError, store) := by
  rw [publish, destroyed]
  exact .done _

/-- The reload of a listener leads along a course, as any reload does. -/
theorem leadsAlong_reloadAgain {met : Exchange → Prop} : LeadsAlong met reloadAgain := by
  intro store event exchanges after deliveries transcript each
  obtain ⟨earlier, later, reloaded, rfl, before, last⟩ := transcript_bind.mp transcript
  obtain ⟨rfl, rfl, _⟩ := transcript_done_mk.mp last
  rw [List.append_nil] at each
  exact course_of_reload before each

/-- A reload of a store with few enough pending reloads is made as a tree of calls. -/
def Unfolds (bound : Nat) : Prop :=
  ∀ (scene : Scene) event exchanges reloaded, scene.IsCoherent → scene.store.pendingReloads < bound →
    -- The bound is on the reloads that are still pending, which each call uses up.
    Transcript (scene.store.reload event) exchanges reloaded →
    ∃ (call : ReloadCall) (after : Scene), call.opening.event = event ∧ call.Runs scene exchanges after ∧
      after.store = reloaded.store ∧ after.IsCoherent ∧
      after.audience.map (·.tag) = scene.audience.map (·.tag) ∧
      call.result = reloaded.result ∧ call.turns.deliveries = reloaded.deliveries

/-- A store that was destroyed and has nobody is not changed by being destroyed again. -/
theorem destroy_eq_self {store : Store} (destroyed : store.lifecycle = .destroyed) (nobody : store.listeners = []) :
    store.destroy = store := by
  obtain ⟨setup, lifecycle, listeners⟩ := store
  simp only at destroyed nobody
  rw [destroyed, nobody, destroy]

/-- The call of a listener is a turn, after which the other listeners may take theirs. -/
theorem exists_turn {bound : Nat} (unfolds : Unfolds bound) {scene : Scene} (coherent : scene.IsCoherent)
    (pending : scene.store.pendingReloads ≤ bound) {told : Delivery} {position : Nat} {reaction : Reaction}
    (listens : scene.audience[position]? = some ⟨told.tag, reaction⟩) {exchanges : List Exchange} {reacted : Store}
    {deliveries : List Delivery}
    (transcript : Transcript (scene.store.react reloadAgain position) exchanges (reacted, deliveries)) :
    ∃ middle : Scene, middle.store = reacted ∧ middle.IsCoherent ∧
      middle.audience.map (·.tag) = scene.audience.map (·.tag) ∧
      ∀ queue rest later after, Plays queue middle rest later after →
        ∃ turns, Plays ((told, position) :: queue) scene turns (exchanges ++ later) after ∧
          turns.deliveries = told :: (deliveries ++ rest.deliveries) := by
  unfold react at transcript
  rcases id coherent with same | ⟨destroyed, nobody⟩
  · -- The store has the listener, so it does what the listener wants.
    rw [same, listens] at transcript
    cases reaction with
    | record =>
      obtain ⟨rfl, rfl, rfl⟩ := transcript_done_mk.mp transcript
      exact ⟨scene, rfl, coherent, rfl, fun queue rest later after onward => ⟨_, .record listens onward, rfl⟩⟩
    | destroy =>
      obtain ⟨rfl, rfl, rfl⟩ := transcript_done_mk.mp transcript
      exact ⟨{ scene with store := scene.store.destroy }, rfl, .inr ⟨rfl, rfl⟩, rfl,
        fun queue rest later after onward => ⟨_, .destroy listens onward, rfl⟩⟩
    | reloadOnce event =>
      obtain ⟨earlier, ended, reloaded, rfl, before, last⟩ := transcript_bind.mp transcript
      obtain ⟨rfl, rfl, rfl⟩ := transcript_done_mk.mp last
      rw [List.append_nil]
      have spent := pendingReloads_spend (same ▸ listens)
      obtain ⟨call, middle, named, runs, store, kept, tags, _, calls⟩ :=
        unfolds (scene.spend position) event earlier reloaded (coherent.spend position)
          (Nat.lt_of_lt_of_le (Nat.lt_of_succ_le (Nat.le_of_eq spent)) pending) before
      obtain ⟨met, opened, within, rfl, begins, nested⟩ := runs
      refine ⟨middle, store, kept, tags.trans (scene.tags_spend position), ?_⟩
      intro queue rest later after onward
      rw [List.append_assoc, ← calls]
      exact ⟨_, .reload (named ▸ listens) met begins nested onward, rfl⟩
  · -- A store that was destroyed has no listeners, and what one of them wants has no effect on it.
    rw [nobody, List.getElem?_nil] at transcript
    obtain ⟨rfl, rfl, rfl⟩ := transcript_done_mk.mp transcript
    cases reaction with
    | record =>
      exact ⟨scene, rfl, coherent, rfl, fun queue rest later after onward => ⟨_, .record listens onward, rfl⟩⟩
    | destroy =>
      have again := destroy_eq_self destroyed nobody
      exact ⟨{ scene with store := scene.store.destroy }, again, .inr ⟨rfl, rfl⟩, rfl,
        fun queue rest later after onward => ⟨_, .destroy listens onward, rfl⟩⟩
    | reloadOnce event =>
      -- The reload is refused, and so the scene stays but for the reload that is used up.
      have unchanged : (scene.spend position).store = scene.store := by
        rw [Scene.spend, Store.spend, nobody, List.modify_nil, ← nobody]
      let refused : Opening :=
        ⟨(scene.spend position).store, event, .error scene.store.destroyedError, (scene.spend position).store⟩
      have gone : (scene.spend position).store.lifecycle = .destroyed := destroyed
      have begins : refused.Begins [] := transcript_publish_of_destroyed gone event
      have nobody : Plays refused.queue (scene.spend position) .done [] (scene.spend position) := .done _
      refine ⟨scene.spend position, unchanged, coherent.spend position, scene.tags_spend position, ?_⟩
      intro queue rest later after onward
      exact ⟨.reload scene.store told refused .done rest, .reload listens rfl begins nobody onward, rfl⟩

/-- A loop over listeners is made as a sequence of turns when the reloads in it are made as trees of calls. -/
theorem exists_turns {bound : Nat} (unfolds : Unfolds bound) (notice : Notice)
    (listeners : List (Listener × Nat)) {scene : Scene} {exchanges : List Exchange} {left : Store}
    {deliveries : List Delivery} (coherent : scene.IsCoherent) (pending : scene.store.pendingReloads ≤ bound)
    (calls : Scene.Calls scene.audience listeners)
    (transcript : Transcript (notify reloadAgain notice listeners scene.store) exchanges (left, deliveries)) :
    ∃ (turns : Turns) (after : Scene),
      Plays (listeners.map fun (listener, position) => (⟨listener.tag, notice⟩, position)) scene turns exchanges
        after ∧ after.store = left ∧ after.IsCoherent ∧
      after.audience.map (·.tag) = scene.audience.map (·.tag) ∧ turns.deliveries = deliveries := by
  -- The induction is on the listeners that are still to be called.
  induction listeners generalizing scene exchanges deliveries with
  | nil =>
    obtain ⟨rfl, rfl, rfl⟩ := transcript_done_mk.mp transcript
    exact ⟨.done, scene, .done scene, rfl, coherent, rfl, rfl⟩
  | cons first rest ih =>
    obtain ⟨listener, position⟩ := first
    obtain ⟨earlier, later, ⟨reacted, inner⟩, rfl, before, last⟩ := transcript_bind.mp transcript
    obtain ⟨middle, ended, ⟨finished, others⟩, rfl, onward, done⟩ := transcript_bind.mp last
    obtain ⟨rfl, rfl, rfl⟩ := transcript_done_mk.mp done
    rw [List.append_nil]
    have fewer := (course_of_react leadsAlong_reloadAgain before fun _ _ => trivial).pendingReloads_le
    -- The listener at the position is in the audience, whether or not the store still has it.
    have named := calls listener position List.mem_cons_self
    obtain ⟨own, listens, tag⟩ : ∃ own, scene.audience[position]? = some own ∧ own.tag = listener.tag := by
      simpa [List.getElem?_map, Option.map_eq_some_iff] using named
    obtain ⟨tag', reaction⟩ := own
    obtain rfl : tag' = listener.tag := tag
    let told : Delivery := ⟨listener.tag, notice⟩
    have listens : scene.audience[position]? = some ⟨told.tag, reaction⟩ := listens
    obtain ⟨scene', rfl, coherent', tags, goes⟩ := exists_turn unfolds coherent pending listens before
    have following : Scene.Calls scene'.audience rest := fun other place member => by
      rw [tags]
      exact calls other place (List.mem_cons_of_mem _ member)
    obtain ⟨turns, after, plays, store, kept, same, rfl⟩ :=
      ih coherent' (Nat.le_trans fewer pending) following onward
    obtain ⟨all, whole, calls⟩ := goes _ turns middle after plays
    exact ⟨all, after, whole, store, kept, same.trans tags, calls⟩

/-- A reload at whose beginning there are few enough pending reloads is made as a tree of calls. -/
theorem unfolds (bound : Nat) : Unfolds bound := by
  -- The induction is on the bound, for each reload of a listener has fewer pending reloads to begin with.
  induction bound with
  | zero => exact fun scene event exchanges reloaded coherent impossible => absurd impossible (Nat.not_lt_zero _)
  | succ bound ih =>
    intro scene event exchanges reloaded coherent fewer transcript
    rw [reload_eq] at transcript
    obtain ⟨opened, within, ⟨outcome, published⟩, rfl, before, last⟩ := transcript_bind.mp transcript
    let opening : Opening := ⟨scene.store, event, outcome, published⟩
    have begins : opening.Begins opened := before
    have coherent' : Scene.IsCoherent ⟨published, scene.audience⟩ := coherent.publish rfl begins
    -- Without a notice nobody is told anything.
    have silent : (∀ notice, outcome ≠ .ok (some notice)) → within = [] →
        ReloadCall.Runs ⟨opening, .done⟩ scene (opened ++ within) ⟨published, scene.audience⟩ := by
      intro none nothing
      refine ⟨rfl, opened, within, rfl, begins, ?_⟩
      rw [nothing, Opening.queue_eq_nil none]
      exact .done _
    rcases outcome with error | notice
    · obtain ⟨nothing, rfl⟩ := transcript_done.mp last
      exact ⟨⟨opening, .done⟩, _, rfl, silent (by simp) nothing, rfl, coherent', rfl, rfl, rfl⟩
    · cases notice with
      | none =>
        obtain ⟨nothing, rfl⟩ := transcript_done.mp last
        exact ⟨⟨opening, .done⟩, _, rfl, silent (by simp) nothing, rfl, coherent', rfl, rfl, rfl⟩
      | some notice =>
        obtain ⟨within, ended, ⟨finished, deliveries⟩, rfl, calling, done⟩ := transcript_bind.mp last
        obtain ⟨rfl, rfl⟩ := transcript_done.mp done
        rw [List.append_nil]
        -- Everyone who listens to the published store is called, at the position they have in the audience.
        have listeners : published.listeners = scene.store.listeners :=
          (publication_of_transcript before).listeners_eq
        have pending : published.pendingReloads ≤ bound := by
          rw [pendingReloads, listeners, ← pendingReloads]
          exact Nat.le_of_lt_succ fewer
        obtain ⟨turns, after, plays, store, kept, tags, calls⟩ :=
          exists_turns ih notice _ coherent' pending coherent'.calls calling
        exact ⟨⟨opening, turns⟩, after, rfl, ⟨rfl, opened, within, rfl, begins, plays⟩, store, kept, tags, rfl, calls⟩

/-- A reload is made as a tree of calls, in which its store still has all of its listeners at first. -/
theorem exists_reloadCall {store : Store} {event : ChangeEvent} {exchanges : List Exchange} {reloaded : Reloaded}
    (transcript : Transcript (store.reload event) exchanges reloaded) :
    ∃ (call : ReloadCall) (after : Scene), call.opening.event = event ∧
      call.Runs ⟨store, store.listeners⟩ exchanges after ∧ after.store = reloaded.store ∧
      call.result = reloaded.result ∧ call.turns.deliveries = reloaded.deliveries := by
  obtain ⟨call, after, named, runs, left, _, _, result, calls⟩ :=
    unfolds (store.pendingReloads + 1) ⟨store, store.listeners⟩ event exchanges reloaded (.inl rfl)
      (Nat.lt_succ_self _) transcript
  exact ⟨call, after, named, runs, left, result, calls⟩

end Store

end MessageCatalogue
