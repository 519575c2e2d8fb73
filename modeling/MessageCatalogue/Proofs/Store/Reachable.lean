import Mathlib.Logic.Relation
import MessageCatalogue.Proofs.Store.Cascade
import MessageCatalogue.Proofs.Store.Naming
import MessageCatalogue.Proofs.Store.Publication

/-! Every store that can be reached serves what its loads provide in locales that only a destruction takes away. -/

namespace MessageCatalogue.Store

open Fetch

/-- One step of a store in the course of a reload, in which the exchanges of a publication are of some kind. -/
inductive Step (met : Exchange → Prop) (store : Store) : Store → Prop where
  | publish {event : ChangeEvent} {exchanges : List Exchange} {result : Except MessageError (Option Notice)}
      {after : Store} (publication : Publication store event exchanges result after)
      (each : ∀ exchange ∈ exchanges, met exchange) : Step met store after
  | spend (position : Nat) : Step met store (store.spend position)
  | destroy {listener : Listener} (subscribed : listener ∈ store.listeners)
      (reaction : listener.reaction = .destroy) : Step met store store.destroy

/-- The stores that lie on the way of a reload, whatever its listeners do. -/
def Course (met : Exchange → Prop) : Store → Store → Prop := Relation.ReflTransGen (Step met)

variable {met : Exchange → Prop} {store after : Store}

/-- Reloads that listeners may make lead along a course. -/
def LeadsAlong (met : Exchange → Prop) (again : Store → ChangeEvent → Fetch (Store × List Delivery)) : Prop :=
  ∀ store event exchanges after deliveries, Transcript (again store event) exchanges (after, deliveries) →
    (∀ exchange ∈ exchanges, met exchange) → Course met store after

/-- A listener leads along a course when the reloads it may make do. -/
theorem course_of_react {again : Store → ChangeEvent → Fetch (Store × List Delivery)}
    (nested : LeadsAlong met again) {position : Nat} {exchanges : List Exchange} {deliveries : List Delivery}
    (transcript : Transcript (store.react again position) exchanges (after, deliveries))
    (each : ∀ exchange ∈ exchanges, met exchange) : Course met store after := by
  unfold react at transcript
  cases found : store.listeners[position]? with
  | none =>
    -- A listener that is not there any more does nothing.
    rw [found] at transcript
    obtain ⟨_, rfl, _⟩ := transcript_done_mk.mp transcript
    exact .refl
  | some listener =>
    rw [found] at transcript
    obtain ⟨tag, reaction⟩ := listener
    cases reaction with
    | record =>
      obtain ⟨_, rfl, _⟩ := transcript_done_mk.mp transcript
      exact .refl
    | destroy =>
      -- The destruction is due to this listener.
      obtain ⟨_, rfl, _⟩ := transcript_done_mk.mp transcript
      exact .single (.destroy (List.mem_of_getElem? found) rfl)
    | reloadOnce event =>
      -- The reload of the listener is used up before it is made.
      exact .head (.spend position) (nested _ event exchanges after deliveries transcript each)

/-- Listeners that are called one after the other lead along a course when the reloads they may make do. -/
theorem course_of_notify {again : Store → ChangeEvent → Fetch (Store × List Delivery)}
    (nested : LeadsAlong met again) (notice : Notice) (listeners : List (Listener × Nat))
    {exchanges : List Exchange} {deliveries : List Delivery}
    (transcript : Transcript (notify again notice listeners store) exchanges (after, deliveries))
    (each : ∀ exchange ∈ exchanges, met exchange) : Course met store after := by
  -- Each listener finds the store as those before it left it.
  induction listeners generalizing store exchanges deliveries with
  | nil =>
    obtain ⟨_, rfl, _⟩ := transcript_done_mk.mp transcript
    exact .refl
  | cons first rest ih =>
    obtain ⟨earlier, later, ⟨reacted, inner⟩, rfl, before, last⟩ := transcript_bind.mp transcript
    obtain ⟨middle, ended, ⟨finished, calls⟩, rfl, onward, done⟩ := transcript_bind.mp last
    obtain ⟨rfl, rfl, _⟩ := transcript_done_mk.mp done
    rw [List.append_nil] at each
    obtain ⟨here, others⟩ := List.forall_mem_append.mp each
    exact Relation.ReflTransGen.trans (course_of_react nested before here) (ih onward others)

/-- A reload leads along a course when the reloads that its listeners may make do. -/
theorem course_of_reloadWithin {depth : Nat} (nested : LeadsAlong met (reenter depth)) {event : ChangeEvent}
    {exchanges : List Exchange} {reloaded : Reloaded}
    (transcript : Transcript (store.reloadWithin depth event) exchanges reloaded)
    (each : ∀ exchange ∈ exchanges, met exchange) : Course met store reloaded.store := by
  unfold reloadWithin at transcript
  obtain ⟨earlier, later, ⟨result, published⟩, rfl, before, last⟩ := transcript_bind.mp transcript
  obtain ⟨loading, calling⟩ := List.forall_mem_append.mp each
  have step : Step met store published := .publish (publication_of_transcript before) loading
  -- Listeners are called only when there is a notice for them.
  cases result with
  | error error =>
    obtain ⟨_, rfl⟩ := transcript_done.mp last
    exact .single step
  | ok notice =>
    cases notice with
    | none =>
      obtain ⟨_, rfl⟩ := transcript_done.mp last
      exact .single step
    | some notice =>
      -- The listeners of the published store are called, at any depth.
      have calls : Transcript ((notify (reenter depth) notice published.listeners.zipIdx published).bind
          fun called => .done ⟨.ok ⟨[notice]⟩, called.1, called.2⟩) later reloaded := by
        cases depth <;> exact last
      obtain ⟨middle, ended, ⟨finished, deliveries⟩, rfl, onward, done⟩ := transcript_bind.mp calls
      obtain ⟨rfl, rfl⟩ := transcript_done.mp done
      rw [List.append_nil] at calling
      exact .head step (course_of_notify nested notice _ onward calling)

/-- The reloads that listeners may make lead along a course, however deep they are nested. -/
theorem leadsAlong_reenter (depth : Nat) : LeadsAlong met (reenter depth) := by
  -- The reloads of listeners are one level less deep, and there are none at the lowest one.
  induction depth with
  | zero =>
    intro store event exchanges after deliveries transcript _
    obtain ⟨_, rfl, _⟩ := transcript_done_mk.mp transcript
    exact .refl
  | succ depth ih =>
    intro store event exchanges after deliveries transcript each
    obtain ⟨earlier, later, reloaded, rfl, before, last⟩ := transcript_bind.mp transcript
    obtain ⟨rfl, rfl, _⟩ := transcript_done_mk.mp last
    rw [List.append_nil] at each
    exact course_of_reloadWithin ih before each

/-- A reload leads along a course. -/
theorem course_of_reload {event : ChangeEvent} {exchanges : List Exchange} {reloaded : Reloaded}
    (transcript : Transcript (store.reload event) exchanges reloaded)
    (each : ∀ exchange ∈ exchanges, met exchange) : Course met store reloaded.store :=
  course_of_reloadWithin (leadsAlong_reenter _) transcript each

/-- The stores that can be reached with a setup by calls whose exchanges are of some kind. -/
inductive Reachable (met : Exchange → Prop) (setup : Setup) : Store → Prop where
  | fresh : Reachable met setup (ofSetup setup)
  | init {store after : Store} {exchanges : List Exchange} {result : Except MessageError Unit}
      (before : Reachable met setup store) (transcript : Transcript store.init exchanges (result, after))
      (each : ∀ exchange ∈ exchanges, met exchange) : Reachable met setup after
  | reload {store : Store} {event : ChangeEvent} {exchanges : List Exchange} {reloaded : Reloaded}
      (before : Reachable met setup store) (transcript : Transcript (store.reload event) exchanges reloaded)
      (each : ∀ exchange ∈ exchanges, met exchange) : Reachable met setup reloaded.store
  | subscribe {store : Store} (before : Reachable met setup store) (listener : Listener) :
      Reachable met setup (store.subscribe listener)
  | destroy {store : Store} (before : Reachable met setup store) : Reachable met setup store.destroy

/-- A store has a setup, and what it serves is laid in layers that all have some property. -/
structure IsLaid (setup : Setup) (property : Locale → Catalogue → Prop) (store : Store) : Prop where
  same : store.setup = setup
  serving : ∀ snapshot, store.lifecycle = .initialized snapshot → snapshot.IsLaid setup property

/-- A store has a setup, and what it serves has the logical names of its locales. -/
abbrev IsNamed (setup : Setup) (store : Store) : Prop := store.IsLaid setup (Catalogue.IsNamed setup)

/-- A store supports the same locales as before and has no other listeners that would destroy it. -/
structure Stays (store after : Store) : Prop where
  initialized : after.isInitialized = store.isInitialized
  locales : after.supportedLocales = store.supportedLocales
  destroyers : ∀ listener ∈ after.listeners, listener.reaction = .destroy → listener ∈ store.listeners

/-- A store is destroyed in the end, and one of its listeners is there to destroy it. -/
structure EndsDestroyed (store after : Store) : Prop where
  destroyed : after.lifecycle = .destroyed
  destroyer : ∃ listener ∈ store.listeners, listener.reaction = .destroy

variable {setup : Setup} {property : Locale → Catalogue → Prop}

namespace Stays

variable {middle : Store}

/-- A store that does not change stays. -/
theorem refl (store : Store) : store.Stays store := ⟨rfl, rfl, fun _ member _ => member⟩

/-- Staying once more is staying. -/
theorem trans (stays : store.Stays middle) (further : middle.Stays after) : store.Stays after := by
  refine ⟨further.initialized.trans stays.initialized, further.locales.trans stays.locales, ?_⟩
  -- A listener that would destroy the store in the end was there at the beginning.
  intro listener member destroys
  exact stays.destroyers listener (further.destroyers listener member destroys) destroys

/-- A store that stays and is destroyed later is destroyed in the end, by one of its own listeners. -/
theorem endsDestroyed (stays : store.Stays middle) (ends : middle.EndsDestroyed after) :
    store.EndsDestroyed after := by
  obtain ⟨listener, member, destroys⟩ := ends.destroyer
  exact ⟨ends.destroyed, listener, stays.destroyers listener member destroys, destroys⟩

end Stays

/-- A store owns the identifiers that hold the logical name of a locale it supports, once it is initialized. -/
theorem IsLaid.owns_iff (named : store.IsNamed setup) {identifier : String} :
    store.owns identifier = true ↔ store.isInitialized = true ∧ ∃ locale ∈ store.supportedLocales,
      logicalName identifier = setup.loader.resourceName setup.source locale := by
  -- Without a snapshot, nothing is owned and nothing is initialized.
  unfold owns isInitialized supportedLocales snapshot?
  cases lifecycle : store.lifecycle with
  | uninitialized => simp
  | destroyed => simp
  | initialized snapshot => simpa using (named.serving snapshot lifecycle).owns_iff

/-- A publication keeps what every load provides and the locales of a store. -/
theorem Publication.stays (provides : setup.Provides met property) {event : ChangeEvent} {exchanges : List Exchange}
    {result : Except MessageError (Option Notice)} (publication : Publication store event exchanges result after)
    (each : ∀ exchange ∈ exchanges, met exchange) (laid : store.IsLaid setup property) :
    after.IsLaid setup property ∧ store.Stays after := by
  obtain ⟨rfl, served⟩ := id laid
  -- Only a published snapshot changes anything.
  have unchanged : store.IsLaid store.setup property ∧ store.Stays store := ⟨laid, Stays.refl store⟩
  cases publication with
  | uninitialized lifecycle => exact unchanged
  | destroyed lifecycle => exact unchanged
  | unaffected serving nothing => exact unchanged
  | failed serving affected loading => exact unchanged
  | @published current next _ serving affected loading =>
    -- A snapshot is refreshed in the locales that it has.
    obtain ⟨own, locales⟩ := provides.yields_refreshSnapshot (served current serving) event _ _ loading each
    refine ⟨⟨rfl, ?_⟩, ?_, ?_, fun _ member _ => member⟩
    · intro snapshot published
      obtain rfl := Lifecycle.initialized.inj published
      exact own
    · simp [isInitialized, snapshot?, serving]
    · simp [supportedLocales, snapshot?, serving, locales]

namespace Step

/-- Each step keeps what every load provides and the locales of a store, unless it destroys the store. -/
theorem stays (provides : setup.Provides met property) (step : Step met store after)
    (laid : store.IsLaid setup property) :
    after.IsLaid setup property ∧ (store.Stays after ∨ store.EndsDestroyed after) := by
  cases step with
  | publish publication each =>
    obtain ⟨own, stays⟩ := publication.stays provides each laid
    exact ⟨own, .inl stays⟩
  | spend position =>
    -- A listener that has used up its reload only takes note of others.
    refine ⟨⟨laid.same, laid.serving⟩, .inl ⟨rfl, rfl, ?_⟩⟩
    intro listener member destroys
    obtain ⟨index, found⟩ := List.getElem?_of_mem member
    rw [Store.spend, List.getElem?_modify] at found
    split at found
    · obtain ⟨own, _, rfl⟩ := Option.map_eq_some_iff.mp found
      cases destroys
    · have kept : store.listeners[index]? = some listener := by simpa using found
      exact List.mem_of_getElem? kept
  | destroy subscribed reaction =>
    -- A destroyed store serves nothing.
    refine ⟨⟨laid.same, ?_⟩, .inr ⟨rfl, _, subscribed, reaction⟩⟩
    intro snapshot impossible
    cases impossible

/-- Nothing brings a destroyed store back. -/
theorem destroyed (step : Step met store after) (destroyed : store.lifecycle = .destroyed) :
    after.lifecycle = .destroyed := by
  cases step with
  | publish publication each =>
    -- Nothing is published for a store that is not initialized.
    cases publication with
    | published serving affected loading => cases destroyed.symm.trans serving
    | _ => exact destroyed
  | spend position => exact destroyed
  | destroy subscribed reaction => rfl

end Step

/-- A course keeps what every load provides and the locales of a store, unless a listener destroys it on the way. -/
theorem Course.stays (provides : setup.Provides met property) (course : Course met store after)
    (laid : store.IsLaid setup property) :
    after.IsLaid setup property ∧ (store.Stays after ∨ store.EndsDestroyed after) := by
  -- The steps are followed from the first to the last, and a destroyed store is not left any more.
  induction course with
  | refl => exact ⟨laid, .inl (Stays.refl store)⟩
  | tail _ step ih =>
    obtain ⟨own, before⟩ := ih
    obtain ⟨next, last⟩ := step.stays provides own
    refine ⟨next, ?_⟩
    rcases before with stays | ends
    · rcases last with further | ends
      · exact .inl (stays.trans further)
      · exact .inr (stays.endsDestroyed ends)
    · exact .inr ⟨step.destroyed ends.destroyed, ends.destroyer⟩

/-- A store is initialized with what every load provides, or left as it is. -/
theorem IsLaid.init (provides : setup.Provides met property) {exchanges : List Exchange}
    {result : Except MessageError Unit} (laid : store.IsLaid setup property)
    (transcript : Transcript store.init exchanges (result, after))
    (each : ∀ exchange ∈ exchanges, met exchange) : after.IsLaid setup property := by
  obtain ⟨rfl, _⟩ := id laid
  -- Only what was loaded just now is new, and the load provides the property.
  cases initialization_of_transcript transcript with
  | loaded lifecycle loading =>
    refine ⟨rfl, ?_⟩
    intro served same
    obtain rfl := Lifecycle.initialized.inj same
    exact provides.yields_load exchanges _ loading each
  | _ => exact laid

namespace Reachable

/-- What every load provides is had by all that the stores serve that can be reached. -/
theorem isLaid (provides : setup.Provides met property) (reachable : Reachable met setup store) :
    store.IsLaid setup property := by
  -- The property is kept by each way of going on.
  induction reachable with
  | fresh => exact ⟨rfl, fun _ impossible => nomatch impossible⟩
  | init before transcript each ih => exact ih.init provides transcript each
  | reload before transcript each ih => exact ((course_of_reload transcript each).stays provides ih).1
  | subscribe before listener ih => exact ⟨ih.same, ih.serving⟩
  | destroy before ih => exact ⟨ih.same, fun _ impossible => nomatch impossible⟩

/-- A store that can be reached has the setup that it was made with. -/
theorem setup_eq (reachable : Reachable met setup store) : store.setup = setup :=
  (reachable.isLaid (setup.provides_true met)).same

/-- A store that can be reached serves a catalogue for each locale of its list and for no others. -/
theorem isKeyed (reachable : Reachable met setup store) {current : Snapshot}
    (serving : store.lifecycle = .initialized current) : current.IsKeyed store.setup := by
  obtain rfl := reachable.setup_eq
  exact ((reachable.isLaid (store.setup.provides_true met)).serving current serving).isKeyed

/-- Every store that can be reached has the logical names of its locales. -/
theorem isNamed (reachable : Reachable Exchange.KeepsNames setup store) : store.IsNamed setup :=
  reachable.isLaid setup.provides_names

/-- A reload finds nothing to do when the store is not destroyed and owns nothing that the event names. -/
theorem reload_unaffected_iff (reachable : Reachable met setup store) {event : ChangeEvent}
    {exchanges : List Exchange} {reloaded : Reloaded}
    (transcript : Transcript (store.reload event) exchanges reloaded) :
    reloaded.result = .ok .unaffected ↔
      store.lifecycle ≠ .destroyed ∧ ∀ identifier ∈ event.changed, store.owns identifier = false := by
  -- Owning looks through the catalogues and affecting through the locales, and a served snapshot has both alike.
  have owned : ∀ {current : Snapshot}, store.lifecycle = .initialized current →
      (store.setup.affectedLocales current event = [] ↔
        ∀ identifier ∈ event.changed, current.owns identifier = false) :=
    fun serving => (reachable.isKeyed serving).affectedLocales_eq_nil_iff
  obtain ⟨earlier, later, result, published, rfl, publication, same⟩ := publication_of_reloadWithin transcript
  rw [same]
  cases publication with
  | uninitialized lifecycle => simp [Except.map, ReloadOutcome.unaffected, lifecycle, owns, snapshot?]
  | destroyed lifecycle => simp [Except.map, lifecycle]
  | unaffected serving nothing =>
    simpa [Except.map, ReloadOutcome.unaffected, serving, owns, snapshot?] using (owned serving).mp nothing
  | failed serving affected loading =>
    simpa [Except.map, serving, owns, snapshot?] using mt (owned serving).mpr affected
  | published serving affected loading =>
    simpa [Except.map, ReloadOutcome.unaffected, serving, owns, snapshot?] using mt (owned serving).mpr affected

/-- A store is reached by its initialization from holdings whose exchanges are of some kind. -/
theorem run_init_of_met {holdings : Holdings} (each : ∀ exchange : Exchange, exchange.IsFrom holdings → met exchange)
    (before : Reachable met setup store) : Reachable met setup (store.init.run holdings).2 := by
  have transcript := transcript_recorded holdings store.init
  rw [← Prod.eta (store.init.run holdings)] at transcript
  exact before.init transcript fun exchange member => each exchange (isFrom_recorded holdings _ exchange member)

/-- A store is reached by its initialization from enumerators that keep names. -/
theorem run_init {holdings : Holdings} (keep : ∀ collection, (holdings collection).KeepsNames)
    (before : Reachable Exchange.KeepsNames setup store) :
    Reachable Exchange.KeepsNames setup (store.init.run holdings).2 :=
  before.run_init_of_met fun _ own => own.keepsNames keep

end Reachable

end MessageCatalogue.Store
