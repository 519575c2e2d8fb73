import MessageCatalogue.Proofs.Store.Ownership
import MessageCatalogue.Proofs.Store.Settling

/-! While the resources stay as they are, reloads may be swapped, put together or repeated. -/

namespace MessageCatalogue

open Fetch

variable {setup : Setup} {holdings : Holdings} {current : Layers} {listeners : List Listener}

/-- A reload succeeds when it comes to an outcome. -/
def Reloaded.Succeeds (reloaded : Reloaded) : Prop := ∃ outcome, reloaded.result = .ok outcome

/-- Two reloads may be swapped or put together, and the store ends up the same. -/
structure Store.Interchanges (holdings : Holdings) (store : Store) (first second : ChangeEvent) : Prop where
  second_succeeds : (store.reloadIn holdings second).Succeeds
  first_succeeds : ((store.reloadIn holdings second).store.reloadIn holdings first).Succeeds
  union_succeeds : (store.reloadIn holdings (first.union second)).Succeeds
  swapped : ((store.reloadIn holdings second).store.reloadIn holdings first).store =
    ((store.reloadIn holdings first).store.reloadIn holdings second).store
  together : (store.reloadIn holdings (first.union second)).store =
    ((store.reloadIn holdings first).store.reloadIn holdings second).store

/-- Whether some events touch a locale in which layers lie. -/
def Setup.affects (setup : Setup) (current : Layers) (events : List ChangeEvent) : Bool :=
  (setup.defaultLocale :: current.overlays.keys).any (setup.touches events)

@[simp] theorem Setup.affects_append (events others : List ChangeEvent) :
    setup.affects current (events ++ others) = (setup.affects current events || setup.affects current others) := by
  unfold affects
  generalize setup.defaultLocale :: current.overlays.keys = locales
  rw [Bool.eq_iff_iff]
  simp [and_or_left, exists_or]

/-- An event that affects no locale touches none. -/
theorem Setup.affects_eq_false_iff (named : current.AreNamed setup) {event : ChangeEvent} :
    setup.affects current [event] = false ↔ setup.affectedLocales (setup.snapshot current) event = [] := by
  rw [affectedLocales_eq_nil_iff_touches named]
  simp [affects]

/-- Events that can be taken care of touch a locale when one of them does. -/
theorem Setup.touches_eq_true_iff_of_able {events : List ChangeEvent}
    (able : ∀ event ∈ events, setup.Renewable holdings current [event]) (locale : Locale) :
    setup.touches events locale = true ↔
      ∃ event ∈ events, setup.Renewable holdings current [event] ∧ setup.touches [event] locale = true := by
  -- A locale is touched by the names in the events, each of which belongs to one event.
  rw [touches_eq_true_iff]
  constructor
  · rintro ⟨event, member, named⟩
    exact ⟨event, member, able event member, touches_eq_true_iff.mpr ⟨event, List.mem_singleton_self event, named⟩⟩
  · rintro ⟨event, member, _, touched⟩
    obtain ⟨_, same, named⟩ := touches_eq_true_iff.mp touched
    obtain rfl := List.mem_singleton.mp same
    exact ⟨_, member, named⟩

@[simp] theorem Listener.spent_spent (listener : Listener) : listener.spent.spent = listener.spent :=
  Listener.spent_eq_self listener.isReload_spent

/-- Nothing is pending any more when all reloads are used up. -/
theorem not_pending_spent (event : ChangeEvent) : ¬ Pending (listeners.map (·.spent)) event := by
  rintro ⟨listener, member, reloads⟩
  obtain ⟨own, _, rfl⟩ := List.mem_map.mp member
  have none := own.isReload_spent
  rw [reloads] at none
  cases none

/-- Using up reloads does not make a destroyer of anyone. -/
theorem lasting_spent (lasting : ∀ listener ∈ listeners, listener.reaction ≠ .destroy) :
    ∀ listener ∈ listeners.map (·.spent), listener.reaction ≠ .destroy := by
  rintro _ member
  obtain ⟨listener, subscribed, rfl⟩ := List.mem_map.mp member
  unfold Listener.spent
  split
  · simp
  · exact lasting listener subscribed

namespace Store

/--
A store comes out of another one by reloads with some events.

If these affect it, its listeners have used up their reloads, the events of which were taken care of too.
-/
def SettledBy (setup : Setup) (holdings : Holdings) (current : Layers) (listeners : List Listener)
    (events : List ChangeEvent) (after : Store) : Prop :=
  -- The reloads of listeners count among the events, since they are made with the first event that affects anything.
  ∃ next : Layers, next.AreNamed setup ∧
    after = .ofLayers setup next (if setup.affects current events then listeners.map (·.spent) else listeners) ∧
    setup.Settles holdings
      (fun event => event ∈ events ∨ setup.affects current events = true ∧ Pending listeners event) current next

/-- What comes out of a store is decided by what the events touch. -/
theorem SettledBy.unique {events others : List ChangeEvent} {one other : Store}
    (settled : SettledBy setup holdings current listeners events one)
    (alike : SettledBy setup holdings current listeners others other)
    (able : ∀ event ∈ events, setup.Renewable holdings current [event])
    (capable : ∀ event ∈ others, setup.Renewable holdings current [event])
    (same : setup.touches events = setup.touches others) : one = other := by
  obtain ⟨next, _, rfl, settles⟩ := settled
  obtain ⟨last, _, rfl, ends⟩ := alike
  have affected : setup.affects current events = setup.affects current others := by
    rw [Setup.affects, same, Setup.affects]
  obtain rfl : next = last := by
    refine settles.unique ends fun locale => ?_
    -- All of the events can be taken care of, and they touch the same locales.
    have listed := Setup.touches_eq_true_iff_of_able able locale
    rw [same, Setup.touches_eq_true_iff_of_able capable locale] at listed
    simp only [or_and_right, exists_or, listed, affected]
  rw [affected]

/-- A reload with an event that can be taken care of comes to an outcome and takes care of it. -/
theorem SettledBy.reload (keep : ∀ collection, (holdings collection).KeepsNames) (named : current.AreNamed setup)
    (lasting : ∀ listener ∈ listeners, listener.reaction ≠ .destroy) {events : List ChangeEvent} {store : Store}
    (settled : SettledBy setup holdings current listeners events store) {event : ChangeEvent}
    (able : setup.Renewable holdings current [event]) :
    (store.reloadIn holdings event).Succeeds ∧
      SettledBy setup holdings current listeners (events ++ [event]) (store.reloadIn holdings event).store := by
  obtain ⟨next, renamed, rfl, settles⟩ := settled
  have affected : setup.affectedLocales (setup.snapshot next) event = [] ↔ setup.affects current [event] = false := by
    rw [Setup.affects_eq_false_iff named, settles.affected_iff named renamed]
  have reloads := reloads_run keep renamed
    (if setup.affects current events then listeners.map (·.spent) else listeners) event
  generalize reloadIn holdings _ event = reloaded at reloads ⊢
  obtain ⟨result, after, deliveries⟩ := reloaded
  dsimp only at reloads ⊢
  cases reloads with
  | unaffected nothing =>
    -- The event is taken care of by leaving everything as it is.
    have untouched := affected.mp nothing
    refine ⟨⟨_, rfl⟩, next, renamed, by simp [untouched], ?_⟩
    refine (settles.trans ((Setup.Refreshes.unaffected nothing).settles renamed)).congr fun other => ?_
    simp only [List.mem_append, List.mem_singleton, Setup.affects_append, untouched, Bool.or_false]
    tauto
  | failed affected unable => exact absurd (settles.renewable_iff.mpr able) unable
  | destroyed affected able subscribed destroys gone =>
    -- Nobody would destroy the store.
    split at subscribed
    · exact absurd destroys (lasting_spent lasting _ subscribed)
    · exact absurd destroys (lasting _ subscribed)
  | @settled _ last touched able lasting relabelled ends =>
    have touched : setup.affects current [event] = true := by
      rw [← Bool.not_eq_false, ← affected]
      exact touched
    refine ⟨⟨_, rfl⟩, last, relabelled, ?_, (settles.trans ends).congr fun other => ?_⟩
    · cases setup.affects current events <;> simp [touched, Function.comp_def]
    · simp only [List.mem_append, List.mem_singleton, Setup.affects_append, touched, Bool.or_true, true_and]
      -- What was pending before the reload was pending at first, unless it had been taken care of.
      cases setup.affects current events with
      | true =>
        simp only [if_pos, true_and, not_pending_spent, or_false]
        tauto
      | false =>
        simp only [Bool.false_eq_true, if_false, false_and, or_false]
        tauto

/-- Nothing has been taken care of in a store that is as it was. -/
theorem settledBy_nil (named : current.AreNamed setup) (listeners : List Listener) :
    SettledBy setup holdings current listeners [] (.ofLayers setup current listeners) := by
  have nothing : setup.affects current [] = false := by simp [Setup.affects, Setup.touches]
  refine ⟨current, named, by simp [nothing], Setup.settles_of_none fun event => ?_⟩
  simp [nothing]

/-- The event of a reload that succeeds can be taken care of. -/
theorem renewable_of_succeeds (keep : ∀ collection, (holdings collection).KeepsNames) (named : current.AreNamed setup)
    {event : ChangeEvent}
    (succeeds : (reloadIn holdings (.ofLayers setup current listeners) event).Succeeds) :
    setup.Renewable holdings current [event] := by
  -- Of the ways in which a reload can go, those that succeed have loaded whatever the event affects.
  have reloads := reloads_run keep named listeners event
  obtain ⟨outcome, result⟩ := succeeds
  rw [result] at reloads
  generalize (reloadIn holdings _ event).store = after at reloads
  cases reloads with
  | unaffected nothing =>
    exact (Setup.renewed_eq_self ((Setup.affectedLocales_eq_nil_iff_touches named).mp nothing)).1
  | destroyed affected able subscribed destroys gone => exact able
  | settled affected able lasting named settles => exact able

/-- The event of a reload that succeeds after others could be taken care of before these. -/
theorem SettledBy.renewable_of_succeeds (keep : ∀ collection, (holdings collection).KeepsNames)
    {events : List ChangeEvent} {store : Store} (settled : SettledBy setup holdings current listeners events store)
    {event : ChangeEvent} (succeeds : (store.reloadIn holdings event).Succeeds) :
    setup.Renewable holdings current [event] := by
  obtain ⟨next, renamed, rfl, settles⟩ := settled
  exact settles.renewable_iff.mp (Store.renewable_of_succeeds keep renamed succeeds)

/-- A reload whose event affects nothing succeeds and leaves the store as it was. -/
theorem run_reload_of_unaffected (keep : ∀ collection, (holdings collection).KeepsNames)
    (named : current.AreNamed setup) (listeners : List Listener) {event : ChangeEvent}
    (nothing : setup.affectedLocales (setup.snapshot current) event = []) :
    (reloadIn holdings (.ofLayers setup current listeners) event).Succeeds ∧
      (reloadIn holdings (.ofLayers setup current listeners) event).store =
        .ofLayers setup current listeners := by
  -- The other ways in which a reload can go need a locale that is affected.
  have reloads := reloads_run keep named listeners event
  generalize reloadIn holdings _ event = reloaded at reloads
  obtain ⟨result, after, deliveries⟩ := reloaded
  dsimp only at reloads
  cases reloads with
  | unaffected nothing => exact ⟨⟨_, rfl⟩, rfl⟩
  | failed affected unable => exact absurd nothing affected
  | destroyed affected able subscribed destroys gone => exact absurd nothing affected
  | settled affected able lasting named settles => exact absurd nothing affected

/-- A reload that succeeds and does not destroy the store affects nothing if somebody would destroy the store. -/
theorem unaffected_of_destroyer (keep : ∀ collection, (holdings collection).KeepsNames) (named : current.AreNamed setup)
    {event : ChangeEvent} {listener : Listener} (subscribed : listener ∈ listeners)
    (destroys : listener.reaction = .destroy)
    (succeeds : (reloadIn holdings (.ofLayers setup current listeners) event).Succeeds)
    (survives : (reloadIn holdings (.ofLayers setup current listeners) event).store.lifecycle ≠
      .destroyed) : setup.affectedLocales (setup.snapshot current) event = [] := by
  -- A reload that affects something would call the listener, who would leave nothing that survives.
  have reloads := reloads_run keep named listeners event
  obtain ⟨outcome, result⟩ := succeeds
  rw [result] at reloads
  generalize (reloadIn holdings _ event).store = after at reloads survives
  cases reloads with
  | unaffected nothing => exact nothing
  | destroyed affected able subscribed destroys gone => exact absurd gone survives
  | settled affected able lasting named settles => exact absurd destroys (lasting listener subscribed)

/-- The event of two events affects nothing when neither of these does. -/
theorem affectedLocales_union (distinct : (setup.defaultLocale :: current.overlays.keys).Nodup)
    {first second : ChangeEvent} (one : setup.affectedLocales (setup.snapshot current) first = [])
    (other : setup.affectedLocales (setup.snapshot current) second = []) :
    setup.affectedLocales (setup.snapshot current) (first.union second) = [] := by
  rw [(Setup.isKeyed_snapshot distinct).affectedLocales_eq_nil_iff] at one other ⊢
  intro identifier member
  exact (ChangeEvent.mem_union.mp member).elim (one identifier) (other identifier)

/-- A destroyed store is not reloaded. -/
theorem run_reload_of_destroyed {store : Store} (destroyed : store.lifecycle = .destroyed) (event : ChangeEvent) :
    ¬ (store.reloadIn holdings event).Succeeds ∧ (store.reloadIn holdings event).store = store := by
  rw [reloadIn, (isGone_of_destroyed destroyed).reload event]
  exact ⟨fun ⟨_, impossible⟩ => (nomatch impossible), rfl⟩

section

variable (keep : ∀ collection, (holdings collection).KeepsNames) (named : current.AreNamed setup)
  (listeners : List Listener)

include keep named

/-- Reloads of a store that nobody would destroy may be swapped and put together. -/
theorem interchanges_of_lasting (lasting : ∀ listener ∈ listeners, listener.reaction ≠ .destroy)
    {first second : ChangeEvent} (one : setup.Renewable holdings current [first])
    (other : setup.Renewable holdings current [second]) :
    Interchanges holdings (.ofLayers setup current listeners) first second := by
  have start : SettledBy setup holdings current listeners [] (.ofLayers setup current listeners) :=
    settledBy_nil named listeners
  have both : setup.Renewable holdings current [first.union second] := by
    rw [Setup.renewable_congr (Setup.touches_union first second)]
    exact Setup.renewable_append.mpr ⟨one, other⟩
  have able : ∀ event ∈ [first, second], setup.Renewable holdings current [event] := by simp [one, other]
  -- Each of the three ways takes care of the events that are reloaded on it.
  obtain ⟨_, afterFirst⟩ := start.reload keep named lasting one
  obtain ⟨_, inOrder⟩ := afterFirst.reload keep named lasting other
  obtain ⟨succeedsSecond, afterSecond⟩ := start.reload keep named lasting other
  obtain ⟨succeedsFirst, swapped⟩ := afterSecond.reload keep named lasting one
  obtain ⟨succeedsBoth, together⟩ := start.reload keep named lasting both
  refine ⟨succeedsSecond, succeedsFirst, succeedsBoth, swapped.unique inOrder ?_ able ?_,
    together.unique inOrder ?_ able ?_⟩
  · simp [one, other]
  · exact Setup.touches_congr fun event => by simp [or_comm]
  · simp [both]
  · exact Setup.touches_union first second

/-- Reloads that affect nothing may be swapped and put together. -/
theorem interchanges_of_unaffected {first second : ChangeEvent}
    (one : setup.affectedLocales (setup.snapshot current) first = [])
    (other : setup.affectedLocales (setup.snapshot current) second = []) :
    Interchanges holdings (.ofLayers setup current listeners) first second := by
  obtain ⟨succeedsFirst, stillFirst⟩ := run_reload_of_unaffected keep named listeners one
  obtain ⟨succeedsSecond, stillSecond⟩ := run_reload_of_unaffected keep named listeners other
  obtain ⟨succeedsBoth, stillBoth⟩ :=
    run_reload_of_unaffected keep named listeners (affectedLocales_union named.distinct one other)
  -- The store stays as it is on each of the three ways.
  refine ⟨succeedsSecond, ?_, succeedsBoth, ?_, ?_⟩
  · rwa [stillSecond]
  · rw [stillSecond, stillFirst, stillSecond]
  · rw [stillFirst, stillSecond, stillBoth]

/-- A reload leads no further when it is repeated. -/
theorem reload_idempotent (event : ChangeEvent) :
    let reloaded := reloadIn holdings (.ofLayers setup current listeners) event
    (reloaded.store.reloadIn holdings event).store = reloaded.store := by
  intro reloaded
  let store : Store := .ofLayers setup current listeners
  -- A reload that changes nothing changes nothing when it is repeated either.
  have still : (store.reloadIn holdings event).store = store →
      ((store.reloadIn holdings event).store.reloadIn holdings event).store = (store.reloadIn holdings event).store :=
    fun same => by rw [same, same]
  have reloads := reloads_run keep named listeners event
  change ((store.reloadIn holdings event).store.reloadIn holdings event).store = (store.reloadIn holdings event).store
  generalize ended : (store.reloadIn holdings event).store = after,
    (store.reloadIn holdings event).result = result at reloads still ⊢
  cases reloads with
  | unaffected nothing => exact still rfl
  | failed affected unable => exact still rfl
  | destroyed affected able subscribed destroys gone => exact (run_reload_of_destroyed gone event).2
  | settled affected able lasting renamed settles =>
    have start : SettledBy setup holdings current listeners [] store := settledBy_nil named listeners
    obtain ⟨_, once⟩ := start.reload keep named lasting able
    obtain ⟨_, twice⟩ := once.reload keep named lasting able
    rw [← ended]
    exact twice.unique once (by simp [able]) (by simp [able]) (Setup.touches_congr fun other => by simp)

end

/--
While the resources stay as they are, two reloads that succeed may be swapped or put together.

All three ways lead to the same store, unless a listener destroyed it, and to repeat a reload leads nowhere.
-/
theorem reloads_commute {store : Store} (keep : ∀ collection, (holdings collection).KeepsNames)
    (reached : Reachable Exchange.KeepsNames setup store) (serving : store.isInitialized = true)
    (first second : ChangeEvent) :
    ((store.reloadIn holdings first).Succeeds →
      ((store.reloadIn holdings first).store.reloadIn holdings second).Succeeds →
      ((store.reloadIn holdings first).store.reloadIn holdings second).store.isInitialized = true →
        store.Interchanges holdings first second) ∧
      ((store.reloadIn holdings first).store.reloadIn holdings first).store =
        (store.reloadIn holdings first).store := by
  -- A store that serves something was reached with a snapshot in layers, over which reloads are told by their events.
  obtain ⟨own, lifecycle, listeners⟩ := store
  have known := reached.isNamed
  have same : setup = own := known.same.symm
  subst same
  obtain ⟨snapshot, rfl⟩ : ∃ current, lifecycle = .initialized current := by
    cases lifecycle with
    | initialized current => exact ⟨current, rfl⟩
    | uninitialized => cases serving
    | destroyed => cases serving
  obtain ⟨current, rfl, named⟩ := known.serving snapshot rfl
  refine ⟨fun succeeds onward survives => ?_, reload_idempotent keep named listeners first⟩
  -- Listeners that destroy the store are called by the first reload that affects something.
  by_cases lasting : ∀ listener ∈ listeners, listener.reaction ≠ .destroy
  · have start : SettledBy setup holdings current listeners [] _ := settledBy_nil named listeners
    have one := renewable_of_succeeds keep named succeeds
    have other := (start.reload keep named lasting one).2.renewable_of_succeeds keep onward
    exact interchanges_of_lasting keep named listeners lasting one other
  · -- Somebody would destroy the store, so neither of the reloads can have called anyone.
    obtain ⟨listener, subscribed, destroys⟩ : ∃ listener ∈ listeners, listener.reaction = .destroy := by
      simpa using lasting
    have one := unaffected_of_destroyer keep named subscribed destroys succeeds fun gone =>
      (run_reload_of_destroyed gone second).1 onward
    rw [(run_reload_of_unaffected keep named listeners one).2] at onward survives
    have other := unaffected_of_destroyer keep named subscribed destroys onward fun gone => by
      simp [isInitialized, snapshot?, gone] at survives
    exact interchanges_of_unaffected keep named listeners one other

/-- English and French texts that changed after a store was initialized. -/
def revised : Holdings := Setup.bilingual.holding [("a", .english, "a=2"), ("a", Setup.french, "b=3")]

/-- A store of two languages with a listener that reloads the French texts after the first reload. -/
def insistent : Store := (bilingualFrom "a").subscribe ⟨"again", .reloadOnce (.ofList ["fr"])⟩

/-- Both changes reach a store in either order, together with the reload that a listener makes on the way. -/
theorem revised_reaches_insistent_either_way :
    let store := insistent
    ((store.reloadIn revised (.ofList ["fr"])).store.reloadIn revised (.ofList ["en"])).store.lookup "b"
        Setup.french [] = some "3" ∧
      store.Interchanges revised (.ofList ["en"]) (.ofList ["fr"]) ∧
      ((store.reloadIn revised (.ofList ["en"])).store.reloadIn revised (.ofList ["en"])).store =
        (store.reloadIn revised (.ofList ["en"])).store := by
  -- The results of the reloads can be evaluated, and they are all that the theorem asks for.
  intro store
  have served : ((insistent.reloadIn revised (.ofList ["fr"])).store.reloadIn revised
      (.ofList ["en"])).store.lookup "b" Setup.french [] = some "3" := by cbv
  have initialized : insistent.isInitialized = true := by cbv
  have english : (insistent.reloadIn revised (.ofList ["en"])).result =
      .ok ⟨[⟨"user", [.english, Setup.french], ["en"]⟩]⟩ := by cbv
  have french : ((insistent.reloadIn revised (.ofList ["en"])).store.reloadIn revised (.ofList ["fr"])).result =
      .ok ⟨[⟨"user", [Setup.french], ["fr"]⟩]⟩ := by cbv
  have survives : ((insistent.reloadIn revised (.ofList ["en"])).store.reloadIn revised
      (.ofList ["fr"])).store.isInitialized = true := by cbv
  have keep : ∀ collection, (revised collection).KeepsNames := fun _ => Enumerator.keepsNames_memory _
  have reached : Reachable Exchange.KeepsNames .bilingual insistent := (reachable_bilingualFrom "a").subscribe _
  obtain ⟨exchange, repeated⟩ := reloads_commute keep reached initialized (.ofList ["en"]) (.ofList ["fr"])
  exact ⟨served, exchange ⟨_, english⟩ ⟨_, french⟩ survives, repeated⟩

/-- A listener that destroys its store lets a reload that would affect nothing fail if it comes too late. -/
theorem destroying_listener_forbids_interchange :
    ¬ ∀ (setup : Setup) (holdings : Holdings) (store : Store) (first second : ChangeEvent),
      (∀ collection, (holdings collection).KeepsNames) → Reachable Exchange.KeepsNames setup store →
      store.isInitialized = true → (store.reloadIn holdings first).Succeeds →
      ((store.reloadIn holdings first).store.reloadIn holdings second).Succeeds →
      store.Interchanges holdings first second := by
  -- In one order the reload without effect comes first, and in the other one the store is gone by then.
  intro every
  let store := (bilingualFrom "a").subscribe ⟨"end", .destroy⟩
  have unaffected : (((bilingualFrom "a").subscribe ⟨"end", .destroy⟩).reloadIn revised (.ofList ["other"])).result =
      .ok ⟨[]⟩ := by cbv
  have affected : ((((bilingualFrom "a").subscribe ⟨"end", .destroy⟩).reloadIn revised
      (.ofList ["other"])).store.reloadIn revised (.ofList ["en"])).result =
        .ok ⟨[⟨"user", [.english, Setup.french], ["en"]⟩]⟩ := by cbv
  have late : ((((bilingualFrom "a").subscribe ⟨"end", .destroy⟩).reloadIn revised (.ofList ["en"])).store.reloadIn
      revised (.ofList ["other"])).result = .error (.destroyed "user") := by cbv
  have interchanges := every .bilingual revised store (.ofList ["other"]) (.ofList ["en"])
    (fun _ => Enumerator.keepsNames_memory _) ((reachable_bilingualFrom "a").subscribe _) (by cbv) ⟨_, unaffected⟩
    ⟨_, affected⟩
  obtain ⟨outcome, succeeded⟩ := interchanges.first_succeeds
  cases succeeded.symm.trans late

end Store

end MessageCatalogue
