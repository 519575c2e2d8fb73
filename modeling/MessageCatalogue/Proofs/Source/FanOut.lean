import Mathlib
import MessageCatalogue.Proofs.Source.Leaves
import MessageCatalogue.Proofs.Store.Failures
import MessageCatalogue.Proofs.Store.Reachable

/-! A change visits every store that it concerns once, and what came of each visit is told in the end. -/

namespace MessageCatalogue

open Fetch

/-- The reload of the store under a number in the course of a change, with the exchanges that it had. -/
structure Visit where
  key : StoreKey
  exchanges : List Exchange
  reloaded : Reloaded

namespace Visit

/-- The notices of a visit, which are none when it failed. -/
def notices (visit : Visit) : List Notice :=
  match visit.reloaded.result with
  | .ok outcome => outcome.notices
  | .error _ => []

/-- The errors of a visit, which are none when it succeeded. -/
def errors (visit : Visit) : List MessageError :=
  match visit.reloaded.result with
  | .ok _ => []
  | .error error => [error]

/-- A visit either publishes a new snapshot and calls every listener or leaves its store alone. -/
def IsAtomic (event : ChangeEvent) (store : Store) (visit : Visit) : Prop :=
  -- Only a store that serves something can be visited.
  ∃ current, store.lifecycle = .initialized current ∧
    match visit.reloaded.result with
    | .ok outcome =>
      ∃ next, Transcript (store.setup.refreshSnapshot current (store.setup.affectedLocales current event)).run
          visit.exchanges (.ok next) ∧
        outcome = ⟨[store.setup.noticeOf current event]⟩ ∧
        visit.reloaded.store = { store with lifecycle := .initialized next } ∧
        visit.reloaded.deliveries = store.callsWith (store.setup.noticeOf current event)
    | .error _ => visit.reloaded.store = store ∧ visit.reloaded.deliveries = []

/-- A visit of a passive store that is concerned by the change is atomic. -/
theorem isAtomic_of_passive {met : Exchange → Prop} {setup : Setup} {event : ChangeEvent} {store : Store}
    {visit : Visit} (reached : Store.Reachable met setup store) (passive : store.IsPassive)
    (touched : event.changed.any store.owns = true)
    (transcript : Transcript (store.reload event) visit.exchanges visit.reloaded) :
    visit.IsAtomic event store := by
  -- A store that owns something is initialized, and the event affects one of its locales.
  obtain ⟨result, publication, same, calls⟩ := Store.transcript_reload_of_passive passive transcript
  obtain ⟨identifier, named, owned⟩ := List.any_eq_true.mp touched
  obtain ⟨current, serves, own⟩ := Store.serving_of_owns owned
  obtain ⟨_, _, _, after, _⟩ := visit
  unfold IsAtomic
  simp only at same calls publication ⊢
  rw [same, calls]
  cases publication with
  | uninitialized lifecycle => cases serves.symm.trans lifecycle
  | destroyed lifecycle => cases serves.symm.trans lifecycle
  | unaffected serving nothing =>
    obtain rfl := Lifecycle.initialized.inj (serves.symm.trans serving)
    cases own.symm.trans ((reached.isKeyed serving).affectedLocales_eq_nil_iff.mp nothing identifier named)
  | failed serving affected loading => exact ⟨_, serving, rfl, rfl⟩
  | published serving affected loading => exact ⟨_, serving, _, loading, rfl, rfl, rfl⟩

end Visit

/-- Some visits, each of another store, lead from one registry to another and to nothing else. -/
structure Tour (event : ChangeEvent) (before : Registry) (exchanges : List Exchange) (visits : List Visit)
    (after : Registry) : Prop where
  asked : exchanges = visits.flatMap (·.exchanges)
  reloads : ∀ visit ∈ visits,
    Transcript ((before.store visit.key).reload event) visit.exchanges visit.reloaded
  visited : ∀ visit ∈ visits, after.store visit.key = visit.reloaded.store
  others : ∀ key, key ∉ visits.map (·.key) → after.store key = before.store key
  deliveries : after.deliveries = before.deliveries ++ visits.flatMap (·.reloaded.deliveries)

namespace Tour

variable {event : ChangeEvent} {before middle after : Registry}

/-- A tour without visits leads nowhere. -/
theorem nil (registry : Registry) : Tour event registry [] [] registry :=
  ⟨rfl, by simp, by simp, fun _ _ => rfl, (List.append_nil _).symm⟩

/-- Two tours in a row are one, unless the second one comes back to a store of the first one. -/
theorem append {first second : List Exchange} {earlier later : List Visit}
    (one : Tour event before first earlier middle) (other : Tour event middle second later after)
    (apart : ∀ visit ∈ later, visit.key ∉ earlier.map (·.key)) :
    Tour event before (first ++ second) (earlier ++ later) after := by
  -- The condition keeps the stores of the two tours apart, so each of them goes as it would by itself.
  refine ⟨?_, ?_, ?_, ?_, ?_⟩
  · rw [one.asked, other.asked, List.flatMap_append]
  · -- A store of the second tour is still as it was before the first one.
    intro visit member
    rcases List.mem_append.mp member with member | member
    · exact one.reloads visit member
    · rw [← one.others visit.key (apart visit member)]
      exact other.reloads visit member
  · -- A store of the first tour stays as it was left during the second one.
    intro visit member
    rcases List.mem_append.mp member with member | member
    · have kept : visit.key ∉ later.map (·.key) := by
        intro again
        obtain ⟨second, found, same⟩ := List.mem_map.mp again
        exact apart second found (same ▸ List.mem_map_of_mem member)
      rw [other.others visit.key kept]
      exact one.visited visit member
    · exact other.visited visit member
  · -- A store that neither tour visits is left alone by both.
    intro key absent
    rw [List.map_append, List.mem_append, not_or] at absent
    rw [other.others key absent.2, one.others key absent.1]
  · rw [other.deliveries, one.deliveries, List.flatMap_append, List.append_assoc]

/-- Of the stores that a tour leaves out, an event touches the same ones after it as before it. -/
theorem filter_touches {exchanges : List Exchange} {visits : List Visit} {keys : List StoreKey}
    (tour : Tour event before exchanges visits after) (apart : ∀ key ∈ keys, key ∉ visits.map (·.key)) :
    keys.filter (Source.touches after event) = keys.filter (Source.touches before event) := by
  -- Whether a store is touched is read off the store alone.
  refine List.filter_congr fun key member => ?_
  rw [Source.touches, Source.touches, tour.others key (apart key member)]

end Tour

/-- A result accounts for some visits when it gives all their notices or else all their errors. -/
def Accounts (visits : List Visit) : Except MessageError ReloadOutcome → Prop
  | .ok outcome => visits.flatMap (·.errors) = [] ∧ outcome.notices = visits.flatMap (·.notices)
  | .error error => error.IsGrouped ∧ error.leaves = visits.flatMap (·.errors)

/-- An outcome and errors gathered on the way account for some visits together. -/
structure Gathers (visits : List Visit) (outcome : ReloadOutcome) (errors : List MessageError) : Prop where
  grouped : ∀ error ∈ errors, error.IsGrouped
  leaves : errors.flatMap (·.leaves) = visits.flatMap (·.errors)
  notices : errors = [] → outcome.notices = visits.flatMap (·.notices)

namespace Gathers

variable {visits own : List Visit} {outcome : ReloadOutcome} {errors : List MessageError}

/-- Nothing is gathered without visits. -/
theorem nil : Gathers [] .unaffected [] := ⟨by simp, rfl, fun _ => rfl⟩

/-- What was gathered on the way makes a result that accounts for all visits. -/
theorem accounts (gathers : Gathers visits outcome errors) :
    Accounts visits (Source.unlessErrors outcome errors) := by
  -- There is an error to report exactly when some error was gathered.
  unfold Source.unlessErrors
  cases combined : MessageError.combined? errors with
  | none =>
    have none := MessageError.combined?_eq_none_iff.mp combined
    exact ⟨by rw [← gathers.leaves, none, List.flatMap_nil], gathers.notices none⟩
  | some error =>
    exact ⟨MessageError.isGrouped_of_combined gathers.grouped combined,
      by rw [MessageError.leaves_of_combined combined, gathers.leaves]⟩

/-- An outcome that accounts for earlier visits is merged with what was gathered later. -/
theorem cons_ok {first : ReloadOutcome} (accounts : Accounts own (.ok first))
    (gathers : Gathers visits outcome errors) : Gathers (own ++ visits) (first.merge outcome) errors := by
  -- The earlier visits have no errors, and their notices come first.
  obtain ⟨none, notices⟩ := accounts
  refine ⟨gathers.grouped, ?_, ?_⟩
  · rw [List.flatMap_append, none, List.nil_append, gathers.leaves]
  · intro succeeded
    rw [ReloadOutcome.merge, notices, gathers.notices succeeded, List.flatMap_append]

/-- An error that accounts for earlier visits is put in front of those gathered later. -/
theorem cons_error {error : MessageError} (accounts : Accounts own (.error error))
    (gathers : Gathers visits outcome errors) : Gathers (own ++ visits) outcome (error :: errors) := by
  -- With an error in front, no notices are promised.
  obtain ⟨grouped, leaves⟩ := accounts
  refine ⟨?_, ?_, by simp⟩
  · intro other member
    rcases List.mem_cons.mp member with rfl | member
    · exact grouped
    · exact gathers.grouped other member
  · rw [List.flatMap_cons, leaves, gathers.leaves, List.flatMap_append]

end Gathers

namespace Source

variable {event : ChangeEvent}

/-- A store that is reloaded by itself is visited, and its result accounts for that. -/
theorem tour_of_reloadStore {registry after : Registry} {key : StoreKey} {exchanges : List Exchange}
    {result : Except MessageError ReloadOutcome} (kept : key < registry.stores.length)
    (transcript : Transcript (registry.reloadStore key event) exchanges (result, after)) :
    ∃ visit : Visit, visit.key = key ∧ Tour event registry exchanges [visit] after ∧ Accounts [visit] result := by
  -- The store that comes out of the reload is put back in its place.
  obtain ⟨earlier, later, reloaded, rfl, before, last⟩ := transcript_bind.mp transcript
  obtain ⟨rfl, rfl, rfl⟩ := transcript_done_mk.mp last
  refine ⟨⟨key, earlier, reloaded⟩, rfl, ⟨by simp, by simpa using before, ?_, ?_, by simp [Registry.set]⟩, ?_⟩
  · intro visit member
    obtain rfl := List.mem_singleton.mp member
    exact registry.store_set_self kept reloaded.store
  · intro other absent
    exact registry.store_set_of_ne (by simpa using absent) reloaded.store
  · -- The error of a store is that of its publication.
    obtain ⟨_, _, published, _, _, publication, same⟩ := Store.publication_of_reloadWithin before
    cases published with
    | ok notice => simp [same, Accounts, Visit.errors, Visit.notices, Except.map]
    | error error =>
      have single := publication.single
      simp [same, Accounts, Visit.errors, Except.map, MessageError.leaves_of_single single,
        MessageError.IsGrouped.single single]

mutual

/-- A source that an event touches visits those of its stores that are touched, in order. -/
theorem tour_of_reload (source : Source) {registry after : Registry} {exchanges : List Exchange}
    {result : Except MessageError ReloadOutcome} (distinct : (leaves source).Nodup)
    (touched : isTouchedBy registry event source = true)
    (transcript : Transcript (reload event source registry) exchanges (result, after)) :
    ∃ visits : List Visit, visits.map (·.key) = (leaves source).filter (touches registry event) ∧
      Tour event registry exchanges visits after ∧ Accounts visits result := by
  -- A composite does what its members do, and a source without stores is never touched.
  cases source with
  | store key =>
    have own : touches registry event key = true := by simpa [isTouchedBy_eq, leaves] using touched
    rw [reload] at transcript
    obtain ⟨visit, rfl, tour, accounts⟩ := tour_of_reloadStore (lt_of_touches own) transcript
    exact ⟨[visit], by simp [leaves, own], tour, accounts⟩
  | silent locale => simp [isTouchedBy_eq, leaves] at touched
  | composite name resolver common members =>
    rw [reload] at transcript
    obtain ⟨earlier, later, ⟨outcome, errors, finished⟩, rfl, before, last⟩ := transcript_bind.mp transcript
    obtain ⟨rfl, rfl, rfl⟩ := transcript_done_mk.mp last
    rw [leaves] at distinct ⊢
    obtain ⟨visits, keys, tour, gathers⟩ := tour_of_reloadOwners members distinct before
    exact ⟨visits, keys, by rwa [List.append_nil], gathers.accounts⟩
termination_by sizeOf source

/-- Several sources visit those of their stores that are touched, one source after the other. -/
theorem tour_of_reloadOwners (members : List Source) {registry after : Registry} {exchanges : List Exchange}
    {outcome : ReloadOutcome} {errors : List MessageError} (distinct : (leavesOfAll members).Nodup)
    (transcript : Transcript (reloadOwners event members registry) exchanges (outcome, errors, after)) :
    ∃ visits : List Visit, visits.map (·.key) = (leavesOfAll members).filter (touches registry event) ∧
      Tour event registry exchanges visits after ∧ Gathers visits outcome errors := by
  cases members with
  | nil =>
    rw [reloadOwners] at transcript
    obtain ⟨rfl, rfl, rfl, rfl⟩ := by simpa using transcript_done.mp transcript
    exact ⟨[], rfl, .nil _, .nil⟩
  | cons first rest =>
    rw [leavesOfAll, List.nodup_append] at distinct
    obtain ⟨own, others, apart⟩ := distinct
    rw [reloadOwners] at transcript
    cases touched : isTouchedBy registry event first with
    | false =>
      -- A member that owns nothing has no store to visit.
      simp only [touched, Bool.false_eq_true, if_false] at transcript
      obtain ⟨visits, keys, tour, gathers⟩ := tour_of_reloadOwners rest others transcript
      have none : (leaves first).filter (touches registry event) = [] := by
        rw [List.filter_eq_nil_iff]
        simpa [isTouchedBy_eq] using touched
      exact ⟨visits, by rw [leavesOfAll, List.filter_append, none, List.nil_append, keys], tour, gathers⟩
    | true =>
      -- A member that is touched is reloaded before the others are even asked.
      simp only [touched, if_true] at transcript
      obtain ⟨earlier, later, ⟨result, reloaded⟩, rfl, before, last⟩ := transcript_bind.mp transcript
      obtain ⟨middle, ended, ⟨gathered, failures, finished⟩, rfl, between, last⟩ := transcript_bind.mp last
      obtain ⟨visits, keys, tour, accounts⟩ := tour_of_reload first own touched before
      obtain ⟨more, moreKeys, onward, gathers⟩ := tour_of_reloadOwners rest others between
      -- The stores of the other members are as they were, so the same ones are touched.
      have visited : ∀ visit ∈ visits, visit.key ∈ leaves first := fun visit member =>
        List.mem_of_mem_filter (keys ▸ List.mem_map_of_mem member)
      have untouched : ∀ key ∈ leavesOfAll rest, key ∉ visits.map (·.key) := by
        intro key member again
        obtain ⟨visit, found, rfl⟩ := List.mem_map.mp again
        exact apart _ (visited visit found) _ member rfl
      have still := tour.filter_touches untouched
      have whole : (visits ++ more).map (·.key) =
          (leavesOfAll (first :: rest)).filter (touches registry event) := by
        rw [List.map_append, keys, moreKeys, still, leavesOfAll, List.filter_append]
      have joined := tour.append onward fun visit member =>
        untouched visit.key (List.mem_of_mem_filter (moreKeys ▸ List.mem_map_of_mem member))
      -- The other members are visited whether or not the first one failed.
      cases result with
      | ok outcome =>
        obtain ⟨rfl, rfl, rfl, rfl⟩ := by simpa using transcript_done.mp last
        exact ⟨visits ++ more, whole, by rwa [List.append_nil], gathers.cons_ok accounts⟩
      | error error =>
        obtain ⟨rfl, rfl, rfl, rfl⟩ := by simpa using transcript_done.mp last
        exact ⟨visits ++ more, whole, by rwa [List.append_nil], gathers.cons_error accounts⟩
termination_by sizeOf members

end

/--
A change visits once, in order, each store of a composite that owns something of what it names.

No visit is left out because another one failed, and the result tells what came of all of them.
-/
theorem change_fans_out {name : String} {resolver : Option LocaleResolver} {common : Option String}
    {members : List Source} {registry after : Registry} {exchanges : List Exchange}
    {result : Except MessageError ReloadOutcome} (distinct : (leavesOfAll members).Nodup)
    (reached : ∀ key ∈ leavesOfAll members,
      Store.Reachable (fun _ => True) (registry.store key).setup (registry.store key))
    (passive : ∀ key ∈ leavesOfAll members, (registry.store key).IsPassive)
    (transcript : Transcript (reload event (.composite name resolver common members) registry) exchanges
      (result, after)) :
    ∃ visits : List Visit, visits.map (·.key) = (leavesOfAll members).filter (touches registry event) ∧
      Tour event registry exchanges visits after ∧
      (∀ visit ∈ visits, visit.IsAtomic event (registry.store visit.key)) ∧
      ((∃ outcome, result = .ok outcome) ↔ ∀ visit ∈ visits, ∃ outcome, visit.reloaded.result = .ok outcome) ∧
      (∀ outcome, result = .ok outcome → outcome.notices = visits.flatMap (·.notices)) ∧
      (∀ error, result = .error error → error.IsGrouped ∧ error.leaves = visits.flatMap (·.errors)) ∧
      ∀ error, visits.flatMap (·.errors) = [error] → result = .error error := by
  rw [reload] at transcript
  obtain ⟨earlier, later, ⟨outcome, errors, finished⟩, rfl, before, last⟩ := transcript_bind.mp transcript
  obtain ⟨rfl, rfl, rfl⟩ := transcript_done_mk.mp last
  obtain ⟨visits, keys, tour, gathers⟩ := tour_of_reloadOwners members distinct before
  have accounts := gathers.accounts
  -- A visit has no error exactly when it succeeded.
  have succeeded : visits.flatMap (·.errors) = [] ↔
      ∀ visit ∈ visits, ∃ outcome, visit.reloaded.result = .ok outcome := by
    rw [List.flatMap_eq_nil_iff]
    refine forall₂_congr fun visit member => ?_
    unfold Visit.errors
    cases visit.reloaded.result <;> simp
  refine ⟨visits, keys, by rwa [List.append_nil], ?_, ?_⟩
  · intro visit member
    have found : visit.key ∈ (leavesOfAll members).filter (touches registry event) :=
      keys ▸ List.mem_map_of_mem member
    obtain ⟨leaf, touched⟩ := List.mem_filter.mp found
    exact Visit.isAtomic_of_passive (reached visit.key leaf) (passive visit.key leaf) touched
      (tour.reloads visit member)
  · -- The result tells all notices or all errors.
    rw [← succeeded]
    generalize unlessErrors outcome errors = result at accounts
    cases result with
    | ok outcome =>
      obtain ⟨none, notices⟩ := accounts
      simp [none, notices]
    | error error =>
      obtain ⟨grouped, leaves⟩ := accounts
      have some := grouped.leaves_ne_nil
      rw [leaves] at some
      refine ⟨by simp [some], by simp, ?_, ?_⟩
      · rintro _ ⟨⟩
        exact ⟨grouped, leaves⟩
      · intro leaf alone
        rw [grouped.eq_of_leaves (leaves.trans alone)]

/-- A setup of the English messages of a source, whose resource has a name of source and locale. -/
def servingSetup (source : String) : Setup :=
  ⟨source, ⟨.shared, ⟨"\x7bsource\x7d_\x7blocale\x7d"⟩, .utf8⟩, .english, some []⟩

/-- Holdings in which every resource is there but has no messages. -/
def untranslated : Holdings := fun _ =>
  { list := fun _ => .ok []
    resources := fun name => .ok [⟨"memory", name⟩]
    read := fun _ => .ok .empty }

/-- A store that serves a source without messages and has a listener of its name. -/
def servingStore (source : String) : Store :=
  ⟨servingSetup source, .initialized ⟨[.english], [(.english, ⟨source ++ "_en", [⟨"memory", source ++ "_en"⟩], ∅⟩)]⟩,
    [⟨source, .record⟩]⟩

/-- Such a store is passive. -/
theorem isPassive_servingStore (source : String) : (servingStore source).IsPassive := by
  simp [Store.IsPassive, servingStore]

/-- Such a store is reached by an initialization and a subscription. -/
theorem reachable_servingStore {source : String} (listed : source ∈ ["a", "b", "c"]) :
    Store.Reachable (fun _ => True) (servingStore source).setup (servingStore source) := by
  have initialized : servingStore source =
      ((Store.ofSetup (servingSetup source)).init.run untranslated).2.subscribe ⟨source, .record⟩ := by
    simp only [List.mem_cons, List.not_mem_nil, or_false] at listed
    rcases listed with rfl | rfl | rfl <;> cbv
  rw [initialized]
  exact (Store.Reachable.fresh.run_init_of_met fun _ _ => trivial).subscribe _

/-- Three such stores. -/
def threeStores : Registry := ⟨[servingStore "a", servingStore "b", servingStore "c"], []⟩

/-- The three stores in another order, one of them inside a composite. -/
def nestedMembers : List Source := [.store 2, .store 0, .composite "inner" none none [.store 1]]

/-- Such members come to each of the three stores once. -/
theorem leavesOfAll_nestedMembers : leavesOfAll nestedMembers = [2, 0, 1] := by cbv

/-- Every store of such members is reached with its setup. -/
theorem reachable_threeStores : ∀ key ∈ leavesOfAll nestedMembers,
    Store.Reachable (fun _ => True) (threeStores.store key).setup (threeStores.store key) := by
  rw [leavesOfAll_nestedMembers]
  simp only [List.forall_mem_cons]
  exact ⟨reachable_servingStore (by simp), reachable_servingStore (by simp), reachable_servingStore (by simp), by simp⟩

/-- Every store of such members is passive. -/
theorem isPassive_threeStores : ∀ key ∈ leavesOfAll nestedMembers, (threeStores.store key).IsPassive := by
  rw [leavesOfAll_nestedMembers]
  simp only [List.forall_mem_cons]
  exact ⟨isPassive_servingStore "c", isPassive_servingStore "a", isPassive_servingStore "b", by simp⟩

/-- Holdings in which every resource can be read but that of the first source. -/
def partlyAvailable : Holdings := fun _ =>
  { list := fun _ => .ok []
    resources := fun name => if name = "a_en" then .error (.other "unavailable") else .ok [⟨"memory", name⟩]
    read := fun _ => .ok "key=value".toUTF8 }

/-- A change of the first two sources, through members of which the first store cannot be reloaded. -/
def partialChange : Fetch (Except MessageError ReloadOutcome × Registry) :=
  reload (.ofList ["a_en", "b_en"]) (.composite "outer" none none nestedMembers) threeStores

/-- The change ends with the error of the first store. -/
theorem result_partialChange : (partialChange.run partlyAvailable).1 =
    .error (.load "a" .english "a_en" (.other "unavailable")) := by
  cbv

/-- The change reaches the second store. -/
theorem lookup_partialChange :
    ((partialChange.run partlyAvailable).2.store 1).lookup "key" .english [] = some "value" := by
  cbv

/-- A store that cannot be reloaded does not keep the change from a later member. -/
theorem failing_store_stops_no_other_visit :
    let event := ChangeEvent.ofList ["a_en", "b_en"]
    let error := MessageError.load "a" .english "a_en" (.other "unavailable")
    ∃ exchanges after visits, partialChange.run partlyAvailable = (.error error, after) ∧
      (after.store 1).lookup "key" .english [] = some "value" ∧
      visits.map (·.key) = [0, 1] ∧ Tour event threeStores exchanges visits after ∧
      (∀ visit ∈ visits, visit.IsAtomic event (threeStores.store visit.key)) ∧
      error.leaves = visits.flatMap (·.errors) := by
  intro event error
  have owners : (leavesOfAll nestedMembers).filter (touches threeStores event) = [0, 1] := by cbv
  have distinct : (leavesOfAll nestedMembers).Nodup := by rw [leavesOfAll_nestedMembers]; decide
  -- The theorem is about any exchanges, and these are the ones of the holdings.
  have transcript := transcript_recorded partlyAvailable partialChange
  rw [← Prod.eta (partialChange.run partlyAvailable), result_partialChange] at transcript
  obtain ⟨visits, keys, tour, atomic, _, _, leaves, _⟩ :=
    change_fans_out distinct reachable_threeStores isPassive_threeStores transcript
  exact ⟨_, _, visits, Prod.ext result_partialChange rfl, lookup_partialChange, keys.trans owners, tour, atomic,
    (leaves error rfl).2⟩

end Source

end MessageCatalogue
