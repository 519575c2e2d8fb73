import MessageCatalogue.Proofs.Resource.Loading
import MessageCatalogue.Store.Reload

/-! Whatever every publication of a store keeps is kept by its reloads, however their listeners call back. -/

namespace MessageCatalogue

open Loading

/-- Some locales whose resources were loaded from the same holdings and then served. -/
structure Load where
  holdings : Holdings
  locales : List Locale

namespace Setup

/-- A snapshot is refreshed when an event affects one of its locales. -/
theorem outcome_refresh (holdings : Holdings) (setup : Setup) (current : Snapshot) (event : ChangeEvent) :
    outcome holdings (setup.refresh current event) =
      if (setup.affectedLocales current event).isEmpty then .ok none
      else (outcome holdings (setup.refreshSnapshot current (setup.affectedLocales current event))).map fun snapshot =>
        some ⟨snapshot, setup.source, setup.affectedLocales current event, event.changed.filter current.owns⟩ := by
  -- The notice is put together without asking for anything.
  unfold refresh
  dsimp only
  split
  · rfl
  · rw [outcome_bind]
    cases outcome holdings (setup.refreshSnapshot current (setup.affectedLocales current event)) <;> rfl

end Setup

namespace Store

variable {store : Store} {holdings : Holdings}

/-- A store that was never initialized is initialized by loading its snapshot. -/
theorem run_init (uninitialized : store.lifecycle = .uninitialized) :
    store.init.run holdings =
      match outcome holdings store.setup.load with
      | .ok snapshot => (.ok (), { store with lifecycle := .initialized snapshot })
      | .error error => (.error error, store) := by
  -- What was loaded decides what the store becomes.
  simp only [init, uninitialized, outcome, Fetch.bind_eq, Fetch.run_bind]
  cases store.setup.load.run.run holdings <;> rfl

/-- A store that is or was initialized is not loaded again. -/
theorem run_init_of_ne (initialized : store.lifecycle ≠ .uninitialized) :
    (store.init.run holdings).2 = store := by
  -- Only the state before any initialization leads to a load.
  unfold init
  cases lifecycle : store.lifecycle with
  | uninitialized => exact absurd lifecycle initialized
  | initialized current => rfl
  | destroyed => rfl

/-- An initialized store publishes a refreshed snapshot, if an event affects it and nothing fails. -/
theorem run_publish {current : Snapshot} {event : ChangeEvent}
    (initialized : store.lifecycle = .initialized current) :
    (store.publish event).run holdings =
      match outcome holdings (store.setup.refresh current event) with
      | .ok (some refreshed) =>
        (.ok (some refreshed.notice), { store with lifecycle := .initialized refreshed.snapshot })
      | .ok none => (.ok none, store)
      | .error error => (.error error, store) := by
  -- What was refreshed decides what the store becomes.
  simp only [publish, initialized, outcome, Fetch.bind_eq, Fetch.run_bind]
  cases (store.setup.refresh current event).run.run holdings with
  | error error => rfl
  | ok refreshed => cases refreshed <;> rfl

/-- What publishing after an event loads, which is nothing unless a snapshot is published. -/
def publishLoads (holdings : Holdings) (store : Store) (event : ChangeEvent) : List Load :=
  match ((store.publish event).run holdings).1 with
  | .ok (some notice) => [⟨holdings, notice.locales⟩]
  | _ => []

/-- A store either stays as it is without a load or publishes what it loaded for the affected locales. -/
theorem run_publish_cases (holdings : Holdings) (store : Store) (event : ChangeEvent) :
    ((store.publish event).run holdings).2 = store ∧ store.publishLoads holdings event = [] ∨
      ∃ current next, store.lifecycle = .initialized current ∧
        outcome holdings
          (store.setup.refreshSnapshot current (store.setup.affectedLocales current event)) = .ok next ∧
        ((store.publish event).run holdings).2 = { store with lifecycle := .initialized next } ∧
        store.publishLoads holdings event = [⟨holdings, store.setup.affectedLocales current event⟩] := by
  -- A store that is not initialized, an event that affects nothing and a failure all change nothing.
  cases lifecycle : store.lifecycle with
  | uninitialized => exact .inl (by simp [publish, publishLoads, lifecycle])
  | destroyed => exact .inl (by simp [publish, publishLoads, lifecycle])
  | initialized current =>
    unfold publishLoads
    rw [run_publish lifecycle, Setup.outcome_refresh]
    by_cases unaffected : (store.setup.affectedLocales current event).isEmpty = true
    · rw [if_pos unaffected]
      exact .inl ⟨rfl, rfl⟩
    · rw [if_neg unaffected]
      cases refreshed : outcome holdings
          (store.setup.refreshSnapshot current (store.setup.affectedLocales current event)) with
      | error error => exact .inl ⟨rfl, rfl⟩
      | ok next => exact .inr ⟨current, next, rfl, refreshed, rfl, rfl⟩

/-- The reloads that listeners may make while a reload is going on, nested at most so deep. -/
def reenter : Nat → Store → ChangeEvent → Fetch (Store × List Delivery)
  -- At the bottom of the nesting a reload leaves everything as it is.
  | 0 => fun store _ => return (store, [])
  | depth + 1 => fun store event => do
    let inner ← reloadWithin depth store event
    return (inner.store, inner.deliveries)

/-- A reload publishes first and then lets its listeners reload the store again. -/
theorem run_reloadWithin (holdings : Holdings) (depth : Nat) (store : Store) (event : ChangeEvent) :
    (store.reloadWithin depth event).run holdings =
      match (store.publish event).run holdings with
      | (.error error, published) => ⟨.error error, published, []⟩
      | (.ok none, published) => ⟨.ok .unaffected, published, []⟩
      | (.ok (some notice), published) =>
        let notified := (notify (reenter depth) notice published.listeners.zipIdx published).run holdings
        ⟨.ok ⟨[notice]⟩, notified.1, notified.2⟩ := by
  -- How deep reloads may nest makes no difference before listeners are called.
  cases depth <;> simp only [reloadWithin, Fetch.bind_eq, Fetch.run_bind] <;>
  · rcases (store.publish event).run holdings with ⟨result | notice, published⟩
    · rfl
    · cases notice with
      | none => rfl
      | some notice => simp only [Fetch.run_bind, Fetch.pure_eq, Fetch.run_done]; rfl

/-- A reload that succeeds has published first. -/
theorem publish_of_reload_ok {event : ChangeEvent} {outcome : ReloadOutcome}
    (succeeded : ((store.reload event).run holdings).result = .ok outcome) :
    ∃ notice, ((store.publish event).run holdings).1 = .ok notice := by
  -- An error of the publication would be that of the reload.
  rw [reload, run_reloadWithin] at succeeded
  generalize (store.publish event).run holdings = ran at succeeded ⊢
  obtain ⟨error | notice, published⟩ := ran
  · cases succeeded
  · exact ⟨notice, rfl⟩

/-- A reload of a listener leaves the store that a reload one level less deep leaves. -/
theorem run_reenter_succ (holdings : Holdings) (depth : Nat) (store : Store) (event : ChangeEvent) :
    ((reenter (depth + 1) store event).run holdings).1 =
      ((store.reloadWithin depth event).run holdings).store := by
  simp [reenter]

/-- What the listener at a position loads when it is called, where further reloads load as given. -/
def reactLoads (inner : Store → ChangeEvent → List Load) (position : Nat) (store : Store) : List Load :=
  match store.listeners[position]? with
  | some ⟨_, .reloadOnce event⟩ => inner (store.spend position) event
  | _ => []

/-- What some listeners load when they are called one after the other. -/
def notifyLoads (holdings : Holdings) (again : Store → ChangeEvent → Fetch (Store × List Delivery))
    (inner : Store → ChangeEvent → List Load) : List (Listener × Nat) → Store → List Load
  -- A listener loads from the store that the listeners before it leave.
  | [], _ => []
  | (_, position) :: rest, store =>
    store.reactLoads inner position ++
      notifyLoads holdings again inner rest ((store.react again position).run holdings).1

/-- What the listeners of a reload load after it has published, where further reloads load as given. -/
def calledLoads (holdings : Holdings) (depth : Nat) (inner : Store → ChangeEvent → List Load) :
    Except MessageError (Option Notice) × Store → List Load
  -- Only a publication calls listeners.
  | (.ok (some _), published) =>
    notifyLoads holdings (reenter depth) inner published.listeners.zipIdx published
  | _ => []

/-- What a reload and those of its listeners load and then serve, in order, nested at most so deep. -/
def loadsWithin (holdings : Holdings) : Nat → Store → ChangeEvent → List Load
  -- A reload loads before it calls anyone, so what its listeners load comes later.
  | 0 => fun _ _ => []
  | depth + 1 => fun store event =>
    store.publishLoads holdings event ++
      calledLoads holdings depth (loadsWithin holdings depth) ((store.publish event).run holdings)

/-- What a reload loads and then serves, in order. -/
def reloadLoads (holdings : Holdings) (store : Store) (event : ChangeEvent) : List Load :=
  loadsWithin holdings (store.pendingReloads + 1) store event

/-- A property of stores and the loads behind them that lasts through everything a reload consists of. -/
structure Kept (holdings : Holdings) (property : List Load → Store → Prop) : Prop where
  publish : ∀ loads store event, property loads store →
    property (loads ++ store.publishLoads holdings event) ((store.publish event).run holdings).2
  spend : ∀ loads store position, property loads store → property loads (store.spend position)
  destroy : ∀ loads store, property loads store → property loads store.destroy

namespace Kept

variable {property : List Load → Store → Prop} (kept : Kept holdings property)

include kept

/-- A listener keeps the property when the reloads it may make do. -/
theorem react {again : Store → ChangeEvent → Fetch (Store × List Delivery)}
    {inner : Store → ChangeEvent → List Load}
    (nested : ∀ loads store event, property loads store →
      property (loads ++ inner store event) ((again store event).run holdings).1)
    {loads : List Load} (position : Nat) (holds : property loads store) :
    property (loads ++ store.reactLoads inner position) ((store.react again position).run holdings).1 := by
  -- Only the reload of a listener loads anything, and by then it is used up.
  unfold Store.react reactLoads
  cases store.listeners[position]? with
  | none => exact (List.append_nil loads).symm ▸ holds
  | some listener =>
    obtain ⟨tag, reaction⟩ := listener
    cases reaction with
    | record => exact (List.append_nil loads).symm ▸ holds
    | destroy => exact (List.append_nil loads).symm ▸ kept.destroy loads store holds
    | reloadOnce event => exact nested loads _ event (kept.spend loads store position holds)

/-- Listeners that are called one after the other keep the property when each of them does. -/
theorem notify {again : Store → ChangeEvent → Fetch (Store × List Delivery)}
    {inner : Store → ChangeEvent → List Load} (notice : Notice)
    (nested : ∀ loads store event, property loads store →
      property (loads ++ inner store event) ((again store event).run holdings).1)
    (listeners : List (Listener × Nat)) {loads : List Load} (holds : property loads store) :
    property (loads ++ notifyLoads holdings again inner listeners store)
      ((Store.notify again notice listeners store).run holdings).1 := by
  -- Each listener finds the store as those before it left it.
  induction listeners generalizing loads store with
  | nil => exact (List.append_nil loads).symm ▸ holds
  | cons first rest ih =>
    have reacted := ih (kept.react nested first.2 holds)
    simp only [Store.notify, notifyLoads, Fetch.bind_eq, Fetch.run_bind, Fetch.pure_eq, Fetch.run_done,
      ← List.append_assoc]
    exact reacted

/-- A reload whose own snapshot has the property ends with it when the reloads of its listeners keep it. -/
theorem called {depth : Nat} {inner : Store → ChangeEvent → List Load} {event : ChangeEvent}
    (nested : ∀ loads store event, property loads store →
      property (loads ++ inner store event) ((Store.reenter depth store event).run holdings).1)
    {loads : List Load} (published : property loads ((store.publish event).run holdings).2) :
    property (loads ++ calledLoads holdings depth inner ((store.publish event).run holdings))
      ((store.reloadWithin depth event).run holdings).store := by
  -- Listeners are called only when there is a notice for them.
  rw [run_reloadWithin]
  generalize (store.publish event).run holdings = ran at published ⊢
  obtain ⟨error | notice, after⟩ := ran
  · exact (List.append_nil loads).symm ▸ published
  · cases notice with
    | none => exact (List.append_nil loads).symm ▸ published
    | some notice => exact kept.notify notice nested _ published

/-- Reloads keep the property, however deep listeners nest them. -/
theorem reenter (depth : Nat) {loads : List Load} (event : ChangeEvent) (holds : property loads store) :
    property (loads ++ loadsWithin holdings depth store event)
      ((Store.reenter depth store event).run holdings).1 := by
  -- The reloads of listeners are one level less deep.
  induction depth generalizing loads store event with
  | zero => exact (List.append_nil loads).symm ▸ holds
  | succ depth ih =>
    rw [run_reenter_succ, loadsWithin, ← List.append_assoc]
    exact kept.called (fun _ _ event holds => ih event holds) (kept.publish loads store event holds)

/-- A reload keeps the property. -/
theorem reload {loads : List Load} (event : ChangeEvent) (holds : property loads store) :
    property (loads ++ store.reloadLoads holdings event) ((store.reload event).run holdings).store := by
  have reentered := kept.reenter (store.pendingReloads + 1) event holds
  rwa [run_reenter_succ] at reentered

/-- A reload has the property in the end if the store has it when the snapshot of the event was published. -/
theorem reload_of_publish (loads : List Load) {event : ChangeEvent}
    (published : property loads ((store.publish event).run holdings).2) :
    property (loads ++ calledLoads holdings store.pendingReloads (loadsWithin holdings store.pendingReloads)
      ((store.publish event).run holdings)) ((store.reload event).run holdings).store :=
  kept.called (fun _ _ event holds => kept.reenter _ event holds) published

end Kept

end Store

end MessageCatalogue
