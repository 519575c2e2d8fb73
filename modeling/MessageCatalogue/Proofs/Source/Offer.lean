import MessageCatalogue.Proofs.Source.FanOut

/-! A change that is offered to every member does no more than one that is passed on to its owners. -/

namespace MessageCatalogue

open Fetch

namespace Store

variable {store : Store} {event : ChangeEvent}

/-- A store that is neither destroyed nor disturbed by its listeners. -/
structure IsSteady (store : Store) : Prop where
  alive : store.lifecycle ≠ .destroyed
  passive : store.IsPassive

/-- A reload leaves a steady store steady. -/
theorem IsSteady.reload (steady : store.IsSteady) {exchanges : List Exchange} {reloaded : Reloaded}
    (transcript : Transcript (store.reload event) exchanges reloaded) : reloaded.store.IsSteady := by
  -- A publication keeps the listeners and destroys nothing.
  obtain ⟨result, publication, _, _⟩ := transcript_reload_of_passive steady.passive transcript
  obtain ⟨_, after, _⟩ := reloaded
  simp only at publication ⊢
  cases publication with
  | published serving affected loading => exact ⟨by simp, steady.passive⟩
  | _ => exact steady

/-- A store that owns nothing of what an event names is not reloaded. -/
theorem reload_of_untouched (alive : store.lifecycle ≠ .destroyed)
    (untouched : event.changed.any store.owns = false) :
    store.reload event = .done ⟨.ok .unaffected, store, []⟩ := by
  -- Nothing is refreshed, so nothing is published.
  have publish : store.publish event = .done (.ok none, store) := by
    unfold Store.publish
    cases lifecycle : store.lifecycle with
    | uninitialized => rfl
    | destroyed => exact absurd lifecycle alive
    | initialized current =>
      have nothing : store.setup.affectedLocales current event = [] :=
        Snapshot.affectedLocales_of_unowned (by simpa [owns, snapshot?, lifecycle] using untouched)
      simp only [Setup.refresh, nothing, List.isEmpty_nil, if_true]
      rfl
  unfold Store.reload reloadWithin
  simp only [publish, bind_eq, done_bind, pure_eq]

end Store

namespace Source

variable {event : ChangeEvent}

mutual

/-- The outcome of a change that every store of a source is offered, and the registry after it. -/
def offer (event : ChangeEvent) : Source → Registry → Fetch (Except MessageError ReloadOutcome × Registry)
  -- A store that a change does not concern answers by itself that it is unaffected.
  | .store key, registry => registry.reloadStore key event
  | .silent _, registry => return (.ok .unaffected, registry)
  | .composite _ _ _ members, registry => do
    let (outcome, errors, offered) ← offerAll event members registry
    return (unlessErrors outcome errors, offered)

/-- The notices and errors of a change that several sources are offered, one after the other. -/
def offerAll (event : ChangeEvent) : List Source → Registry → Fetch (ReloadOutcome × List MessageError × Registry)
  -- The errors of some members keep no other member from being offered the change.
  | [], registry => return (.unaffected, [], registry)
  | first :: rest, registry => do
    let (result, offered) ← offer event first registry
    let (outcome, errors, finished) ← offerAll event rest offered
    match result with
    | .ok own => return (own.merge outcome, errors, finished)
    | .error error => return (outcome, error :: errors, finished)

end

/-- Every store under some numbers is steady. -/
def AllSteady (registry : Registry) (keys : List StoreKey) : Prop :=
  ∀ key ∈ keys, (registry.store key).IsSteady

/-- The reload of a store leaves steady stores steady. -/
theorem AllSteady.reloadStore {registry after : Registry} {keys : List StoreKey} {key : StoreKey}
    (steady : AllSteady registry keys) (own : (registry.store key).IsSteady) {exchanges : List Exchange}
    {result : Except MessageError ReloadOutcome}
    (transcript : Transcript (registry.reloadStore key event) exchanges (result, after)) :
    AllSteady after keys := by
  obtain ⟨earlier, later, reloaded, rfl, before, last⟩ := transcript_bind.mp transcript
  obtain ⟨rfl, rfl, rfl⟩ := transcript_done_mk.mp last
  have changed := own.reload before
  intro other member
  -- A number that is not in use has no place to put anything.
  rcases eq_or_ne other key with rfl | different
  · by_cases kept : other < registry.stores.length
    · exact (registry.store_set_self kept reloaded.store).symm ▸ changed
    · have same : registry.set other reloaded.store = registry := by
        simp [Registry.set, List.set_eq_of_length_le (Nat.le_of_not_lt kept)]
      exact congrArg (·.store other) same ▸ own
  · exact (registry.store_set_of_ne different reloaded.store).symm ▸ steady other member

mutual

/-- A change leaves steady stores steady while it goes through a source. -/
theorem AllSteady.reload (source : Source) {registry after : Registry} {keys : List StoreKey}
    (steady : AllSteady registry keys) (own : AllSteady registry (leaves source)) {exchanges : List Exchange}
    {result : Except MessageError ReloadOutcome}
    (transcript : Transcript (reload event source registry) exchanges (result, after)) :
    AllSteady after keys := by
  cases source with
  | store key =>
    -- The store is one of its own leaves.
    rw [Source.reload] at transcript
    exact steady.reloadStore (own key (by simp [leaves])) transcript
  | silent locale =>
    rw [Source.reload] at transcript
    obtain ⟨_, _, rfl⟩ := transcript_done_mk.mp transcript
    exact steady
  | composite name resolver common members =>
    rw [Source.reload] at transcript
    obtain ⟨earlier, later, ⟨outcome, errors, finished⟩, rfl, before, last⟩ := transcript_bind.mp transcript
    obtain ⟨_, _, rfl⟩ := transcript_done_mk.mp last
    exact AllSteady.reloadOwners members steady (by rwa [leaves] at own) before
termination_by sizeOf source

/-- A change leaves steady stores steady while it goes through several sources. -/
theorem AllSteady.reloadOwners (members : List Source) {registry after : Registry} {keys : List StoreKey}
    (steady : AllSteady registry keys) (own : AllSteady registry (leavesOfAll members))
    {exchanges : List Exchange} {outcome : ReloadOutcome} {errors : List MessageError}
    (transcript : Transcript (reloadOwners event members registry) exchanges (outcome, errors, after)) :
    AllSteady after keys := by
  -- The induction is on the members, together with the one on what a single source does.
  cases members with
  | nil =>
    rw [Source.reloadOwners] at transcript
    obtain ⟨_, _, _, rfl⟩ := by simpa using transcript_done.mp transcript
    exact steady
  | cons first rest =>
    rw [leavesOfAll] at own
    have firsts : AllSteady registry (leaves first) := fun key leaf => own key (List.mem_append_left _ leaf)
    have others : AllSteady registry (leavesOfAll rest) := fun key leaf => own key (List.mem_append_right _ leaf)
    rw [Source.reloadOwners] at transcript
    split at transcript
    · -- The first member leaves both its own stores and those of the others steady.
      obtain ⟨earlier, later, ⟨result, reloaded⟩, rfl, before, last⟩ := transcript_bind.mp transcript
      obtain ⟨middle, ended, ⟨gathered, failures, finished⟩, rfl, between, last⟩ := transcript_bind.mp last
      have still := AllSteady.reloadOwners rest (AllSteady.reload first steady firsts before)
        (AllSteady.reload first others firsts before) between
      cases result with
      | ok outcome =>
        obtain ⟨_, _, _, rfl⟩ := by simpa using transcript_done.mp last
        exact still
      | error error =>
        obtain ⟨_, _, _, rfl⟩ := by simpa using transcript_done.mp last
        exact still
    · -- A member that is passed over changes nothing.
      exact AllSteady.reloadOwners rest steady others transcript
termination_by sizeOf members

end

mutual

/-- A source that owns nothing of what an event names is offered it in vain. -/
theorem offer_of_untouched (source : Source) {registry : Registry}
    (alive : ∀ key ∈ leaves source, (registry.store key).lifecycle ≠ .destroyed)
    (untouched : ∀ key ∈ leaves source, touches registry event key = false) :
    offer event source registry = .done (.ok .unaffected, registry) := by
  cases source with
  | store key =>
    -- The store answers at once and is put back as it was.
    have reload := Store.reload_of_untouched (alive key (by simp [leaves])) (untouched key (by simp [leaves]))
    rw [offer, Registry.reloadStore, reload]
    simp only [bind_eq, done_bind, pure_eq, registry.set_store, List.append_nil]
  | silent locale => rw [offer, pure_eq]
  | composite name resolver common members =>
    rw [leaves] at alive untouched
    simp only [offer, offerAll_of_untouched members alive untouched, bind_eq, done_bind, pure_eq]
    rfl
termination_by sizeOf source

/-- Several sources that own nothing of what an event names are offered it in vain. -/
theorem offerAll_of_untouched (members : List Source) {registry : Registry}
    (alive : ∀ key ∈ leavesOfAll members, (registry.store key).lifecycle ≠ .destroyed)
    (untouched : ∀ key ∈ leavesOfAll members, touches registry event key = false) :
    offerAll event members registry = .done (.unaffected, [], registry) := by
  -- Each member is offered the change in the same registry, since those before it did nothing.
  cases members with
  | nil => rw [offerAll, pure_eq]
  | cons first rest =>
    simp only [leavesOfAll, List.forall_mem_append] at alive untouched
    simp only [offerAll, offer_of_untouched first alive.1 untouched.1,
      offerAll_of_untouched rest alive.2 untouched.2, bind_eq, done_bind, pure_eq]
    rfl
termination_by sizeOf members

end

mutual

/-- A source of steady stores that passes a change on only to owners could as well offer it to all. -/
theorem reload_eq_offer (source : Source) {registry : Registry} (steady : AllSteady registry (leaves source)) :
    reload event source registry = offer event source registry := by
  cases source with
  | store key => rw [reload, offer]
  | silent locale => rw [reload, offer]
  | composite name resolver common members =>
    rw [leaves] at steady
    rw [reload, offer, reloadOwners_eq_offerAll members steady]
termination_by sizeOf source

/-- Several sources of steady stores can be offered a change whether or not they own anything. -/
theorem reloadOwners_eq_offerAll (members : List Source) {registry : Registry}
    (steady : AllSteady registry (leavesOfAll members)) :
    reloadOwners event members registry = offerAll event members registry := by
  cases members with
  | nil => rw [reloadOwners, offerAll]
  | cons first rest =>
    rw [leavesOfAll, AllSteady, List.forall_mem_append] at steady
    obtain ⟨own, others⟩ := steady
    rw [reloadOwners, offerAll]
    split
    · -- The stores of the other members are still steady after the first one was reloaded.
      rw [reload_eq_offer first own]
      refine bind_congr_of_transcript fun exchanges ⟨result, reloaded⟩ transcript => ?_
      rw [← reload_eq_offer first own] at transcript
      have later := reloadOwners_eq_offerAll rest (AllSteady.reload first others own transcript)
      exact congrArg (fun offered => offered >>= _) later
    · -- A member that is passed over would have been offered the change in vain.
      rename_i passed
      have untouched : ∀ key ∈ leaves first, touches registry event key = false := by
        simpa [isTouchedBy_eq] using passed
      rw [offer_of_untouched first (fun key leaf => (own key leaf).alive) untouched,
        reloadOwners_eq_offerAll rest others]
      -- What is merged with no notices stays as it is.
      exact (bind_done _).symm
termination_by sizeOf members

end

/--
A store that can be reached finds nothing to do exactly when it is not destroyed and owns nothing that an event names.

So a composite of steady stores may pass a change on to the owners among its members only.
-/
theorem ownership_decides_reload :
    (∀ (setup : Setup) (store : Store), Store.Reachable (fun _ => True) setup store →
      ∀ (event : ChangeEvent) (exchanges : List Exchange) (reloaded : Reloaded),
      Transcript (store.reload event) exchanges reloaded →
        (reloaded.result = .ok .unaffected ↔
          store.lifecycle ≠ .destroyed ∧ ∀ identifier ∈ event.changed, store.owns identifier = false)) ∧
    ∀ (name : String) (resolver : Option LocaleResolver) (common : Option String) (members : List Source)
      (registry : Registry) (event : ChangeEvent),
      (∀ key ∈ leavesOfAll members, (registry.store key).lifecycle ≠ .destroyed ∧ (registry.store key).IsPassive) →
        reload event (.composite name resolver common members) registry =
          offer event (.composite name resolver common members) registry := by
  refine ⟨fun _ _ reached _ _ _ transcript => reached.reload_unaffected_iff transcript, ?_⟩
  -- The composite is steady when each of its stores is.
  intro name resolver common members registry event steady
  refine reload_eq_offer _ ?_
  rw [leaves]
  exact fun key leaf => ⟨(steady key leaf).1, (steady key leaf).2⟩

/-- A change of one source's resource is no concern of another store, and offering it to all three does no more. -/
theorem foreign_change_is_offered_in_vain :
    let event := ChangeEvent.ofList ["b_en"]
    (((servingStore "a").reload event).run partlyAvailable).result = .ok .unaffected ∧
      reload event (.composite "outer" none none nestedMembers) threeStores =
        offer event (.composite "outer" none none nestedMembers) threeStores := by
  -- The store serves its own source only, and all stores are alive to be offered the change.
  intro event
  have foreign : (servingStore "a").owns "b_en" = false := by cbv
  have alive : ∀ key ∈ leavesOfAll nestedMembers, (threeStores.store key).lifecycle ≠ .destroyed := by
    rw [leavesOfAll_nestedMembers]
    simp [threeStores, Registry.store, servingStore]
  obtain ⟨unaffected, offered⟩ := ownership_decides_reload
  have reached := reachable_servingStore (show "a" ∈ ["a", "b", "c"] by simp)
  refine ⟨(unaffected _ _ reached event _ _ (transcript_recorded partlyAvailable _)).mpr
    ⟨by simp [servingStore], fun identifier named => ?_⟩,
    offered _ _ _ _ _ event fun key leaf => ⟨alive key leaf, isPassive_threeStores key leaf⟩⟩
  obtain rfl := List.mem_singleton.mp named
  exact foreign

end Source

end MessageCatalogue
