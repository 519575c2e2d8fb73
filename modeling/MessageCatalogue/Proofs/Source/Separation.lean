import MessageCatalogue.Proofs.Resource.Standard
import MessageCatalogue.Proofs.Source.FanOut
import MessageCatalogue.Proofs.Store.Reachable

/-! Stores of different sources under the standard pattern never share an identifier of a change. -/

namespace MessageCatalogue

open Fetch

/-- Some stores with the standard pattern serve sources of different names, none of which holds a slot of the locale. -/
structure Registry.IsSeparated (registry : Registry) (keys : List StoreKey) : Prop where
  reached : ∀ key ∈ keys,
    Store.Reachable Exchange.KeepsNames (registry.store key).setup (registry.store key)
  standard : ∀ key ∈ keys, (registry.store key).setup.loader.pattern = .standard
  plain : ∀ key ∈ keys, ¬ ResourcePattern.localeSlot <:+: (registry.store key).setup.source.toList
  parsed : ∀ key ∈ keys, ∀ locale ∈ (registry.store key).supportedLocales, ∃ text, Locale.parse text = .ok locale
  different : ∀ one ∈ keys, ∀ other ∈ keys,
    (registry.store one).setup.source = (registry.store other).setup.source → one = other

namespace Registry.IsSeparated

variable {registry : Registry} {keys : List StoreKey}

/-- No identifier is owned by two stores. -/
theorem owner_unique (separated : registry.IsSeparated keys) {identifier : String} {one other : StoreKey}
    (member : one ∈ keys) (member' : other ∈ keys) (owned : (registry.store one).owns identifier = true)
    (owned' : (registry.store other).owns identifier = true) : one = other := by
  -- Each of the stores owns the identifier for a locale whose standard name it holds.
  obtain ⟨_, locale, supported, name⟩ := (separated.reached one member).isNamed.owns_iff.mp owned
  obtain ⟨_, locale', supported', name'⟩ := (separated.reached other member').isNamed.owns_iff.mp owned'
  obtain ⟨text, parsed⟩ := separated.parsed one member locale supported
  obtain ⟨text', parsed'⟩ := separated.parsed other member' locale' supported'
  rw [Loader.resourceName, separated.standard one member] at name
  rw [Loader.resourceName, separated.standard other member'] at name'
  have same := ResourcePattern.resourceName_standard_inj (separated.plain one member)
    (separated.plain other member') parsed parsed' (name.symm.trans name')
  exact separated.different one member other member' same.1

end Registry.IsSeparated

/-- A visit has at most one notice, of the source of the store and of what the store owns of the change. -/
theorem Visit.notices_of_reload {event : ChangeEvent} {store : Store} {visit : Visit}
    (transcript : Transcript (store.reload event) visit.exchanges visit.reloaded) :
    visit.notices = [] ∨ ∃ current, store.lifecycle = .initialized current ∧
      visit.notices = [store.setup.noticeOf current event] := by
  -- The result of a reload is that of its publication, whatever its listeners do.
  obtain ⟨earlier, later, result, published, _, publication, same⟩ := Store.publication_of_reloadWithin transcript
  unfold notices
  rw [same]
  cases publication with
  | uninitialized lifecycle => exact .inl rfl
  | destroyed lifecycle => exact .inl rfl
  | unaffected serving nothing => exact .inl rfl
  | failed serving affected loading => exact .inl rfl
  | published serving affected loading => exact .inr ⟨_, serving, rfl⟩

/-- A notice of a visit is of the source of the store, and the store owns each of its resources. -/
theorem Visit.owned_of_notice {event : ChangeEvent} {store : Store} {visit : Visit}
    (transcript : Transcript (store.reload event) visit.exchanges visit.reloaded) {notice : Notice}
    (told : notice ∈ visit.notices) :
    notice.source = store.setup.source ∧ ∀ identifier ∈ notice.resources, store.owns identifier = true := by
  rcases Visit.notices_of_reload transcript with none | ⟨current, serving, single⟩
  · rw [none] at told
    cases told
  · rw [single, List.mem_singleton] at told
    subst told
    refine ⟨rfl, ?_⟩
    -- The resources of a notice are those that the snapshot of before owned.
    intro identifier member
    simpa [Store.owns, Store.snapshot?, serving] using (List.mem_filter.mp member).2

/-- Two notices have nothing in common, neither the source nor a resource. -/
structure Notice.IsApart (one other : Notice) : Prop where
  sources : one.source ≠ other.source
  resources : one.resources.Disjoint other.resources

namespace Source

variable {registry after : Registry} {keys : List StoreKey} {event : ChangeEvent}

/-- The notices of visits to different stores have nothing in common. -/
theorem isApart_of_visits (separated : registry.IsSeparated keys) {exchanges : List Exchange} {visits : List Visit}
    (tour : Tour event registry exchanges visits after) (inside : ∀ visit ∈ visits, visit.key ∈ keys)
    (distinct : (visits.map (·.key)).Nodup) : (visits.flatMap (·.notices)).Pairwise Notice.IsApart := by
  -- Notices are kept apart both within a visit and between two of them.
  rw [List.pairwise_flatMap]
  constructor
  · -- A visit has at most one notice.
    intro visit member
    rcases Visit.notices_of_reload (tour.reloads visit member) with none | ⟨current, _, single⟩
    · rw [none]
      exact .nil
    · rw [single]
      exact List.pairwise_singleton _ _
  · -- Two visits are visits to different stores, and nothing is owned by both of these.
    have apart : visits.Pairwise fun one other => one.key ≠ other.key := List.pairwise_map.mp distinct
    refine apart.imp_of_mem ?_
    intro one other member member' different notice told notice' told'
    obtain ⟨source, owned⟩ := Visit.owned_of_notice (tour.reloads one member) told
    obtain ⟨source', owned'⟩ := Visit.owned_of_notice (tour.reloads other member') told'
    refine ⟨?_, ?_⟩
    · rw [source, source']
      intro same
      exact different (separated.different one.key (inside one member) other.key (inside other member') same)
    · intro identifier here there
      exact different (separated.owner_unique (inside one member) (inside other member')
        (owned identifier here) (owned' identifier there))

/--
Under the standard pattern, a change never crosses from one source to another.

No identifier is owned by two stores, so each identifier of a change makes at most one of them reload.
The notices of a change have different sources, and no resource stands in two of them.
-/
theorem change_never_crosses_sources (separated : registry.IsSeparated keys) :
    (∀ identifier, ∀ one ∈ keys, ∀ other ∈ keys, (registry.store one).owns identifier = true →
      (registry.store other).owns identifier = true → one = other) ∧
    ∀ name resolver common members event exchanges result after, (∀ key ∈ leavesOfAll members, key ∈ keys) →
      (leavesOfAll members).Nodup →
      Transcript (reload event (.composite name resolver common members) registry) exchanges (result, after) →
      ∃ visits : List Visit, visits.map (·.key) = (leavesOfAll members).filter (touches registry event) ∧
        Tour event registry exchanges visits after ∧
        (∀ identifier ∈ event.changed, ∀ one ∈ visits, ∀ other ∈ visits,
          (registry.store one.key).owns identifier = true → (registry.store other.key).owns identifier = true →
          one = other) ∧
        ∀ outcome, result = .ok outcome → outcome.notices.Pairwise Notice.IsApart := by
  refine ⟨fun identifier one member other member' => separated.owner_unique member member', ?_⟩
  intro name resolver common members event exchanges result after within distinct transcript
  rw [reload] at transcript
  obtain ⟨earlier, later, ⟨outcome, errors, finished⟩, rfl, before, last⟩ := transcript_bind.mp transcript
  obtain ⟨rfl, rfl, rfl⟩ := transcript_done_mk.mp last
  -- The stores that are touched are visited one after the other, each of them once.
  obtain ⟨visits, visited, tour, gathers⟩ := tour_of_reloadOwners members distinct before
  have once : (visits.map (·.key)).Nodup := visited ▸ distinct.filter _
  have inside : ∀ visit ∈ visits, visit.key ∈ keys := by
    intro visit member
    have leaf : visit.key ∈ (leavesOfAll members).filter (touches registry event) :=
      visited ▸ List.mem_map_of_mem member
    exact within visit.key (List.mem_filter.mp leaf).1
  refine ⟨visits, visited, by rwa [List.append_nil], ?_, ?_⟩
  · -- Two visits to one store are the same visit.
    intro identifier _ one member other member' owned owned'
    have same := separated.owner_unique (inside one member) (inside other member') owned owned'
    exact List.inj_on_of_nodup_map once member member' same
  · -- When nothing failed, the notices are those of all visits.
    intro told succeeded
    have accounts := gathers.accounts
    rw [succeeded] at accounts
    rw [accounts.2]
    exact isApart_of_visits separated tour inside once

/-- Holdings in which every resource has one copy with the same text. -/
def everywhere : Holdings := fun _ =>
  { list := fun _ => .ok []
    resources := fun name => .ok [⟨"memory", name⟩]
    read := fun _ => .ok "key=value".toUTF8 }

/-- Such holdings keep names. -/
theorem keepsNames_everywhere (collection : Collection) : (everywhere collection).KeepsNames := by
  -- The only copy that is found is put together from the name.
  intro name ids found id member
  obtain rfl : [⟨"memory", name⟩] = ids := Except.ok.inj found
  rw [List.mem_singleton.mp member]

/-- A store with English messages of a source under the standard pattern. -/
def standardStore (source : String) : Store :=
  ((Store.ofSetup ⟨source, .standard, .english, some []⟩).init.run everywhere).2

/-- Such a store is reached with its setup. -/
theorem reachable_standardStore (source : String) :
    (standardStore source).setup = ⟨source, .standard, .english, some []⟩ ∧
      Store.Reachable Exchange.KeepsNames (standardStore source).setup (standardStore source) := by
  -- A fresh store is initialized.
  have reached : Store.Reachable Exchange.KeepsNames ⟨source, .standard, .english, some []⟩ (standardStore source) :=
    Store.Reachable.fresh.run_init keepsNames_everywhere
  have same := reached.isNamed.same
  exact ⟨same, same.symm ▸ reached⟩

/-- Two such stores. -/
def twoSources : Registry := ⟨[standardStore "a", standardStore "b"], []⟩

/-- The two stores are separated by the names of their sources. -/
theorem isSeparated_twoSources : twoSources.IsSeparated [0, 1] := by
  obtain ⟨first, reached⟩ := reachable_standardStore "a"
  obtain ⟨second, reached'⟩ := reachable_standardStore "b"
  have english : ∃ text, Locale.parse text = .ok .english := ⟨"en", by cbv⟩
  have supported : (standardStore "a").supportedLocales = [.english] := by cbv
  have supported' : (standardStore "b").supportedLocales = [.english] := by cbv
  -- Each condition is one about either of the two stores.
  have zero : twoSources.store 0 = standardStore "a" := rfl
  have one : twoSources.store 1 = standardStore "b" := rfl
  refine ⟨?_, ?_, ?_, ?_, ?_⟩
  · simpa only [List.forall_mem_cons, zero, one] using ⟨reached, reached', by simp⟩
  · simp [zero, one, first, second, Loader.standard]
  · simp only [List.forall_mem_cons, zero, one, first, second]
    exact ⟨by decide, by decide, by simp⟩
  · simpa [zero, one, supported, supported'] using english
  · simp [zero, one, first, second]

/-- A change of the resources of both sources visits each store for its own resource. -/
theorem two_sources_stay_apart :
    let event := ChangeEvent.ofList ["i18n/a/i18n_messages_en.properties", "i18n/b/i18n_messages_en.properties"]
    let change := reload event (.composite "all" none none [.store 0, .store 1]) twoSources
    ∃ visits exchanges after, visits.map (·.key) = [0, 1] ∧ Tour event twoSources exchanges visits after ∧
      (∀ identifier ∈ event.changed, ∀ one ∈ visits, ∀ other ∈ visits,
        (twoSources.store one.key).owns identifier = true → (twoSources.store other.key).owns identifier = true →
        one = other) ∧
      ∀ outcome, (change.run everywhere).1 = .ok outcome → outcome.notices.Pairwise Notice.IsApart := by
  intro event change
  have members : leavesOfAll [.store 0, .store 1] = [0, 1] := by cbv
  have touched : [0, 1].filter (touches twoSources (.ofList
      ["i18n/a/i18n_messages_en.properties", "i18n/b/i18n_messages_en.properties"])) = [0, 1] := by cbv
  -- The change is made against holdings in which both resources are there.
  have transcript := transcript_recorded everywhere change
  rw [← Prod.eta (change.run everywhere)] at transcript
  obtain ⟨_, crossing⟩ := change_never_crosses_sources isSeparated_twoSources
  obtain ⟨visits, visited, tour, unique, apart⟩ :=
    crossing "all" none none [.store 0, .store 1] event _ _ _ (by simp [members]) (by simp [members]) transcript
  exact ⟨visits, _, _, visited.trans (by rw [members, touched]), tour, unique, apart⟩

end Source

end MessageCatalogue
