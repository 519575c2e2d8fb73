import Mathlib
import MessageCatalogue.Proofs.Store.Cascade
import MessageCatalogue.Proofs.Store.Provenance

/-! Whatever happened to a store, each locale serves its latest load over the default messages of the moment. -/

namespace MessageCatalogue

open Loading

/-- What a store can be asked to do. -/
inductive Call where
  | init
  | reload (event : ChangeEvent)
  | subscribe (listener : Listener)
  | destroy

/-- The latest of some loads in which a locale was loaded. -/
def latestLoad? (loads : List Load) (locale : Locale) : Option Load :=
  (loads.filter (locale ∈ ·.locales)).getLast?

/-- A locale had some messages of its own, or none, when it was loaded for the last time. -/
def OwnedAtLatest (setup : Setup) (loads : List Load) (locale : Locale) (own : Option MergedResources) :
    Prop :=
  ∃ load, latestLoad? loads locale = some load ∧ setup.Owned load.holdings locale own

/-- What a snapshot serves is decided by the latest load of each of its locales. -/
structure Snapshot.FollowsLoads (setup : Setup) (loads : List Load) (snapshot : Snapshot) : Prop where
  defaultFirst : snapshot.locales.head? = some setup.defaultLocale
  distinct : snapshot.locales.Nodup
  supported : ∀ locale, (snapshot.catalogue? locale).isSome ↔ locale ∈ snapshot.locales
  named : ∀ locale catalogue, snapshot.catalogue? locale = some catalogue →
    catalogue.name = setup.loader.resourceName setup.source locale
  defaultTexts : ∃ own, OwnedAtLatest setup loads setup.defaultLocale (some own) ∧
    ∀ code, snapshot.text? code setup.defaultLocale = own.messages[code]?
  texts : ∀ locale ∈ snapshot.locales, ∃ own, OwnedAtLatest setup loads locale own ∧
    ∀ code, snapshot.text? code locale =
      (own.bind (·.messages[code]?)).or (snapshot.text? code setup.defaultLocale)
  covered : ∀ locale ∈ snapshot.locales, ∀ code, (snapshot.text? code setup.defaultLocale).isSome →
    (snapshot.text? code locale).isSome

/-- A load of a locale is its latest one as soon as it is made. -/
theorem latestLoad?_append_of_mem {loads : List Load} {load : Load} {locale : Locale}
    (loaded : locale ∈ load.locales) : latestLoad? (loads ++ [load]) locale = some load := by
  -- The last load is kept by the filter.
  simp [latestLoad?, loaded]

/-- A load without a locale does not change what its latest one is. -/
theorem latestLoad?_append_of_notMem {loads : List Load} {load : Load} {locale : Locale}
    (absent : locale ∉ load.locales) :
    latestLoad? (loads ++ [load]) locale = latestLoad? loads locale := by
  -- The last load is dropped by the filter.
  simp [latestLoad?, absent]

/-- A snapshot that is made of what each locale had at its latest load follows these loads. -/
theorem Snapshot.MadeOf.followsLoads {setup : Setup} {loads : List Load} {snapshot : Snapshot}
    (made : snapshot.MadeOf setup (OwnedAtLatest setup loads)) : snapshot.FollowsLoads setup loads where
  defaultFirst := made.isKeyed.defaultFirst
  distinct := made.isKeyed.distinct
  supported := fun _ => made.isKeyed.isSome_catalogue?_iff
  named := fun _ _ found => made.named (Dictionary.mem_of_find? found)
  defaultTexts := made.default_texts
  texts := fun locale supported => made.texts supported
  -- A text of the default locale shows through where a locale has none of its own.
  covered := fun locale supported code served => by
    obtain ⟨own, _, texts⟩ := made.texts supported
    rw [texts, Option.isSome_or, served, Bool.or_true]

namespace Store

variable {setup : Setup} {store : Store}

/-- What the initialization of a store loads and then serves, which is nothing if there is nothing to load. -/
def initLoads (holdings : Holdings) (store : Store) : List Load :=
  match store.lifecycle, store.init.run holdings with
  | .uninitialized, (.ok _, initialized) => [⟨holdings, initialized.supportedLocales⟩]
  | _, _ => []

/-- A store after a call whose requests are answered from some holdings. -/
def afterCall (holdings : Holdings) (store : Store) : Call → Store
  -- Only the first two calls ask for anything.
  | .init => (store.init.run holdings).2
  | .reload event => ((store.reload event).run holdings).store
  | .subscribe listener => store.subscribe listener
  | .destroy => store.destroy

/-- What a call loads and then serves, in order. -/
def callLoads (holdings : Holdings) (store : Store) : Call → List Load
  -- What the listeners of a reload load belongs to that reload.
  | .init => store.initLoads holdings
  | .reload event => store.reloadLoads holdings event
  | .subscribe _ => []
  | .destroy => []

/-- A store after some calls in a row, with the holdings that each of them meets. -/
def afterCalls (store : Store) : List (Holdings × Call) → Store
  | [] => store
  | (holdings, call) :: rest => (store.afterCall holdings call).afterCalls rest

/-- What some calls in a row load and then serve, in order. -/
def loadsOfCalls (store : Store) : List (Holdings × Call) → List Load
  | [] => []
  | (holdings, call) :: rest =>
    store.callLoads holdings call ++ (store.afterCall holdings call).loadsOfCalls rest

/-- Whatever a store of some setup serves is made of what each locale had at its latest load. -/
structure Traceable (setup : Setup) (loads : List Load) (store : Store) : Prop where
  same : store.setup = setup
  made : ∀ snapshot, store.snapshot? = some snapshot → snapshot.MadeOf setup (OwnedAtLatest setup loads)

/-- A snapshot that a store publishes is made of the locales it loaded last and those it had before. -/
theorem Traceable.publish {loads : List Load} (holdings : Holdings) (event : ChangeEvent)
    (traceable : store.Traceable setup loads) :
    ((store.publish event).run holdings).2.Traceable setup (loads ++ store.publishLoads holdings event) := by
  -- Either nothing changes or the loads grow by the one that was made just now.
  rcases run_publish_cases holdings store event with
    ⟨unchanged, nothing⟩ | ⟨current, next, initialized, refreshed, published, loaded⟩
  · rw [unchanged, nothing, List.append_nil]
    exact traceable
  · rw [published, loaded]
    refine ⟨traceable.same, ?_⟩
    rintro _ ⟨⟩
    have before := traceable.made current (by rw [snapshot?, initialized])
    rw [traceable.same] at refreshed ⊢
    -- An affected locale was loaded just now, and every other one has its latest load where it was.
    refine (Setup.madeOf_refreshSnapshot before refreshed ?_ ?_).1
    · rintro locale _ unaffected own ⟨load, latest, found⟩
      exact ⟨load, by rw [latestLoad?_append_of_notMem unaffected, latest], found⟩
    · intro locale affected own found
      exact ⟨_, latestLoad?_append_of_mem affected, found⟩

/-- Everything that a reload consists of leaves a store whose messages can be traced back. -/
theorem kept_traceable (holdings : Holdings) (setup : Setup) :
    Kept holdings fun loads store => store.Traceable setup loads where
  publish := fun _ _ event traceable => traceable.publish holdings event
  spend := fun _ _ _ traceable => ⟨traceable.same, traceable.made⟩
  destroy := fun _ _ traceable => ⟨traceable.same, fun _ impossible => nomatch impossible⟩

/-- A store that is initialized has loaded every locale that it supports, unless it was initialized before. -/
theorem Traceable.init {loads : List Load} (holdings : Holdings) (traceable : store.Traceable setup loads) :
    (store.init.run holdings).2.Traceable setup (loads ++ store.initLoads holdings) := by
  -- Only a store that was never initialized loads anything.
  unfold initLoads
  by_cases uninitialized : store.lifecycle = .uninitialized
  · rw [uninitialized, run_init uninitialized]
    cases loaded : outcome holdings store.setup.load with
    | error error => exact (List.append_nil loads).symm ▸ traceable
    | ok snapshot =>
      refine ⟨traceable.same, ?_⟩
      rintro _ ⟨⟩
      rw [traceable.same] at loaded
      obtain ⟨_, _, _, made⟩ := Setup.madeOf_load loaded
      -- The load that was made just now is the latest one, and it has every locale.
      exact made.mono fun locale member own owned => ⟨_, latestLoad?_append_of_mem member, owned⟩
  · rw [run_init_of_ne uninitialized]
    cases lifecycle : store.lifecycle with
    | uninitialized => exact absurd lifecycle uninitialized
    | initialized current => exact (List.append_nil loads).symm ▸ traceable
    | destroyed => exact (List.append_nil loads).symm ▸ traceable

/-- Every call leaves a store whose messages can be traced back. -/
theorem Traceable.call {loads : List Load} (holdings : Holdings) (call : Call)
    (traceable : store.Traceable setup loads) :
    (store.afterCall holdings call).Traceable setup (loads ++ store.callLoads holdings call) := by
  -- Subscribing and destroying load nothing.
  cases call with
  | init => exact traceable.init holdings
  | reload event => exact (kept_traceable holdings setup).reload event traceable
  | subscribe listener => exact (List.append_nil loads).symm ▸ ⟨traceable.same, traceable.made⟩
  | destroy =>
    exact (List.append_nil loads).symm ▸ ⟨traceable.same, fun _ impossible => nomatch impossible⟩

/-- Calls in any order leave a store whose messages can be traced back. -/
theorem Traceable.calls {loads : List Load} (history : List (Holdings × Call))
    (traceable : store.Traceable setup loads) :
    (store.afterCalls history).Traceable setup (loads ++ store.loadsOfCalls history) := by
  -- The first call finds the store as it is and leaves it to the others.
  induction history generalizing store loads with
  | nil => exact (List.append_nil loads).symm ▸ traceable
  | cons first rest ih =>
    have onward := ih (traceable.call first.1 first.2)
    rwa [List.append_assoc] at onward

/-- Whatever is called and whatever the resources are then, a store serves the latest load of each locale. -/
theorem overlays_follow_latest_loads (setup : Setup) (history : List (Holdings × Call)) (snapshot : Snapshot)
    (serving : ((Store.ofSetup setup).afterCalls history).snapshot? = some snapshot) :
    ((Store.ofSetup setup).afterCalls history).supportedLocales = snapshot.locales ∧
      snapshot.FollowsLoads setup ((Store.ofSetup setup).loadsOfCalls history) := by
  -- Before any call there are neither loads nor a snapshot.
  have fresh : (Store.ofSetup setup).Traceable setup [] := ⟨rfl, fun _ impossible => nomatch impossible⟩
  have traceable := fresh.calls history
  rw [List.nil_append] at traceable
  exact ⟨by rw [supportedLocales, serving], (traceable.made snapshot serving).followsLoads⟩

/-- French follows the English texts of the latest reload that did not fail. -/
theorem french_follows_latest_loads :
    let texts := fun english french =>
      Setup.bilingual.holding [("a", .english, english), ("a", Setup.french, french)]
    let event := ChangeEvent.ofList ["en"]
    let history := [
      (texts "a=1" "b=2", .init), (texts "a=1" "b=3", .subscribe ⟨"listener", .reloadOnce event⟩),
      (Setup.bilingual.holding [], .reload event), (texts "a=4" "b=5", .reload event),
      (texts "a=6" "b=7", .init)]
    let store := (Store.ofSetup .bilingual).afterCalls history
    store.lookup "a" Setup.french [] = some "4" ∧
      ∃ snapshot, store.snapshot? = some snapshot ∧ store.supportedLocales = snapshot.locales ∧
        snapshot.FollowsLoads .bilingual ((Store.ofSetup .bilingual).loadsOfCalls history) := by
  -- The text shows that something is served, and that is all the theorem asks for.
  intro texts event history store
  have served : ((Store.ofSetup .bilingual).afterCalls history).lookup "a" Setup.french [] = some "4" := by cbv
  obtain ⟨_, found, _⟩ := Option.map_eq_some_iff.mp served
  obtain ⟨snapshot, serving, _⟩ := Option.bind_eq_some_iff.mp found
  exact ⟨served, snapshot, serving, overlays_follow_latest_loads .bilingual history snapshot serving⟩

end Store

end MessageCatalogue
