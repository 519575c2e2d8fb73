import Mathlib
import MessageCatalogue.CommandLine.Report
import MessageCatalogue.Proofs.Outcome
import MessageCatalogue.Proofs.Store.Meaning

/-! A check tries every store and the building of a composite stops at the first failure, yet they agree. -/

namespace MessageCatalogue

open Loading

/-- The codes that have a text in some messages can be counted by the size of these. -/
theorem exists_codes (messages : Messages) :
    ∃ codes : Finset String, (∀ code, code ∈ codes ↔ messages[code]?.isSome = true) ∧
      codes.card = messages.size := by
  refine ⟨messages.keys.toFinset, ?_, ?_⟩
  · intro code
    rw [List.mem_toFinset, Std.TreeMap.mem_keys, Std.TreeMap.mem_iff_isSome_getElem?]
  · -- Every code is listed once.
    have distinct : messages.keys.Nodup := Std.TreeMap.nodup_keys
    rw [List.toFinset_card_of_nodup distinct, Std.TreeMap.length_keys]

namespace Store

variable {holdings : Holdings} {store : Store}

/-- A store can be initialized from some holdings. -/
def StartsIn (holdings : Holdings) (store : Store) : Prop := (store.init.run holdings).1 = .ok ()

/-- The store after its initialization from some holdings, or the error that ends it. -/
def startedIn (holdings : Holdings) (store : Store) : Except MessageError Store :=
  (store.init.run holdings).1.map fun _ => (store.init.run holdings).2

/-- The first of some stores that cannot be initialized fails with an error. -/
def FailFirst (holdings : Holdings) (stores : List Store) (error : MessageError) : Prop :=
  ∃ earlier failing later, stores = earlier ++ failing :: later ∧
    (∀ store ∈ earlier, store.StartsIn holdings) ∧ (failing.init.run holdings).1 = .error error

/-- An item gives a locale with the number of codes for which a store has a message in it. -/
def CountedBy (store : Store) (locale : Locale) (item : String) : Prop :=
  -- The codes are counted by the answers to lookups, and not by what a catalogue says of its size.
  ∃ codes : Finset String,
    (∀ code arguments, code ∈ codes ↔ (store.lookup code locale arguments).isSome = true) ∧
      item = s!"{locale.tag}={codes.card}"

/-- The events of an initialization are noted beside it. -/
theorem fst_run_initLogged (holdings : Holdings) (store : Store) :
    (store.initLogged.run holdings).1 = store.init.run holdings := by
  -- The record of the exchanges has the initialization as its value.
  rw [← Fetch.fst_run_recorded holdings store.init]
  simp only [initLogged, Fetch.bind_eq, Fetch.run_bind, Fetch.pure_eq, Fetch.run_done]

/-- The items about the locales of a store. -/
def countItems (store : Store) : List String :=
  store.messageCounts.map fun (locale, count) => s!"{locale.tag}={count}"

/-- A store that was initialized counts the messages of each locale by the codes it has one for. -/
theorem countedBy_countItems {after : Store} (uninitialized : store.lifecycle = .uninitialized)
    (started : store.init.run holdings = (.ok (), after)) :
    List.Forall₂ after.CountedBy after.supportedLocales after.countItems := by
  obtain ⟨snapshot, loaded, serving⟩ := loaded_of_init uninitialized started
  obtain ⟨_, _, _, made⟩ := Setup.madeOf_load loaded
  simp only [supportedLocales, countItems, messageCounts, serving, Snapshot.counts, List.map_map,
    List.forall₂_map_right_iff, List.forall₂_same]
  -- Each supported locale has a catalogue, and lookups in the locale are answered from that.
  intro locale supported
  obtain ⟨catalogue, served⟩ := Option.isSome_iff_exists.mp (made.isKeyed.isSome_catalogue?_iff.mpr supported)
  obtain ⟨codes, found, size⟩ := exists_codes catalogue.messages
  refine ⟨codes, fun code arguments => ?_, ?_⟩
  · rw [found, lookup, serving, Option.bind_some, Snapshot.text?, served, Option.bind_some, Option.isSome_map]
  · rw [Function.comp_apply, served, size]
    rfl

end Store

namespace Settings

variable {settings : Settings} {collection : Collection} {holdings : Holdings} {store : Store} {stores : List Store}

/-- Settings with sources, a pattern and locales that can be read describe a setup for each source. -/
theorem setups_ok {setups : List Setup} (described : settings.setups collection = .ok setups) :
    settings.sources ≠ [] ∧ ∃ pattern locale configured, settings.locale = .ok locale ∧
      setups = settings.sources.map fun source =>
        ⟨source, ⟨collection, pattern, settings.encoding⟩, locale, configured⟩ := by
  unfold Settings.setups at described
  -- Without a source nothing else is looked at.
  by_cases nothing : settings.sources.isEmpty = true
  · rw [if_pos nothing] at described
    cases described
  · rw [if_neg nothing] at described
    obtain ⟨pattern, _, described⟩ := bind_ok_iff.mp described
    obtain ⟨locale, read, described⟩ := bind_ok_iff.mp described
    obtain ⟨configured, _, described⟩ := bind_ok_iff.mp described
    exact ⟨by simpa using nothing, pattern, locale, configured, read, (Except.ok.inj described).symm⟩

/-- Settings that describe stores describe one for each source, in their order. -/
theorem stores_ok (described : settings.stores collection = .ok stores) :
    stores ≠ [] ∧ (∃ locale, settings.locale = .ok locale) ∧ stores.map (·.setup.source) = settings.sources ∧
      ∀ store ∈ stores, store.lifecycle = .uninitialized := by
  -- Each setup becomes one store, so what holds of the setups holds of the stores.
  unfold Settings.stores at described
  cases set : settings.setups collection with
  | error error =>
    rw [set] at described
    cases described
  | ok setups =>
    rw [set] at described
    obtain rfl := Except.ok.inj described
    obtain ⟨some, pattern, locale, configured, read, rfl⟩ := setups_ok set
    refine ⟨by simpa using some, ⟨locale, read⟩, ?_, by simp [Store.ofSetup]⟩
    rw [List.map_map, List.map_map]
    exact List.map_id _

section

variable {ν : Type} {attempt : Store → Fetch ((Except MessageError Unit × Store) × ν)}
  (initializes : ∀ store, ((attempt store).run holdings).1 = store.init.run holdings)

include initializes

/-- Starting a store comes to what its initialization comes to, with what is noted of that. -/
theorem outcome_start (store : Store) : outcome holdings (start attempt store) =
    (store.init.run holdings).1.map fun _ => ((store.init.run holdings).2, ((attempt store).run holdings).2) := by
  -- What comes of the initialization is passed on, with the store behind it if there is one to serve.
  rw [← initializes]
  simp only [start, outcome_bind, outcome_liftM, outcome_ofExcept, outcome_pure]
  obtain ⟨⟨result, initialized⟩, note⟩ := (attempt store).run holdings
  cases result <;> rfl

/-- A store is started when it can be initialized. -/
theorem outcome_start_ok : (∃ started, outcome holdings (start attempt store) = .ok started) ↔
    store.StartsIn holdings := by
  rw [outcome_start initializes, Store.StartsIn]
  cases (store.init.run holdings).1 <;> simp [Except.map]

/-- A store fails to start with the error of its initialization. -/
theorem outcome_start_error {error : MessageError} : outcome holdings (start attempt store) = .error error ↔
    (store.init.run holdings).1 = .error error := by
  rw [outcome_start initializes]
  cases (store.init.run holdings).1 <;> simp [Except.map]

/-- Stores fail to be started with the error of the first of them to fail. -/
theorem outcome_mapM_start_error {error : MessageError} :
    outcome holdings (stores.mapM (start attempt)) = .error error ↔ Store.FailFirst holdings stores error := by
  rw [outcome_mapM_error]
  simp only [outcome_start_ok initializes, outcome_start_error initializes, Store.FailFirst]

/-- Stores are all started when each of them can be initialized. -/
theorem outcome_mapM_start_ok : (∃ started, outcome holdings (stores.mapM (start attempt)) = .ok started) ↔
    ∀ store ∈ stores, store.StartsIn holdings := by
  constructor
  · intro succeeded
    obtain ⟨started, ran⟩ := succeeded
    rw [outcome_mapM_ok] at ran
    -- Each store comes with what it is after its initialization.
    have each := ran.imp fun store after own => And.intro ((outcome_start_ok initializes).mp ⟨after, own⟩) own
    exact ((List.forall₂_and_left _ _).mp each).1
  · intro each
    cases ran : outcome holdings (stores.mapM (start attempt)) with
    | ok started => exact ⟨started, rfl⟩
    | error error =>
      -- The first store to fail could not be initialized.
      obtain ⟨earlier, failing, later, rfl, _, failed⟩ := (outcome_mapM_start_error initializes).mp ran
      have starts : failing.StartsIn holdings := each failing (by simp)
      rw [Store.StartsIn, failed] at starts
      cases starts

/-- The stores that are started do not depend on what is noted of them. -/
theorem fst_outcome_mapM_start (stores : List Store) :
    (outcome holdings (stores.mapM (start attempt))).map (·.map (·.1)) =
      stores.mapM (Store.startedIn holdings) := by
  -- Both take the stores from the first to the last.
  induction stores with
  | nil => rfl
  | cons store rest ih =>
    simp only [List.mapM_cons, ← ih, outcome_bind, outcome_start initializes, outcome_pure, Store.startedIn]
    cases (store.init.run holdings).1 with
    | error error => rfl
    | ok =>
      cases outcome holdings (rest.mapM (start attempt)) with
      | error error => rfl
      | ok others => rfl

/-- What is built does not depend on what is noted of its stores. -/
theorem fst_outcome_buildNoting (described : settings.stores collection = .ok stores) (registry : Registry) :
    (outcome holdings (settings.buildNoting attempt collection registry)).map (·.1) =
      (stores.mapM (Store.startedIn holdings)).bind (settings.assemble registry) := by
  -- Behind the description there are only the initialization and the assembly left.
  rw [← fst_outcome_mapM_start initializes]
  simp only [buildNoting, outcome_bind, outcome_ofExcept, outcome_pure, described, Except.bind]
  cases outcome holdings (stores.mapM (start attempt)) with
  | error error => rfl
  | ok started =>
    simp only [Except.map]
    cases settings.assemble registry (started.map (·.1)) <;> rfl

end

/-- Building initializes each store and notes nothing. -/
theorem outcome_build (holdings : Holdings) (settings : Settings) (collection : Collection) (registry : Registry) :
    outcome holdings (settings.build collection registry) =
      (outcome holdings (settings.buildNoting (fun store => return (← store.init, ())) collection registry)).map
        (·.1) := by
  rw [build, outcome_bind]
  cases outcome holdings (settings.buildNoting (fun store => return (← store.init, ())) collection registry) <;> rfl

/-- An initialization of which nothing is noted is the initialization. -/
theorem fst_run_init (holdings : Holdings) (store : Store) :
    ((do return (← store.init, ()) : Fetch ((Except MessageError Unit × Store) × Unit)).run holdings).1 =
      store.init.run holdings := by
  simp only [Fetch.bind_eq, Fetch.run_bind, Fetch.pure_eq, Fetch.run_done]

/-- Some stores always make up a composite, as soon as the default locale can be read. -/
theorem assemble_ok {locale : Locale} (read : settings.locale = .ok locale) (registry : Registry)
    (some : stores ≠ []) : ∃ composite, settings.assemble registry stores = .ok composite := by
  have members : ((List.range stores.length).map fun position =>
      Source.store (registry.nextKey + position)).isEmpty = false := by simpa using some
  unfold assemble
  rw [read]
  simp only [Source.compose, members, Bool.false_eq_true, if_false]
  exact ⟨_, rfl⟩

/-- Building fails with the error of the settings when they describe no stores. -/
theorem outcome_build_of_error (holdings : Holdings) {error : MessageError}
    (described : settings.stores collection = .error error) (registry : Registry) :
    outcome holdings (settings.build collection registry) = .error error := by
  rw [outcome_build, buildNoting, outcome_bind, outcome_ofExcept, described]
  rfl

/-- Building goes wrong only with the stores that the settings describe. -/
theorem outcome_build_of_ok (holdings : Holdings) (described : settings.stores collection = .ok stores)
    (registry : Registry) :
    ((∃ composite, outcome holdings (settings.build collection registry) = .ok composite) ↔
        ∀ store ∈ stores, store.StartsIn holdings) ∧
      ∀ error, outcome holdings (settings.build collection registry) = .error error ↔
        Store.FailFirst holdings stores error := by
  obtain ⟨some, ⟨locale, read⟩, _⟩ := stores_ok described
  rw [outcome_build, fst_outcome_buildNoting (fst_run_init holdings) described,
    ← fst_outcome_mapM_start (fst_run_init holdings), ← outcome_mapM_start_ok (fst_run_init holdings)]
  simp only [← outcome_mapM_start_error (fst_run_init holdings)]
  cases ran : outcome holdings (stores.mapM (start fun store => return (← store.init, ()))) with
  | error error => simp [Except.bind, Except.map]
  | ok started =>
    -- As many stores are put together as the settings describe, and these are not none.
    have alike : stores.length = started.length := by
      rw [outcome_mapM_ok] at ran
      exact ran.length_eq
    have others : started.map (·.1) ≠ [] := fun none =>
      some (List.length_eq_zero_iff.mp (by rw [alike, List.map_eq_nil_iff.mp none]; rfl))
    obtain ⟨composite, assembled⟩ := assemble_ok read registry others
    simp [Except.bind, Except.map, assembled]

end Settings

namespace Report

variable {settings : Settings} {holdings : Holdings} {stores : List Store}

/-- The commands build the composite of their settings over the directories that are set. -/
theorem outcome_composite (holdings : Holdings) (settings : Settings) :
    (outcome holdings (composite settings)).map (fun opened => (opened.source, opened.registry)) =
      outcome holdings (settings.build settings.directories .empty) := by
  have opened : (outcome holdings (composite settings)).map (fun opened => (opened.source, opened.registry)) =
      (outcome holdings (settings.buildNoting Store.initLogged settings.directories .empty)).map (·.1) := by
    rw [composite, outcome_bind]
    cases outcome holdings (settings.buildNoting Store.initLogged settings.directories .empty) <;> rfl
  rw [opened]
  -- Both build the same composite of the stores that are described, if any are.
  cases described : settings.stores settings.directories with
  | error error =>
    rw [Settings.outcome_build_of_error holdings described, Settings.buildNoting, outcome_bind, outcome_ofExcept,
      described]
    rfl
  | ok stores =>
    rw [Settings.outcome_build, Settings.fst_outcome_buildNoting (Settings.fst_run_init holdings) described,
      Settings.fst_outcome_buildNoting (Store.fst_run_initLogged holdings) described]

/-- The line about a source whose store was initialized, with an item for each locale. -/
def okLine (source : String) (items : List String) : String :=
  source ++ ": ok (" ++ String.intercalate ", " items ++ ")"

/-- The line about a source whose store could not be initialized. -/
def errorLine (source : String) (error : MessageError) : String := source ++ ": error: " ++ error.message

/-- The two kinds of lines about a source can be told apart. -/
theorem okLine_ne_errorLine (source : String) (items : List String) (error : MessageError) :
    okLine source items ≠ errorLine source error := by
  intro same
  -- Behind the source, the lines differ in the first letter.
  have letters := congrArg String.toList same
  simp [okLine, errorLine, String.toList_append, List.append_assoc] at letters

/-- A line tells of a store whether it can be initialized, and of its messages or of the error. -/
structure TellsOf (holdings : Holdings) (store : Store) (line : String) : Prop where
  ok_iff : (∃ items, line = okLine store.setup.source items) ↔ store.StartsIn holdings
  counts : ∀ after, store.init.run holdings = (.ok (), after) →
    ∃ items, line = okLine store.setup.source items ∧
      List.Forall₂ after.CountedBy after.supportedLocales items
  error : ∀ error, (store.init.run holdings).1 = .error error → line = errorLine store.setup.source error

/-- The line about a store that has not been initialized before tells of it. -/
theorem tellsOf_storeLine {store : Store} (uninitialized : store.lifecycle = .uninitialized) :
    TellsOf holdings store (storeLine (store.init.run holdings).1 (store.init.run holdings).2) := by
  have ran : store.init.run holdings = _ := Store.run_init uninitialized
  -- What the setup loads decides what becomes of the store and which line it gets.
  cases loaded : outcome holdings store.setup.load with
  | error error =>
    rw [loaded] at ran
    have line : storeLine (store.init.run holdings).1 (store.init.run holdings).2 =
        errorLine store.setup.source error := by rw [ran]; rfl
    rw [line]
    refine ⟨?_, ?_, ?_⟩
    · rw [Store.StartsIn, ran]
      simp [Ne.symm (okLine_ne_errorLine _ _ _)]
    · intro after started
      rw [ran] at started
      cases started
    · intro other failed
      rw [ran] at failed
      obtain rfl := Except.error.inj failed
      rfl
  | ok snapshot =>
    rw [loaded] at ran
    let after : Store := { store with lifecycle := .initialized snapshot }
    have line : storeLine (store.init.run holdings).1 (store.init.run holdings).2 =
        okLine store.setup.source after.countItems := by rw [ran]; rfl
    have starts : store.StartsIn holdings := by rw [Store.StartsIn, ran]
    rw [line]
    refine ⟨⟨fun _ => starts, fun _ => ⟨_, rfl⟩⟩, ?_, ?_⟩
    · intro other started
      obtain ⟨_, rfl⟩ := Prod.mk.inj (ran.symm.trans started)
      exact ⟨_, rfl, Store.countedBy_countItems uninitialized ran⟩
    · intro error failed
      rw [ran] at failed
      cases failed

/-- The lines about some stores are there for each of them. -/
theorem lines_ofStores (holdings : Holdings) (stores : List Store) :
    ((ofStores stores).run holdings).lines =
      stores.map fun store => storeLine (store.init.run holdings).1 (store.init.run holdings).2 := by
  -- The line about the first store comes before those about the rest.
  induction stores with
  | nil => rfl
  | cons store rest ih =>
    simp [ofStores, ih, ← Store.fst_run_initLogged]

/-- A check of some stores succeeds when each of them can be initialized. -/
theorem succeeded_ofStores : ((ofStores stores).run holdings).succeeded = true ↔
    ∀ store ∈ stores, store.StartsIn holdings := by
  -- The check goes on with the rest whatever becomes of the first store.
  induction stores with
  | nil => simp [ofStores]
  | cons store rest ih =>
    rw [List.forall_mem_cons, ← ih, Store.StartsIn, ← Store.fst_run_initLogged]
    simp only [ofStores, Fetch.bind_eq, Fetch.run_bind, Fetch.pure_eq, Fetch.run_done, Bool.and_eq_true]
    obtain ⟨⟨result, initialized⟩, events⟩ := store.initLogged.run holdings
    cases result <;> simp [Except.toBool]

/--
A check of settings and the building of their composite succeed and fail together, over any holdings.

Building stops at the first store to fail, and the check gives the same error and goes on with the others.
-/
theorem check_agrees_with_build (settings : Settings) (holdings : Holdings) (registry : Registry) :
    let report := (ofCheck settings).run holdings
    let built := outcome holdings (settings.build settings.directories registry)
    (report.succeeded = true ↔ ∃ composite, built = .ok composite) ∧
      (match settings.stores settings.directories with
      | .error error => built = .error error ∧ report.lines = ["error: " ++ error.message]
      | .ok stores =>
        stores.map (·.setup.source) = settings.sources ∧ List.Forall₂ (TellsOf holdings) stores report.lines ∧
          ∀ error, built = .error error → ∃ earlier failing later, stores = earlier ++ failing :: later ∧
            (∀ store ∈ earlier, store.StartsIn holdings) ∧ (failing.init.run holdings).1 = .error error ∧
              report.lines[earlier.length]? = some (errorLine failing.setup.source error)) ∧
      (outcome holdings (composite settings)).map (fun opened => (opened.source, opened.registry)) =
        outcome holdings (settings.build settings.directories .empty) := by
  intro report built
  have checked : report = (ofCheck settings).run holdings := rfl
  rw [and_assoc.symm]
  refine ⟨?_, outcome_composite holdings settings⟩
  unfold ofCheck at checked
  cases described : settings.stores settings.directories with
  | error error =>
    -- Without stores there is nothing to try, and one line says why.
    rw [described] at checked
    have failed : built = .error error := Settings.outcome_build_of_error holdings described registry
    exact ⟨by simp [checked, failed], failed, by rw [checked]; rfl⟩
  | ok stores =>
    rw [described] at checked
    obtain ⟨_, _, sources, uninitialized⟩ := Settings.stores_ok described
    obtain ⟨builds, fails⟩ := Settings.outcome_build_of_ok holdings described registry
    have lines : report.lines = _ := checked ▸ lines_ofStores holdings stores
    have tells : ∀ store ∈ stores, TellsOf holdings store
        (storeLine (store.init.run holdings).1 (store.init.run holdings).2) := fun store member =>
      tellsOf_storeLine (uninitialized store member)
    refine ⟨?_, sources, ?_, ?_⟩
    · rw [builds, checked]
      exact succeeded_ofStores
    · rw [lines, List.forall₂_map_right_iff, List.forall₂_same]
      exact tells
    · intro error failed
      obtain ⟨earlier, failing, later, rfl, before, own⟩ := (fails error).mp failed
      refine ⟨earlier, failing, later, rfl, before, own, ?_⟩
      -- The line about a store stands where the store stands.
      rw [lines, List.getElem?_map, List.getElem?_append_right le_rfl, Nat.sub_self, List.getElem?_cons_zero,
        Option.map_some, (tells failing (by simp)).error error own]

/-- The standard settings name no source, which is all there is to report on them. -/
example (holdings : Holdings) :
    ((ofCheck .standard).run holdings).lines = ["error: no message sources configured"] := by
  rfl

end Report

end MessageCatalogue
