import Mathlib
import MessageCatalogue.Proofs.Resource.Entries
import MessageCatalogue.Proofs.Store.Cascade
import MessageCatalogue.Proofs.Store.Exchanges
import MessageCatalogue.Proofs.Store.Provenance

/-! An initialized store serves the last values that the resources of each locale give to their keys. -/

namespace MessageCatalogue

open Loading

/-- The candidates for support are the configured locales or else those that the file names reveal. -/
def Setup.Candidates (setup : Setup) (holdings : Holdings) (candidates : List Locale) : Prop :=
  -- Configured locales are taken as they are, without a request.
  match setup.configured with
  | some locales => candidates = locales
  | none => ∃ files, (holdings setup.loader.collection).list (setup.loader.pattern.directory setup.source) =
      .ok files ∧ candidates = setup.loader.localesOfFiles setup.source files

/-- The resources of a locale of a setup hold some entries together. -/
def Setup.Declares (setup : Setup) (holdings : Holdings) (locale : Locale) (entries : List Properties.Entry) :
    Prop :=
  setup.loader.Declares (holdings setup.loader.collection) setup.source locale entries

/-- A setup finds no other candidates than these. -/
theorem Setup.candidates_of_outcome {setup : Setup} {holdings : Holdings} {candidates : List Locale}
    (found : outcome holdings setup.candidateLocales = .ok candidates) :
    setup.Candidates holdings candidates := by
  -- Configured locales are given back, and others come from a listing that did not fail.
  unfold Candidates
  cases configured : setup.configured with
  | some locales =>
    simp only [candidateLocales, configured, outcome_pure, Except.ok.injEq] at found
    exact found.symm
  | none =>
    simp only [candidateLocales, configured, Loader.discoverLocales, outcome_bind_ok, outcome_ofRequest,
      outcome_pure, Except.ok.injEq] at found
    obtain ⟨files, listed, rfl⟩ := found
    rw [Fetch.run_request, Enumerator.answer] at listed
    exact ⟨files, mapError_ok_iff.mp listed, rfl⟩

/-- A locale that is not supported has no text. -/
theorem Snapshot.IsKeyed.text?_of_notMem {setup : Setup} {snapshot : Snapshot} (keyed : snapshot.IsKeyed setup)
    {locale : Locale} (absent : locale ∉ snapshot.locales) (code : String) : snapshot.text? code locale = none := by
  have missing : snapshot.catalogue? locale = none :=
    Dictionary.find?_eq_none_iff.mpr (mt keyed.mem_locales_iff.mpr absent)
  rw [text?, missing, Option.bind_none]

namespace Store

variable {holdings : Holdings} {store : Store}

/-- Initialization asks for nothing but what its setup loads. -/
theorem requests_init (uninitialized : store.lifecycle = .uninitialized) :
    store.init.requests holdings = store.setup.load.run.requests holdings := by
  -- Whatever was loaded, nothing more is asked for.
  simp only [init, uninitialized, Fetch.bind_eq, Fetch.requests_bind]
  cases store.setup.load.run.run holdings <;> exact List.append_nil _

/-- A store that was initialized serves the snapshot that its setup loads. -/
theorem loaded_of_init {after : Store} (uninitialized : store.lifecycle = .uninitialized)
    (succeeded : store.init.run holdings = (.ok (), after)) :
    ∃ snapshot, outcome holdings store.setup.load = .ok snapshot ∧ after.snapshot? = some snapshot := by
  -- An error of the load would be that of the initialization.
  rw [run_init uninitialized] at succeeded
  cases loaded : outcome holdings store.setup.load with
  | error error =>
    rw [loaded] at succeeded
    cases succeeded
  | ok snapshot =>
    rw [loaded] at succeeded
    obtain ⟨_, rfl⟩ := Prod.mk.inj succeeded
    exact ⟨snapshot, rfl, rfl⟩

/-- Configured locales are not looked for, not even if there are none. -/
theorem not_mem_requests_of_configured {snapshot : Snapshot} {locales : List Locale}
    (configured : store.setup.configured = some locales)
    (loaded : outcome holdings store.setup.load = .ok snapshot) (collection : Collection) (directory : String) :
    (collection, .list directory) ∉ store.setup.load.run.requests holdings := by
  -- A successful load of known locales consists of finding and reading their resources.
  intro asked
  have only := Setup.only_load_of_configured store.setup configured
  obtain ⟨⟨_, request, answer⟩, load, same⟩ := only.requests loaded asked
  cases same
  cases answer <;> cases load

/--
An initialized store serves the last value that resources give to a code.

A locale comes before the default one, and its resources are taken in the order in which they are found.
-/
theorem init_serves_last_values {after : Store} (uninitialized : store.lifecycle = .uninitialized)
    (succeeded : store.init.run holdings = (.ok (), after)) :
    (∃ candidates, store.setup.Candidates holdings candidates ∧ after.supportedLocales =
      store.setup.defaultLocale :: (candidates.filter (· ≠ store.setup.defaultLocale)).eraseDups) ∧
    (∀ locales, store.setup.configured = some locales → ∀ collection directory,
      (collection, .list directory) ∉ store.init.requests holdings) ∧
    ∃ defaults, store.setup.Declares holdings store.setup.defaultLocale defaults ∧ ∀ locale,
      (locale ∉ after.supportedLocales → ∀ code arguments, after.lookup code locale arguments = none) ∧
      (locale ∈ after.supportedLocales → ∃ entries, store.setup.Declares holdings locale entries ∧
        ∀ code arguments, after.lookup code locale arguments =
          ((lastValue? code entries).or (lastValue? code defaults)).map (formatMessage · arguments)) := by
  -- The snapshot is made of what each of its locales owns, which the entries account for.
  obtain ⟨snapshot, loaded, serving⟩ := loaded_of_init uninitialized succeeded
  obtain ⟨candidates, found, locales, made⟩ := Setup.madeOf_load loaded
  have supported : after.supportedLocales = snapshot.locales := by rw [supportedLocales, serving]
  have served : ∀ code locale arguments, after.lookup code locale arguments =
      (snapshot.text? code locale).map (formatMessage · arguments) := fun code locale arguments => by
    rw [lookup, serving, Option.bind_some]
  rw [supported, requests_init uninitialized]
  refine ⟨⟨candidates, Setup.candidates_of_outcome found, locales⟩,
    fun _ configured => not_mem_requests_of_configured configured loaded, ?_⟩
  obtain ⟨base, owned, baseTexts⟩ := made.default_texts
  obtain ⟨defaults, declared, baseValues⟩ := Loader.declares_of_loadMerged owned
  refine ⟨defaults, declared, ?_⟩
  intro locale
  constructor
  · intro absent code arguments
    rw [served, made.isKeyed.text?_of_notMem absent, Option.map_none]
  · intro member
    obtain ⟨own, owned, texts⟩ := made.texts member
    obtain ⟨entries, declared, values⟩ := Loader.declares_of_loadMerged owned
    refine ⟨entries, declared, ?_⟩
    intro code arguments
    have fallback : base.messages[code]? = lastValue? code defaults := baseValues code
    rw [served, texts, values, baseTexts, fallback]

/-- Holdings in which a code is repeated in a document, in two copies and in two languages. -/
def repeating : Holdings := Setup.bilingual.holding
  [("one", .english, "a=1\na=2\nb=3"), ("two", .english, "b=4"), ("one", Setup.french, "a=5")]

/-- French has its own text of one code and the last English text of the other. -/
theorem bilingual_store_serves_last_values :
    let after := ((ofSetup .bilingual).init.run repeating).2
    after.lookup "a" Setup.french [] = some "5" ∧ after.lookup "b" Setup.french [] = some "4" ∧
      ∃ defaults, Setup.bilingual.Declares repeating .english defaults ∧
        ∃ entries, Setup.bilingual.Declares repeating Setup.french entries ∧
          ∀ code arguments, after.lookup code Setup.french arguments =
            ((lastValue? code entries).or (lastValue? code defaults)).map (formatMessage · arguments) := by
  intro after
  -- The texts can be evaluated, and they show which locales are supported.
  have succeeded : ((ofSetup .bilingual).init.run repeating).1 = .ok () := by cbv
  have supported : ((ofSetup .bilingual).init.run repeating).2.supportedLocales = [.english, Setup.french] := by cbv
  have own : ((ofSetup .bilingual).init.run repeating).2.lookup "a" Setup.french [] = some "5" := by cbv
  have other : ((ofSetup .bilingual).init.run repeating).2.lookup "b" Setup.french [] = some "4" := by cbv
  have ran : (ofSetup .bilingual).init.run repeating = (.ok (), after) := Prod.ext succeeded rfl
  obtain ⟨_, _, defaults, declared, served⟩ := init_serves_last_values rfl ran
  exact ⟨own, other, defaults, declared, (served Setup.french).2 (by rw [supported]; decide)⟩

end Store

end MessageCatalogue
