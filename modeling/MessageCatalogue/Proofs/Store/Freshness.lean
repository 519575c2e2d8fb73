import MessageCatalogue.Proofs.Store.Cascade
import MessageCatalogue.Proofs.Store.Provenance

/-! A store is fresh when it serves what one with the same locales builds from the resources of the moment. -/

namespace MessageCatalogue

open Loading

namespace Setup

/-- A setup with other fixed locales. -/
def fix (setup : Setup) (locales : List Locale) : Setup := { setup with configured := some locales }

/-- Supported locales that are fixed give themselves back. -/
theorem otherLocales_of_nodup {setup : Setup} {others : List Locale}
    (distinct : (setup.defaultLocale :: others).Nodup) :
    setup.otherLocales (setup.defaultLocale :: others) = others := by
  -- Only the default locale is filtered out, and it occurs nowhere else.
  rw [otherLocales, filter_ne_of_nodup distinct, ← firstOccurrences_eq_eraseDups,
    firstOccurrences_of_nodup (List.nodup_cons.mp distinct).2]

/-- A setup with fixed locales loads the default one and those of them that are others. -/
theorem load_fix (setup : Setup) (locales : List Locale) :
    (setup.fix locales).load = setup.loadLayers (setup.otherLocales locales) >>= fun layers =>
      pure (setup.snapshot layers) := by
  -- Nothing but the choice of locales looks at those that are fixed.
  have candidates : (setup.fix locales).candidateLocales = pure locales := rfl
  rw [load_eq, candidates, pure_bind]
  rfl

variable {setup : Setup} {holdings : Holdings}

/-- Overlays that are made of what their locales own can be loaded, up to agreement, over a base that agrees. -/
theorem exists_loaded_overlays {base like : Catalogue} (agree : base.Agrees like)
    {overlays : Dictionary Locale Catalogue}
    (made : ∀ entry ∈ overlays, ∃ own, setup.Owned holdings entry.1 own ∧
      entry.2.Agrees (setup.overlayOf base entry.1 own)) :
    ∃ loaded, List.Forall₂ (fun locale entry =>
        entry.1 = locale ∧ outcome holdings (setup.loadOverlay like locale) = .ok entry.2) overlays.keys loaded ∧
      List.Forall₂ EntriesAgree overlays loaded := by
  -- The induction is on the overlays, each of which is loaded for its own locale.
  induction overlays with
  | nil => exact ⟨[], .nil, .nil⟩
  | cons first rest ih =>
    obtain ⟨own, owned, laid⟩ := made first List.mem_cons_self
    obtain ⟨loaded, each, agrees⟩ := ih fun entry member => made entry (List.mem_cons_of_mem _ member)
    have found : outcome holdings (setup.loadOverlay like first.1) = .ok (setup.overlayOf like first.1 own) :=
      outcome_loadOverlay_ok.mpr ⟨own, owned, rfl⟩
    have alike : EntriesAgree first (first.1, setup.overlayOf like first.1 own) :=
      ⟨rfl, laid.trans (setup.overlayOf_agrees agree _ own)⟩
    exact ⟨(first.1, setup.overlayOf like first.1 own) :: loaded, .cons ⟨rfl, found⟩ each, .cons alike agrees⟩

/-- A snapshot made of what its locales own can be loaded, up to agreement, when they are fixed. -/
theorem exists_loaded_snapshot {snapshot : Snapshot} (made : snapshot.MadeOf setup (setup.Owned holdings)) :
    ∃ loaded, outcome holdings (setup.fix snapshot.locales).load = .ok loaded ∧ snapshot.Agrees loaded := by
  obtain ⟨layers, rfl, made⟩ := made
  -- The base is rebuilt from what the default locale owns, and the overlays are laid over it.
  obtain ⟨own, owned, agree⟩ := made.base
  obtain ⟨overlays, each, agrees⟩ := exists_loaded_overlays agree made.overlays
  have built : outcome holdings (setup.loadLayers layers.overlays.keys) = .ok ⟨setup.baseOf own, overlays⟩ :=
    outcome_loadLayers_ok.mpr ⟨outcome_loadBase_ok.mpr ⟨own, owned, rfl⟩, each⟩
  have locales : (setup.snapshot layers).locales = setup.defaultLocale :: layers.overlays.keys := rfl
  refine ⟨setup.snapshot ⟨setup.baseOf own, overlays⟩, ?_, setup.snapshot_agrees agree agrees⟩
  rw [locales, load_fix, otherLocales_of_nodup made.distinct, outcome_bind, built]
  rfl

/-- A snapshot that agrees with the one that a setup with its locales loads is made of what these own. -/
theorem madeOf_of_loaded {snapshot loaded : Snapshot} {locales : List Locale}
    (found : outcome holdings (setup.fix locales).load = .ok loaded) (agree : snapshot.Agrees loaded) :
    snapshot.MadeOf setup (setup.Owned holdings) := by
  -- What agrees is made of the same messages.
  obtain ⟨_, _, _, made⟩ := madeOf_load found
  -- What is owned does not depend on which locales are fixed.
  obtain ⟨layers, rfl, distinct, base, overlays⟩ := made
  have same : ((setup.fix locales).snapshot layers).MadeOf setup (setup.Owned holdings) :=
    ⟨layers, rfl, distinct, base, overlays⟩
  exact same.of_agrees agree

end Setup

namespace Store

variable {store : Store}

/-- The outcome of initializing a store anew with fixed locales, and the store after it. -/
def startAnew (holdings : Holdings) (setup : Setup) (locales : List Locale) :
    Except MessageError Unit × Store :=
  (ofSetup (setup.fix locales)).init.run holdings

/-- A store serves the catalogues that a fresh one with its locales fixed builds from some holdings. -/
def IsFresh (holdings : Holdings) (store : Store) : Prop :=
  ∃ current fresh built, store.lifecycle = .initialized current ∧
    startAnew holdings store.setup current.locales = (.ok (), fresh) ∧
    fresh.lifecycle = .initialized built ∧ current.Agrees built

/-- Two stores cannot be told apart by what they serve. -/
structure SameAnswers (one other : Store) : Prop where
  lookup : ∀ code locale arguments, one.lookup code locale arguments = other.lookup code locale arguments
  supportedLocales : one.supportedLocales = other.supportedLocales
  messageCounts : one.messageCounts = other.messageCounts
  owns : ∀ identifier, one.owns identifier = other.owns identifier

/-- A destroyed store has no message. -/
theorem lookup_of_destroyed (destroyed : store.lifecycle = .destroyed) (code : String) (locale : Locale)
    (arguments : List Argument) : store.lookup code locale arguments = none := by
  -- There is no snapshot to look into.
  rw [Store.lookup, snapshot?, destroyed]
  rfl

/-- Stores that serve snapshots that agree answer alike. -/
theorem sameAnswers_of_agrees {one other : Store} {current built : Snapshot}
    (serving : one.lifecycle = .initialized current) (building : other.lifecycle = .initialized built)
    (agree : current.Agrees built) : one.SameAnswers other := by
  -- Every answer is read off the snapshot.
  have published : one.snapshot? = some current := by rw [snapshot?, serving]
  have initialized : other.snapshot? = some built := by rw [snapshot?, building]
  refine ⟨?_, ?_, ?_, ?_⟩
  · intro code locale arguments
    simp only [Store.lookup, published, initialized, Option.bind_some, agree.text?_eq]
  · simp only [Store.supportedLocales, published, initialized, agree.locales]
  · simp only [Store.messageCounts, published, initialized, agree.counts_eq]
  · intro identifier
    simp only [Store.owns, published, initialized, agree.owns_eq]

/-- A fresh start succeeds when its locales can be loaded, which it then serves. -/
theorem startAnew_ok {holdings : Holdings} {setup : Setup} {locales : List Locale} {fresh : Store} :
    startAnew holdings setup locales = (.ok (), fresh) ↔
      ∃ built, outcome holdings (setup.fix locales).load = .ok built ∧
        fresh = ⟨setup.fix locales, .initialized built, []⟩ := by
  -- A store with fixed locales is uninitialized until it has loaded them.
  have started : startAnew holdings setup locales = _ := run_init rfl
  simp only [ofSetup] at started
  cases loaded : outcome holdings (setup.fix locales).load with
  | error error => simp [started, loaded]
  | ok built => simp [started, loaded, eq_comm]

/-- The catalogues of a fresh store are made of what their locales own. -/
theorem IsFresh.madeOf {holdings : Holdings} {current : Snapshot} (fresh : store.IsFresh holdings)
    (serving : store.lifecycle = .initialized current) :
    current.MadeOf store.setup (store.setup.Owned holdings) := by
  -- The catalogues agree with those that have just been built.
  obtain ⟨own, started, built, published, start, building, agree⟩ := fresh
  obtain rfl : own = current := by
    rw [serving] at published
    cases published
    rfl
  obtain ⟨loaded, found, rfl⟩ := startAnew_ok.mp start
  cases building
  exact Setup.madeOf_of_loaded found agree

/-- Initialization does not change the setup of a store. -/
theorem setup_init (holdings : Holdings) (setup : Setup) :
    ((ofSetup setup).init.run holdings).2.setup = setup := by
  -- Only the lifecycle changes.
  rw [run_init rfl]
  cases outcome holdings (ofSetup setup).setup.load <;> rfl

/-- A store that has just been initialized is fresh, whether or not its locales were configured. -/
theorem isFresh_of_init {holdings : Holdings} {setup : Setup}
    (initialized : ((ofSetup setup).init.run holdings).1 = .ok ()) :
    ((ofSetup setup).init.run holdings).2.IsFresh holdings := by
  -- What was loaded is found again when the locales are fixed.
  have start : (ofSetup setup).init.run holdings = _ := run_init rfl
  cases loaded : outcome holdings (ofSetup setup).setup.load with
  | error error =>
    rw [start, loaded] at initialized
    cases initialized
  | ok current =>
    obtain ⟨_, _, _, made⟩ := Setup.madeOf_load loaded
    obtain ⟨built, again, agree⟩ := Setup.exists_loaded_snapshot made
    rw [start, loaded]
    exact ⟨current, _, built, rfl, startAnew_ok.mpr ⟨built, again, rfl⟩, rfl, agree⟩

end Store

end MessageCatalogue
