import MessageCatalogue.Settings.Basic
import MessageCatalogue.Source.Basic

/-! Settings describe a composite of stores, which is built by initializing each of them. -/

namespace MessageCatalogue.Settings

/-- The default locale. -/
def locale (settings : Settings) : Except MessageError Locale := Locale.parse settings.defaultLocale

/-- The supported locales, or nothing when they are to be looked for. -/
def locales (settings : Settings) : Except MessageError (Option (List Locale)) :=
  if settings.supportedLocales.isEmpty then .ok none
  else (Locale.parseAll settings.supportedLocales).map some

/-- The resource pattern. -/
def pattern (settings : Settings) : Except MessageError ResourcePattern :=
  ResourcePattern.ofTemplate settings.resourcePattern

/-- The collection of the resources below the directories that are set. -/
def directories (settings : Settings) : Collection := .directories settings.resourceRoots

/-- The setups of the sources over a collection, in order of priority. -/
def setups (settings : Settings) (collection : Collection) : Except MessageError (List Setup) := do
  -- Settings without sources are reported before anything in them is read.
  if settings.sources.isEmpty then throw .noSources
  let pattern ← settings.pattern
  let defaultLocale ← settings.locale
  let configured ← settings.locales
  return settings.sources.map fun source =>
    ⟨source, ⟨collection, pattern, settings.encoding⟩, defaultLocale, configured⟩

/-- The stores of the sources over a collection, none of them initialized. -/
def stores (settings : Settings) (collection : Collection) : Except MessageError (List Store) :=
  (settings.setups collection).map (·.map Store.ofSetup)

/-- The composite of some stores with the registry that they join. -/
def assemble (settings : Settings) (registry : Registry) (stores : List Store) :
    Except MessageError (Source × Registry) := do
  -- The keys of the stores are those that they get when they join the registry.
  let locale ← settings.locale
  let members := (List.range stores.length).map fun position => .store (registry.nextKey + position)
  let source ← Source.compose none (some (.fixed locale)) settings.commonNamespace members
  return (source, registry.add stores)

/-- One store after its initialization with what is noted of that, unless it fails. -/
def start {ν : Type} (attempt : Store → Fetch ((Except MessageError Unit × Store) × ν)) (store : Store) :
    Loading (Store × ν) := do
  -- The first store to fail ends the building, whatever was noted of it.
  let ((result, initialized), note) ← (attempt store : Fetch _)
  Loading.ofExcept result
  return (initialized, note)

/-- The composite of the sources with the registry that holds their stores, and what is noted of each of these. -/
def buildNoting {ν : Type} (settings : Settings)
    (attempt : Store → Fetch ((Except MessageError Unit × Store) × ν)) (collection : Collection)
    (registry : Registry) : Loading ((Source × Registry) × List ν) := do
  -- The stores join the registry only when all of them are initialized, and the first one to fail ends the building.
  let stores ← Loading.ofExcept (settings.stores collection)
  let started ← stores.mapM (start attempt)
  let assembled ← Loading.ofExcept (settings.assemble registry (started.map (·.1)))
  return (assembled, started.map (·.2))

/-- The composite of the sources with the registry that holds their stores. -/
def build (settings : Settings) (collection : Collection) (registry : Registry) :
    Loading (Source × Registry) := do
  let (assembled, _) ← settings.buildNoting (fun store => return (← store.init, ())) collection registry
  return assembled

end MessageCatalogue.Settings
