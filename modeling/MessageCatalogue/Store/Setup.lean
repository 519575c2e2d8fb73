import MessageCatalogue.Distinct
import MessageCatalogue.Store.Snapshot

/-! A setup says which source a store serves, and loads the whole of its messages or the part that changed. -/

namespace MessageCatalogue

/-- The source of a store with its loader, its default locale and its other locales when they are fixed. -/
structure Setup where
  source : String
  loader : Loader
  defaultLocale : Locale
  configured : Option (List Locale)
deriving DecidableEq, Repr

/-- A snapshot to publish with the notice that goes with it. -/
structure Refreshed where
  snapshot : Snapshot
  notice : Notice

namespace Setup

/-- The locales to support, which are looked for only when they are not configured. -/
def candidateLocales (setup : Setup) : Loading (List Locale) :=
  match setup.configured with
  | some locales => return locales
  | none => setup.loader.discoverLocales setup.source

/-- The default locale and some candidates behind it, at their first occurrences. -/
def supportedAmong (setup : Setup) (candidates : List Locale) : List Locale :=
  candidates.foldl appendNew [setup.defaultLocale]

/-- The catalogue of a locale with no more than its own messages, or nothing when it has no resource. -/
def loadOwn (setup : Setup) (locale : Locale) : Loading (Option Catalogue) := do
  let merged ← setup.loader.loadMerged setup.source locale
  return merged.map fun own =>
    ⟨setup.loader.resourceName setup.source locale, own.resources, own.messages⟩

/-- The error of a default locale without resources. -/
def missingDefault (setup : Setup) : MessageError :=
  .missingDefaultResource setup.source setup.defaultLocale
    (setup.loader.resourceName setup.source setup.defaultLocale)

/-- The catalogue of the default locale, which must have a resource. -/
def loadBase (setup : Setup) : Loading Catalogue := do
  match ← setup.loadOwn setup.defaultLocale with
  | some base => return base
  | none => throw setup.missingDefault

/-- The catalogue of a locale in which its own messages, if any, stand before those of the default locale. -/
def loadOverlay (setup : Setup) (base : Catalogue) (locale : Locale) : Loading Catalogue := do
  match ← setup.loadOwn locale with
  | some own => return { own with messages := base.messages ∪ own.messages }
  | none => return ⟨setup.loader.resourceName setup.source locale, [], base.messages⟩

/-- Catalogues among which those of some locales are loaded over the one of the default locale. -/
def loadOverlays (setup : Setup) (base : Catalogue) :
    List Locale → Dictionary Locale Catalogue → Loading (Dictionary Locale Catalogue)
  -- Each overlay takes the place of the one that its locale had, if any.
  | [], catalogues => return catalogues
  | locale :: rest, catalogues => do
    let overlay ← setup.loadOverlay base locale
    setup.loadOverlays base rest (catalogues.insert locale overlay)

/-- The snapshot of some locales. -/
def loadSnapshot (setup : Setup) (locales : List Locale) : Loading Snapshot := do
  -- The default locale is loaded first, and its catalogue joins the others when these lie over it.
  let base ← setup.loadBase
  let overlays ← setup.loadOverlays base (locales.filter (· ≠ setup.defaultLocale)) []
  return ⟨locales, overlays.insert setup.defaultLocale base⟩

/-- The snapshot of every locale to support. -/
def load (setup : Setup) : Loading Snapshot := do
  let candidates ← setup.candidateLocales
  setup.loadSnapshot (setup.supportedAmong candidates)

/-- The locales of a snapshot that an event makes load again. -/
def affectedLocales (setup : Setup) (snapshot : Snapshot) (event : ChangeEvent) : List Locale :=
  let touched := snapshot.locales.filter fun locale => (snapshot.catalogue? locale).any (·.isTouchedBy event)
  -- Every catalogue extends the one of the default locale and changes with it.
  if setup.defaultLocale ∈ touched then snapshot.locales else touched

/-- A snapshot in which some locales are loaded again. -/
def refreshSnapshot (setup : Setup) (current : Snapshot) (affected : List Locale) : Loading Snapshot := do
  -- A base that is loaded again leaves no overlay valid.
  if setup.defaultLocale ∈ affected then
    setup.loadSnapshot current.locales
  else
    match current.catalogue? setup.defaultLocale with
    | none => throw setup.missingDefault
    | some base =>
      let catalogues ← setup.loadOverlays base affected current.catalogues
      return ⟨current.locales, catalogues⟩

/-- What an event leads to, which is nothing when it concerns no catalogue. -/
def refresh (setup : Setup) (current : Snapshot) (event : ChangeEvent) : Loading (Option Refreshed) := do
  -- The notice tells of the resources that the catalogues before the change had something to do with.
  let affected := setup.affectedLocales current event
  if affected.isEmpty then return none
  let snapshot ← setup.refreshSnapshot current affected
  return some ⟨snapshot, setup.source, affected, event.changed.filter current.owns⟩

end Setup

end MessageCatalogue
