import MessageCatalogue.Proofs.Resource.Loading
import MessageCatalogue.Resource.Loader

/-! A loader finds the resources of a locale, loads them one after the other and merges their messages. -/

namespace MessageCatalogue.Loader

open Loading

/-- Resources are loaded one after the other. -/
theorem loadEach_eq_mapM (loader : Loader) (source : String) (locale : Locale) (ids : List ResourceId) :
    loader.loadEach source locale ids = ids.mapM (loader.loadOne source locale) := by
  -- Both take the resources from the first to the last.
  induction ids with
  | nil => rfl
  | cons id rest ih => rw [List.mapM_cons, loadEach, ih]

/-- A resource is read and then interpreted. -/
theorem outcome_loadOne (holdings : Holdings) (loader : Loader) (source : String) (locale : Locale)
    (id : ResourceId) :
    outcome holdings (loader.loadOne source locale id) =
      (((holdings loader.collection).read id).mapError (.load source locale id.text)).bind
        (loader.interpret source locale id) := by
  simp only [loadOne, outcome_bind, outcome_ofRequest, outcome_ofExcept]
  rfl

/-- The resources of a locale are found by their logical name and then loaded. -/
theorem outcome_loadAll (holdings : Holdings) (loader : Loader) (source : String) (locale : Locale) :
    outcome holdings (loader.loadAll source locale) =
      (((holdings loader.collection).resources (loader.resourceName source locale)).mapError
        (.load source locale (loader.resourceName source locale))).bind
          fun ids => outcome holdings (ids.mapM (loader.loadOne source locale)) := by
  simp only [loadAll, outcome_bind, outcome_ofRequest, loadEach_eq_mapM]
  rfl

/-- The locales of a source are those that the files of its directory reveal. -/
theorem outcome_discoverLocales (holdings : Holdings) (loader : Loader) (source : String) :
    outcome holdings (loader.discoverLocales source) =
      (((holdings loader.collection).list (loader.pattern.directory source)).mapError
        (.discovery source (loader.pattern.directory source))).map (loader.localesOfFiles source) := by
  simp only [discoverLocales, outcome_bind, outcome_ofRequest, outcome_pure]
  rfl

/-- The messages of a locale are those of all its resources together. -/
theorem outcome_loadMerged (holdings : Holdings) (loader : Loader) (source : String) (locale : Locale) :
    outcome holdings (loader.loadMerged source locale) =
      (outcome holdings (loader.loadAll source locale)).map mergeResources? := by
  -- Merging asks for nothing, so it succeeds whenever loading does.
  rw [loadMerged, outcome_bind]
  cases outcome holdings (loader.loadAll source locale) with
  | error error => rfl
  | ok resources => rfl

end MessageCatalogue.Loader
