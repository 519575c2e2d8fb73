import MessageCatalogue.Proofs.Resource.Exchanges
import MessageCatalogue.Proofs.Store.Assembly

/-! A snapshot is loaded by finding and reading resources, after a look for locales that are not configured. -/

namespace MessageCatalogue.Setup

open Loading

variable (setup : Setup)

theorem only_loadOwn (locale : Locale) : Only (·.isLoad) (setup.loadOwn locale) :=
  only_bind (Loader.only_loadMerged setup.loader setup.source locale) fun _ => only_pure _

theorem only_loadBase : Only (·.isLoad) setup.loadBase := by
  refine only_bind (only_loadOwn setup setup.defaultLocale) ?_
  intro own
  cases own with
  | none => exact only_throw _
  | some base => exact only_pure base

theorem only_loadOverlay (base : Catalogue) (locale : Locale) :
    Only (·.isLoad) (setup.loadOverlay base locale) := by
  refine only_bind (only_loadOwn setup locale) ?_
  intro own
  cases own with
  | none => exact only_pure _
  | some own => exact only_pure _

/-- Overlays are loaded only by finding and reading their resources, whatever they are filed among. -/
theorem only_loadOverlays (base : Catalogue) (locales : List Locale) (known : Dictionary Locale Catalogue) :
    Only (·.isLoad) (setup.loadOverlays base locales known) := by
  induction locales generalizing known with
  | nil => exact only_pure known
  | cons locale rest ih => exact only_bind (only_loadOverlay setup base locale) fun overlay => ih _

/-- A snapshot of known locales is loaded only by finding and reading each of their resources. -/
theorem only_loadSnapshot (locales : List Locale) : Only (·.isLoad) (setup.loadSnapshot locales) :=
  only_bind (only_loadBase setup) fun base => only_bind (only_loadOverlays setup base _ []) fun _ => only_pure _

/-- Locales that are configured are not looked for. -/
theorem only_load_of_configured {locales : List Locale} (configured : setup.configured = some locales) :
    Only (·.isLoad) setup.load := by
  -- Nothing is asked for before the snapshot is loaded.
  refine only_bind ?_ fun candidates => only_loadSnapshot setup _
  rw [candidateLocales, configured]
  exact only_pure locales

/-- A snapshot is loaded only when nothing fails. -/
theorem only_load : Only (·.hasFailed = false) setup.load := by
  -- Either no locales are looked for, or their listing must not fail.
  cases configured : setup.configured with
  | some locales =>
    exact (only_load_of_configured setup configured).mono fun _ => Exchange.hasFailed_of_isLoad
  | none =>
    refine only_bind ?_ fun candidates =>
      (only_loadSnapshot setup _).mono fun _ => Exchange.hasFailed_of_isLoad
    rw [candidateLocales, configured]
    exact Loader.only_discoverLocales setup.loader setup.source

/-- A snapshot is refreshed only by finding and reading each resource of the locales that are affected. -/
theorem only_refreshSnapshot (current : Snapshot) (affected : List Locale) :
    Only (·.isLoad) (setup.refreshSnapshot current affected) := by
  -- A default locale that is affected means loading everything, and one that is missing means loading nothing.
  unfold refreshSnapshot
  split
  · exact only_loadSnapshot setup _
  · split
    · exact only_throw _
    · rename_i base _
      exact only_bind (only_loadOverlays setup base _ _) fun _ => only_pure _

end MessageCatalogue.Setup
