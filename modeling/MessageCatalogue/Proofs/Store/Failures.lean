import MessageCatalogue.Proofs.Resource.Failures
import MessageCatalogue.Proofs.Store.Assembly
import MessageCatalogue.Proofs.Store.Publication

/-! A snapshot that cannot be loaded or refreshed is reported with one error. -/

namespace MessageCatalogue

open Loading

namespace Setup

variable (setup : Setup)

theorem failsWith_loadOwn (locale : Locale) : FailsWith (·.isAggregate = false) (setup.loadOwn locale) :=
  failsWith_bind (Loader.failsWith_loadMerged setup.loader setup.source locale) fun _ => failsWith_pure _

theorem failsWith_loadBase : FailsWith (·.isAggregate = false) setup.loadBase := by
  refine failsWith_bind (failsWith_loadOwn setup setup.defaultLocale) ?_
  intro own
  cases own with
  | none => exact failsWith_throw rfl
  | some base => exact failsWith_pure base

theorem failsWith_loadOverlay (base : Catalogue) (locale : Locale) :
    FailsWith (·.isAggregate = false) (setup.loadOverlay base locale) := by
  refine failsWith_bind (failsWith_loadOwn setup locale) ?_
  intro own
  cases own with
  | none => exact failsWith_pure _
  | some own => exact failsWith_pure _

theorem failsWith_loadOverlays (base : Catalogue) (locales : List Locale) (known : Dictionary Locale Catalogue) :
    FailsWith (·.isAggregate = false) (setup.loadOverlays base locales known) := by
  -- The first overlay that fails ends the loading of all of them.
  induction locales generalizing known with
  | nil => exact failsWith_pure known
  | cons locale rest ih => exact failsWith_bind (failsWith_loadOverlay setup base locale) fun overlay => ih _

/-- A snapshot of known locales fails to load for one reason. -/
theorem failsWith_loadSnapshot (locales : List Locale) :
    FailsWith (·.isAggregate = false) (setup.loadSnapshot locales) :=
  failsWith_bind (failsWith_loadBase setup) fun base =>
    failsWith_bind (failsWith_loadOverlays setup base _ []) fun _ => failsWith_pure _

/-- A snapshot of every locale to support fails to load for one reason. -/
theorem failsWith_load : FailsWith (·.isAggregate = false) setup.load := by
  refine failsWith_bind ?_ fun candidates => failsWith_loadSnapshot setup _
  -- Configured locales are known without asking.
  unfold candidateLocales
  split
  · exact failsWith_pure _
  · exact Loader.failsWith_discoverLocales setup.loader setup.source

/-- A snapshot fails to be refreshed for one reason. -/
theorem failsWith_refreshSnapshot (current : Snapshot) (affected : List Locale) :
    FailsWith (·.isAggregate = false) (setup.refreshSnapshot current affected) := by
  -- A default locale that is affected means loading everything, and one that is missing is the reason itself.
  unfold refreshSnapshot
  split
  · exact failsWith_loadSnapshot setup _
  · split
    · exact failsWith_throw rfl
    · rename_i base _
      exact failsWith_bind (failsWith_loadOverlays setup base _ _) fun _ => failsWith_pure _

end Setup

namespace Store

/-- The error of an initialization is no aggregate. -/
theorem Initialization.single {store after : Store} {exchanges : List Exchange} {error : MessageError}
    (initialization : Initialization store exchanges (.error error) after) : error.isAggregate = false := by
  cases initialization with
  | destroyed lifecycle => rfl
  | failed lifecycle loading => exact Setup.failsWith_load _ _ _ loading

/-- The error of a publication is no aggregate. -/
theorem Publication.single {store after : Store} {event : ChangeEvent} {exchanges : List Exchange}
    {error : MessageError} (publication : Publication store event exchanges (.error error) after) :
    error.isAggregate = false := by
  cases publication with
  | destroyed lifecycle => rfl
  | failed serving affected loading => exact Setup.failsWith_refreshSnapshot _ _ _ _ _ loading

end Store

end MessageCatalogue
