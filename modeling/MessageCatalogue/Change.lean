import MessageCatalogue.Distinct
import MessageCatalogue.Locale.Basic

/-! Changes of resources come in as events, and what they led to goes out as notices. -/

namespace MessageCatalogue

/-- The identifiers of changed resources, each once and in increasing order. -/
structure ChangeEvent where
  changed : List String
  sorted : changed.Pairwise (· < ·)
deriving DecidableEq

namespace ChangeEvent

/-- The event that names some identifiers. -/
def ofList (identifiers : List String) : ChangeEvent :=
  ⟨increasing identifiers, pairwise_increasing identifiers⟩

/-- The number of distinct identifiers. -/
def size (event : ChangeEvent) : Nat := event.changed.length

end ChangeEvent

/-- The locales that a source reloaded and the identifiers that made it do so. -/
structure Notice where
  source : String
  locales : List Locale
  resources : List String
deriving DecidableEq, Repr

/-- The notices of every source that a change event made reload. -/
structure ReloadOutcome where
  notices : List Notice
deriving DecidableEq, Repr

namespace ReloadOutcome

/-- The outcome when nothing was reloaded. -/
def unaffected : ReloadOutcome := ⟨[]⟩

/-- Whether nothing was reloaded. -/
def isUnaffected (outcome : ReloadOutcome) : Bool := outcome.notices.isEmpty

/-- The names of the sources that reloaded. -/
def sources (outcome : ReloadOutcome) : List String := outcome.notices.map (·.source)

/-- The notices of one outcome and then those of another. -/
def merge (first second : ReloadOutcome) : ReloadOutcome := ⟨first.notices ++ second.notices⟩

end ReloadOutcome

end MessageCatalogue
