import MessageCatalogue.Change
import MessageCatalogue.Dictionary
import MessageCatalogue.Placeholder
import MessageCatalogue.Resource.Loader

/-! A snapshot holds the messages of one source in each locale that it supports. -/

namespace MessageCatalogue

/-- The messages of a source in a locale with the logical name and the resources they came from. -/
structure Catalogue where
  name : String
  resources : List ResourceId
  messages : Messages

namespace Catalogue

/-- Whether an identifier of a change concerns a catalogue, by its logical name or by one of its resources. -/
def owns (catalogue : Catalogue) (identifier : String) : Bool :=
  logicalName identifier = catalogue.name || catalogue.resources.any (·.isNamedBy identifier)

/-- Whether an event names a resource of a catalogue. -/
def isTouchedBy (catalogue : Catalogue) (event : ChangeEvent) : Bool :=
  event.changed.any catalogue.owns

end Catalogue

/-- The supported locales and the catalogues of a source, each of them under its locale. -/
structure Snapshot where
  locales : List Locale
  catalogues : Dictionary Locale Catalogue

namespace Snapshot

/-- The catalogue of a locale. -/
def catalogue? (snapshot : Snapshot) (locale : Locale) : Option Catalogue := snapshot.catalogues.find? locale

/-- The text of a code in a locale, without recourse to other locales. -/
def text? (snapshot : Snapshot) (code : String) (locale : Locale) : Option String :=
  (snapshot.catalogue? locale).bind (·.messages[code]?)

/-- The number of messages in each supported locale. -/
def counts (snapshot : Snapshot) : List (Locale × Nat) :=
  -- A locale without a catalogue would have none.
  snapshot.locales.map fun locale => (locale, (snapshot.catalogue? locale).elim 0 (·.messages.size))

/-- Whether an identifier of a change concerns one of the catalogues. -/
def owns (snapshot : Snapshot) (identifier : String) : Bool :=
  snapshot.catalogues.values.any (·.owns identifier)

end Snapshot

end MessageCatalogue
