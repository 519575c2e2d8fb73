import MessageCatalogue.Text.Pieces

/-! A resource is identified by its origin and by a logical name that its copies share. -/

namespace MessageCatalogue

/-- One copy of a resource, found under an origin by its logical name. -/
structure ResourceId where
  origin : String
  name : String
deriving DecidableEq, Repr

/-- The mark between the origin and the logical name of an identifier. -/
def originMark : List Char := ['!', '/']

/-- The origin, if any, and the logical name that an identifier of a change names. -/
def splitIdentifier (identifier : String) : Option String × String :=
  -- The first mark ends the origin, so only a logical name may hold further marks.
  match Text.cutFirst? originMark identifier.toList with
  | some (origin, name) => (some (String.ofList origin), String.ofList name)
  | none => (none, identifier)

/-- The logical name that an identifier of a change names. -/
def logicalName (identifier : String) : String := (splitIdentifier identifier).2

namespace ResourceId

/-- The identifier of a copy, with its origin before its logical name. -/
def text (id : ResourceId) : String := id.origin ++ String.ofList originMark ++ id.name

/-- Whether an identifier of a change refers to a copy, which one without an origin does by name. -/
def isNamedBy (id : ResourceId) (identifier : String) : Bool :=
  match splitIdentifier identifier with
  | (some origin, name) => name = id.name && origin = id.origin
  | (none, name) => name = id.name

/-- Copies are ordered by origin and then by logical name. -/
def precedes (a b : ResourceId) : Bool := a.origin < b.origin || a.origin = b.origin && a.name ≤ b.name

end ResourceId

end MessageCatalogue
