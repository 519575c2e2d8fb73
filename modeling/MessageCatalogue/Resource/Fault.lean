import MessageCatalogue.Resource.FileTree
import MessageCatalogue.Resource.Id
import MessageCatalogue.Text.Utf8

/-! Looking for a resource or reading it can fail for reasons that lie outside the catalogues. -/

namespace MessageCatalogue

/-- Why a resource could not be found, listed, read or decoded. -/
inductive ResourceFault where
  | absentCopy (id : ResourceId)
  | unknownRoot (origin : String)
  | vanishedRoot (root : String)
  | path (fault : PathFault)
  | malformedText (malformed : Utf8.Malformed)
  | other (account : String)
deriving DecidableEq, Repr

/-- The kinds into which faults fall. -/
inductive FaultKind where
  | notFound
  | notADirectory
  | isADirectory
  | permissionDenied
  | invalidData
  | other
deriving DecidableEq, Repr

/-- The kind of a path that leads to nothing usable. -/
def PathFault.kind : PathFault → FaultKind
  -- Faults of a name or a path as such have no kind of their own.
  | .missing => .notFound
  | .notADirectory => .notADirectory
  | .isADirectory => .isADirectory
  | .outside => .permissionDenied
  | .tooLong => .other
  | .occupied => .other
  | .invalid => .other
  | .nullCharacter => .other

/-- The account of a path that leads to nothing usable. -/
def PathFault.message : PathFault → String
  -- The texts are those of the operating system where it finds the fault.
  | .missing => "No such file or directory (os error 2)"
  | .notADirectory => "Not a directory (os error 20)"
  | .isADirectory => "Is a directory (os error 21)"
  | .outside => "a path led outside of the filesystem"
  | .tooLong => "File name too long (os error 36)"
  | .occupied => "File exists (os error 17)"
  | .invalid => "Invalid argument (os error 22)"
  | .nullCharacter => "file name contained an unexpected NUL byte"

namespace ResourceFault

/-- The kind of a fault. -/
def kind : ResourceFault → FaultKind
  -- Only texts that cannot be decoded are blamed on their contents.
  | .absentCopy _ => .notFound
  | .unknownRoot _ => .notFound
  | .vanishedRoot _ => .notFound
  | .path fault => fault.kind
  | .malformedText _ => .invalidData
  | .other _ => .other

/-- The account of a fault. -/
def message : ResourceFault → String
  -- Faults of paths do not name their path.
  | .absentCopy id => "no resource " ++ id.text
  | .unknownRoot origin => s!"unknown resource root '{origin}'"
  | .vanishedRoot root => s!"resource root '{root}' no longer exists"
  | .path fault => fault.message
  | .malformedText malformed => malformed.message
  | .other account => account

end ResourceFault

end MessageCatalogue
