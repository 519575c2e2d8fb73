import MessageCatalogue.Distinct
import MessageCatalogue.Resource.Enumerator

/-! Resources in files are searched for below an ordered list of root directories. -/

namespace MessageCatalogue.Directories

/-- What the paths of root directories lead to. -/
abbrev Roots : Type := String → Except PathFault FileTree

/-- The directory at a root, or nothing when there is no such directory. -/
def openRoot (rootAt : Roots) (root : String) : Except ResourceFault (Option FileTree) :=
  -- A root that is missing is passed over, but one that is no directory is an error.
  match rootAt root with
  | .ok (.directory entries) => .ok (some (.directory entries))
  | .ok (.file _) => .error (.path .notADirectory)
  | .error .missing => .ok none
  | .error fault => .error (.path fault)

/-- Whether a logical name leads to a plain file below a directory. -/
def hasFile (directory : FileTree) (name : String) : Bool :=
  match directory.resolve name with
  | .ok found => found.isFile
  | .error _ => false

/-- The copies of a logical name below roots, in the order of the roots. -/
def copiesBelow (rootAt : Roots) (name : String) :
    List String → Except ResourceFault (List ResourceId)
  | [] => .ok []
  -- All roots are opened, even when an earlier one has a copy.
  | root :: rest => do
    let opened ← openRoot rootAt root
    let copies ← copiesBelow rootAt name rest
    match opened with
    | some directory => return if hasFile directory name then ⟨root, name⟩ :: copies else copies
    | none => return copies

/-- The contents of a copy below the root that is its origin. -/
def readBelow (rootAt : Roots) (roots : List String) (id : ResourceId) :
    Except ResourceFault ByteArray := do
  -- The origin names the root, and no other root is tried.
  if id.origin ∉ roots then throw (.unknownRoot id.origin)
  match ← openRoot rootAt id.origin with
  | none => throw (.vanishedRoot id.origin)
  | some directory => (directory.read id.name).mapError .path

/-- The plain files in a directory below one root, of which there are none when the directory is missing. -/
def filesBelow (directory : FileTree) (name : String) : Except ResourceFault (List String) :=
  -- The top of a root is written as a dot.
  match directory.fileNames (if name = "" then "." else name) with
  | .ok names => .ok names
  | .error .missing => .ok []
  | .error fault => .error (.path fault)

/-- The plain files in a directory below all roots, root by root. -/
def listBelow (rootAt : Roots) (name : String) : List String → Except ResourceFault (List String)
  | [] => .ok []
  -- A file that lies below several roots is listed for each of them.
  | root :: rest => do
    let names ← match ← openRoot rootAt root with
      | some directory => filesBelow directory name
      | none => pure []
    let others ← listBelow rootAt name rest
    return names ++ others

/-- The enumerator of the files below some root directories. -/
def enumerator (rootAt : Roots) (roots : List String) : Enumerator where
  list := fun name => (listBelow rootAt name roots).map increasing
  resources := fun name => copiesBelow rootAt name roots
  read := readBelow rootAt roots

/-- The resources below directories, of which none are shared. -/
def holdings (rootAt : Roots) : Holdings
  | .shared => enumerator rootAt []
  | .directories roots => enumerator rootAt roots

/-- The missing directories among the roots that a request gets to before one of them makes it fail. -/
def missingRoots (rootAt : Roots) (request : Request) : List String → List String
  | [] => []
  -- The first root that makes a request fail is the last one that is looked at.
  | root :: rest =>
    match openRoot rootAt root, request with
    | .error _, _ => []
    | .ok none, _ => root :: missingRoots rootAt request rest
    | .ok (some directory), .list name =>
      match filesBelow directory name with
      | .ok _ => missingRoots rootAt request rest
      | .error _ => []
    | .ok (some _), _ => missingRoots rootAt request rest

/-- The missing roots that are passed over while a request is answered. -/
def skippedRoots (rootAt : Roots) (roots : List String) (request : Request) : List String :=
  -- A copy is only looked for below the root that is its origin.
  match request with
  | .read id => missingRoots rootAt request ((roots.find? (· = id.origin)).toList)
  | _ => missingRoots rootAt request roots

end MessageCatalogue.Directories
