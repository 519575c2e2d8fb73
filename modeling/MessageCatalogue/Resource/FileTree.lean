import MessageCatalogue.Text.Pieces

/-! A file tree answers paths by walking their segments from a directory that the walk must not leave. -/

namespace MessageCatalogue

/-- A file with its contents or a directory with its named entries. -/
inductive FileTree where
  | file (contents : ByteArray)
  | directory (entries : List (String × FileTree))

/-- Why a path leads to nothing usable. -/
inductive PathFault where
  | missing
  | notADirectory
  | isADirectory
  | outside
  | tooLong
  | occupied
  | invalid
  | nullCharacter
deriving DecidableEq, Repr

namespace FileTree

/-- A directory without entries. -/
def empty : FileTree := .directory []

/-- Whether a tree is a plain file. -/
def isFile : FileTree → Bool
  | .file _ => true
  | .directory _ => false

/-- The entries of a directory, of which a file has none. -/
def entries : FileTree → List (String × FileTree)
  | .file _ => []
  | .directory entries => entries

/-- The entry of a name. -/
def entry? (name : String) (tree : FileTree) : Option FileTree :=
  (tree.entries.find? (·.1 = name)).map (·.2)

/-- The segments of a path between slashes. -/
def pathSegments (path : String) : List String :=
  (Text.pieces ['/'] path.toList).map String.ofList

/-- The parts that make up a path, which is absolute when the first of them is empty. -/
def pathParts (path : String) : List String :=
  -- An empty segment or a lone dot leads nowhere, but a dot at the start is a part of its path.
  match pathSegments path with
  | [] => []
  | first :: rest =>
    if path = "" then [] else first :: rest.filter fun segment => segment ≠ "" ∧ segment ≠ "."

/-- The number of bytes that the name of an entry may have. -/
def nameLimit : Nat := 0xff

/-- The number of bytes that a path must stay below. -/
def pathLimit : Nat := 0x1000

/-- The tree that path segments lead to from a directory below some others, innermost first. -/
def walk (beyond : Option FileTree) (above : List FileTree) (tree : FileTree) :
    List String → Except PathFault FileTree
  -- Every segment, even an empty one, asks for a directory to walk on from.
  | [] => .ok tree
  | segment :: rest =>
    if tree.isFile then .error .notADirectory
    else if segment = "" ∨ segment = "." then walk beyond above tree rest
    else if segment = ".." then
      match above, beyond with
      | parent :: higher, _ => walk beyond higher parent rest
      | [], some outer => walk beyond [] outer rest
      | [], none => .error .outside
    else if nameLimit < segment.utf8ByteSize then .error .tooLong
    else
      match tree.entry? segment with
      | some child => walk beyond (tree :: above) child rest
      | none => .error .missing

/-- The tree at a path below a directory, which an absolute path is not. -/
def resolve (tree : FileTree) (path : String) : Except PathFault FileTree :=
  -- The limits are checked before the path is walked, and what they forbid is invalid below a root.
  if '\x00' ∈ path.toList then .error .invalid
  else if pathLimit ≤ path.utf8ByteSize then .error .tooLong
  else if path = "" then .error .missing
  else if path.toList.head? = some '/' then .error .outside
  else walk none [] tree (pathSegments path)

/-- The tree at a path from a working directory, above which there is nothing but empty directories. -/
def locate (tree : FileTree) (path : String) : Except PathFault FileTree :=
  -- An absolute path starts from the top, whatever the working directory is.
  if '\x00' ∈ path.toList then .error .nullCharacter
  else if pathLimit ≤ path.utf8ByteSize then .error .tooLong
  else if path = "" then .error .missing
  else if path.toList.head? = some '/' then walk (some empty) [] empty (pathSegments path)
  else walk (some empty) [] tree (pathSegments path)

/-- The contents of the file at a path. -/
def read (tree : FileTree) (path : String) : Except PathFault ByteArray :=
  -- Only the last step decides between files and directories.
  match tree.resolve path with
  | .ok (.file contents) => .ok contents
  | .ok (.directory _) => .error .isADirectory
  | .error fault => .error fault

/-- The names of the plain files in the directory at a path. -/
def fileNames (tree : FileTree) (path : String) : Except PathFault (List String) :=
  -- Directories and other entries among them are not listed.
  match tree.resolve path with
  | .ok (.directory entries) => .ok ((entries.filter (·.2.isFile)).map (·.1))
  | .ok (.file _) => .error .notADirectory
  | .error fault => .error fault

/-- The names that lead to a path from the top, unless it climbs out, below some others, innermost first. -/
def namesFrom? (above : List String) : List String → Option (List String)
  -- The names are collected from the top, so a climb takes back the innermost one.
  | [] => some above.reverse
  | segment :: rest =>
    if segment = "" ∨ segment = "." then namesFrom? above rest
    else if segment = ".." then
      match above with
      | [] => none
      | _ :: higher => namesFrom? higher rest
    else namesFrom? (segment :: above) rest

/-- A directory whose entry of a name is another tree. -/
def setEntry (tree : FileTree) (name : String) (child : FileTree) : FileTree :=
  .directory (tree.entries.filter (·.1 ≠ name) ++ [(name, child)])

/-- A directory without the entry of a name. -/
def removeEntry (tree : FileTree) (name : String) : FileTree :=
  .directory (tree.entries.filter (·.1 ≠ name))

/-- A tree with a directory at some names, under others that are made where needed. -/
def makeDirectoryAt (tree : FileTree) : List String → Except PathFault FileTree
  -- The last name may exist already, as a directory.
  | [] => if tree.isFile then .error .occupied else .ok tree
  | name :: rest =>
    if tree.isFile then .error .notADirectory
    else if nameLimit < name.utf8ByteSize then .error .tooLong
    else (((tree.entry? name).getD empty).makeDirectoryAt rest).map (tree.setEntry name)

/-- A tree with a file at a name in it, where a directory cannot be replaced. -/
def putFile (tree : FileTree) (name : String) (contents : ByteArray) : Except PathFault FileTree :=
  -- A file that is there is replaced with its contents.
  if tree.isFile then .error .occupied
  else if nameLimit < name.utf8ByteSize then .error .tooLong
  else
    match tree.entry? name with
    | some (.directory _) => .error .isADirectory
    | _ => .ok (tree.setEntry name (.file contents))

/-- A tree with a file at some names, under directories that are made where needed. -/
def writeAt (tree : FileTree) (contents : ByteArray) : List String → Except PathFault FileTree
  -- Missing directories on the way are made, as for a new directory.
  | [] => .error .isADirectory
  | [name] => tree.putFile name contents
  | name :: rest =>
    if tree.isFile then .error .notADirectory
    else if nameLimit < name.utf8ByteSize then .error .tooLong
    else (((tree.entry? name).getD empty).writeAt contents rest).map (tree.setEntry name)

/-- A tree without whatever is at some names. -/
def removeAt (tree : FileTree) : List String → Except PathFault FileTree
  -- The last name may stand for a file or for a directory with everything in it.
  | [] => .ok empty
  | name :: rest =>
    if tree.isFile then .error .notADirectory
    else if nameLimit < name.utf8ByteSize then .error .tooLong
    else
      match tree.entry? name with
      | none => .error .missing
      | some child =>
        if rest.isEmpty then .ok (tree.removeEntry name)
        else (child.removeAt rest).map (tree.setEntry name)

/-- A tree changed at the names that a path leads to, while beyond it nothing changes. -/
def changeAt (tree : FileTree) (path : String)
    (change : List String → Except PathFault FileTree) : Except PathFault FileTree :=
  -- A path that climbs out leads to empty directories, in which nothing is kept.
  if '\x00' ∈ path.toList then .error .nullCharacter
  else if pathLimit ≤ path.utf8ByteSize then .error .tooLong
  else
    match namesFrom? [] (pathSegments path) with
    | some names => change names
    | none => .ok tree

/-- A tree with a file of some contents at a path. -/
def write (tree : FileTree) (path : String) (contents : ByteArray) : Except PathFault FileTree :=
  -- A slash at the end of a path asks for a directory.
  if path = "" then .error .missing
  else if path.toList.getLast? = some '/' then .error .isADirectory
  else tree.changeAt path (tree.writeAt contents)

/-- A tree with a directory at a path. -/
def makeDirectory (tree : FileTree) (path : String) : Except PathFault FileTree :=
  tree.changeAt path tree.makeDirectoryAt

/-- A tree without the file or directory at a path. -/
def delete (tree : FileTree) (path : String) : Except PathFault FileTree :=
  if path = "" then .error .missing else tree.changeAt path tree.removeAt

end FileTree

end MessageCatalogue
