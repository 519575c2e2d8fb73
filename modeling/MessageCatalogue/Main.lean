import MessageCatalogue.CommandLine.Program

/-! The program reads words, variables and files, and prints what its plan makes of them. -/

namespace MessageCatalogue

/-- A place in the file system, where a relative path starts from the working directory. -/
def place (path : String) : IO.FS.DirEntry := ⟨".", path⟩

/-- What kind of file a path leads to, or nothing when it leads nowhere. -/
def fileType? (path : String) : IO (Option IO.FS.FileType) := do
  if path.isEmpty then return none
  try return some (← (place path).path.metadata).type
  catch _ => return none

/-- The part of a directory that paths of some segments can reach, to a depth, with other files left empty. -/
def reachable (segments : List String) : Nat → String → IO FileTree
  -- The depth bounds the search, since paths of so many segments reach no deeper.
  | 0, _ => return .empty
  | depth + 1, path => do
    let entries ← (place path).path.readDir
    let children ← entries.toList.filterMapM fun entry => do
      let child := path ++ "/" ++ entry.fileName
      match ← fileType? child with
      | some .file =>
        let contents ←
          if entry.fileName ∈ segments then IO.FS.readBinFile child else pure ByteArray.empty
        return some (entry.fileName, FileTree.file contents)
      | some .dir =>
        if entry.fileName ∈ segments then return some (entry.fileName, ← reachable segments depth child)
        else return none
      | _ => return none
    return .directory children

/-- Why a path leads nowhere when the file system gives some error for it. -/
def pathFault : IO.Error → PathFault
  | .inappropriateType .. => .notADirectory
  | .invalidArgument .. => .tooLong
  | _ => .missing

/-- What a root leads to, as far as paths of some segments can reach. -/
def rootTree (segments : List String) (root : String) : IO (Except PathFault FileTree) := do
  -- A missing root is told from one that is no directory, as the program treats them differently.
  if root.isEmpty then return .error .missing
  if '\x00' ∈ root.toList then return .error .nullCharacter
  try
    match (← (place root).path.metadata).type with
    | .dir => return .ok (← reachable segments (segments.length + 1) root)
    | _ => return .ok (.file ByteArray.empty)
  catch error => return .error (pathFault error)

/-- The path that a request asks about. -/
def Request.path : Request → String
  | .list directory => directory
  | .resources name => name
  | .read id => id.name

/-- The answer of a request that failed. -/
def Request.failed (fault : ResourceFault) : (request : Request) → request.Answer
  | .list _ => .error fault
  | .resources _ => .error fault
  | .read _ => .error fault

/-- The answer that the file system gives to a request, where every missing root is told of. -/
def answerFromFiles (tell : LogEvent → IO Unit) (collection : Collection) (request : Request) :
    IO request.Answer := do
  -- Shared resources have no roots.
  let roots := match collection with
    | .shared => []
    | .directories roots => roots
  try
    let trees ← roots.mapM fun root => return (root, ← rootTree (FileTree.pathSegments request.path) root)
    let rootAt := fun root => ((trees.find? (·.1 = root)).map (·.2)).getD (.error .missing)
    for _ in Directories.skippedRoots rootAt roots request do tell .rootSkipped
    return (Directories.enumerator rootAt roots).answer request
  catch error => return request.failed (.other (toString error))

/-- The contents of the first plain file among some paths. -/
def firstFile? : List String → IO (Option ByteArray)
  -- Directories under the name of a document are passed over.
  | [] => return none
  | path :: rest => do
    match ← fileType? path with
    | some .file => return some (← IO.FS.readBinFile path)
    | _ => firstFile? rest

/-- The variables of this process, of which there are none where they cannot be read. -/
def processEnvironment : IO Environment := do
  try return Environment.ofBlock (← IO.FS.readBinFile "/proc/self/environ").toList
  catch _ => return []

/-- The settings document at a path, which is also looked for in the directories above. -/
def findDocument (path : String) : IO (Option ByteArray) := do
  let depth := (← IO.currentDir).components.length
  firstFile? (Settings.documentPaths depth path)

/-- A run of the program on the words of a command line. -/
def runProgram (words : List String) : IO UInt32 := do
  -- The log filter and the words are looked at before any file is.
  let environment ← processEnvironment
  let plan := Plan.ofWords environment words
  let document ← match plan.documentPath? with
    | some path => findDocument path
    | none => pure none
  let report (events : List LogEvent) : IO Unit := do
    for event in events do IO.eprintln event.line
  let outcome ← (plan.execute document environment).runIn
    (answerFromFiles fun event => report (plan.heard [event]))
  report outcome.events
  for complaint in outcome.complaints do IO.eprintln complaint
  IO.print outcome.output
  return outcome.status.toUInt32

end MessageCatalogue

/-- The program with its command line. -/
def main (words : List String) : IO UInt32 := MessageCatalogue.runProgram words
