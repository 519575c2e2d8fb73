import MessageCatalogue.Distinct
import MessageCatalogue.Resource.Enumerator
import MessageCatalogue.Table

/-! Resources held in memory keep their copies in the order in which they were added. -/

namespace MessageCatalogue

/-- The copies of each logical name with their contents, under their origins. -/
structure MemoryResources where
  entries : Table (Dictionary String ByteArray)

namespace MemoryResources

/-- Memory without resources. -/
def empty : MemoryResources := ⟨[]⟩

/-- The copies of a logical name, of which there are none without an entry. -/
def copies (memory : MemoryResources) (name : String) : Dictionary String ByteArray :=
  (memory.entries.find? name).getD []

/-- The contents of a copy. -/
def contents? (memory : MemoryResources) (id : ResourceId) : Option ByteArray :=
  (memory.copies id.name).find? id.origin

/-- Memory with new contents for a copy, in its old place or else behind the other copies of its name. -/
def insert (memory : MemoryResources) (id : ResourceId) (contents : ByteArray) : MemoryResources :=
  ⟨Table.insert id.name ((memory.copies id.name).insert id.origin contents) memory.entries⟩

/-- Whether memory holds a copy. -/
def holds (memory : MemoryResources) (id : ResourceId) : Bool := (memory.contents? id).isSome

/-- Whether memory has lost a copy by its removal, and memory without the copy. -/
def holdsThenRemove (memory : MemoryResources) (id : ResourceId) : Bool × MemoryResources :=
  match memory.entries.find? id.name with
  | none => (false, memory)
  | some copies =>
    let kept := copies.erase id.origin
    -- A name loses its entry with the last of its copies.
    (kept.length ≠ copies.length,
      ⟨if kept.isEmpty then memory.entries.erase id.name else Table.insert id.name kept memory.entries⟩)

/-- Memory without a copy. -/
def remove (memory : MemoryResources) (id : ResourceId) : MemoryResources := (memory.holdsThenRemove id).2

/-- The copies of a logical name, in the order in which they were added. -/
def named (memory : MemoryResources) (name : String) : List ResourceId :=
  (memory.copies name).keys.map fun origin => ⟨origin, name⟩

/-- A directory without the slashes at its end. -/
def trimSlashes (directory : List Char) : List Char :=
  (directory.reverse.dropWhile (· == '/')).reverse

/-- What the logical names of the files in a directory begin with. -/
def directoryStart (directory : List Char) : List Char :=
  if directory.isEmpty then [] else trimSlashes directory ++ ['/']

/-- The file name that a logical name has in a directory, if it lies directly in it. -/
def fileIn? (directory name : List Char) : Option (List Char) :=
  match (directoryStart directory).isPrefixOf? name with
  | some file => if file.isEmpty || file.contains '/' then none else some file
  | none => none

/-- The file names directly in a directory, each once and in increasing order. -/
def fileNames (memory : MemoryResources) (directory : String) : List String :=
  increasing (memory.entries.keys.filterMap fun name => (fileIn? directory.toList name.toList).map String.ofList)

/-- The enumerator of the resources in memory, which fails only for an absent copy. -/
def enumerator (memory : MemoryResources) : Enumerator where
  -- A directory or a name without copies is empty and no fault.
  list := fun directory => .ok (memory.fileNames directory)
  resources := fun name => .ok (memory.named name)
  read := fun id =>
    match memory.contents? id with
    | some contents => .ok contents
    | none => .error (.absentCopy id)

end MemoryResources

end MessageCatalogue
