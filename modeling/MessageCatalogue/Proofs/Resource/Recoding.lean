import MessageCatalogue.Proofs.Outcome
import MessageCatalogue.Proofs.Resource.FileTree
import MessageCatalogue.Proofs.Resource.Texts
import MessageCatalogue.Resource.Directories

/-! Files with other contents are found and listed as before, so only what is read from them changes. -/

namespace MessageCatalogue

namespace FileTree

variable (change : ByteArray → ByteArray)

mutual

/-- A tree in which the contents of every file are changed. -/
def recode : FileTree → FileTree
  | .file contents => .file (change contents)
  | .directory entries => .directory (recodeEach entries)

/-- Entries in which the contents of every file are changed. -/
def recodeEach : List (String × FileTree) → List (String × FileTree)
  | [] => []
  | (name, tree) :: rest => (name, tree.recode) :: recodeEach rest

end

theorem recodeEach_eq_map (entries : List (String × FileTree)) :
    recodeEach change entries = entries.map fun (name, tree) => (name, tree.recode change) := by
  induction entries with
  | nil => rfl
  | cons first rest ih => rw [recodeEach, ih, List.map_cons]

@[simp] theorem isFile_recode (tree : FileTree) : (tree.recode change).isFile = tree.isFile := by
  cases tree <;> rfl

theorem entries_recode (tree : FileTree) :
    (tree.recode change).entries = tree.entries.map fun (name, tree) => (name, tree.recode change) := by
  -- A file has no entries, neither before the change nor after it.
  cases tree with
  | file contents => rfl
  | directory entries => exact recodeEach_eq_map change entries

/-- An entry has the name that it had. -/
theorem entry?_recode (name : String) (tree : FileTree) :
    entry? name (tree.recode change) = (tree.entry? name).map (recode change) := by
  unfold entry?
  rw [entries_recode, List.find?_map, Option.map_map, Option.map_map]
  rfl

/-- A walk leads to the tree that it led to, and fails where it failed. -/
theorem walk_recode (above : List FileTree) (tree : FileTree) (segments : List String) :
    walk none (above.map (recode change)) (tree.recode change) segments =
      (walk none above tree segments).map (recode change) := by
  induction segments generalizing above tree with
  | nil => rfl
  | cons segment rest ih =>
    unfold walk
    rw [isFile_recode, entry?_recode]
    -- The tests are on the kind of the tree and on the segment, neither of which is changed.
    split
    · rfl
    split
    · exact ih above tree
    split
    · -- A step back leads to the tree that was passed last.
      cases above with
      | nil => rfl
      | cons parent higher => exact ih higher parent
    split
    · rfl
    · cases tree.entry? segment with
      | none => rfl
      | some child => exact ih (tree :: above) child

theorem resolve_recode (tree : FileTree) (path : String) :
    (tree.recode change).resolve path = (tree.resolve path).map (recode change) := by
  -- The path alone decides about everything that comes before the walk.
  unfold resolve
  split
  · rfl
  split
  · rfl
  split
  · rfl
  split
  · rfl
  · exact walk_recode change [] tree (pathSegments path)

/-- What is read is what was read before the change, changed. -/
theorem read_recode (tree : FileTree) (path : String) :
    (tree.recode change).read path = (tree.read path).map change := by
  rw [read, read, resolve_recode]
  cases tree.resolve path with
  | error fault => rfl
  | ok found => cases found <;> rfl

/-- The plain files of a directory have the names that they had. -/
theorem fileNames_recode (tree : FileTree) (path : String) :
    (tree.recode change).fileNames path = tree.fileNames path := by
  -- Files stay files and directories stay directories.
  rw [fileNames, fileNames, resolve_recode]
  cases tree.resolve path with
  | error fault => rfl
  | ok found =>
    cases found with
    | file contents => rfl
    | directory entries =>
      have plain : ((·.2.isFile) ∘ fun (name, tree) => (name, tree.recode change) : String × FileTree → Bool) =
          (·.2.isFile) := funext fun entry => isFile_recode change entry.2
      show Except.ok (((recodeEach change entries).filter (·.2.isFile)).map (·.1)) = _
      rw [recodeEach_eq_map, List.filter_map, List.map_map, plain]
      rfl

/-- The contents of every file of a tree have a property. -/
def HoldsOnly (property : ByteArray → Prop) (tree : FileTree) : Prop := ∀ file ∈ tree.files, property file.2

namespace HoldsOnly

variable {property : ByteArray → Prop} {tree : FileTree}

theorem of_entry (only : tree.HoldsOnly property) {name : String} {child : FileTree}
    (found : tree.entry? name = some child) : child.HoldsOnly property := by
  intro file inside
  obtain ⟨entry, member, rfl⟩ := Option.map_eq_some_iff.mp found
  have inEntries : entry ∈ tree.entries := List.mem_of_find?_eq_some member
  -- A file of an entry is one of the whole directory under a longer path.
  cases tree with
  | file contents => cases inEntries
  | directory entries =>
    exact only (entry.1 :: file.1, file.2) (mem_filesIn.mpr ⟨entry.1, entry.2, file.1, inEntries, rfl, inside⟩)

/-- A walk does not leave the trees that it starts from. -/
theorem walk (only : tree.HoldsOnly property) {above : List FileTree}
    (around : ∀ outer ∈ above, outer.HoldsOnly property) {segments : List String} {found : FileTree}
    (leads : FileTree.walk none above tree segments = .ok found) : found.HoldsOnly property := by
  induction segments generalizing above tree with
  | nil =>
    cases leads
    exact only
  | cons segment rest ih =>
    unfold FileTree.walk at leads
    -- There is no way on from a file.
    split at leads
    · cases leads
    split at leads
    · exact ih only around leads
    split at leads
    · -- A step back leads to one of the trees around.
      cases above with
      | nil => cases leads
      | cons parent higher =>
        obtain ⟨own, others⟩ := List.forall_mem_cons.mp around
        exact ih own others leads
    split at leads
    · cases leads
    · cases entered : tree.entry? segment with
      | none => simp [entered] at leads
      | some child =>
        simp only [entered] at leads
        exact ih (only.of_entry entered) (List.forall_mem_cons.mpr ⟨only, around⟩) leads

theorem resolve (only : tree.HoldsOnly property) {path : String} {found : FileTree}
    (leads : tree.resolve path = .ok found) : found.HoldsOnly property := by
  unfold FileTree.resolve at leads
  -- A path that is not refused is walked from the top.
  split at leads
  · cases leads
  split at leads
  · cases leads
  split at leads
  · cases leads
  split at leads
  · cases leads
  · exact only.walk (fun outer impossible => absurd impossible List.not_mem_nil) leads

/-- Whatever is read from a tree has the property of all its files. -/
theorem read (only : tree.HoldsOnly property) {path : String} {contents : ByteArray}
    (found : tree.read path = .ok contents) : property contents := by
  -- Only a file that the path leads to is read.
  unfold FileTree.read at found
  cases leads : tree.resolve path with
  | error fault => simp [leads] at found
  | ok reached =>
    have inside := only.resolve leads
    cases reached with
    | file own =>
      simp only [leads, Except.ok.injEq] at found
      exact found ▸ inside ([], own) List.mem_cons_self
    | directory entries => simp [leads] at found

end HoldsOnly

end FileTree

namespace Directories

variable (change : ByteArray → ByteArray) (rootAt : Roots)

/-- Roots below which the contents of every file are changed. -/
def recode : Roots := fun root => (rootAt root).map (FileTree.recode change)

theorem openRoot_recode (root : String) :
    openRoot (recode change rootAt) root = (openRoot rootAt root).map (Option.map (FileTree.recode change)) := by
  rw [openRoot, openRoot, recode]
  cases rootAt root with
  | error fault => cases fault <;> rfl
  | ok tree => cases tree <;> rfl

theorem hasFile_recode (directory : FileTree) (name : String) :
    hasFile (directory.recode change) name = hasFile directory name := by
  rw [hasFile, hasFile, FileTree.resolve_recode]
  cases directory.resolve name with
  | error fault => rfl
  | ok found => exact FileTree.isFile_recode change found

theorem copiesBelow_recode (name : String) (roots : List String) :
    copiesBelow (recode change rootAt) name roots = copiesBelow rootAt name roots := by
  -- Each root is opened as before, and the same names lead to files below it.
  induction roots with
  | nil => rfl
  | cons root rest ih =>
    rw [copiesBelow, copiesBelow, openRoot_recode, ih]
    cases openRoot rootAt root with
    | error fault => rfl
    | ok opened =>
      cases opened with
      | none => rfl
      | some directory =>
        show (copiesBelow rootAt name rest).bind _ = (copiesBelow rootAt name rest).bind _
        simp only [Option.map_some, hasFile_recode]

theorem listBelow_recode (name : String) (roots : List String) :
    listBelow (recode change rootAt) name roots = listBelow rootAt name roots := by
  -- Each root is opened as before, and the same files are listed below it.
  induction roots with
  | nil => rfl
  | cons root rest ih =>
    rw [listBelow, listBelow, openRoot_recode, ih]
    cases openRoot rootAt root with
    | error fault => rfl
    | ok opened =>
      cases opened with
      | none => rfl
      | some directory =>
        have same : filesBelow (directory.recode change) name = filesBelow directory name := by
          rw [filesBelow, filesBelow, FileTree.fileNames_recode]
        show (filesBelow (directory.recode change) name).bind _ = (filesBelow directory name).bind _
        rw [same]

theorem readBelow_recode (roots : List String) (id : ResourceId) :
    readBelow (recode change rootAt) roots id = (readBelow rootAt roots id).map change := by
  -- Every way to fail comes before the contents are looked at.
  unfold readBelow
  by_cases known : id.origin ∈ roots
  · simp only [known, not_true, if_false]
    rw [openRoot_recode]
    cases openRoot rootAt id.origin with
    | error fault => rfl
    | ok opened =>
      cases opened with
      | none => rfl
      | some directory =>
        show ((directory.recode change).read id.name).mapError _ = ((directory.read id.name).mapError _).map change
        rw [FileTree.read_recode]
        cases directory.read id.name <;> rfl
  · simp only [known, not_false_eq_true, if_true]
    rfl

variable {rootAt}

/-- A root that is opened is a directory. -/
theorem eq_ok_of_openRoot {root : String} {directory : FileTree}
    (opened : openRoot rootAt root = .ok (some directory)) : rootAt root = .ok directory := by
  unfold openRoot at opened
  split at opened
  · rename_i entries there
    cases opened
    exact there
  all_goals cases opened

/-- Contents are read from the root that is the origin of their copy. -/
theorem exists_of_readBelow {roots : List String} {id : ResourceId} {contents : ByteArray}
    (found : readBelow rootAt roots id = .ok contents) :
    ∃ tree, rootAt id.origin = .ok tree ∧ tree.read id.name = .ok contents := by
  -- The origin must be a root, at which there must be a directory.
  unfold readBelow at found
  by_cases known : id.origin ∈ roots
  · simp only [known, not_true, if_false] at found
    cases opened : openRoot rootAt id.origin with
    | error fault =>
      rw [opened] at found
      cases found
    | ok directory =>
      rw [opened] at found
      cases directory with
      | none => cases found
      | some directory =>
        have held : (directory.read id.name).mapError ResourceFault.path = .ok contents := found
        exact ⟨directory, eq_ok_of_openRoot opened, mapError_ok_iff.mp held⟩
  · simp only [known, not_false_eq_true, if_true] at found
    cases found

end Directories

namespace Texts

open Directories

variable (rootAt : Roots)

/-- The text that some bytes hold in UTF-8, which is empty when they hold none. -/
def ofUtf8 (bytes : ByteArray) : String := (String.fromUTF8? bytes).getD ""

/-- The texts of the files below the roots of every collection, which are taken for UTF-8. -/
def below (collection : Collection) : Texts where
  list := (holdings rootAt collection).list
  resources := (holdings rootAt collection).resources
  read := fun id => ((holdings rootAt collection).read id).map ofUtf8

theorem ofUtf8_encode (text : String) : ofUtf8 (Encoding.utf8.encode text) = text := by
  rw [ofUtf8, Encoding.fromUTF8?_encode, Option.getD_some]

/-- Texts of files are written by changing the contents of the files. -/
theorem filed_below (encoding : Encoding) :
    filed encoding (below rootAt) = holdings (recode (encoding.encode ∘ ofUtf8) rootAt) := by
  -- Whether a file is there does not depend on its contents, so only reading makes a difference.
  have each : ∀ roots, (Enumerator.mk (enumerator rootAt roots).list (enumerator rootAt roots).resources
      fun id => ((readBelow rootAt roots id).map ofUtf8).map encoding.encode) =
        enumerator (recode (encoding.encode ∘ ofUtf8) rootAt) roots := by
    intro roots
    have read : ∀ id, ((readBelow rootAt roots id).map ofUtf8).map encoding.encode =
        readBelow (recode (encoding.encode ∘ ofUtf8) rootAt) roots id := by
      intro id
      rw [readBelow_recode]
      cases readBelow rootAt roots id <;> rfl
    simp only [enumerator, listBelow_recode, copiesBelow_recode, funext read]
  refine funext fun collection => ?_
  cases collection with
  | shared => exact each []
  | directories roots => exact each roots

/-- Texts are narrow when those of all files are. -/
theorem areNarrow_below
    (narrow : ∀ root tree, rootAt root = .ok tree → tree.HoldsOnly fun bytes => Text.IsNarrow (ofUtf8 bytes))
    (collection : Collection) : (below rootAt collection).AreNarrow := by
  have each : ∀ roots id text, (readBelow rootAt roots id).map ofUtf8 = .ok text → Text.IsNarrow text := by
    intro roots id text found
    cases read : readBelow rootAt roots id with
    | error fault => simp [read, Except.map] at found
    | ok bytes =>
      rw [read] at found
      obtain rfl := Except.ok.inj found
      -- What was read is the contents of a file below the root of its origin.
      obtain ⟨tree, there, held⟩ := exists_of_readBelow read
      exact (narrow _ tree there).read held
  cases collection with
  | shared => exact each []
  | directories roots => exact each roots

end Texts

end MessageCatalogue
