import MessageCatalogue.Proofs.Resource.Copies
import MessageCatalogue.Proofs.Resource.Discovery
import MessageCatalogue.Proofs.Resource.FileTree
import MessageCatalogue.Resource.Directories

/-! Memory that holds the files below some root directories mirrors them: it gives the same answers. -/

namespace MessageCatalogue

namespace Directories

open FileTree

variable {rootAt : Roots} {roots : List String} {root name directory : String}
  {copies : List (ResourceId × ByteArray)}

/-- A root is missing or a directory of which every entry has a name of its own. -/
inductive IsRoot (rootAt : Roots) (root : String) : Prop
  | missing (absent : rootAt root = .error .missing)
  | existing {entries : List (String × FileTree)} (found : rootAt root = .ok (.directory entries))
      (formed : (FileTree.directory entries).IsWellFormed)

/-- A missing root is passed over. -/
theorem openRoot_of_missing (absent : rootAt root = .error .missing) : openRoot rootAt root = .ok none := by
  rw [openRoot, absent]

/-- A root that is a directory is opened. -/
theorem openRoot_of_directory {entries : List (String × FileTree)} (found : rootAt root = .ok (.directory entries)) :
    openRoot rootAt root = .ok (some (.directory entries)) := by
  rw [openRoot, found]

/-- The files below a root as copies with their contents, of which the origin is the root. -/
def copiesAt (rootAt : Roots) (root : String) : List (ResourceId × ByteArray) :=
  match rootAt root with
  | .ok tree => tree.files.map fun (names, contents) => (⟨root, joinPath names⟩, contents)
  | .error _ => []

/-- Copies are all the files below some roots, root by root, while those below one root come in any order. -/
inductive Collects (rootAt : Roots) : List String → List (ResourceId × ByteArray) → Prop
  | nil : Collects rootAt [] []
  | cons {root : String} {roots : List String} {own others : List (ResourceId × ByteArray)}
      (here : own.Perm (copiesAt rootAt root)) (rest : Collects rootAt roots others) :
      Collects rootAt (root :: roots) (own ++ others)

/-- Every root that is there follows the names on a path. -/
def FollowNames (rootAt : Roots) (roots : List String) (path : String) : Prop :=
  ∀ root ∈ roots, ∀ tree, rootAt root = .ok tree → tree.FollowsNames path

/-- Some names lead to a file of some contents below a root. -/
def LeadTo (rootAt : Roots) (root : String) (names : List String) (contents : ByteArray) : Prop :=
  ∃ tree, rootAt root = .ok tree ∧ tree.descend names = .ok (.file contents)

/-- A root that is there is a directory. -/
theorem IsRoot.eq_directory (sound : IsRoot rootAt root) {tree : FileTree} (found : rootAt root = .ok tree) :
    ∃ entries, tree = .directory entries ∧ (FileTree.directory entries).IsWellFormed := by
  cases sound with
  | missing absent => simp [found] at absent
  | existing same formed => exact ⟨_, Except.ok.inj (found.symm.trans same), formed⟩

/-- A root that is there is well-formed. -/
theorem IsRoot.isWellFormed (sound : IsRoot rootAt root) {tree : FileTree} (found : rootAt root = .ok tree) :
    tree.IsWellFormed := by
  obtain ⟨entries, rfl, formed⟩ := sound.eq_directory found
  exact formed

namespace LeadTo

variable {names : List String} {contents : ByteArray}

/-- Names that lead to a file are names of entries. -/
theorem isEntryName (leads : LeadTo rootAt root names contents) (sound : IsRoot rootAt root) :
    ∀ name ∈ names, IsEntryName name := by
  obtain ⟨tree, found, leads⟩ := leads
  have formed := sound.isWellFormed found
  exact isEntryName_of_mem_files formed ((mem_files_iff formed).mpr leads)

/-- It takes a name at least to get from a root to a file. -/
theorem ne_nil (leads : LeadTo rootAt root names contents) (sound : IsRoot rootAt root) : names ≠ [] := by
  rintro rfl
  obtain ⟨tree, found, leads⟩ := leads
  obtain ⟨entries, rfl, _⟩ := sound.eq_directory found
  cases leads

end LeadTo

/-- The origin of each copy below a root is that root. -/
theorem origin_of_mem_copiesAt {copy : ResourceId × ByteArray} (member : copy ∈ copiesAt rootAt root) :
    copy.1.origin = root := by
  unfold copiesAt at member
  split at member
  · obtain ⟨_, _, rfl⟩ := List.mem_map.mp member
    rfl
  · simp at member

/-- The copies below a root are named by the paths of its files. -/
theorem mem_copiesAt (sound : IsRoot rootAt root) {id : ResourceId} {contents : ByteArray} :
    (id, contents) ∈ copiesAt rootAt root ↔
      ∃ names, LeadTo rootAt root names contents ∧ id = ⟨root, joinPath names⟩ := by
  -- A root without a tree has no files and leads nowhere.
  cases found : rootAt root with
  | error fault => simp [copiesAt, LeadTo, found]
  | ok tree =>
    simp only [copiesAt, LeadTo, found, List.mem_map, Prod.exists, Prod.mk.injEq, Except.ok.injEq, exists_eq_left',
      ← mem_files_iff (sound.isWellFormed found)]
    constructor
    · rintro ⟨names, contents', member, rfl, rfl⟩
      exact ⟨names, member, rfl⟩
    · rintro ⟨names, member, rfl⟩
      exact ⟨names, contents, member, rfl, rfl⟩

/-- A relative path is the name of a copy below a root when the names on it lead to a file there. -/
theorem mem_copiesAt_iff_leadTo (sound : IsRoot rootAt root) (relative : IsRelative name) {contents : ByteArray} :
    (⟨root, name⟩, contents) ∈ copiesAt rootAt root ↔ LeadTo rootAt root (namesOn name) contents := by
  rw [mem_copiesAt sound]
  constructor
  · rintro ⟨names, leads, same⟩
    obtain ⟨_, rfl⟩ := ResourceId.mk.inj same
    rwa [namesOn_joinPath (leads.isEntryName sound)]
  · intro leads
    exact ⟨_, leads, by rw [joinPath_namesOn]⟩

/-- No two files below a root are the same copy. -/
theorem nodup_copiesAt (sound : IsRoot rootAt root) : ((copiesAt rootAt root).map (·.1)).Nodup := by
  cases sound with
  | missing absent => simp [copiesAt, absent]
  | @existing entries found formed =>
    have listed : (copiesAt rootAt root).map (·.1) =
        (((directory entries).files.map (·.1)).map fun names => ⟨root, joinPath names⟩) := by
      simp only [copiesAt, found, List.map_map]
      rfl
    rw [listed]
    -- Different paths of files have different names.
    refine (nodup_files formed).map_on ?_
    intro names member names' member' same
    obtain ⟨⟨_, contents⟩, file, rfl⟩ := List.mem_map.mp member
    obtain ⟨⟨_, contents'⟩, file', rfl⟩ := List.mem_map.mp member'
    exact (joinPath_inj (isEntryName_of_mem_files formed file) (isEntryName_of_mem_files formed file')).mp
      (ResourceId.mk.inj same).2

namespace Collects

/-- The collected copies are those below the roots. -/
theorem mem_iff (collected : Collects rootAt roots copies) {copy : ResourceId × ByteArray} :
    copy ∈ copies ↔ ∃ root ∈ roots, copy ∈ copiesAt rootAt root := by
  induction collected with
  | nil => simp
  | cons here rest ih => simp [here.mem_iff, ih]

/-- Distinct roots have distinct copies. -/
theorem nodup (collected : Collects rootAt roots copies) (distinct : roots.Nodup)
    (sound : ∀ root ∈ roots, IsRoot rootAt root) : (copies.map (·.1)).Nodup := by
  induction collected with
  | nil => exact List.nodup_nil
  | cons here rest ih =>
    obtain ⟨absent, distinct⟩ := List.nodup_cons.mp distinct
    obtain ⟨own, others⟩ := List.forall_mem_cons.mp sound
    rw [List.map_append, List.nodup_append]
    refine ⟨(here.map _).nodup_iff.mpr (nodup_copiesAt own), ih distinct others, ?_⟩
    -- A copy in common would have its origin at two places among the roots.
    rintro id inFirst id' inRest rfl
    obtain ⟨copy, member, rfl⟩ := List.mem_map.mp inFirst
    obtain ⟨copy', member', same⟩ := List.mem_map.mp inRest
    obtain ⟨root', later, found⟩ := rest.mem_iff.mp member'
    have origin := origin_of_mem_copiesAt (here.mem_iff.mp member)
    rw [← same, origin_of_mem_copiesAt found] at origin
    exact absent (origin ▸ later)

/-- Memory into which the collected copies were put has those of a name in the order in which they were collected. -/
theorem named_insertAll (collected : Collects rootAt roots copies) (distinct : roots.Nodup)
    (sound : ∀ root ∈ roots, IsRoot rootAt root) (name : String) :
    (MemoryResources.empty.insertAll copies).named name = (copies.map (·.1)).filter (·.name = name) :=
  MemoryResources.named_insertAll (collected.nodup distinct sound) (fun _ _ => rfl) name

/-- Memory into which the collected copies were put has the contents with which they were collected. -/
theorem contents?_insertAll (collected : Collects rootAt roots copies) (distinct : roots.Nodup)
    (sound : ∀ root ∈ roots, IsRoot rootAt root) {id : ResourceId} {contents : ByteArray}
    (member : (id, contents) ∈ copies) : (MemoryResources.empty.insertAll copies).contents? id = some contents := by
  have distinct := collected.nodup distinct sound
  rw [MemoryResources.contents?_insertAll distinct, Dictionary.find?_of_mem distinct member, Option.some_or]

end Collects

/-- A plain file is found at a relative path when the names on it lead to one. -/
theorem hasFile_iff {entries : List (String × FileTree)} (follows : (FileTree.directory entries).FollowsNames name) :
    hasFile (.directory entries) name = true ↔
      ∃ contents, (FileTree.directory entries).descend (namesOn name) = .ok (.file contents) := by
  -- A path is followed by the names on it, unless it is empty.
  by_cases empty : name = ""
  · -- An empty path leads to no file, for without a name there is only the directory itself.
    have nowhere : (FileTree.directory entries).resolve "" = .error .missing := rfl
    simp [empty, hasFile, nowhere, namesOn, descend]
  · rw [hasFile, follows empty]
    cases found : (FileTree.directory entries).descend (namesOn name) with
    | error fault => simp
    | ok tree => cases tree <;> simp [isFile]

/-- Of the copies below one root, at most one has a given name. -/
theorem filter_name_of_perm (sound : IsRoot rootAt root) (here : copies.Perm (copiesAt rootAt root)) (name : String) :
    (copies.map (·.1)).filter (·.name = name) =
      if (⟨root, name⟩ : ResourceId) ∈ (copiesAt rootAt root).map (·.1) then [⟨root, name⟩] else [] := by
  -- All copies here have the same origin, so a name leaves only one of them.
  have origins : ∀ id ∈ copies.map (·.1), (decide (id.name = name)) = decide (id = ⟨root, name⟩) := by
    intro id member
    obtain ⟨copy, held, rfl⟩ := List.mem_map.mp member
    have origin := origin_of_mem_copiesAt (here.mem_iff.mp held)
    cases same : copy.1
    simp_all
  rw [List.filter_congr origins, List.filter_eq, (here.map _).count_eq, (nodup_copiesAt sound).count]
  split <;> rfl

/-- Below the roots, a name has the copies that were collected under it, in their order. -/
theorem copiesBelow_eq (sound : ∀ root ∈ roots, IsRoot rootAt root) (collected : Collects rootAt roots copies)
    (relative : IsRelative name) (follows : FollowNames rootAt roots name) :
    copiesBelow rootAt name roots = .ok ((copies.map (·.1)).filter (·.name = name)) := by
  induction collected with
  | nil => rfl
  | @cons root roots own others here rest ih =>
    obtain ⟨first, later⟩ := List.forall_mem_cons.mp sound
    obtain ⟨follow, follow'⟩ := List.forall_mem_cons.mp follows
    rw [copiesBelow, ih later follow', List.map_append, List.filter_append, filter_name_of_perm first here]
    cases first with
    | missing absent =>
      simp [openRoot_of_missing absent, copiesAt, absent, Bind.bind, Except.bind, Pure.pure, Except.pure]
    | @existing entries found formed =>
      -- The directory has the file exactly when the copy was collected from it.
      have held : hasFile (.directory entries) name = true ↔
          (⟨root, name⟩ : ResourceId) ∈ (copiesAt rootAt root).map (·.1) := by
        rw [hasFile_iff (follow _ found)]
        simp [mem_copiesAt_iff_leadTo (.existing found formed) relative, LeadTo, found]
      simp only [openRoot_of_directory found, Bind.bind, Except.bind, Pure.pure, Except.pure, Except.ok.injEq]
      by_cases there : hasFile (.directory entries) name = true
      · rw [if_pos there, if_pos (held.mp there)]
        rfl
      · rw [if_neg there, if_neg (mt held.mpr there)]
        rfl

/-- A collected copy is read with its contents. -/
theorem readBelow_of_mem (sound : ∀ root ∈ roots, IsRoot rootAt root) (collected : Collects rootAt roots copies)
    {id : ResourceId} {contents : ByteArray} (member : (id, contents) ∈ copies) (relative : IsRelative id.name)
    (follows : FollowNames rootAt roots id.name) : readBelow rootAt roots id = .ok contents := by
  obtain ⟨root, known, below⟩ := collected.mem_iff.mp member
  obtain ⟨origin, name⟩ := id
  obtain rfl : origin = root := origin_of_mem_copiesAt below
  have leads := (mem_copiesAt_iff_leadTo (sound origin known) relative).mp below
  -- The root is there and a directory, so the copy lies at a path that is not empty.
  have named : name ≠ "" := by
    rintro rfl
    exact leads.ne_nil (sound origin known) rfl
  obtain ⟨tree, found, leads⟩ := leads
  have opened : openRoot rootAt origin = .ok (some tree) := by
    obtain ⟨entries, rfl, _⟩ := (sound origin known).eq_directory found
    exact openRoot_of_directory found
  have read : tree.read name = .ok contents := by
    rw [FileTree.read, follows origin known tree found named, leads]
  simp [readBelow, known, opened, read, Bind.bind, Except.bind, Except.mapError]

/-- Below the roots and in memory, a name has the same copies with the same contents. -/
theorem copies_eq (distinct : roots.Nodup) (sound : ∀ root ∈ roots, IsRoot rootAt root)
    (collected : Collects rootAt roots copies) (relative : IsRelative name)
    (follows : FollowNames rootAt roots name) :
    (enumerator rootAt roots).copies name = (MemoryResources.empty.insertAll copies).enumerator.copies name := by
  have found : (enumerator rootAt roots).resources name = .ok ((copies.map (·.1)).filter (·.name = name)) :=
    copiesBelow_eq sound collected relative follows
  have found' : (MemoryResources.empty.insertAll copies).enumerator.resources name =
      .ok ((copies.map (·.1)).filter (·.name = name)) :=
    congrArg Except.ok (collected.named_insertAll distinct sound name)
  rw [Enumerator.copies, Enumerator.copies, found, found']
  simp only [Except.map, Except.ok.injEq]
  refine List.map_congr_left ?_
  intro id member
  obtain ⟨found, named⟩ := List.mem_filter.mp member
  obtain ⟨⟨id, contents⟩, held, rfl⟩ := List.mem_map.mp found
  obtain rfl : id.name = name := by simpa using named
  -- Both have the contents that were collected.
  have below : (enumerator rootAt roots).read id = .ok contents :=
    readBelow_of_mem sound collected held relative follows
  have inMemory : (MemoryResources.empty.insertAll copies).enumerator.read id = .ok contents := by
    simp only [MemoryResources.enumerator, collected.contents?_insertAll distinct sound held]
  rw [below, inMemory]

/-- Logical names of files in a directory are their paths below it. -/
theorem toList_joinPath_concat (relative : IsRelative directory) (file : String) :
    (joinPath (namesOn directory ++ [file])).toList =
      MemoryResources.directoryStart directory.toList ++ file.toList := by
  -- A slash stands between the directory and the file unless there is no directory.
  by_cases empty : directory = ""
  · -- Files at the top are named by themselves.
    subst empty
    have lone : joinPath (namesOn "" ++ [file]) = file := String.intercalate_singleton
    rw [lone]
    rfl
  · have occupied : namesOn directory ≠ [] := by
      intro none
      have same := joinPath_namesOn directory
      rw [none] at same
      exact empty same.symm
    have joined : joinPath (namesOn directory ++ [file]) = directory ++ "/" ++ file := by
      rw [joinPath, String.intercalate_append_of_ne_nil occupied (List.cons_ne_nil file []), ← joinPath,
        joinPath_namesOn, String.intercalate_singleton]
    rw [joined, MemoryResources.directoryStart_of_not_slash (by simpa using empty) relative.getLast?_ne]
    simp

/-- An empty path asks for the directory itself when its files are listed. -/
theorem resolve_directory {entries : List (String × FileTree)}
    (follows : (FileTree.directory entries).FollowsNames directory) :
    (FileTree.directory entries).resolve (if directory = "" then "." else directory) =
      (FileTree.directory entries).descend (namesOn directory) := by
  -- The top is written as a dot in a request for its files.
  split
  · rename_i empty
    rw [resolve_dot, empty]
    rfl
  · rename_i named
    exact follows named

/-- The files that are listed below one root are those in the directory, which is not a file itself. -/
theorem exists_filesBelow {entries : List (String × FileTree)} (formed : (FileTree.directory entries).IsWellFormed)
    (follows : (FileTree.directory entries).FollowsNames directory)
    (clear : (FileTree.directory entries).IsOpenTo (namesOn directory)) :
    ∃ files, filesBelow (.directory entries) directory = .ok files ∧ ∀ file, file ∈ files ↔
      ∃ contents, (FileTree.directory entries).descend (namesOn directory ++ [file]) = .ok (.file contents) := by
  rw [filesBelow, fileNames, resolve_directory follows]
  simp only [descend_append]
  cases found : (FileTree.directory entries).descend (namesOn directory) with
  | error fault =>
    -- A directory that is not there has no files.
    obtain rfl := eq_missing_of_descend found clear
    exact ⟨[], rfl, by simp [Except.bind]⟩
  | ok target =>
    cases target with
    | file contents => exact absurd found (clear _ List.prefix_rfl contents)
    | directory inner => exact ⟨_, rfl, fun file => mem_plain_entries (formed.descend found)⟩

/-- The files that are listed below all roots are those in the directory below any of them. -/
theorem exists_listBelow (sound : ∀ root ∈ roots, IsRoot rootAt root) (follows : FollowNames rootAt roots directory)
    (clear : ∀ root ∈ roots, ∀ tree, rootAt root = .ok tree → tree.IsOpenTo (namesOn directory)) :
    ∃ files, listBelow rootAt directory roots = .ok files ∧ ∀ file, file ∈ files ↔
      ∃ root ∈ roots, ∃ contents, LeadTo rootAt root (namesOn directory ++ [file]) contents := by
  -- A root adds the files of its own directory to those of the roots behind it.
  induction roots with
  | nil => exact ⟨[], rfl, by simp⟩
  | cons root rest ih =>
    obtain ⟨first, later⟩ := List.forall_mem_cons.mp sound
    obtain ⟨follow, follow'⟩ := List.forall_mem_cons.mp follows
    obtain ⟨here, there⟩ := List.forall_mem_cons.mp clear
    obtain ⟨others, listed, each⟩ := ih later follow' there
    cases first with
    | missing absent =>
      refine ⟨others, by rw [listBelow, openRoot_of_missing absent, listed]; rfl, fun file => ?_⟩
      simp [each, LeadTo, absent]
    | @existing entries found formed =>
      obtain ⟨own, below, same⟩ := exists_filesBelow formed (follow _ found) (here _ found)
      refine ⟨own ++ others, ?_, fun file => ?_⟩
      · simp only [listBelow, openRoot_of_directory found, listed, below, Bind.bind, Except.bind, Pure.pure,
          Except.pure]
      · simp [each, same, LeadTo, found]

/-- The files that memory has in a directory are those that were collected below it. -/
theorem mem_fileNames_iff (distinct : roots.Nodup) (sound : ∀ root ∈ roots, IsRoot rootAt root)
    (collected : Collects rootAt roots copies) (relative : IsRelative directory) {file : String} :
    file ∈ (MemoryResources.empty.insertAll copies).fileNames directory ↔
      ∃ root ∈ roots, ∃ contents, LeadTo rootAt root (namesOn directory ++ [file]) contents := by
  -- A name has copies in memory when some were collected under it.
  have held : ∀ name, (MemoryResources.empty.insertAll copies).named name ≠ [] ↔
      ∃ copy ∈ copies, copy.1.name = name := by
    intro name
    rw [collected.named_insertAll distinct sound, ne_eq, List.filter_eq_nil_iff]
    simp
  rw [MemoryResources.mem_fileNames (MemoryResources.isFilled_empty.insertAll copies)]
  simp only [held, ← toList_joinPath_concat relative, String.toList_inj, exists_eq_right]
  constructor
  · intro listed
    obtain ⟨_, flat, ⟨id, contents⟩, member, name⟩ := listed
    obtain ⟨root, known, below⟩ := collected.mem_iff.mp member
    obtain ⟨names, leads, rfl⟩ := (mem_copiesAt (sound root known)).mp below
    -- A path without slashes in its names tells what these are, whether or not they are names of entries.
    have same : names = namesOn directory ++ [file] := by
      have segments := congrArg pathSegments name
      rwa [pathSegments_joinPath (leads.ne_nil (sound root known))
          fun name member => (leads.isEntryName (sound root known) name member).flat,
        pathSegments_joinPath (by simp)
          (List.forall_mem_append.mpr ⟨fun _ => slash_notMem_of_mem_namesOn, by simpa using flat⟩)] at segments
    exact ⟨root, known, contents, same ▸ leads⟩
  · intro stands
    obtain ⟨root, known, contents, leads⟩ := stands
    -- The file was collected under its path, of which its own name is the last one.
    have named := leads.isEntryName (sound root known) file (by simp)
    have below := (mem_copiesAt (sound root known)).mpr ⟨_, leads, rfl⟩
    exact ⟨named.nonempty, named.flat, _, collected.mem_iff.mpr ⟨root, known, below⟩, rfl⟩

/-- Below the roots and in memory, a directory has the same files. -/
theorem list_eq (distinct : roots.Nodup) (sound : ∀ root ∈ roots, IsRoot rootAt root)
    (collected : Collects rootAt roots copies) (relative : IsRelative directory)
    (follows : FollowNames rootAt roots directory)
    (clear : ∀ root ∈ roots, ∀ tree, rootAt root = .ok tree → tree.IsOpenTo (namesOn directory)) :
    (enumerator rootAt roots).list directory =
      (MemoryResources.empty.insertAll copies).enumerator.list directory := by
  obtain ⟨files, listed, each⟩ := exists_listBelow sound follows clear
  have below : (enumerator rootAt roots).list directory = .ok (increasing files) :=
    show (listBelow rootAt directory roots).map increasing = _ by rw [listed]; rfl
  rw [below]
  refine congrArg Except.ok (increasing_congr fun file => ?_)
  -- Both listings are in increasing order, so it is enough that the same files are in them.
  rw [each, ← mem_fileNames_iff distinct sound collected relative, MemoryResources.fileNames, mem_increasing]

end Directories

end MessageCatalogue
