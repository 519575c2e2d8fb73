import Mathlib.Data.List.Nodup
import MessageCatalogue.Proofs.Text.Pieces
import MessageCatalogue.Resource.FileTree

/-! A file tree holds its files at paths of entry names, and looking these up one by one leads to the files. -/

namespace MessageCatalogue.FileTree

/-- The path of some names, one below the other. -/
def joinPath (names : List String) : String := "/".intercalate names

/-- The names on a path, of which an empty path has none. -/
def namesOn (path : String) : List String := if path = "" then [] else pathSegments path

/-- A name that an entry of a directory can have. -/
structure IsEntryName (name : String) : Prop where
  nonempty : name ≠ ""
  flat : '/' ∉ name.toList
  notSame : name ≠ "."
  notAbove : name ≠ ".."

instance (name : String) : Decidable (IsEntryName name) :=
  decidable_of_iff (name ≠ "" ∧ '/' ∉ name.toList ∧ name ≠ "." ∧ name ≠ "..")
    ⟨fun ⟨nonempty, flat, notSame, notAbove⟩ => ⟨nonempty, flat, notSame, notAbove⟩,
      fun ⟨nonempty, flat, notSame, notAbove⟩ => ⟨nonempty, flat, notSame, notAbove⟩⟩

/-- A path that does nothing but lead down from one entry to another. -/
def IsRelative (path : String) : Prop := ∀ name ∈ namesOn path, IsEntryName name

instance (path : String) : Decidable (IsRelative path) :=
  inferInstanceAs (Decidable (∀ name ∈ namesOn path, IsEntryName name))

/-- The segments of a path are put together to the path. -/
theorem joinPath_pathSegments (path : String) : joinPath (pathSegments path) = path := by
  have slash : "/".toList = ['/'] := by decide
  rw [← String.toList_inj, joinPath, String.toList_intercalate, slash, pathSegments, Text.pieces_singleton,
    List.map_map]
  simp [Function.comp_def, List.intercalate_splitOn]

/-- Names without slashes are the segments of their path. -/
theorem pathSegments_joinPath {names : List String} (occupied : names ≠ [])
    (flat : ∀ name ∈ names, '/' ∉ name.toList) : pathSegments (joinPath names) = names := by
  have slash : "/".toList = ['/'] := by decide
  rw [pathSegments, joinPath, String.toList_intercalate, slash, Text.pieces_singleton,
    List.splitOn_intercalate '/' (by simpa using flat) (by simpa using occupied), List.map_map]
  simp [Function.comp_def]

/-- The names on a path are put together to the path. -/
@[simp] theorem joinPath_namesOn (path : String) : joinPath (namesOn path) = path := by
  unfold namesOn
  split
  · rename_i empty
    rw [empty]
    rfl
  · exact joinPath_pathSegments path

/-- Names of entries are the names on their path. -/
theorem namesOn_joinPath {names : List String} (named : ∀ name ∈ names, IsEntryName name) :
    namesOn (joinPath names) = names := by
  cases names with
  | nil => rfl
  | cons first rest =>
    have segments := pathSegments_joinPath (List.cons_ne_nil first rest) fun name member => (named name member).flat
    -- An empty path would have an empty name for its only segment.
    have occupied : joinPath (first :: rest) ≠ "" := by
      intro empty
      rw [empty] at segments
      have lone : pathSegments "" = [""] := rfl
      rw [lone] at segments
      obtain ⟨rfl, _⟩ := List.cons.inj segments
      exact (named "" List.mem_cons_self).nonempty rfl
    rw [namesOn, if_neg occupied, segments]

/-- Names of entries are told apart by their path. -/
theorem joinPath_inj {one other : List String} (named : ∀ name ∈ one, IsEntryName name)
    (named' : ∀ name ∈ other, IsEntryName name) : joinPath one = joinPath other ↔ one = other := by
  constructor
  · intro same
    rw [← namesOn_joinPath named, same, namesOn_joinPath named']
  · rintro rfl
    rfl

/-- No segment of a path holds a slash. -/
theorem slash_notMem_of_mem_pathSegments {path segment : String} (member : segment ∈ pathSegments path) :
    '/' ∉ segment.toList := by
  obtain ⟨piece, found, rfl⟩ := List.mem_map.mp member
  rw [String.toList_ofList]
  exact Text.notMem_of_mem_pieces found

/-- No name on a path holds a slash. -/
theorem slash_notMem_of_mem_namesOn {path name : String} (member : name ∈ namesOn path) : '/' ∉ name.toList := by
  unfold namesOn at member
  split at member
  · simp at member
  · exact slash_notMem_of_mem_pathSegments member

/-- A path with a slash at one of its ends has an empty name. -/
theorem empty_mem_namesOn {path : String} {front back : List Char} (whole : path.toList = front ++ '/' :: back)
    (outside : front = [] ∨ back = []) : "" ∈ namesOn path := by
  -- A slash at an end has nothing on its outer side.
  have occupied : path ≠ "" := by
    rintro rfl
    simp at whole
  rw [namesOn, if_neg occupied, pathSegments, whole, Text.pieces_singleton, List.splitOn_append_cons_self,
    List.map_append, List.mem_append]
  rcases outside with rfl | rfl
  · exact .inl (by simp)
  · exact .inr (by simp)

/-- A relative path does not begin with a slash. -/
theorem IsRelative.head?_ne {path : String} (relative : IsRelative path) : path.toList.head? ≠ some '/' := by
  intro begins
  obtain ⟨rest, whole⟩ := List.head?_eq_some_iff.mp begins
  have split : path.toList = [] ++ '/' :: rest := whole
  exact (relative "" (empty_mem_namesOn split (.inl rfl))).nonempty rfl

/-- A relative path does not end in a slash. -/
theorem IsRelative.getLast?_ne {path : String} (relative : IsRelative path) : path.toList.getLast? ≠ some '/' := by
  intro ends
  obtain ⟨front, whole⟩ := List.getLast?_eq_some_iff.mp ends
  exact (relative "" (empty_mem_namesOn whole (.inr rfl))).nonempty rfl

/-- The tree at some names, each of them looked up in what the ones before it lead to. -/
def descend (tree : FileTree) : List String → Except PathFault FileTree
  | [] => .ok tree
  -- A file has no entries, whatever the name may be.
  | name :: rest =>
    if tree.isFile then .error .notADirectory
    else
      match tree.entry? name with
      | some child => child.descend rest
      | none => .error .missing

/-- A name leads into the entry of a directory that has it. -/
theorem descend_of_some {entries : List (String × FileTree)} {name : String} {child : FileTree}
    (found : entry? name (directory entries) = some child) (rest : List String) :
    (directory entries).descend (name :: rest) = child.descend rest := by
  simp [descend, isFile, found]

/-- A name that no entry of a directory has leads nowhere. -/
theorem descend_of_none {entries : List (String × FileTree)} {name : String}
    (absent : entry? name (directory entries) = none) (rest : List String) :
    (directory entries).descend (name :: rest) = .error .missing := by
  simp [descend, isFile, absent]

/-- Names can be looked up in two steps. -/
theorem descend_append (tree : FileTree) (front back : List String) :
    tree.descend (front ++ back) = (tree.descend front).bind (·.descend back) := by
  -- The names in front are looked up first, and a failure among them ends both ways.
  induction front generalizing tree with
  | nil => rfl
  | cons name rest ih =>
    rw [List.cons_append, descend, descend]
    split
    · rfl
    · cases tree.entry? name with
      | none => rfl
      | some child => exact ih child

/-- No plain file stands at the end of some names or on the way there. -/
def IsOpenTo (tree : FileTree) (names : List String) : Prop :=
  ∀ front, front <+: names → ∀ contents, tree.descend front ≠ .ok (.file contents)

/-- Names that lead to a directory do not pass through a file. -/
theorem isOpenTo_of_descend {tree : FileTree} {names : List String} {entries : List (String × FileTree)}
    (leads : tree.descend names = .ok (.directory entries)) : tree.IsOpenTo names := by
  intro front begins contents stands
  obtain ⟨back, rfl⟩ := begins
  rw [descend_append, stands] at leads
  cases back <;> cases leads

/-- Names that lead to nothing end at a missing entry unless they pass through a file. -/
theorem eq_missing_of_descend {tree : FileTree} {names : List String} {fault : PathFault}
    (failed : tree.descend names = .error fault) (clear : tree.IsOpenTo names) : fault = .missing := by
  induction names generalizing tree with
  | nil => cases failed
  | cons name rest ih =>
    -- The tree itself is at the end of no names at all.
    have here := clear [] List.nil_prefix
    cases tree with
    | file contents => exact absurd rfl (here contents)
    | directory entries =>
      cases found : entry? name (directory entries) with
      | none =>
        rw [descend_of_none found] at failed
        exact (Except.error.inj failed).symm
      | some child =>
        rw [descend_of_some found] at failed
        refine ih failed fun front begins contents => ?_
        have later := clear (name :: front) (List.cons_prefix_cons.mpr ⟨rfl, begins⟩) contents
        rwa [descend_of_some found] at later

mutual

/-- The files of a tree, each as the names that lead to it with its contents. -/
def files : FileTree → List (List String × ByteArray)
  | .file contents => [([], contents)]
  | .directory entries => filesIn entries

/-- The files of some entries, each as the names that lead to it with its contents. -/
def filesIn : List (String × FileTree) → List (List String × ByteArray)
  | [] => []
  | (name, tree) :: rest => tree.files.map (fun (names, contents) => (name :: names, contents)) ++ filesIn rest

end

/-- A tree whose directories have entries with proper names, each at most once. -/
inductive IsWellFormed : FileTree → Prop
  | file (contents : ByteArray) : IsWellFormed (.file contents)
  | directory {entries : List (String × FileTree)} (distinct : (entries.map (·.1)).Nodup)
      (named : ∀ entry ∈ entries, IsEntryName entry.1) (below : ∀ entry ∈ entries, IsWellFormed entry.2) :
      IsWellFormed (.directory entries)

/-- A directory is well-formed when its entries have distinct proper names and are well-formed themselves. -/
theorem isWellFormed_directory_iff {entries : List (String × FileTree)} :
    (directory entries).IsWellFormed ↔ (entries.map (·.1)).Nodup ∧
      ∀ entry ∈ entries, IsEntryName entry.1 ∧ entry.2.IsWellFormed := by
  constructor
  · rintro (_ | ⟨distinct, named, below⟩)
    exact ⟨distinct, fun entry member => ⟨named entry member, below entry member⟩⟩
  · rintro ⟨distinct, each⟩
    exact .directory distinct (fun entry member => (each entry member).1) fun entry member => (each entry member).2

/-- A file of some entries lies in one of them. -/
theorem mem_filesIn {entries : List (String × FileTree)} {names : List String} {contents : ByteArray} :
    (names, contents) ∈ filesIn entries ↔
      ∃ name child rest, (name, child) ∈ entries ∧ names = name :: rest ∧ (rest, contents) ∈ child.files := by
  -- The files of the entries are listed entry by entry, each under its name.
  induction entries with
  | nil => simp [filesIn]
  | cons first others ih =>
    obtain ⟨name, child⟩ := first
    rw [filesIn, List.mem_append, ih]
    constructor
    · rintro (own | ⟨name', child', rest, member, same, inside⟩)
      · obtain ⟨⟨rest, own⟩, inside, same⟩ := List.mem_map.mp own
        obtain ⟨rfl, rfl⟩ := Prod.mk.inj same
        exact ⟨name, child, rest, List.mem_cons_self, rfl, inside⟩
      · exact ⟨name', child', rest, List.mem_cons_of_mem _ member, same, inside⟩
    · rintro ⟨name', child', rest, member, rfl, inside⟩
      rcases List.mem_cons.mp member with same | member
      · obtain ⟨rfl, rfl⟩ := Prod.mk.inj same
        exact .inl (List.mem_map.mpr ⟨(rest, contents), inside, rfl⟩)
      · exact .inr ⟨name', child', rest, member, rfl, inside⟩

/-- An entry is found by its name when names do not repeat. -/
theorem eq_some_iff_mem_entries {entries : List (String × FileTree)} (distinct : (entries.map (·.1)).Nodup)
    {name : String} {child : FileTree} : entry? name (directory entries) = some child ↔ (name, child) ∈ entries := by
  -- The first entry with the name is found, and there is only one.
  unfold entry? FileTree.entries
  induction entries with
  | nil => simp
  | cons first rest ih =>
    obtain ⟨absent, distinct⟩ := List.nodup_cons.mp distinct
    rw [List.find?_cons]
    by_cases same : first.1 = name
    · -- The first entry has the name, so no later one has it.
      have others : (name, child) ∉ rest := fun member =>
        absent (List.mem_map.mpr ⟨(name, child), member, same.symm⟩)
      obtain ⟨own, tree⟩ := first
      subst same
      simp [others, eq_comm]
    · have different : (name, child) ≠ first := fun equal => same (equal ▸ rfl)
      simpa [same, different] using ih distinct

/-- The files of a well-formed tree are those that their names lead to. -/
theorem mem_files_iff {tree : FileTree} (formed : tree.IsWellFormed) {names : List String} {contents : ByteArray} :
    (names, contents) ∈ tree.files ↔ tree.descend names = .ok (.file contents) := by
  -- The induction is on the names, each of which leads into one entry.
  induction names generalizing tree with
  | nil =>
    cases formed with
    | file own => simp [files, descend, eq_comm]
    | directory distinct named below => simp [files, mem_filesIn, descend]
  | cons name rest ih =>
    cases formed with
    | file own => simp [files, descend, isFile]
    | @directory entries distinct named below =>
      rw [files, mem_filesIn]
      cases found : entry? name (directory entries) with
      | none =>
        rw [descend_of_none found]
        constructor
        · rintro ⟨name', child, rest', member, same, _⟩
          obtain ⟨rfl, rfl⟩ := List.cons.inj same
          cases found.symm.trans ((eq_some_iff_mem_entries distinct).mpr member)
        · intro impossible
          cases impossible
      | some child =>
        have member := (eq_some_iff_mem_entries distinct).mp found
        rw [descend_of_some found, ← ih (below _ member)]
        constructor
        · rintro ⟨name', child', rest', member', same, inside⟩
          obtain ⟨rfl, rfl⟩ := List.cons.inj same
          obtain rfl := Option.some.inj (found.symm.trans ((eq_some_iff_mem_entries distinct).mpr member'))
          exact inside
        · intro inside
          exact ⟨name, child, rest, member, rfl, inside⟩

/-- What lies below a well-formed tree is well-formed. -/
theorem IsWellFormed.descend {tree child : FileTree} (formed : tree.IsWellFormed) {names : List String}
    (leads : tree.descend names = .ok child) : child.IsWellFormed := by
  -- Each name leads to an entry, which is well-formed by itself.
  induction names generalizing tree with
  | nil =>
    cases leads
    exact formed
  | cons name rest ih =>
    cases formed with
    | file contents => cases leads
    | @directory entries distinct named below =>
      cases found : entry? name (FileTree.directory entries) with
      | none =>
        rw [descend_of_none found] at leads
        cases leads
      | some inner =>
        rw [descend_of_some found] at leads
        exact ih (below _ ((eq_some_iff_mem_entries distinct).mp found)) leads

/-- The plain files among the entries of a well-formed directory are those that a single name leads to. -/
theorem mem_plain_entries {entries : List (String × FileTree)} (formed : (directory entries).IsWellFormed)
    {file : String} : file ∈ (entries.filter (·.2.isFile)).map (·.1) ↔
      ∃ contents, (directory entries).descend [file] = .ok (.file contents) := by
  -- Names do not repeat, so an entry and what its name leads to are the same.
  obtain _ | ⟨distinct, _, _⟩ := formed
  rw [List.mem_map]
  constructor
  · rintro ⟨⟨name, child⟩, member, rfl⟩
    obtain ⟨member, plain⟩ := List.mem_filter.mp member
    rw [descend_of_some ((eq_some_iff_mem_entries distinct).mpr member)]
    cases child with
    | file contents => exact ⟨contents, rfl⟩
    | directory inner => cases plain
  · rintro ⟨contents, leads⟩
    cases found : entry? file (directory entries) with
    | none =>
      rw [descend_of_none found] at leads
      cases leads
    | some child =>
      rw [descend_of_some found] at leads
      obtain rfl := Except.ok.inj leads
      exact ⟨_, List.mem_filter.mpr ⟨(eq_some_iff_mem_entries distinct).mp found, rfl⟩, rfl⟩

/-- Every name that leads to a file of a well-formed tree is that of an entry. -/
theorem isEntryName_of_mem_files {tree : FileTree} (formed : tree.IsWellFormed) {names : List String}
    {contents : ByteArray} (member : (names, contents) ∈ tree.files) : ∀ name ∈ names, IsEntryName name := by
  -- The first name is that of an entry, and the others lead on from its tree.
  induction names generalizing tree with
  | nil => simp
  | cons first rest ih =>
    cases formed with
    | file own => simp [files] at member
    | directory distinct named below =>
      obtain ⟨name, child, rest', entry, same, inside⟩ := mem_filesIn.mp member
      obtain ⟨rfl, rfl⟩ := List.cons.inj same
      exact List.forall_mem_cons.mpr ⟨named _ entry, ih (below _ entry) inside⟩

/-- Entries with different names have no files in common. -/
theorem nodup_filesIn {entries : List (String × FileTree)} (distinct : (entries.map (·.1)).Nodup)
    (each : ∀ entry ∈ entries, (entry.2.files.map (·.1)).Nodup) : ((filesIn entries).map (·.1)).Nodup := by
  -- Two paths that begin with different names are different.
  induction entries with
  | nil => exact List.nodup_nil
  | cons first rest ih =>
    obtain ⟨name, child⟩ := first
    obtain ⟨absent, distinct⟩ := List.nodup_cons.mp distinct
    obtain ⟨own, others⟩ := List.forall_mem_cons.mp each
    rw [filesIn, List.map_append, List.nodup_append, List.map_map]
    refine ⟨?_, ih distinct others, ?_⟩
    · have inside : (child.files.map (·.1)).map (name :: ·) =
          child.files.map ((·.1) ∘ fun (names, contents) => (name :: names, contents)) := by
        rw [List.map_map]
        rfl
      exact inside ▸ own.map List.cons_injective
    · -- A path through the first entry begins with its name, which no other entry has.
      rintro names inFirst names' inRest rfl
      obtain ⟨⟨below, contents⟩, _, rfl⟩ := List.mem_map.mp inFirst
      obtain ⟨⟨same, contents'⟩, inside, equal⟩ := List.mem_map.mp inRest
      obtain rfl : same = name :: below := equal
      obtain ⟨name', child', rest', member, begun, _⟩ := mem_filesIn.mp inside
      obtain ⟨rfl, _⟩ := List.cons.inj begun
      exact absent (List.mem_map_of_mem (f := (·.1)) member)

/-- No two files of a well-formed tree lie at the same names. -/
theorem nodup_files {tree : FileTree} (formed : tree.IsWellFormed) : (tree.files.map (·.1)).Nodup := by
  induction formed with
  | file contents => simp [files]
  | directory distinct named below ih => exact nodup_filesIn distinct ih

/-- Walking along names of entries is looking them up, as long as they are not too long. -/
theorem walk_eq_descend {beyond : Option FileTree} {names : List String} (named : ∀ name ∈ names, IsEntryName name)
    (short : ∀ name ∈ names, name.utf8ByteSize ≤ nameLimit) (above : List FileTree) (tree : FileTree) :
    walk beyond above tree names = tree.descend names := by
  induction names generalizing above tree with
  | nil => rfl
  | cons name rest ih =>
    obtain ⟨own, others⟩ := List.forall_mem_cons.mp named
    obtain ⟨fits, fit⟩ := List.forall_mem_cons.mp short
    -- None of the special segments is the name of an entry.
    have same : ¬ (name = "" ∨ name = ".") := not_or.mpr ⟨own.nonempty, own.notSame⟩
    unfold walk
    rw [descend, if_neg same, if_neg own.notAbove, if_neg (Nat.not_lt.mpr fits)]
    split
    · rfl
    · cases tree.entry? name with
      | none => rfl
      | some child => exact ih others fit _ child

/-- A path of the kind and the length that the system takes. -/
structure IsWithinLimits (path : String) : Prop where
  free : '\x00' ∉ path.toList
  short : path.utf8ByteSize < pathLimit
  names : ∀ name ∈ namesOn path, name.utf8ByteSize ≤ nameLimit

instance (path : String) : Decidable (IsWithinLimits path) :=
  decidable_of_iff ('\x00' ∉ path.toList ∧ path.utf8ByteSize < pathLimit ∧
      ∀ name ∈ namesOn path, name.utf8ByteSize ≤ nameLimit)
    ⟨fun ⟨free, short, names⟩ => ⟨free, short, names⟩, fun ⟨free, short, names⟩ => ⟨free, short, names⟩⟩

/-- A path, unless it is empty, leads to what the names on it lead to one after the other. -/
def FollowsNames (tree : FileTree) (path : String) : Prop :=
  path ≠ "" → tree.resolve path = tree.descend (namesOn path)

/-- Relative paths within the limits of the system lead to what the names on them lead to. -/
theorem followsNames_of_isWithinLimits {path : String} (relative : IsRelative path) (within : IsWithinLimits path)
    (tree : FileTree) : tree.FollowsNames path := by
  intro named
  have segments : namesOn path = pathSegments path := if_neg named
  rw [resolve, if_neg within.free, if_neg (Nat.not_le.mpr within.short), if_neg named,
    if_neg relative.head?_ne, ← segments, walk_eq_descend relative within.names]

/-- A dot leads nowhere from a directory. -/
theorem resolve_dot (entries : List (String × FileTree)) :
    (directory entries).resolve "." = .ok (directory entries) := by
  have segments : pathSegments "." = ["."] := rfl
  have short : ".".utf8ByteSize < pathLimit := by decide
  simp [resolve, segments, short, walk, isFile]

end MessageCatalogue.FileTree
