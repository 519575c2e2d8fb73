import MessageCatalogue.Proofs.Text.Pieces
import MessageCatalogue.Resource.Memory
import MessageCatalogue.Resource.Pattern

/-! A pattern that fits a source puts the locale into the file name, from which it is read back. -/

namespace MessageCatalogue

namespace MemoryResources

/-- The files of a directory that does not end in a slash are named behind one more slash. -/
theorem directoryStart_of_not_slash {directory : List Char} (named : directory ≠ [])
    (ended : directory.getLast? ≠ some '/') : directoryStart directory = directory ++ ['/'] := by
  have trimmed : trimSlashes directory = directory := by
    -- Seen from its end, the directory begins with another character.
    have last : directory.reverse.head? ≠ some '/' := by rwa [List.head?_reverse]
    -- So there is no slash to leave out.
    unfold trimSlashes
    cases reversed : directory.reverse with
    | nil => exact absurd (List.reverse_eq_nil_iff.mp reversed) named
    | cons c rest =>
      have other : c ≠ '/' := by simpa [reversed] using last
      rw [List.dropWhile_cons_of_neg (by simpa using other), ← reversed, List.reverse_reverse]
  have occupied : directory.isEmpty = false := by simpa using named
  simp [directoryStart, occupied, trimmed]

end MemoryResources

namespace ResourcePattern

variable {pattern : ResourcePattern} {source : String}

theorem isSolid_sourceSlot : Text.IsSolid sourceSlot := ⟨'{', _, rfl, by decide⟩

theorem isSolid_localeSlot : Text.IsSolid localeSlot := ⟨'{', _, rfl, by decide⟩

/-- A part of a template in which the source fills its slots. -/
def fill (source : String) (part : List Char) : List Char := Text.replace sourceSlot source.toList part

/-- The file name of the resource of a source in a locale. -/
def fileName (pattern : ResourcePattern) (source : String) (locale : Locale) : String :=
  String.ofList (Text.replace localeSlot locale.resourceSuffix.toList
    (fill source (splitDirectory pattern.template.toList).2))

/-- The locale stands once in the names of a source, in their last part, behind a directory that has a name. -/
structure Fits (pattern : ResourcePattern) (source : String) : Prop where
  accepted : ofTemplate pattern.template = .ok pattern
  once : Text.occurrences localeSlot (fill source pattern.template.toList) = 1
  flat : '/' ∉ fill source (splitDirectory pattern.template.toList).2
  placed : '/' ∉ pattern.template.toList ∨
    pattern.directory source ≠ "" ∧ (pattern.directory source).toList.getLast? ≠ some '/'

/-- An accepted template has a slot for the locale in its file part. -/
theorem localeSlot_infix_of_accepted (accepted : ofTemplate pattern.template = .ok pattern) :
    localeSlot <:+: (splitDirectory pattern.template.toList).2 := by
  unfold ofTemplate at accepted
  cases found : defect? pattern.template.toList with
  | some defect => simp [found] at accepted
  | none =>
    -- Without the slot, the template would have been refused for its directory.
    refine Decidable.byContradiction fun absent => ?_
    have none := (Text.occurrences_eq_zero_iff isSolid_localeSlot.ne_nil).mpr absent
    simp only [defect?, none, if_true] at found
    split at found
    · cases found
    · split at found <;> cases found

/-- A path is its directory and its file, with a slash between them unless it has no slash at all. -/
theorem splitDirectory_cases (path : List Char) :
    path = (splitDirectory path).1 ++ '/' :: (splitDirectory path).2 ∨ splitDirectory path = ([], path) := by
  unfold splitDirectory
  cases cut : Text.cutLast? '/' path with
  | none => exact .inr rfl
  | some parts => exact .inl (Text.cutLast?_eq_some cut)

/-- A slash separates what the source fills. -/
theorem fill_slash (source : String) (front back : List Char) :
    fill source (front ++ '/' :: back) = fill source front ++ '/' :: fill source back := by
  -- No slot of the source holds a slash, so none reaches over it or begins at it.
  exact Text.replace_append_cons_of_notMem isSolid_sourceSlot.ne_nil (by decide) _ _ _

/-- The slot of the locale stays when the source fills its own. -/
theorem fill_localeSlot (source : String) (front back : List Char) :
    fill source (front ++ localeSlot ++ back) = fill source front ++ localeSlot ++ fill source back := by
  -- The slots part at their second characters, so no slot of the source begins in one of the locale.
  have other : ¬ sourceSlot <+: localeSlot ++ back := fun begins =>
    absurd (List.cons_prefix_cons.mp (List.cons_prefix_cons.mp begins).2).1 (by decide)
  have inside : '{' ∉ localeSlot.tail := by decide
  calc fill source (front ++ localeSlot ++ back)
    _ = fill source front ++ fill source (localeSlot ++ back) := by
      rw [List.append_assoc]
      exact Text.replace_append_cons isSolid_sourceSlot.ne_nil (by decide) _ _ _
    _ = fill source front ++ ('{' :: fill source (localeSlot.tail ++ back)) := by
      congr 1
      exact Text.replace_cons other _
    _ = fill source front ++ ('{' :: (localeSlot.tail ++ fill source back)) := by
      congr 2
      exact Text.replace_append_of_notMem inside _ _ _
    _ = fill source front ++ localeSlot ++ fill source back := by
      rw [List.append_assoc]
      rfl

/-- The directory of a source is the directory part of the template, filled with the source. -/
theorem toList_directory (pattern : ResourcePattern) (source : String) :
    (pattern.directory source).toList = fill source (splitDirectory pattern.template.toList).1 := by
  rw [directory, String.toList_ofList]
  rfl

/-- A text lies between two others when it is put together from all three. -/
theorem between?_eq_some {opening closing text inner : List Char} :
    between? opening closing text = some inner ↔ text = opening ++ inner ++ closing := by
  -- The two texts around may not overlap, which they do not when one is taken off before the other.
  unfold between?
  constructor
  · -- The first text is taken off the front, and the last one off the end of the rest.
    intro found
    cases begun : opening.isPrefixOf? text with
    | none => simp [begun] at found
    | some rest =>
      rw [begun] at found
      have front := List.isPrefixOf?_eq_some_iff_append_eq.mp begun
      have back := List.isSuffixOf?_eq_some_iff_append_eq.mp found
      rw [← front, ← back, List.append_assoc]
  · -- Both are found when they are there.
    intro same
    have begun : opening.isPrefixOf? text = some (inner ++ closing) :=
      List.isPrefixOf?_eq_some_iff_append_eq.mpr (by rw [same, List.append_assoc])
    rw [begun]
    exact List.isSuffixOf?_eq_some_iff_append_eq.mpr rfl

/-- No locale is read from an empty text. -/
theorem resourceSuffix_ne_empty {locale : Locale}
    (readable : Locale.parse locale.resourceSuffix = .ok locale) : locale.resourceSuffix ≠ "" := by
  intro empty
  rw [empty] at readable
  cases readable

/-- A spelling stands for a locale of a short language when it is the one that the locale is written with. -/
theorem localeOfSpelling?_eq_some {spelling : List Char} {locale : Locale} :
    localeOfSpelling? spelling = some locale ↔ spelling = locale.resourceSuffix.toList ∧
      Locale.parse locale.resourceSuffix = .ok locale ∧ locale.languageName.length ≤ 3 := by
  -- The spelling must be read as a locale and be what that locale is written with.
  unfold localeOfSpelling?
  constructor
  · intro found
    split at found
    · cases found
    · cases parsed : Locale.parse (String.ofList spelling) with
      | error error => simp [parsed] at found
      | ok own =>
        simp only [parsed] at found
        split at found
        · -- The locale that was read is written as it was spelled.
          rename_i written
          obtain rfl := Option.some.inj found
          have spelled : own.resourceSuffix = String.ofList spelling := by
            rw [← written.1, String.ofList_toList]
          exact ⟨written.1.symm, spelled ▸ parsed, written.2⟩
        · cases found
  · intro written
    obtain ⟨rfl, parsed, short⟩ := written
    have present : locale.resourceSuffix.toList.isEmpty = false := by
      simpa using resourceSuffix_ne_empty parsed
    rw [String.ofList_toList, parsed]
    simp [present, short]

/-- The locale is read from between the texts around the first slot in the file part of a source. -/
theorem localeOfFile?_eq_bind {opening closing : List Char}
    (parts : fill source (splitDirectory pattern.template.toList).2 = opening ++ localeSlot ++ closing)
    (inside : ¬ localeSlot <:+: opening) (file : String) :
    pattern.localeOfFile? source file = (between? opening closing file.toList).bind localeOfSpelling? := by
  -- The file part is cut at the slot into these texts.
  have cut : Text.cutFirst? localeSlot (fill source (splitDirectory pattern.template.toList).2) =
      some (opening, closing) := by rw [parts, isSolid_localeSlot.cutFirst?_append inside]
  unfold fill at cut
  simp only [localeOfFile?, cut]
  cases between? opening closing file.toList with
  | none => rfl
  | some spelling => rfl

/-- A file reveals a locale when it is named by the spelling of that locale, which is read as it is written. -/
theorem localeOfFile?_eq_some_iff {opening closing : List Char}
    (parts : fill source (splitDirectory pattern.template.toList).2 = opening ++ localeSlot ++ closing)
    (inside : ¬ localeSlot <:+: opening) {file : String} {locale : Locale} :
    pattern.localeOfFile? source file = some locale ↔
      file.toList = opening ++ locale.resourceSuffix.toList ++ closing ∧
        Locale.parse locale.resourceSuffix = .ok locale ∧ locale.languageName.length ≤ 3 := by
  -- The file is cut at the two texts around the slot before anything is read.
  rw [localeOfFile?_eq_bind parts inside, Option.bind_eq_some_iff]
  simp only [between?_eq_some, localeOfSpelling?_eq_some]
  constructor
  · -- What lies between the two texts is the locale as it is written.
    intro found
    obtain ⟨spelling, same, rfl, readable⟩ := found
    exact ⟨same, readable⟩
  · intro named
    obtain ⟨same, readable⟩ := named
    exact ⟨_, same, rfl, readable⟩

/-- Two texts stand around the only slot of the locale in the file part of a source. -/
structure IsFrame (pattern : ResourcePattern) (source : String) (opening closing : List Char) : Prop where
  parts : fill source (splitDirectory pattern.template.toList).2 = opening ++ localeSlot ++ closing
  before : ¬ localeSlot <:+: MemoryResources.directoryStart (pattern.directory source).toList ++ opening
  behind : ¬ localeSlot <:+: closing

namespace IsFrame

variable {opening closing : List Char}

/-- There is no slot in front of the only one. -/
theorem inside (frame : pattern.IsFrame source opening closing) : ¬ localeSlot <:+: opening := fun stands =>
  frame.before (stands.trans (List.suffix_append _ _).isInfix)

/-- A file name is the locale as it is written between the two texts. -/
theorem toList_fileName (frame : pattern.IsFrame source opening closing) (locale : Locale) :
    (pattern.fileName source locale).toList = opening ++ locale.resourceSuffix.toList ++ closing := by
  -- The slot gives way to the locale, and there is no other slot on either side of it.
  rw [fileName, String.toList_ofList, frame.parts, isSolid_localeSlot.replace_only frame.inside frame.behind]

end IsFrame

namespace Fits

/-- The template filled with the source is the file part behind whatever the names in its directory begin with. -/
theorem fill_template (fits : pattern.Fits source) :
    fill source pattern.template.toList =
      MemoryResources.directoryStart (pattern.directory source).toList ++
        fill source (splitDirectory pattern.template.toList).2 := by
  -- The directory is what the template has in front of its last slash.
  rcases splitDirectory_cases pattern.template.toList with parts | whole
  · -- A template with a slash has a directory that ends in no other one.
    have slash : '/' ∈ pattern.template.toList := parts ▸ by simp
    obtain ⟨named, ended⟩ := fits.placed.resolve_left (not_not_intro slash)
    have occupied : (pattern.directory source).toList ≠ [] := by simpa using named
    have filled := fill_slash source (splitDirectory pattern.template.toList).1
      (splitDirectory pattern.template.toList).2
    rw [← parts] at filled
    rw [MemoryResources.directoryStart_of_not_slash occupied ended, filled, toList_directory,
      List.append_assoc, List.singleton_append]
  · -- A template without a slash is the file part as a whole.
    have empty : (pattern.directory source).toList = [] := by
      rw [toList_directory, whole]
      rfl
    rw [empty, whole]
    rfl

/-- Some texts stand around the only slot of the locale. -/
theorem exists_frame (fits : pattern.Fits source) : ∃ opening closing, pattern.IsFrame source opening closing := by
  obtain ⟨front, back, parts⟩ := localeSlot_infix_of_accepted fits.accepted
  have filled := fill_localeSlot source front back
  rw [parts] at filled
  -- The only slot of the locale is the one that was found, so there is none beside it.
  have counted := fits.once
  rw [fits.fill_template, filled, ← List.append_assoc, ← List.append_assoc,
    isSolid_localeSlot.occurrences_append] at counted
  have proper := isSolid_localeSlot.ne_nil
  exact ⟨fill source front, fill source back, filled,
    (Text.occurrences_eq_zero_iff proper).mp (by omega), (Text.occurrences_eq_zero_iff proper).mp (by omega)⟩

/-- The resource of a locale is named by its file name in the directory of the source. -/
theorem resourceName_eq (fits : pattern.Fits source) (locale : Locale) :
    (pattern.resourceName source locale).toList =
      MemoryResources.directoryStart (pattern.directory source).toList ++
        (pattern.fileName source locale).toList := by
  obtain ⟨opening, closing, frame⟩ := fits.exists_frame
  have proper := isSolid_localeSlot.ne_nil
  have named : (pattern.resourceName source locale).toList =
      Text.replace localeSlot locale.resourceSuffix.toList (fill source pattern.template.toList) :=
    String.toList_ofList
  -- The slot is replaced behind a text that holds no other one, with the directory or without it.
  rw [named, fits.fill_template, frame.toList_fileName, frame.parts, ← List.append_assoc,
    ← List.append_assoc, isSolid_localeSlot.replace_append, Text.replace_of_not_infix proper _ frame.before,
    Text.replace_of_not_infix proper _ frame.behind]
  simp only [List.append_assoc]

/-- A file reveals a locale when it has the file name of that locale, which is read as it is written. -/
theorem localeOfFile?_eq_some (fits : pattern.Fits source) {file : String} {locale : Locale} :
    pattern.localeOfFile? source file = some locale ↔ file = pattern.fileName source locale ∧
      Locale.parse locale.resourceSuffix = .ok locale ∧ locale.languageName.length ≤ 3 := by
  obtain ⟨opening, closing, frame⟩ := fits.exists_frame
  rw [localeOfFile?_eq_some_iff frame.parts frame.inside, ← String.toList_inj, frame.toList_fileName]

/-- A locale that can be read has a file name. -/
theorem fileName_ne_empty (fits : pattern.Fits source) {locale : Locale}
    (readable : Locale.parse locale.resourceSuffix = .ok locale) : pattern.fileName source locale ≠ "" := by
  obtain ⟨opening, closing, frame⟩ := fits.exists_frame
  -- Such a locale is not written as an empty text.
  have spelled := resourceSuffix_ne_empty readable
  intro empty
  have none := frame.toList_fileName locale
  rw [empty] at none
  simp [spelled] at none

/-- The file name of a locale holds no slash unless the locale is written with one. -/
theorem slash_notMem_fileName (fits : pattern.Fits source) (locale : Locale) :
    '/' ∉ (pattern.fileName source locale).toList ↔ '/' ∉ locale.resourceSuffix.toList := by
  obtain ⟨opening, closing, frame⟩ := fits.exists_frame
  -- There is no slash in what stands around the locale.
  have flat := fits.flat
  rw [frame.parts] at flat
  rw [frame.toList_fileName]
  simp only [List.mem_append, not_or] at flat ⊢
  constructor
  · intro free
    exact free.1.2
  · intro spelled
    exact ⟨⟨flat.1.1, spelled⟩, flat.2⟩

end Fits

end ResourcePattern

end MessageCatalogue
