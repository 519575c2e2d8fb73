import MessageCatalogue.Proofs.Distinct
import MessageCatalogue.Proofs.Resource.Loading
import MessageCatalogue.Proofs.Resource.Pattern
import MessageCatalogue.Proofs.Resource.Storage
import MessageCatalogue.Proofs.Text.Order
import MessageCatalogue.Resource.Loader

/-! The locales that are discovered in memory are those whose resources are named there. -/

namespace MessageCatalogue

namespace MemoryResources

/-- A name lies in a directory as a file when the file has a name of its own without a slash. -/
theorem fileIn?_eq_some {directory name file : List Char} :
    fileIn? directory name = some file ↔ name = directoryStart directory ++ file ∧ file ≠ [] ∧ '/' ∉ file := by
  -- The file is what the name has behind the beginning of the directory.
  unfold fileIn?
  constructor
  · -- What follows the beginning of the directory is the file, unless it is empty or lies deeper.
    intro found
    cases begun : (directoryStart directory).isPrefixOf? name with
    | none => simp [begun] at found
    | some rest =>
      simp only [begun] at found
      split at found
      · cases found
      · rename_i plain
        obtain rfl := Option.some.inj found
        have whole := List.isPrefixOf?_eq_some_iff_append_eq.mp begun
        simp only [Bool.or_eq_true, not_or, List.isEmpty_iff, List.contains_iff_mem] at plain
        exact ⟨whole.symm, plain⟩
  · intro placed
    obtain ⟨rfl, named, flat⟩ := placed
    have begun : (directoryStart directory).isPrefixOf? (directoryStart directory ++ file) = some file :=
      List.isPrefixOf?_eq_some_iff_append_eq.mpr rfl
    simp [begun, named, flat]

variable {memory : MemoryResources}

/-- The files of a directory are those whose names have copies in it. -/
theorem mem_fileNames (filled : memory.IsFilled) {directory file : String} :
    file ∈ memory.fileNames directory ↔ file ≠ "" ∧ '/' ∉ file.toList ∧
      ∃ name, memory.named name ≠ [] ∧ name.toList = directoryStart directory.toList ++ file.toList := by
  -- The listing goes through the names that have entries.
  rw [fileNames, mem_increasing, List.mem_filterMap]
  constructor
  · -- A listed file comes from a name that has it behind the directory, and no entry is without copies.
    intro listed
    obtain ⟨name, held, found⟩ := listed
    obtain ⟨own, inside, rfl⟩ := Option.map_eq_some_iff.mp found
    obtain ⟨placed, named, flat⟩ := fileIn?_eq_some.mp inside
    rw [String.toList_ofList]
    exact ⟨by simpa using named, flat, name, filled.mem_keys_iff.mp held, placed⟩
  · intro carried
    obtain ⟨named, flat, name, held, placed⟩ := carried
    have inside := fileIn?_eq_some.mpr ⟨placed, by simpa using named, flat⟩
    exact ⟨name, filled.mem_keys_iff.mpr held, by rw [inside, Option.map_some, String.ofList_toList]⟩

/-- A logical name has a resource when it has a copy. -/
theorem resources_ne_nil_iff {name : String} : memory.enumerator.resources name ≠ .ok [] ↔ memory.named name ≠ [] := by
  have answered : memory.enumerator.resources name = .ok (memory.named name) := rfl
  rw [answered, ne_eq, Except.ok.injEq]

end MemoryResources

namespace Loader

variable {loader : Loader} {source : String}

/-- The files that reveal locales reveal them in the order of their file names. -/
theorem pairwise_filterMap_localeOfFile? (fits : loader.pattern.Fits source) {files : List String}
    (sorted : files.Pairwise (· < ·)) :
    (files.filterMap (loader.pattern.localeOfFile? source)).Pairwise fun one other =>
      loader.pattern.fileName source one < loader.pattern.fileName source other := by
  -- A file that reveals a locale has the file name of that locale.
  refine List.pairwise_filterMap.mpr (sorted.imp ?_)
  intro file file' smaller one found other found'
  rw [← (fits.localeOfFile?_eq_some.mp found).1, ← (fits.localeOfFile?_eq_some.mp found').1]
  exact smaller

/-- A listing reveals a locale when some file in it does. -/
theorem mem_localesOfFiles_iff {files : List String} {locale : Locale} :
    locale ∈ loader.localesOfFiles source files ↔
      ∃ file ∈ files, loader.pattern.localeOfFile? source file = some locale := by
  -- Leaving out repetitions changes nothing about what is revealed.
  rw [localesOfFiles, firstOccurrences_eq_eraseDups, List.mem_eraseDups, List.mem_filterMap]

/-- A listing reveals a locale when some file has its file name and the locale is short and read as it is written. -/
theorem mem_localesOfFiles (fits : loader.pattern.Fits source) {files : List String} {locale : Locale} :
    locale ∈ loader.localesOfFiles source files ↔ loader.pattern.fileName source locale ∈ files ∧
      Locale.parse locale.resourceSuffix = .ok locale ∧ locale.languageName.length ≤ 3 := by
  -- The file names that a fitting pattern reads are those that it gives.
  rw [mem_localesOfFiles_iff]
  constructor
  · intro revealed
    obtain ⟨file, listed, found⟩ := revealed
    obtain ⟨rfl, readable⟩ := fits.localeOfFile?_eq_some.mp found
    exact ⟨listed, readable⟩
  · intro named
    obtain ⟨listed, readable⟩ := named
    exact ⟨_, listed, fits.localeOfFile?_eq_some.mpr ⟨rfl, readable⟩⟩

/-- The file name of a locale is listed when its resource is there, unless the locale is written with a slash. -/
theorem fileName_mem_fileNames (fits : loader.pattern.Fits source) {memory : MemoryResources}
    (filled : memory.IsFilled) {locale : Locale} (readable : Locale.parse locale.resourceSuffix = .ok locale) :
    loader.pattern.fileName source locale ∈ memory.fileNames (loader.pattern.directory source) ↔
      memory.enumerator.resources (loader.resourceName source locale) ≠ .ok [] ∧
        '/' ∉ locale.resourceSuffix.toList := by
  have named := fits.fileName_ne_empty readable
  -- The file name behind the directory is the logical name of the resource.
  rw [MemoryResources.mem_fileNames filled, MemoryResources.resources_ne_nil_iff, fits.slash_notMem_fileName,
    ← fits.resourceName_eq]
  simp only [String.toList_inj, exists_eq_right]
  constructor
  · intro listed
    obtain ⟨_, flat, held⟩ := listed
    exact ⟨held, flat⟩
  · intro there
    obtain ⟨held, flat⟩ := there
    exact ⟨named, flat, held⟩

/--
Discovery in memory finds each locale that has a resource and no other one, in the order of the file names.

Left out are only languages of more than three letters and locales whose spelling in a file name is not their own.
-/
theorem discovers_locales_with_resources (fits : loader.pattern.Fits source) {memory : MemoryResources}
    (filled : memory.IsFilled) :
    ∃ locales, Loading.outcome (fun _ => memory.enumerator) (loader.discoverLocales source) = .ok locales ∧
      locales.Nodup ∧
      (locales.Pairwise fun one other => Text.bytes (loader.pattern.fileName source one) <
        Text.bytes (loader.pattern.fileName source other)) ∧
      ∀ locale, locale ∈ locales ↔
        memory.enumerator.resources (loader.resourceName source locale) ≠ .ok [] ∧
          locale.languageName.length ≤ 3 ∧ '/' ∉ locale.resourceSuffix.toList ∧
          Locale.parse locale.resourceSuffix = .ok locale := by
  have listed : Loading.outcome (fun _ => memory.enumerator) (loader.discoverLocales source) =
      .ok (loader.localesOfFiles source (memory.fileNames (loader.pattern.directory source))) := rfl
  -- The listing is sorted and holds each file once, and so does what it reveals.
  have sorted := pairwise_filterMap_localeOfFile? fits (pairwise_increasing (memory.entries.keys.filterMap fun name =>
    (MemoryResources.fileIn? (loader.pattern.directory source).toList name.toList).map String.ofList))
  have distinct := sorted.imp fun {one other} smaller (same : one = other) =>
    String.lt_irrefl _ (same ▸ smaller)
  have revealed := firstOccurrences_of_nodup distinct
  refine ⟨_, listed, nodup_firstOccurrences _, ?_, ?_⟩
  · -- So nothing is left out as a repetition, and the locales stay in that order.
    rw [localesOfFiles, MemoryResources.fileNames, revealed]
    exact sorted.imp fun {one other} smaller => Text.lt_iff_bytes_lt.mp smaller
  · -- A locale is revealed by its file name, and that is listed when its resource is there.
    intro locale
    rw [mem_localesOfFiles fits]
    constructor
    · intro revealed
      obtain ⟨file, readable, short⟩ := revealed
      obtain ⟨held, flat⟩ := (fileName_mem_fileNames fits filled readable).mp file
      exact ⟨held, short, flat, readable⟩
    · intro there
      obtain ⟨held, short, flat, readable⟩ := there
      exact ⟨(fileName_mem_fileNames fits filled readable).mpr ⟨held, flat⟩, readable, short⟩

/-- The standard pattern fits a source with a plain name. -/
theorem fits_user : standard.pattern.Fits "user" := by
  -- The directory of the template has a name and ends in the source.
  refine ⟨rfl, by decide, by decide, ?_⟩
  right
  exact ⟨by decide, by decide⟩

/-- Memory with files of a user, of which some are named by languages and others are not. -/
def userFiles : MemoryResources :=
  MemoryResources.empty.insertAll <| ["fr", "en", "english", "EN"].map fun spelling =>
    (⟨"memory", "i18n/user/i18n_messages_" ++ spelling ++ ".properties"⟩, ByteArray.empty)

/-- Among such files are resources in two languages, and these are what is discovered. -/
theorem discovers_english_and_french :
    let locales := [Locale.english, ⟨"fr", none, none, []⟩]
    Loading.outcome (fun _ => userFiles.enumerator) (standard.discoverLocales "user") = .ok locales ∧
      ∀ locale, locale ∈ locales ↔
        userFiles.enumerator.resources (standard.resourceName "user" locale) ≠ .ok [] ∧
          locale.languageName.length ≤ 3 ∧ '/' ∉ locale.resourceSuffix.toList ∧
          Locale.parse locale.resourceSuffix = .ok locale := by
  intro locales
  have listed : standard.localesOfFiles "user" (userFiles.fileNames "i18n/user") = locales := by decide
  have found : Loading.outcome (fun _ => userFiles.enumerator) (standard.discoverLocales "user") = .ok locales :=
    congrArg Except.ok listed
  -- There is only one outcome, so the locales that the theorem speaks of are these two.
  obtain ⟨own, discovered, _, _, exact⟩ :=
    discovers_locales_with_resources fits_user (MemoryResources.isFilled_empty.insertAll _)
  obtain rfl : own = locales := Except.ok.inj (discovered.symm.trans found)
  exact ⟨found, exact⟩

end Loader

end MessageCatalogue
