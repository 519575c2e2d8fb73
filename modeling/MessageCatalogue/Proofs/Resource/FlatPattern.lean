import MessageCatalogue.Proofs.Locale.Canonical
import MessageCatalogue.Proofs.Resource.Loader
import MessageCatalogue.Proofs.Resource.Pattern
import MessageCatalogue.Proofs.Resource.Storage

/-! A pattern that joins source and locale in its file names keeps a source apart from those with longer names. -/

namespace MessageCatalogue

namespace ResourcePattern

/-- A text without braces and slashes, which makes no slot in a template and stays within a file name. -/
def IsPlain (text : List Char) : Prop := '{' ∉ text ∧ '}' ∉ text ∧ '/' ∉ text

instance (text : List Char) : Decidable (IsPlain text) := inferInstanceAs (Decidable (_ ∧ _))

theorem isPlain_append {one other : List Char} : IsPlain (one ++ other) ↔ IsPlain one ∧ IsPlain other := by
  simp only [IsPlain, List.mem_append, not_or]
  tauto

/-- A plain text holds no mark that a brace is part of. -/
theorem IsPlain.not_isInfix {mark text : List Char} (plain : IsPlain text) (braced : '{' ∈ mark) : ¬ mark <:+: text :=
  fun stands => plain.1 (stands.subset braced)

/-- A text that leads to the files of a directory, by a slash at its end unless these are the outermost ones. -/
def LeadsToFiles (directory : List Char) : Prop := directory = [] ∨ directory.getLast? = some '/'

instance (directory : List Char) : Decidable (LeadsToFiles directory) := inferInstanceAs (Decidable (_ ∨ _))

variable {directory file : List Char}

/-- A path is split where its directory ends. -/
theorem splitDirectory_append (leads : LeadsToFiles directory) (flat : '/' ∉ file) :
    (splitDirectory (directory ++ file)).2 = file := by
  -- The last slash, if there is any, is the one at the end of the directory.
  unfold splitDirectory
  rcases leads with rfl | ended
  · rw [List.nil_append, Text.cutLast?_eq_none flat]
  · obtain ⟨front, rfl⟩ := List.getLast?_eq_some_iff.mp ended
    rw [List.append_assoc, List.singleton_append, Text.cutLast?_append_cons front flat]

/-- Filling a slot without slashes leaves a path with a directory and its own file part. -/
theorem exists_directory_replace {mark : List Char} (proper : mark ≠ []) (flat : '/' ∉ mark) (value file : List Char)
    (leads : LeadsToFiles directory) : ∃ filled, LeadsToFiles filled ∧
      Text.replace mark value (directory ++ file) = filled ++ Text.replace mark value file := by
  -- No mark reaches over the slash between the two parts.
  rcases leads with rfl | ended
  · exact ⟨[], .inl rfl, rfl⟩
  · obtain ⟨front, rfl⟩ := List.getLast?_eq_some_iff.mp ended
    refine ⟨Text.replace mark value front ++ ['/'], .inr (by simp), ?_⟩
    rw [List.append_assoc, List.singleton_append, Text.replace_append_cons_of_notMem proper flat, List.append_assoc,
      List.singleton_append]

/-- A template whose file part joins a source and a locale by an underscore, between plain texts. -/
structure FlatTemplate where
  directory : List Char
  opening : List Char
  closing : List Char
  leads : LeadsToFiles directory
  plainOpening : IsPlain opening
  plainClosing : IsPlain closing

namespace FlatTemplate

/-- The file part of a template, in which the slots stand side by side. -/
def filePart (template : FlatTemplate) : List Char :=
  template.opening ++ sourceSlot ++ ['_'] ++ localeSlot ++ template.closing

/-- The pattern of a template. -/
def pattern (template : FlatTemplate) : ResourcePattern := ⟨String.ofList (template.directory ++ template.filePart)⟩

/-- The text in front of the locale in the file names of a source. -/
def front (template : FlatTemplate) (source : String) : List Char := template.opening ++ source.toList ++ ['_']

variable (template : FlatTemplate) {source : String}

/-- The text in front of the locale is plain when the source is. -/
theorem isPlain_front (plain : IsPlain source.toList) : IsPlain (template.front source) :=
  isPlain_append.mpr ⟨isPlain_append.mpr ⟨template.plainOpening, plain⟩, by simp [IsPlain]⟩

/-- The file part of the pattern is that of the template. -/
theorem splitDirectory_pattern : (splitDirectory template.pattern.template.toList).2 = template.filePart := by
  have flat : '/' ∉ template.filePart := by
    simp [filePart, sourceSlot, localeSlot, template.plainOpening.2.2, template.plainClosing.2.2]
  rw [pattern, String.toList_ofList, splitDirectory_append template.leads flat]

/-- The source goes in front of the slot of the locale. -/
theorem fill_filePart (source : String) :
    fill source template.filePart = template.front source ++ localeSlot ++ template.closing := by
  -- The slot of the source is the only one for it, for the texts around are plain.
  have free : ∀ part, IsPlain part → ¬ sourceSlot <:+: part := fun part plain => plain.not_isInfix (by decide)
  have closing : fill source template.closing = template.closing :=
    Text.replace_of_not_infix isSolid_sourceSlot.ne_nil _ (free _ template.plainClosing)
  have front : fill source (template.opening ++ sourceSlot ++ ['_']) = template.front source :=
    isSolid_sourceSlot.replace_only (free _ template.plainOpening) (free _ (by decide)) _
  rw [filePart, fill_localeSlot, front, closing]

/-- What stands between the texts around the slot is read as a locale. -/
theorem localeOfFile?_eq (plain : IsPlain source.toList) {file : String} {spelling : List Char}
    (named : file.toList = template.front source ++ spelling ++ template.closing) :
    template.pattern.localeOfFile? source file = localeOfSpelling? spelling := by
  have parts : fill source (splitDirectory template.pattern.template.toList).2 =
      template.front source ++ localeSlot ++ template.closing := by
    rw [template.splitDirectory_pattern, template.fill_filePart]
  have inside : ¬ localeSlot <:+: template.front source := (template.isPlain_front plain).not_isInfix (by decide)
  rw [localeOfFile?_eq_bind parts inside, between?_eq_some.mpr named, Option.bind_some]

/-- The resource of a source in a locale is named by both of them in its file part, whatever its directory. -/
theorem splitDirectory_resourceName (plain : IsPlain source.toList) {locale : Locale}
    (flat : '/' ∉ locale.resourceSuffix.toList) :
    (splitDirectory (template.pattern.resourceName source locale).toList).2 =
      template.front source ++ locale.resourceSuffix.toList ++ template.closing := by
  have front := template.isPlain_front plain
  have closing := template.plainClosing
  -- Both slots are filled on each side of the slash that ends the directory.
  obtain ⟨own, ownLeads, filled⟩ := exists_directory_replace isSolid_sourceSlot.ne_nil (by decide) source.toList
    template.filePart template.leads
  obtain ⟨directory, leads, spelled⟩ := exists_directory_replace isSolid_localeSlot.ne_nil (by decide)
    locale.resourceSuffix.toList (template.front source ++ localeSlot ++ template.closing) ownLeads
  have name : (template.pattern.resourceName source locale).toList =
      directory ++ (template.front source ++ locale.resourceSuffix.toList ++ template.closing) := by
    rw [isSolid_localeSlot.replace_only (front.not_isInfix (by decide)) (closing.not_isInfix (by decide)),
      ← template.fill_filePart, fill, ← filled] at spelled
    rw [resourceName, pattern, String.toList_ofList, String.toList_ofList, spelled]
  -- What comes behind that slash has no other one.
  have inFile : '/' ∉ template.front source ++ locale.resourceSuffix.toList ++ template.closing := by
    simp [front.2.2, flat, closing.2.2]
  rw [name, splitDirectory_append leads inFile]

end FlatTemplate

/-- A spelling that ends in that of a locale behind an underscore stands for no locale when the language is short. -/
theorem localeOfSpelling?_append {text : String} {locale : Locale} (parsed : Locale.parse text = .ok locale)
    (short : locale.languageName.length ≤ 3) (extra : List Char) :
    localeOfSpelling? (extra ++ '_' :: locale.resourceSuffix.toList) = none := by
  refine Option.eq_none_iff_forall_ne_some.mpr fun other found => ?_
  obtain ⟨spelled, readable, _⟩ := localeOfSpelling?_eq_some.mp found
  -- Suppose it stood for a locale, which would then be spelled by it.
  have canonical := Locale.isCanonical_of_parse parsed
  have canonical' := Locale.isCanonical_of_parse readable
  -- The language would be one of the later subtags of the other locale.
  have subtags : other.subtags.map String.toList = extra.splitOn '_' ++ locale.subtags.map String.toList := by
    rw [← canonical'.splitOn_resourceSuffix, ← spelled, List.splitOn_append_cons_self, canonical.splitOn_resourceSuffix]
  refine canonical.languageName_notMem_tail canonical' short ?_
  obtain ⟨first, rest, pieces⟩ := List.exists_cons_of_ne_nil (List.splitOn_ne_nil '_' extra)
  have later : locale.languageName.toList ∈ (other.subtags.map String.toList).tail := by
    rw [subtags, pieces, List.cons_append, List.tail_cons]
    simp [Locale.subtags]
  rw [← List.map_tail] at later
  obtain ⟨subtag, member, same⟩ := List.mem_map.mp later
  exact String.toList_inj.mp same ▸ member

/-- A file has the name of a resource of some longer source, in a locale that a text names with a short language. -/
def NamesLongerSource (pattern : ResourcePattern) (source file : String) : Prop :=
  ∃ extra text locale, IsPlain extra.toList ∧ Locale.parse text = .ok locale ∧ locale.languageName.length ≤ 3 ∧
    '/' ∉ locale.resourceSuffix.toList ∧
    file.toList = (splitDirectory (pattern.resourceName (source ++ "_" ++ extra) locale).toList).2

/-- No locale of a source is read from the file name of a longer one. -/
theorem FlatTemplate.localeOfFile?_eq_none (template : FlatTemplate) {source file : String}
    (plain : IsPlain source.toList) (longer : template.pattern.NamesLongerSource source file) :
    template.pattern.localeOfFile? source file = none := by
  obtain ⟨extra, text, locale, plainExtra, parsed, short, flat, named⟩ := longer
  have whole : IsPlain (source ++ "_" ++ extra).toList := by
    rw [String.toList_append, String.toList_append]
    exact isPlain_append.mpr ⟨isPlain_append.mpr ⟨plain, by decide⟩, plainExtra⟩
  rw [template.splitDirectory_resourceName whole flat] at named
  -- What goes on behind the source is read together with the locale.
  have joined : file.toList =
      template.front source ++ (extra.toList ++ '_' :: locale.resourceSuffix.toList) ++ template.closing := by
    rw [named, front, front]
    simp
  rw [template.localeOfFile?_eq plain joined]
  exact localeOfSpelling?_append parsed short extra.toList

end ResourcePattern

namespace Loader

open ResourcePattern

variable {loader : Loader} {source : String}

/-- Files that reveal no locale can be left out. -/
theorem localesOfFiles_filter {files : List String} {kept : String → Bool}
    (idle : ∀ file ∈ files, kept file = false → loader.pattern.localeOfFile? source file = none) :
    loader.localesOfFiles source (files.filter kept) = loader.localesOfFiles source files := by
  -- A file that is left out would have revealed nothing.
  have same : ∀ file ∈ files, (if kept file = true then loader.pattern.localeOfFile? source file else none) =
      loader.pattern.localeOfFile? source file := by
    intro file listed
    cases left : kept file with
    | true => rfl
    | false => exact (idle file listed left).symm
  rw [localesOfFiles, localesOfFiles, List.filterMap_filter, List.filterMap_congr same]

/--
A pattern that joins source and locale keeps a source apart from those whose names go on behind its own.

No locale is read from the name of a file of a longer source, so discovery finds what the other files reveal.
-/
theorem flat_pattern_separates_longer_sources (template : FlatTemplate) {source : String}
    (plain : IsPlain source.toList) :
    (∀ file, template.pattern.NamesLongerSource source file → template.pattern.localeOfFile? source file = none) ∧
      ∀ (loader : Loader) (holdings : Holdings) (files : List String) (kept : String → Bool),
        loader.pattern = template.pattern →
        (holdings loader.collection).list (loader.pattern.directory source) = .ok files →
        (∀ file ∈ files, kept file = false → template.pattern.NamesLongerSource source file) →
        Loading.outcome holdings (loader.discoverLocales source) =
          .ok (loader.localesOfFiles source (files.filter kept)) := by
  -- Files whose names reveal nothing make no difference to the locales that a listing reveals.
  refine ⟨fun file longer => template.localeOfFile?_eq_none plain longer, ?_⟩
  intro loader holdings files kept same listed longer
  have idle : ∀ file ∈ files, kept file = false → loader.pattern.localeOfFile? source file = none :=
    fun file member left => same ▸ template.localeOfFile?_eq_none plain (longer file member left)
  rw [outcome_discoverLocales, listed, localesOfFiles_filter idle]
  rfl

/-- A template that puts the files of all sources into one directory. -/
def messagesTemplate : FlatTemplate := ⟨"messages/".toList, [], ".properties".toList, by decide, by decide, by decide⟩

/-- Memory with a file of a user in German and one of another source in French. -/
def messagesFiles : MemoryResources :=
  MemoryResources.empty.insertAll <| ["user_de", "user_de_fr_CA"].map fun file =>
    (⟨"memory", "messages/" ++ file ++ ".properties"⟩, ByteArray.empty)

/-- A source that goes on like a German file of the user does not give the user another locale. -/
theorem user_has_german_only :
    let loader : Loader := ⟨.shared, messagesTemplate.pattern, .utf8⟩
    messagesTemplate.pattern.localeOfFile? "user" "user_de_fr_CA.properties" = none ∧
      Loading.outcome (fun _ => messagesFiles.enumerator) (loader.discoverLocales "user") =
        .ok [⟨"de", none, none, []⟩] := by
  -- The second file is named like a resource of a longer source, which is all that is asked of it.
  intro loader
  have longer : messagesTemplate.pattern.NamesLongerSource "user" "user_de_fr_CA.properties" :=
    ⟨"de", "fr-CA", ⟨"fr", none, some "CA", []⟩, by decide, rfl, by decide, by decide, by decide⟩
  have directory : loader.pattern.directory "user" = "messages" := by decide
  have files : messagesFiles.fileNames "messages" = ["user_de.properties", "user_de_fr_CA.properties"] := by decide
  have listed : messagesFiles.enumerator.list (loader.pattern.directory "user") =
      .ok ["user_de.properties", "user_de_fr_CA.properties"] := by
    rw [directory]
    exact congrArg Except.ok files
  have left : ∀ file ∈ ["user_de.properties", "user_de_fr_CA.properties"], (file == "user_de.properties") = false →
      messagesTemplate.pattern.NamesLongerSource "user" file := by
    intro file member other
    rcases List.mem_pair.mp member with rfl | rfl
    · cases other
    · exact longer
  obtain ⟨unread, found⟩ := flat_pattern_separates_longer_sources messagesTemplate (by decide : IsPlain "user".toList)
  have discovered := found loader (fun _ => messagesFiles.enumerator) _ (· == "user_de.properties") rfl listed left
  have german : loader.localesOfFiles "user" ["user_de.properties"] = [⟨"de", none, none, []⟩] := by decide
  exact ⟨unread _ longer, discovered.trans (congrArg Except.ok german)⟩

end Loader

end MessageCatalogue
