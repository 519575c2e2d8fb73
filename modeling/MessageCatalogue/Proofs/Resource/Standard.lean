import MessageCatalogue.Proofs.Locale.Legible
import MessageCatalogue.Proofs.Resource.Pattern

/-! Under the standard pattern, a logical name shows the source that it belongs to and the locale that it is for. -/

namespace MessageCatalogue.ResourcePattern

/-- What stands between the source and the locale in a standard name. -/
def standardMark : List Char := "/i18n_messages_".toList

theorem isSolid_standardMark : Text.IsSolid standardMark := ⟨'/', _, rfl, by decide⟩

/-- A standard name has the source behind its directory and the locale in front of its ending. -/
theorem toList_resourceName_standard {source : String} (plain : ¬ localeSlot <:+: source.toList) (locale : Locale) :
    (standard.resourceName source locale).toList =
      "i18n/".toList ++ (source.toList ++ standardMark ++ locale.resourceSuffix.toList) ++ ".properties".toList := by
  have proper := isSolid_localeSlot.ne_nil
  -- The template holds one slot of each kind.
  have template : standard.template.toList =
      "i18n/".toList ++ sourceSlot ++ (standardMark ++ localeSlot ++ ".properties".toList) := by decide
  have filled : fill source standard.template.toList =
      ("i18n/".toList ++ source.toList ++ standardMark) ++ localeSlot ++ ".properties".toList := by
    rw [template, fill, isSolid_sourceSlot.replace_append,
      Text.replace_of_not_infix isSolid_sourceSlot.ne_nil _ (by decide),
      Text.replace_of_not_infix isSolid_sourceSlot.ne_nil _ (by decide)]
    simp only [List.append_assoc]
  -- No slot of the locale reaches over the slashes around the source.
  have before : ¬ localeSlot <:+: "i18n/".toList ++ source.toList ++ standardMark := by
    intro stands
    have slashed : "i18n/".toList ++ source.toList ++ standardMark =
        "i18n".toList ++ '/' :: (source.toList ++ '/' :: "i18n_messages_".toList) := by
      rw [List.append_assoc]
      rfl
    rw [slashed] at stands
    rcases Text.infix_append_cons (by decide) proper stands with front | inner
    · exact absurd front (by decide)
    · rcases Text.infix_append_cons (by decide) proper inner with inside | back
      · exact plain inside
      · exact absurd back (by decide)
  rw [resourceName, String.toList_ofList, show Text.replace sourceSlot source.toList standard.template.toList =
    fill source standard.template.toList from rfl, filled, isSolid_localeSlot.replace_append,
    Text.replace_of_not_infix proper _ before, Text.replace_of_not_infix proper _ (by decide)]
  simp only [List.append_assoc]

/-- The last part of the standard names of a locale. -/
def standardFile (locale : Locale) : String := "i18n_messages_" ++ locale.resourceSuffix ++ ".properties"

/-- The standard directory of a source has its name. -/
theorem directory_standard (source : String) : standard.directory source = "i18n/" ++ source := by
  have directory : (splitDirectory standard.template.toList).1 = "i18n/".toList ++ sourceSlot ++ [] := by decide
  rw [← String.toList_inj, toList_directory, directory, fill, isSolid_sourceSlot.replace_append,
    Text.replace_of_not_infix isSolid_sourceSlot.ne_nil _ (by decide), String.toList_append]
  exact List.append_nil _

/-- A standard name is that of a file in the directory of the source. -/
theorem resourceName_standard {source : String} (plain : ¬ localeSlot <:+: source.toList) (locale : Locale) :
    standard.resourceName source locale = standard.directory source ++ "/" ++ standardFile locale := by
  have mark : standardMark = "/".toList ++ "i18n_messages_".toList := rfl
  rw [← String.toList_inj, toList_resourceName_standard plain, directory_standard, standardFile, mark]
  simp only [String.toList_append, List.append_assoc]

/-- A file with a standard name reveals the locale that its name spells, which must be short and read back. -/
theorem localeOfFile?_standard {source file : String} {locale : Locale} :
    standard.localeOfFile? source file = some locale ↔ file = standardFile locale ∧
      Locale.parse locale.resourceSuffix = .ok locale ∧ locale.languageName.length ≤ 3 := by
  -- There is a slot of the locale in the last part of the template, and none of the source.
  have parts : fill source (splitDirectory standard.template.toList).2 =
      "i18n_messages_".toList ++ localeSlot ++ ".properties".toList :=
    Text.replace_of_not_infix isSolid_sourceSlot.ne_nil _ (by decide)
  rw [localeOfFile?_eq_some_iff parts (by decide), ← String.toList_inj, standardFile, String.toList_append,
    String.toList_append]

/-- The standard file of a short locale that was read reveals the locale exactly when the locale is legible. -/
theorem localeOfFile?_standardFile {text : String} {locale : Locale} (parsed : Locale.parse text = .ok locale)
    (short : locale.languageName.length ≤ 3) (source : String) :
    standard.localeOfFile? source (standardFile locale) = some locale ↔ locale.IsLegible := by
  rw [localeOfFile?_standard, (Locale.isCanonical_of_parse parsed).parse_resourceSuffix_iff]
  exact ⟨fun revealed => revealed.2.1, fun legible => ⟨rfl, legible, short⟩⟩

/-- A standard name belongs to one source and spells one locale. -/
theorem resourceName_standard_inj {source source' : String} {locale locale' : Locale} {text text' : String}
    (plain : ¬ localeSlot <:+: source.toList) (plain' : ¬ localeSlot <:+: source'.toList)
    (parsed : Locale.parse text = .ok locale) (parsed' : Locale.parse text' = .ok locale')
    (same : standard.resourceName source locale = standard.resourceName source' locale') :
    source = source' ∧ locale.resourceSuffix = locale'.resourceSuffix := by
  have spelled := congrArg String.toList same
  rw [toList_resourceName_standard plain, toList_resourceName_standard plain'] at spelled
  have inner := List.append_cancel_left (List.append_cancel_right spelled)
  -- A locale does not even spell the beginning of what stands in front of it.
  have begins : "/i18n".toList <:+: standardMark := ⟨[], "_messages_".toList, rfl⟩
  have absent : ∀ {text : String} {locale : Locale}, Locale.parse text = .ok locale →
      ¬ standardMark <:+: locale.resourceSuffix.toList := fun parsed stands =>
    Locale.not_infix_resourceSuffix parsed (by decide) (by decide) (by decide) (by decide) (begins.trans stands)
  -- So the last mark in a name is the one behind its source.
  obtain ⟨sources, locales⟩ := isSolid_standardMark.append_inj (absent parsed) (absent parsed') inner
  exact ⟨String.toList_inj.mp sources, String.toList_inj.mp locales⟩

end MessageCatalogue.ResourcePattern
