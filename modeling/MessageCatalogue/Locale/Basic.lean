/-! A locale names a language with an optional script, an optional region and any variants. -/

namespace MessageCatalogue

/-- A locale in canonical spelling, whose language is empty when it is undetermined. -/
structure Locale where
  language : String
  script : Option String
  region : Option String
  variants : List String
deriving DecidableEq, Repr

namespace Locale

/-- English without script, region or variants. -/
def english : Locale := ⟨"en", none, none, []⟩

/-- The printed language, which names the undetermined one too. -/
def languageName (locale : Locale) : String := if locale.language = "" then "und" else locale.language

/-- The parts of a locale in the order they are printed. -/
def subtags (locale : Locale) : List String :=
  locale.languageName :: (locale.script.toList ++ locale.region.toList ++ locale.variants)

/-- The printed locale, whose parts are joined by hyphens. -/
def tag (locale : Locale) : String := String.intercalate "-" locale.subtags

/-- The locale as resource file names spell it, with underscores for hyphens. -/
def resourceSuffix (locale : Locale) : String :=
  String.ofList (locale.tag.toList.map fun c => if c = '-' then '_' else c)

end Locale

end MessageCatalogue
