import MessageCatalogue.Locale.Grammar

/-! A resource pattern names the resources of a source by locale and reads the locale back from a file name. -/

namespace MessageCatalogue

/-- A path with a slot for the source and a slot for the locale. -/
structure ResourcePattern where
  template : String
deriving DecidableEq, Repr

namespace ResourcePattern

/-- The slot that the name of a source fills. -/
def sourceSlot : List Char := ['{', 's', 'o', 'u', 'r', 'c', 'e', '}']

/-- The slot that a locale fills. -/
def localeSlot : List Char := ['{', 'l', 'o', 'c', 'a', 'l', 'e', '}']

/-- Why a template does not tell the resources of locales apart. -/
inductive Defect where
  | noLocale
  | repeatedLocale
  | localeInDirectory
  | absolute
deriving DecidableEq, Repr

/-- The account of an unusable template. -/
def Defect.message : Defect → String
  -- The slots of a template are written in braces, which are escaped here.
  | .noLocale => "pattern must contain \x7blocale\x7d"
  | .repeatedLocale => "pattern must contain \x7blocale\x7d only once"
  | .localeInDirectory => "\x7blocale\x7d must appear in the file name"
  | .absolute => "pattern must be relative"

/-- The directory part of a path, without the slash after it, and the file part. -/
def splitDirectory (path : List Char) : List Char × List Char :=
  match Text.cutLast? '/' path with
  | some parts => parts
  | none => ([], path)

/-- The first reason, if any, why a template is unusable. -/
def defect? (template : List Char) : Option Defect :=
  -- The defects are looked for in a fixed order, in which missing slots come first.
  if Text.occurrences localeSlot template = 0 then some .noLocale
  else if 1 < Text.occurrences localeSlot template then some .repeatedLocale
  else if Text.occurrences localeSlot (splitDirectory template).2 = 0 then some .localeInDirectory
  else if template.head? = some '/' then some .absolute
  else none

/-- The pattern of a usable template. -/
def ofTemplate (template : String) : Except MessageError ResourcePattern :=
  match defect? template.toList with
  | none => .ok ⟨template⟩
  | some defect => .error (.invalidPattern template defect.message)

/-- The pattern used unless another one is set. -/
def standard : ResourcePattern := ⟨"i18n/\x7bsource\x7d/i18n_messages_\x7blocale\x7d.properties"⟩

instance : Inhabited ResourcePattern := ⟨standard⟩

/-- The logical name of the resource of a source in a locale. -/
def resourceName (pattern : ResourcePattern) (source : String) (locale : Locale) : String :=
  String.ofList (Text.replace localeSlot locale.resourceSuffix.toList
    (Text.replace sourceSlot source.toList pattern.template.toList))

/-- The logical directory that holds the resources of a source. -/
def directory (pattern : ResourcePattern) (source : String) : String :=
  String.ofList (Text.replace sourceSlot source.toList (splitDirectory pattern.template.toList).1)

/-- The text between an opening and a closing part. -/
def between? (opening closing text : List Char) : Option (List Char) :=
  match opening.isPrefixOf? text with
  | some rest => closing.isSuffixOf? rest
  | none => none

/-- The locale that a spelling in a file name stands for, which must be the one this library writes. -/
def localeOfSpelling? (spelling : List Char) : Option Locale :=
  -- Longer languages are left out, for a file of another source may end like one.
  if spelling.isEmpty then none
  else
    match Locale.parse (String.ofList spelling) with
    | .ok locale =>
      if locale.resourceSuffix.toList = spelling ∧ locale.languageName.length ≤ 3 then some locale else none
    | .error _ => none

/-- The locale whose resource of a source has a file name. -/
def localeOfFile? (pattern : ResourcePattern) (source file : String) : Option Locale :=
  -- The slot of the source is filled before the file name is cut, so that only the locale is left to find.
  let filePart := Text.replace sourceSlot source.toList (splitDirectory pattern.template.toList).2
  match Text.cutFirst? localeSlot filePart with
  | some (opening, closing) =>
    match between? opening closing file.toList with
    | some spelling => localeOfSpelling? spelling
    | none => none
  | none => none

end ResourcePattern

end MessageCatalogue
