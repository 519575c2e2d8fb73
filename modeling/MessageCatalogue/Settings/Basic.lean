import MessageCatalogue.Error
import MessageCatalogue.Resource.Encoding
import MessageCatalogue.Resource.Pattern
import MessageCatalogue.Settings.Value

/-! Settings say which sources there are, where their resources lie and how these are read. -/

namespace MessageCatalogue

/-- What is needed to find and read the resources of several sources. -/
structure Settings where
  defaultLocale : String
  supportedLocales : List String
  sources : List String
  commonNamespace : Option String
  resourcePattern : String
  encoding : Encoding
  resourceRoots : List String
deriving DecidableEq, Repr

/-- The error of a value below a key. -/
def SettingsError.under (key : String) (error : SettingsError) : SettingsError :=
  { error with path := key :: error.path }

namespace SettingValue

/-- The error of a value that has another shape than its setting. -/
def wrongShape : SettingsError := ⟨.wrongType, []⟩

/-- The text that a value holds. -/
def asText : SettingValue → Except SettingsError String
  | .text value => .ok value
  | _ => .error wrongShape

/-- The texts that values hold, where an error names the position of its value. -/
def textsFrom (position : Nat) : List SettingValue → Except SettingsError (List String)
  -- The position is written like a key in the path of an error.
  | [] => .ok []
  | value :: rest => do
    let first ← value.asText.mapError (·.under (toString position))
    let others ← textsFrom (position + 1) rest
    return first :: others

/-- The texts that the items of a list hold. -/
def asTexts : SettingValue → Except SettingsError (List String)
  | .list items => textsFrom 0 items
  | _ => .error wrongShape

/-- The encoding that a value selects by name. -/
def asEncoding : SettingValue → Except SettingsError Encoding
  -- A table is read as far as its first key, under which no encoding keeps a value.
  | .text name => (Encoding.ofName? name).elim (.error ⟨.unknownVariant, []⟩) .ok
  | .table ((key, _) :: _) =>
    if (Encoding.ofName? key).isSome then .error ⟨.wrongType, [key]⟩ else .error ⟨.unknownVariant, [key]⟩
  | _ => .error wrongShape

end SettingValue

namespace Settings

/-- The settings that hold where nothing else is set. -/
def standard : Settings where
  -- There are no sources by default, since nothing could be guessed about them.
  defaultLocale := "en"
  supportedLocales := []
  sources := []
  commonNamespace := none
  resourcePattern := ResourcePattern.standard.template
  encoding := .utf8
  resourceRoots := ["."]

/-- Whether settings are the standard ones, where a root may be written in more than one way. -/
def isStandard (settings : Settings) : Bool :=
  { settings with resourceRoots := standard.resourceRoots } = standard &&
    settings.resourceRoots.map FileTree.pathParts = standard.resourceRoots.map FileTree.pathParts

/-- The value of a setting in a table, or the standard one when the table does not set it. -/
def field {α : Type} (table : Table SettingValue) (key : String)
    (read : SettingValue → Except SettingsError α) (standard : α) : Except SettingsError α :=
  -- An error inside the value is told with the key in front of its path.
  match table.find? key with
  | some value => (read value).mapError (·.under key)
  | none => .ok standard

/-- The settings that a table holds, where the first setting in the order of the keys to be wrong is reported. -/
def ofTable (table : Table SettingValue) : Except SettingsError Settings := do
  -- Fields are read by the names of their keys in order, which decides the error that is reported.
  let commonNamespace ← field table "common_namespace" (fun value => value.asText.map some)
    standard.commonNamespace
  let defaultLocale ← field table "default_locale" SettingValue.asText standard.defaultLocale
  let encoding ← field table "encoding" SettingValue.asEncoding standard.encoding
  let resourcePattern ← field table "resource_pattern" SettingValue.asText standard.resourcePattern
  let resourceRoots ← field table "resource_roots" SettingValue.asTexts standard.resourceRoots
  let sources ← field table "sources" SettingValue.asTexts standard.sources
  let supportedLocales ← field table "supported_locales" SettingValue.asTexts standard.supportedLocales
  return {
    defaultLocale, supportedLocales, sources, commonNamespace, resourcePattern, encoding, resourceRoots }

end Settings

end MessageCatalogue
