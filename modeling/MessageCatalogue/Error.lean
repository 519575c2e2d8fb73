import MessageCatalogue.Locale.Basic
import MessageCatalogue.Resource.Fault

/-! Everything that can go wrong between settings and messages, with the account given of it. -/

namespace MessageCatalogue

/-- Why a message code that a resource declares could not be looked up unambiguously. -/
inductive CodeDefect where
  | blank
  | braced
deriving DecidableEq, Repr

/-- The account of an unusable code. -/
def CodeDefect.message : CodeDefect → String
  | .blank => "message codes must not be empty"
  | .braced => "message codes must not be wrapped in \x7b\x7d markers"

/-- The ways in which settings fail to be read. -/
inductive SettingsDefect where
  | malformedDocument
  | wrongType
  | unknownVariant
deriving DecidableEq, Repr

/-- Settings that could not be read, with the keys that lead to the offending value. -/
structure SettingsError where
  defect : SettingsDefect
  path : List String
deriving DecidableEq, Repr

/-- The account of settings that could not be read. -/
def SettingsError.message (error : SettingsError) : String :=
  -- The account comes first, and the key that it is about follows if there is one.
  let account := match error.defect with
    | .malformedDocument => "malformed document"
    | .wrongType => "wrong type"
    | .unknownVariant => "unknown variant"
  if error.path.isEmpty then account
  else account ++ " for key '" ++ String.intercalate "." error.path ++ "'"

/-- What went wrong while settings, locales, patterns or resources were read or a source was used. -/
inductive MessageError where
  | missingDefaultResource (source : String) (locale : Locale) (resource : String)
  | load (source : String) (locale : Locale) (resource : String) (cause : ResourceFault)
  | discovery (source : String) (directory : String) (cause : ResourceFault)
  | parse (source : String) (locale : Locale) (resource : String) (line : Nat) (detail : String)
  | invalidCode (source : String) (code : String) (resource : String) (defect : CodeDefect)
  | invalidLocale (value : String) (detail : String)
  | invalidPattern (template : String) (detail : String)
  | noSources
  | destroyed (source : String)
  | settings (error : SettingsError)
  | aggregate (errors : List MessageError)

namespace MessageError

/-- One error for several, which is none when there was none and the only one when there was one. -/
def combined? : List MessageError → Option MessageError
  | [] => none
  | [error] => some error
  | errors => some (.aggregate errors)

mutual

/-- The account of an error, which numbers the parts of an aggregate. -/
def message : MessageError → String
  -- Causes are told at the end, behind what was being done when they came up.
  | .missingDefaultResource source locale resource =>
    s!"source '{source}' has no resource for its default locale {locale.tag} ('{resource}')"
  | .load source locale resource cause =>
    s!"failed to load '{resource}' for source '{source}' ({locale.tag}): {cause.message}"
  | .discovery source directory cause =>
    s!"failed to discover locales for source '{source}' under '{directory}': {cause.message}"
  | .parse source locale resource line detail =>
    s!"failed to parse '{resource}' for source '{source}' ({locale.tag}) at line {line}: {detail}"
  | .invalidCode source code resource defect =>
    s!"source '{source}' declares invalid message code '{code}' in '{resource}': {defect.message}"
  | .invalidLocale value detail => s!"invalid locale '{value}': {detail}"
  | .invalidPattern template detail => s!"invalid resource pattern '{template}': {detail}"
  | .noSources => "no message sources configured"
  | .destroyed source => s!"message source '{source}' has been destroyed"
  | .settings error => "failed to load message source settings: " ++ error.message
  | .aggregate errors =>
    "multiple message source errors:\n" ++ String.intercalate "\n" (numbered 1 errors)

/-- The accounts of errors, each after its number. -/
def numbered (number : Nat) : List MessageError → List String
  | [] => []
  | error :: rest => (toString number ++ ": " ++ message error) :: numbered (number + 1) rest

end

end MessageError

end MessageCatalogue
