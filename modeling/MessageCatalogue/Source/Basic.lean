import MessageCatalogue.Candidate
import MessageCatalogue.Locale.Resolver
import MessageCatalogue.Reference
import MessageCatalogue.Source.Registry

/-! A message source is a store, a source without messages, or a list of sources queried as one. -/

namespace MessageCatalogue

/-- A source of messages, whose stores are kept in a registry. -/
inductive Source where
  | store (key : StoreKey)
  | silent (locale : Locale)
  | composite (name : String) (resolver : Option LocaleResolver) (common : Option String)
      (members : List Source)

namespace Source

/-- A composite of at least one source, in which an empty common namespace counts as none. -/
def compose (name : Option String) (resolver : Option LocaleResolver) (common : Option String)
    (members : List Source) : Except MessageError Source :=
  if members.isEmpty then .error .noSources
  else .ok (.composite (name.getD "composite") resolver (common.filter (· ≠ "")) members)

/-- The name of a source. -/
def name (registry : Registry) : Source → String
  | .store key => (registry.store key).setup.source
  | .silent _ => "no-op"
  | .composite name _ _ _ => name

/-- The sources that a composite queries, in order of priority. -/
def members : Source → List Source
  | .composite _ _ _ members => members
  | _ => []

/-- The namespace that a composite tries last. -/
def common? : Source → Option String
  | .composite _ _ common _ => common
  | _ => none

mutual

/-- The default locale of a source, which a composite takes from its first member. -/
def defaultLocale (registry : Registry) : Source → Locale
  | .store key => (registry.store key).setup.defaultLocale
  | .silent locale => locale
  | .composite _ _ _ members => firstDefault registry members

/-- The default locale of the first source in a list. -/
def firstDefault (registry : Registry) : List Source → Locale
  | [] => .english
  | first :: _ => defaultLocale registry first

end

mutual

/-- The supported locales of a source, which a composite takes from its first member. -/
def supportedLocales (registry : Registry) : Source → List Locale
  | .store key => (registry.store key).supportedLocales
  | .silent locale => [locale]
  | .composite _ _ _ members => firstSupported registry members

/-- The supported locales of the first source in a list. -/
def firstSupported (registry : Registry) : List Source → List Locale
  | [] => []
  | first :: _ => supportedLocales registry first

end

/-- The locale of a lookup that names none. -/
def locale (registry : Registry) (source : Source) : Locale :=
  match source with
  | .composite _ (some resolver) _ _ => resolver.locale
  | _ => source.defaultLocale registry

mutual

/-- The message of a code in a locale. -/
def lookup (registry : Registry) (locale : Locale) (arguments : List Argument) :
    Source → String → Option String
  -- A composite tries one candidate after the other, and each of them in every member.
  | .store key, code => (registry.store key).lookup code locale arguments
  | .silent _, _ => none
  | .composite _ _ common members, code =>
    (candidateCodes code common).findSome? fun candidate =>
      lookupFirst registry locale arguments members candidate

/-- The message of a code in the first source that has one. -/
def lookupFirst (registry : Registry) (locale : Locale) (arguments : List Argument) :
    List Source → String → Option String
  -- A source without the message leaves the code to the next one.
  | [], _ => none
  | first :: rest, code =>
    match lookup registry locale arguments first code with
    | some message => some message
    | none => lookupFirst registry locale arguments rest code

end

/-- The message of a code in the locale that the source uses by itself. -/
def message (registry : Registry) (source : Source) (code : String) (arguments : List Argument) :
    Option String :=
  lookup registry (source.locale registry) arguments source code

/-- The message of a code, or else a template of one's own with the arguments put in. -/
def messageOr (registry : Registry) (source : Source) (code : String) (arguments : List Argument)
    (fallback : String) : String :=
  (source.message registry code arguments).getD (formatMessage fallback arguments)

/-- The message that a text refers to, or the text itself when it refers to none. -/
def localize (registry : Registry) (source : Source) (text : String) (locale : Option Locale)
    (arguments : List Argument) : String :=
  -- A reference to a missing message is shown as it was written.
  match referencedCode? text with
  | none => text
  | some code =>
    (lookup registry (locale.getD (source.locale registry)) arguments source code).getD text

mutual

/-- Whether an identifier of a change concerns a source. -/
def owns (registry : Registry) (identifier : String) : Source → Bool
  | .store key => (registry.store key).owns identifier
  | .silent _ => false
  | .composite _ _ _ members => ownsAny registry identifier members

/-- Whether an identifier of a change concerns one of several sources. -/
def ownsAny (registry : Registry) (identifier : String) : List Source → Bool
  | [] => false
  | first :: rest => owns registry identifier first || ownsAny registry identifier rest

end

end Source

end MessageCatalogue
