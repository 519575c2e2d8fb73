import MessageCatalogue.Locale.Basic

/-! A resolver supplies the locale of a lookup that names none. -/

namespace MessageCatalogue

/-- The locale of a request, if it has one, beside the locale to use otherwise. -/
structure LocaleContext where
  request : Option Locale
  default : Locale
deriving DecidableEq, Repr

namespace LocaleContext

/-- A context without a locale of a request. -/
def ofDefault (default : Locale) : LocaleContext := ⟨none, default⟩

/-- A context bound to the locale of a request in place of any other. -/
def withRequest (context : LocaleContext) (request : Locale) : LocaleContext :=
  { context with request := some request }

/-- The locale that a context supplies. -/
def locale (context : LocaleContext) : Locale := context.request.getD context.default

end LocaleContext

/-- What supplies the locale of a lookup that names none. -/
inductive LocaleResolver where
  | fixed (locale : Locale)
  | context (scope : LocaleContext)
deriving DecidableEq, Repr

/-- The locale that a resolver supplies. -/
def LocaleResolver.locale : LocaleResolver → Locale
  | .fixed locale => locale
  | .context scope => scope.locale

end MessageCatalogue
