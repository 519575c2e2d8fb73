import MessageCatalogue.Source.Basic

/-! A context hands a source to those who look messages up, also before there is a real one. -/

namespace MessageCatalogue

/-- A source together with whether it was configured. -/
structure MessageContext where
  source : Source
  isConfigured : Bool

namespace MessageContext

/-- The context of a configured source. -/
def ofSource (source : Source) : MessageContext := ⟨source, true⟩

/-- The context to use before a source is configured, in which no message is found. -/
def unconfigured : MessageContext := ⟨.silent .english, false⟩

/-- The message of a code in a locale. -/
def lookup (registry : Registry) (context : MessageContext) (code : String) (locale : Locale)
    (arguments : List Argument) : Option String :=
  context.source.lookup registry locale arguments code

/-- The message of a code in the locale that the source uses by itself. -/
def message (registry : Registry) (context : MessageContext) (code : String)
    (arguments : List Argument) : Option String :=
  context.source.message registry code arguments

/-- The message that a text refers to in the locale that the source uses by itself. -/
def localize (registry : Registry) (context : MessageContext) (text : String)
    (arguments : List Argument) : String :=
  context.source.localize registry text none arguments

/-- The message that a text refers to in the locale of a request. -/
def localizeFor (registry : Registry) (context : MessageContext) (request : LocaleContext)
    (text : String) (arguments : List Argument) : String :=
  context.source.localize registry text (some request.locale) arguments

end MessageContext

end MessageCatalogue
