import MessageCatalogue.CommandLine.Journal
import MessageCatalogue.CommandLine.Usage
import MessageCatalogue.Settings.Build
import MessageCatalogue.Settings.Layers

/-! Commands answer with lines of text and say whether they found what was asked for. -/

namespace MessageCatalogue

/-- The lines that a command prints, whether it succeeded, and what there is to log about it. -/
structure Report where
  lines : List String
  succeeded : Bool
  events : List LogEvent
deriving DecidableEq, Repr

/-- Settings in which the roots and sources of a command line, if any, take the place of others. -/
def Settings.overridden (settings : Settings) (invocation : Invocation) : Settings :=
  { settings with
    resourceRoots := if invocation.roots.isEmpty then settings.resourceRoots else invocation.roots
    sources := if invocation.sources.isEmpty then settings.sources else invocation.sources }

namespace Invocation

/-- The settings that apply to a command line. -/
def settings (invocation : Invocation) (document : Option ByteArray) (environment : Environment) :
    Except MessageError Settings :=
  (Settings.load document environment).map (·.overridden invocation)

end Invocation

namespace Report

/-- A composite with the registry of its stores and the events of making it. -/
structure Opened where
  source : Source
  registry : Registry
  events : List LogEvent

/-- The composite over the directories that are set. -/
def composite (settings : Settings) : Loading Opened := do
  let ((source, registry), events) ← settings.buildNoting Store.initLogged settings.directories .empty
  return ⟨source, registry, events.flatten⟩

/-- The locale that a command names, or else the one that its source uses by itself. -/
def requestedLocale (opened : Opened) (requested : Option String) : Except MessageError Locale :=
  match requested with
  | some text => Locale.parse text
  | none => .ok (opened.source.locale opened.registry)

/-- The report on the message of a code, which is printed if there is one. -/
def ofLookup (settings : Settings) (code : String) (arguments : List String)
    (requested : Option String) : Loading Report := do
  -- Everything is built before the locale of the command is read, so errors of the sources come first.
  let opened ← composite settings
  let locale ← Loading.ofExcept (requestedLocale opened requested)
  let events := opened.events ++ opened.source.lookupEvents opened.registry locale code
  match opened.source.lookup opened.registry locale (arguments.map .text) code with
  | some message => return ⟨[message], true, events⟩
  | none => return ⟨[], false, events ++ [.messageMissing]⟩

/-- The report on a text that may refer to a message. -/
def ofLocalize (settings : Settings) (text : String) (arguments : List String)
    (requested : Option String) : Loading Report := do
  -- A text is its own answer where there is no message for it, so this always succeeds.
  let opened ← composite settings
  let locale ← Loading.ofExcept (requestedLocale opened requested)
  return ⟨[opened.source.localize opened.registry text (some locale) (arguments.map .text)], true,
    opened.events ++ opened.source.localizeEvents opened.registry locale text⟩

/-- The report on the locales of the sources. -/
def ofLocales (settings : Settings) : Loading Report := do
  -- The composite takes its default locale from the first source.
  let opened ← composite settings
  let supported := (opened.source.supportedLocales opened.registry).map (·.tag)
  return ⟨["default: " ++ (opened.source.defaultLocale opened.registry).tag,
    "supported: " ++ String.intercalate ", " supported], true, opened.events⟩

/-- The numbers of messages of a store by locale. -/
def countsText (store : Store) : String :=
  String.intercalate ", " (store.messageCounts.map fun (locale, count) => s!"{locale.tag}={count}")

/-- The line about one store after its initialization. -/
def storeLine (result : Except MessageError Unit) (store : Store) : String :=
  match result with
  -- The source is named first, so that the lines of several stores can be told apart.
  | .ok () => store.setup.source ++ ": ok (" ++ countsText store ++ ")"
  | .error error => store.setup.source ++ ": error: " ++ error.message

/-- The report on stores, each of which is initialized whatever becomes of the others. -/
def ofStores : List Store → Fetch Report
  | [] => return ⟨[], true, []⟩
  -- A failure does not end the report, which says at the end whether all went well.
  | store :: rest => do
    let ((result, initialized), events) ← store.initLogged
    let others ← ofStores rest
    return ⟨storeLine result initialized :: others.lines, result.toBool && others.succeeded,
      events ++ others.events⟩

/-- The report on every source, or on the settings when they name no usable ones. -/
def ofCheck (settings : Settings) : Fetch Report :=
  match settings.stores settings.directories with
  | .ok stores => ofStores stores
  | .error error => return ⟨["error: " ++ error.message], false, []⟩

/-- The report of a command under some settings. -/
def ofCommand (settings : Settings) : Command → Loading Report
  -- The first three look something up in the composite, and a check does without one.
  | .lookup code arguments requested => ofLookup settings code arguments requested
  | .localize text arguments requested => ofLocalize settings text arguments requested
  | .locales => ofLocales settings
  | .check => ofCheck settings

end Report

end MessageCatalogue
