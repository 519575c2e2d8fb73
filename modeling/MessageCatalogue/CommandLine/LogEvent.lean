/-! A log event says what happened in some part of the program and how much it matters. -/

namespace MessageCatalogue

/-- How much is reported, from nothing at all to everything. -/
inductive LogLevel where
  | off
  | error
  | warn
  | info
  | debug
  | trace
deriving DecidableEq, Repr

namespace LogLevel

/-- The position of a level, which its number also denotes in a filter. -/
def rank : LogLevel → Nat
  -- A higher rank reports more.
  | .off => 0
  | .error => 1
  | .warn => 2
  | .info => 3
  | .debug => 4
  | .trace => 5

/-- The name of a level. -/
def name : LogLevel → String
  -- The names are lower case, in which they are also read.
  | .off => "off"
  | .error => "error"
  | .warn => "warn"
  | .info => "info"
  | .debug => "debug"
  | .trace => "trace"

/-- Every level. -/
def all : List LogLevel := [.off, .error, .warn, .info, .debug, .trace]

end LogLevel

/-- Something worth a line in the log, with the part of the program that it comes from and its details. -/
structure LogEvent where
  level : LogLevel
  target : String
  account : String
  details : List String
deriving DecidableEq, Repr

namespace LogEvent

/-- The fields of an event, of which one holds its account. -/
def fields (event : LogEvent) : List String := "message" :: event.details

/-- The line of an event in a log. -/
def line (event : LogEvent) : String :=
  event.level.name.map Char.toUpper ++ " " ++ event.target ++ ": " ++ event.account

/-- The settings of a command are known. -/
def settingsResolved : LogEvent :=
  ⟨.debug, "msgctl::commands", "resolved settings", ["sources", "roots"]⟩

/-- A code that was looked up has no message. -/
def messageMissing : LogEvent :=
  ⟨.warn, "msgctl::commands", "message not found", ["code", "locale"]⟩

/-- A root directory does not exist and is passed over. -/
def rootSkipped : LogEvent :=
  ⟨.debug, "message_source::resource::directory", "skipping missing resource root", ["root"]⟩

/-- A resource has been read. -/
def resourceLoaded : LogEvent :=
  ⟨.debug, "message_source::resource::loader", "loaded message resource",
    ["source", "locale", "resource", "entries"]⟩

/-- A file holds no resource of the source. -/
def fileIgnored : LogEvent :=
  ⟨.debug, "message_source::resource::loader", "ignoring unrelated file", ["source", "file"]⟩

/-- A locale has no resource of its own. -/
def defaultsServed : LogEvent :=
  ⟨.debug, "message_source::store", "no resource for locale; serving default messages",
    ["source", "locale"]⟩

/-- A store has been initialized. -/
def storeInitialized : LogEvent :=
  ⟨.info, "message_source::store", "message source initialized",
    ["source", "default_locale", "locales"]⟩

/-- A code has a message only under a shorter or the common namespace. -/
def fallbackUsed : LogEvent :=
  ⟨.debug, "message_source::composite", "resolved through namespace fallback", ["code", "candidate"]⟩

/-- A reference has no message and stays as it is. -/
def literalKept : LogEvent :=
  ⟨.debug, "message_source::source", "message not found; keeping literal", ["code", "locale"]⟩

end LogEvent

end MessageCatalogue
