import MessageCatalogue.CommandLine.Usage

/-! Help says what the program and its commands do and which words they take. -/

namespace MessageCatalogue

/-- A word or option with what it is for. -/
structure HelpItem where
  spelling : String
  purpose : String

/-- Items under a heading. -/
structure HelpSection where
  heading : String
  items : List HelpItem

namespace HelpSection

/-- A text with blanks behind it up to a width. -/
def padded (width : Nat) (text : String) : String :=
  text ++ String.ofList (List.replicate (width - text.length) ' ')

/-- The lines of a section, where all purposes begin in one column. -/
def lines (part : HelpSection) : List String :=
  let width := part.items.foldl (fun widest item => max widest item.spelling.length) 0
  ("" :: (part.heading ++ ":") :: part.items.map fun item =>
    "  " ++ padded width item.spelling ++ "  " ++ item.purpose)

end HelpSection

namespace CommandName

/-- The word that names a command. -/
def word : CommandName → String
  -- These are the words that command lines are read by.
  | .lookup => "lookup"
  | .localize => "localize"
  | .locales => "locales"
  | .check => "check"

/-- What a command does. -/
def purpose : CommandName → String
  -- Braces of the text are escaped for the sake of interpolation.
  | .lookup => "Print the message for a code; exits with status 1 when it is missing"
  | .localize => "Resolve text that may be a `\x7bcode\x7d` reference"
  | .locales => "Print the default and supported locales"
  | .check => "Load every source and report its locales and message counts"

/-- The values that a command puts into a message. -/
def valuesItem : HelpItem := ⟨"[ARGS]...", "Values substituted into `\x7b\x7d` placeholders, in order"⟩

/-- The plain words that a command takes. -/
def parameters : CommandName → List HelpItem
  -- Only what is looked up takes values for placeholders behind it.
  | .lookup => [⟨"<CODE>", "Message code, for example `user.not-found`"⟩, valuesItem]
  | .localize => [⟨"<TEXT>", "Literal text or a `\x7bcode\x7d` reference"⟩, valuesItem]
  | .locales => []
  | .check => []

end CommandName

namespace HelpTopic

/-- The word that asks for help, with what it does. -/
def helpItem : HelpItem := ⟨"help", "Print this message or the help of the given subcommand(s)"⟩

/-- The options that every command takes, with room for one of its own. -/
def options (own : List HelpItem) : List HelpItem :=
  -- The option of a command itself stands between the document and the roots.
  [⟨"    --config <path>", "TOML settings file layered under `MESSAGES_*` environment variables"⟩] ++ own ++
    [⟨"    --root <dir>", "Resource root directory (repeat for several; replaces configured roots)"⟩,
      ⟨"    --source <name>",
        "Source name in priority order (repeat for several; replaces configured sources)"⟩,
      ⟨"-h, --help", "Print help"⟩]

/-- The option for a locale. -/
def localeOption : HelpItem :=
  ⟨"    --locale <locale>", "Locale to resolve in (defaults to the configured default locale)"⟩

/-- The sections about a command. -/
def commandSections (name : CommandName) : List HelpSection :=
  if name.parameters.isEmpty then [⟨"Options", options []⟩]
  else [⟨"Arguments", name.parameters⟩, ⟨"Options", options [localeOption]⟩]

/-- What the topic of some help does. -/
def purpose : HelpTopic → String
  | .program => "Query and validate properties-backed message catalogues"
  | .command name => name.purpose
  | .help => helpItem.purpose

/-- The words to use a topic of help with. -/
def usage : HelpTopic → String
  -- The words of a command are those of its parameters, as they are listed below.
  | .program => "msgctl [OPTIONS] <COMMAND>"
  | .command name =>
    String.intercalate " " (["msgctl", name.word, "[OPTIONS]"] ++ name.parameters.map (·.spelling))
  | .help => "msgctl help [COMMAND]..."

/-- The sections about a topic. -/
def sections : HelpTopic → List HelpSection
  | .program =>
    -- The version can be asked for at the top only.
    [⟨"Commands", [CommandName.lookup, .localize, .locales, .check].map
        (fun name => ⟨name.word, name.purpose⟩) ++ [helpItem]⟩,
      ⟨"Options", options [] ++ [⟨"-V, --version", "Print version"⟩]⟩]
  | .command name => commandSections name
  | .help => [⟨"Arguments", [⟨"[COMMAND]...", "Print help for the subcommand(s)"⟩]⟩]

/-- The lines of help on a topic. -/
def lines (topic : HelpTopic) : List String :=
  [topic.purpose, "", "Usage: " ++ topic.usage] ++ topic.sections.flatMap (·.lines)

end HelpTopic

end MessageCatalogue
