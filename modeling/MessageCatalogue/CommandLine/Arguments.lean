import MessageCatalogue.CommandLine.Usage
import MessageCatalogue.Text.Pieces

/-! A command line is read word by word, first up to the name of a command and then for that command. -/

namespace MessageCatalogue

/-- The options that take a value. -/
inductive ValueOption where
  | config
  | root
  | source
  | locale
deriving DecidableEq, Repr

/-- The kinds of word on a command line. -/
inductive Word where
  | endOfOptions
  | long (name : String) (value : Option String)
  | short (letter : Char)
  | plain (text : String)
deriving DecidableEq, Repr

/-- The kind of a word, where a lone hyphen is plain. -/
def Word.ofString (word : String) : Word :=
  match word.toList with
  -- The order matters, since two hyphens alone would pass for a long option without a name.
  | ['-', '-'] => .endOfOptions
  | '-' :: '-' :: rest =>
    match Text.cutFirst? ['='] rest with
    | some (name, value) => .long (String.ofList name) (some (String.ofList value))
    | none => .long (String.ofList rest) none
  | '-' :: letter :: _ => .short letter
  | _ => .plain word

/-- What may stand before the name of a command or after it. -/
structure ArgumentLevel where
  topic : HelpTopic
  namesCommand : Bool
  takesLocale : Bool
  takesWords : Bool

namespace ArgumentLevel

/-- What may stand before the name of a command. -/
def outer : ArgumentLevel := ⟨.program, true, false, false⟩

/-- What may stand after the name of a command. -/
def inner (name : CommandName) : ArgumentLevel :=
  let isQuery := name = .lookup || name = .localize
  ⟨.command name, false, isQuery, isQuery⟩

/-- The option that takes a value under a name. -/
def valueOption? (level : ArgumentLevel) (name : String) : Option ValueOption :=
  -- Only the commands that look something up know the option of a locale.
  if name = "config" then some .config
  else if name = "root" then some .root
  else if name = "source" then some .source
  else if name = "locale" ∧ level.takesLocale then some .locale
  else none

/-- The option without a value that a long name or its letter asks for. -/
def request? (level : ArgumentLevel) (name : String) (letter : Option Char) : Option Refusal :=
  if name = "help" ∨ letter = some 'h' then some (.help level.topic)
  else if (name = "version" ∨ letter = some 'V') ∧ level.namesCommand then some .version
  else none

end ArgumentLevel

/-- The options and plain words that were given at one level. -/
structure GivenArguments where
  config : Option String
  locale : Option String
  roots : List String
  sources : List String
  words : List String
deriving DecidableEq, Repr

namespace GivenArguments

/-- Nothing given. -/
def none : GivenArguments := ⟨.none, .none, [], [], []⟩

/-- One more option with its value, which some options take only once. -/
def add (given : GivenArguments) (option : ValueOption) (value : String) :
    Except Refusal GivenArguments :=
  match option with
  -- Roots and sources add up, while a second document or locale would contradict the first.
  | .root => .ok { given with roots := given.roots ++ [value] }
  | .source => .ok { given with sources := given.sources ++ [value] }
  | .config => if given.config.isSome then .error .repeatedOption else .ok { given with config := some value }
  | .locale => if given.locale.isSome then .error .repeatedOption else .ok { given with locale := some value }

/-- More plain words. -/
def addWords (given : GivenArguments) (words : List String) : GivenArguments :=
  { given with words := given.words ++ words }

end GivenArguments

/-- The words read so far at one level, of which the last option may not have been looked at yet. -/
structure ArgumentScan where
  given : GivenArguments
  open? : Option (ValueOption × Option String)
deriving DecidableEq, Repr

namespace ArgumentScan

/-- The state before any word. -/
def start : ArgumentScan := ⟨.none, none⟩

/-- The option that still lacks its value. -/
def awaiting? (scan : ArgumentScan) : Option ValueOption :=
  match scan.open? with
  | some (option, none) => some option
  | _ => none

/-- What is given once the last option is looked at, which must have its value by then. -/
def settled (scan : ArgumentScan) : Except Refusal GivenArguments :=
  match scan.open? with
  -- An option that is still open takes its value now, since no later word can bring it.
  | none => .ok scan.given
  | some (option, some value) => scan.given.add option value
  | some (_, none) => .error .missingValue

/-- The state after a long option. -/
def long (level : ArgumentLevel) (scan : ArgumentScan) (name : String) (value : Option String) :
    Except Refusal ArgumentScan :=
  -- A value in the same word is looked at immediately, and one in the next word only later.
  match level.request? name none, level.valueOption? name, value with
  | some _, _, some _ => .error .surplusValue
  | some request, _, none => scan.settled.bind fun _ => .error request
  | none, some option, some value => do
    let given ← scan.settled
    let given ← given.add option value
    return ⟨given, none⟩
  | none, some option, none => scan.settled.map (⟨·, some (option, none)⟩)
  | none, none, _ => .error .unknownArgument

/-- The state after a word of letters behind one hyphen, of which the first letter decides. -/
def short (level : ArgumentLevel) (scan : ArgumentScan) (letter : Char) : Except Refusal ArgumentScan :=
  match level.request? "" (some letter) with
  | some request => scan.settled.bind fun _ => .error request
  | none => .error .unknownArgument

/-- The state after plain words that are no option's value. -/
def plain (level : ArgumentLevel) (scan : ArgumentScan) (words : List String) :
    Except Refusal ArgumentScan :=
  -- A word that is not taken is a command that does not exist, if a command can stand there.
  if level.takesWords then scan.settled.map fun given => ⟨given.addWords words, none⟩
  else if level.namesCommand then .error .unknownCommand
  else .error .unknownArgument

/-- Whether a word names a command or asks for help as one. -/
def isCommandWord (word : String) : Bool := word = "help" || (CommandName.ofWord? word).isSome

/-- The state after words that follow the end of the options. -/
def trailing (level : ArgumentLevel) (scan : ArgumentScan) : List String → Except Refusal ArgumentScan
  -- A command that is named after the options have ended is not taken for one.
  | [] => .ok scan
  | word :: rest =>
    if level.namesCommand && isCommandWord word then .error .unknownArgument
    else scan.plain level (word :: rest)

/-- The state after the words of one level, with the words from the name of a command on. -/
def read (level : ArgumentLevel) (scan : ArgumentScan) :
    List String → Except Refusal (ArgumentScan × List String)
  -- The value of an option may be any plain word, even the name of a command.
  | [] => .ok (scan, [])
  | word :: rest =>
    match scan.awaiting?, Word.ofString word with
    | _, .endOfOptions => (trailing level scan rest).map (·, [])
    | _, .long name value => (scan.long level name value).bind (read level · rest)
    | _, .short letter => (scan.short level letter).bind (read level · rest)
    | some option, .plain text => read level { scan with open? := some (option, some text) } rest
    | none, .plain text =>
      if level.namesCommand && isCommandWord text then .ok (scan, word :: rest)
      else (scan.plain level [text]).bind (read level · rest)

end ArgumentScan

namespace CommandName

/-- The command of a name with what was given for it. -/
def complete (name : CommandName) (given : GivenArguments) : Except Refusal Command :=
  match name, given.words with
  -- What is looked up is the first plain word, and the others fill its placeholders.
  | .lookup, code :: arguments => .ok (.lookup code arguments given.locale)
  | .localize, text :: arguments => .ok (.localize text arguments given.locale)
  | .lookup, [] => .error .missingArgument
  | .localize, [] => .error .missingArgument
  | .locales, _ => .ok .locales
  | .check, _ => .ok .check

end CommandName

namespace Invocation

/-- The answer to the words after the command that asks for help. -/
def helpAbout : List String → Refusal
  -- Help knows itself besides the commands, and it explains one topic at a time.
  | [] => .help .program
  | [word] =>
    match CommandName.ofWord? word with
    | some name => .help (.command name)
    | none => if word = "help" then .help .help else .unknownCommand
  | _ => .unknownCommand

/-- A command with the options given before its name and those given after it, which replace them. -/
def ofLevels (outer inner : GivenArguments) (command : Command) : Invocation where
  -- Lists are replaced as a whole and never joined.
  config := inner.config <|> outer.config
  roots := if inner.roots.isEmpty then outer.roots else inner.roots
  sources := if inner.sources.isEmpty then outer.sources else inner.sources
  command := command

/-- The invocation that the words of a command line ask for. -/
def parse (words : List String) : Except Refusal Invocation := do
  -- What follows the name of a command is judged before the last option in front of it.
  let (outer, rest) ← ArgumentScan.start.read .outer words
  match rest with
  | [] =>
    let given ← outer.settled
    throw (if given = .none then .nothingGiven else .missingCommand)
  | word :: rest =>
    match CommandName.ofWord? word with
    | none => throw (helpAbout rest)
    | some name =>
      let (inner, _) ← ArgumentScan.start.read (.inner name) rest
      let own ← inner.settled
      let command ← name.complete own
      let general ← outer.settled
      return ofLevels general own command

end Invocation

end MessageCatalogue
