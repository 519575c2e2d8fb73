/-! A command line names one command, and one that does not is answered by a refusal of some kind. -/

namespace MessageCatalogue

/-- The names of the commands. -/
inductive CommandName where
  | lookup
  | localize
  | locales
  | check
deriving DecidableEq, Repr

/-- The command that a word names. -/
def CommandName.ofWord? (word : String) : Option CommandName :=
  -- The words must match exactly, in lower case.
  if word = "lookup" then some .lookup
  else if word = "localize" then some .localize
  else if word = "locales" then some .locales
  else if word = "check" then some .check
  else none

/-- What help is asked about. -/
inductive HelpTopic where
  | program
  | command (name : CommandName)
  | help
deriving DecidableEq, Repr

/-- Why no command is carried out, which need not be the fault of the command line. -/
inductive Refusal where
  | help (topic : HelpTopic)
  | version
  | nothingGiven
  | missingCommand
  | unknownCommand
  | unknownArgument
  | missingArgument
  | missingValue
  | surplusValue
  | repeatedOption
deriving DecidableEq, Repr

/-- A command with its arguments. -/
inductive Command where
  | lookup (code : String) (arguments : List String) (locale : Option String)
  | localize (text : String) (arguments : List String) (locale : Option String)
  | locales
  | check
deriving DecidableEq, Repr

/-- A command with the options that apply to every command. -/
structure Invocation where
  config : Option String
  roots : List String
  sources : List String
  command : Command
deriving DecidableEq, Repr

end MessageCatalogue
