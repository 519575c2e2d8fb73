/-! Message templates hold positional placeholders, which arguments fill from left to right. -/

namespace MessageCatalogue

/-- A value that a message shows in place of a placeholder. -/
inductive Argument where
  | text (value : String)
  | integer (value : Int)
  | flag (value : Bool)
deriving DecidableEq, Repr

/-- Text is shown as it is, integers in decimal and flags by their names. -/
def Argument.shown : Argument → String
  -- Arguments are shown once and never filled again.
  | .text value => value
  | .integer value => toString value
  | .flag true => "true"
  | .flag false => "false"

/-- The next pending text takes the place of each placeholder, and placeholders without one stay. -/
def fillPlaceholders : List (List Char) → List Char → List Char
  -- Text that has been put in is not read again, so it never opens or closes a placeholder.
  | _, [] => []
  | value :: pending, '{' :: '}' :: rest => value ++ fillPlaceholders pending rest
  | [], '{' :: '}' :: rest => '{' :: '}' :: fillPlaceholders [] rest
  | pending, c :: rest => c :: fillPlaceholders pending rest

/-- The message that a template gives for its arguments, of which surplus ones are ignored. -/
def formatMessage (template : String) (arguments : List Argument) : String :=
  -- Without arguments every placeholder stays, so the template is the message.
  if arguments.isEmpty then template
  else String.ofList (fillPlaceholders (arguments.map (·.shown.toList)) template.toList)

end MessageCatalogue
