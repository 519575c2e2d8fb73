import MessageCatalogue.Text.Pieces

/-! A document is read from the front of its text, and whatever does not fit makes the whole of it malformed. -/

namespace MessageCatalogue.Toml

/-- A reader takes what it reads from the front of a text, unless the text is malformed. -/
abbrev Reader (α : Type) : Type := StateT (List Char) Option α

/-- The characters that may stand in a line as they are. -/
def isPlain (c : Char) : Bool := c == '\t' || (' ' ≤ c && c != '\x7f')

/-- The characters between the parts of a line. -/
def isBlank (c : Char) : Bool := c == ' ' || c == '\t'

/-- The text after blanks, line endings and comments. -/
def skipGaps (inComment : Bool) : List Char → Option (List Char)
  -- A comment lasts to the end of its line, and a carriage return ends a line only with a line feed.
  | [] => some []
  | '\n' :: rest => skipGaps false rest
  | '\r' :: '\n' :: rest => skipGaps false rest
  | c :: rest =>
    if inComment then (if isPlain c then skipGaps true rest else none)
    else if c = '#' then skipGaps true rest
    else if isBlank c then skipGaps false rest
    else some (c :: rest)

namespace Reader

/-- The next character, which is left in place. -/
def peek : Reader (Option Char) := fun text => some (text.head?, text)

/-- The characters from the front that have a property. -/
def takeWhile (holds : Char → Bool) : Reader (List Char) := fun text =>
  some (text.takeWhile holds, text.dropWhile holds)

/-- Whether a mark is at the front, from where it is taken. -/
def accept (mark : List Char) : Reader Bool := fun text =>
  match mark.isPrefixOf? text with
  | some rest => some (true, rest)
  | none => some (false, text)

/-- A mark that must be at the front. -/
def expect (mark : List Char) : Reader Unit := fun text => (mark.isPrefixOf? text).map ((), ·)

/-- The blanks at the front. -/
def blanks : Reader Unit := fun text => some ((), text.dropWhile isBlank)

/-- The blanks, line endings and comments at the front. -/
def gaps : Reader Unit := fun text => (skipGaps false text).map ((), ·)

/-- The end of a line after blanks and a comment, for which the end of the text will do. -/
def lineEnd : Reader Unit := do
  blanks
  if ← accept ['#'] then let _ ← takeWhile isPlain
  if (← peek).isSome ∧ ¬ (← accept ['\n']) then expect ['\r', '\n']

end Reader

end MessageCatalogue.Toml
