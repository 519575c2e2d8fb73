import MessageCatalogue.Properties.Entry
import MessageCatalogue.Text.Lines
import MessageCatalogue.Text.WhiteSpace

/-! A properties document is read line by line, where a backslash at the end of a line continues it on the next. -/

namespace MessageCatalogue.Properties

/-- A line of content joined from physical lines, with the number of the first of them. -/
structure LogicalLine where
  line : Nat
  text : List Char
deriving DecidableEq, Repr

/-- Whether a line ends in an odd run of backslashes, so that its last backslash is not escaped. -/
def continues (line : List Char) : Bool := (line.reverse.takeWhile (· == '\\')).length % 2 == 1

/-- Whether a line without leading white space is empty or a comment. -/
def isSkipped : List Char → Bool
  | [] => true
  | c :: _ => c == '#' || c == '!'

/-- The logical lines that physical lines form from a line number on, after an unfinished logical line. -/
def assemble (number : Nat) : Option LogicalLine → List (List Char) → List LogicalLine
  -- The end of the document finishes a line that was to be continued.
  | unfinished, [] => unfinished.toList
  | none, physical :: rest =>
    let text := Text.trimStart physical
    if isSkipped text then assemble (number + 1) none rest
    else if continues text then assemble (number + 1) (some ⟨number, text.dropLast⟩) rest
    else ⟨number, text⟩ :: assemble (number + 1) none rest
  | some unfinished, physical :: rest =>
    let text := unfinished.text ++ Text.trimStart physical
    if continues text then assemble (number + 1) (some ⟨unfinished.line, text.dropLast⟩) rest
    else ⟨unfinished.line, text⟩ :: assemble (number + 1) none rest

/-- A text without the byte order mark at its start. -/
def dropByteOrderMark : List Char → List Char
  | '\ufeff' :: rest => rest
  | text => text

/-- The logical lines of a document. -/
def logicalLines (text : List Char) : List LogicalLine :=
  assemble 1 none (Text.lines (dropByteOrderMark text))

/-- The entries of logical lines, unless one of them is malformed. -/
def readEntries : List LogicalLine → Except EntryError (List Entry)
  -- The first malformed line decides the error.
  | [] => .ok []
  | logical :: rest => do
    let entry ← readEntry logical.line logical.text
    let entries ← readEntries rest
    return entry :: entries

/-- The entries of a document in order, repeated keys included. -/
def parse (text : String) : Except EntryError (List Entry) := readEntries (logicalLines text.toList)

end MessageCatalogue.Properties
