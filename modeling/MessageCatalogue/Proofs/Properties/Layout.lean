import MessageCatalogue.Proofs.Properties.Escape

/-! A document may surround its written keys and values with white space, blank lines and comments. -/

namespace MessageCatalogue.Properties

/-- White space at the start of a line, which does not end it. -/
structure Margin where
  text : List Char
  white : ∀ c ∈ text, isWhiteSpace c
  unbroken : '\n' ∉ text

/-- Blanks next to a separator. -/
structure Blanks where
  text : List Char
  blank : ∀ c ∈ text, isBlank c

/-- What stands between a key and its value. -/
inductive Separator where
  | equals
  | colon

/-- The character of a separator. -/
def Separator.char : Separator → Char
  | .equals => '='
  | .colon => ':'

/-- What makes a line a comment. -/
inductive CommentMark where
  | hash
  | exclamation

/-- The character of a comment mark. -/
def CommentMark.char : CommentMark → Char
  | .hash => '#'
  | .exclamation => '!'

/-- The text of a comment, which may hold anything that does not end the line. -/
structure Remark where
  text : List Char
  unbroken : '\n' ∉ text

/-- A key and a value with the white space and the separator around them. -/
structure Assignment where
  margin : Margin
  key : String
  before : Blanks
  separator : Separator
  after : Blanks
  value : String

/-- The separator of an assignment with what follows it on the line. -/
def Assignment.tail (assignment : Assignment) : List Char :=
  assignment.separator.char :: (assignment.after.text ++ escape assignment.value.toList)

/-- An assignment as it is written on a line. -/
def Assignment.text (assignment : Assignment) : List Char :=
  assignment.margin.text ++ (escape assignment.key.toList ++ (assignment.before.text ++ assignment.tail))

/-- A line of a document. -/
inductive Line where
  | blank (margin : Margin)
  | comment (margin : Margin) (mark : CommentMark) (remark : Remark)
  | pair (assignment : Assignment)

namespace Line

/-- A line as it is written, without its ending. -/
def text : Line → List Char
  | .blank margin => margin.text
  | .comment margin mark remark => margin.text ++ mark.char :: remark.text
  | .pair assignment => assignment.text

/-- The key and the value on a line. -/
def pair? : Line → Option (String × String)
  | .pair assignment => some (assignment.key, assignment.value)
  | _ => none

/-- The entry that a line with a number gives. -/
def entry? (line : Line) (number : Nat) : Option Entry :=
  line.pair?.map fun (key, value) => ⟨number, key, value⟩

end Line

/-- The entries of lines that are numbered from some number on. -/
def entriesFrom (number : Nat) (lines : List Line) : List Entry :=
  (lines.zipIdx number).filterMap fun (line, number) => line.entry? number

/-- No lines give no entries. -/
@[simp] theorem entriesFrom_nil (number : Nat) : entriesFrom number [] = [] := rfl

/-- The entry of the first line comes before those of the rest, whose numbers are one more. -/
theorem entriesFrom_cons (number : Nat) (line : Line) (rest : List Line) :
    entriesFrom number (line :: rest) = (line.entry? number).toList ++ entriesFrom (number + 1) rest := by
  -- The first line may give no entry at all.
  rw [entriesFrom, List.zipIdx_cons, List.filterMap_cons]
  cases entry : line.entry? number <;> simp [entriesFrom, entry]

/-- The entries of lines are their pairs, wherever the numbers begin. -/
theorem map_entriesFrom (number : Nat) (lines : List Line) :
    ((entriesFrom number lines).map fun entry => (entry.key, entry.value)) = lines.filterMap Line.pair? := by
  -- The rest is numbered from one more on, so the number stays quantified over.
  induction lines generalizing number with
  | nil => rfl
  | cons line rest ih =>
    rw [entriesFrom_cons, List.map_append, ih]
    cases line <;> rfl

/-- What ends a line. -/
inductive Ending where
  | lineFeed
  | returnAndFeed

/-- The characters of an ending. -/
def Ending.text : Ending → List Char
  | .lineFeed => ['\n']
  | .returnAndFeed => ['\r', '\n']

/-- Lines with their endings, and a last line that may go without one. -/
structure Document where
  ended : List (Line × Ending)
  unended : Option Line

namespace Document

/-- The lines of a document. -/
def lines (document : Document) : List Line := document.ended.map Prod.fst ++ document.unended.toList

/-- The characters of a document. -/
def characters (document : Document) : List Char :=
  (document.ended.flatMap fun (line, ending) => line.text ++ ending.text) ++
    document.unended.toList.flatMap Line.text

/-- The text of a document. -/
def text (document : Document) : String := String.ofList document.characters

/-- The keys and values of a document in order. -/
def pairs (document : Document) : List (String × String) := document.lines.filterMap Line.pair?

/-- The entries of a document in order, each with the number of the line it is written on. -/
def entries (document : Document) : List Entry := entriesFrom 1 document.lines

/-- The document that writes each pair on a line of its own and nothing else. -/
def plain (pairs : List (String × String)) : Document where
  ended := pairs.map fun (key, value) =>
    (.pair ⟨⟨[], by simp, by simp⟩, key, ⟨[], by simp⟩, .equals, ⟨[], by simp⟩, value⟩, .lineFeed)
  unended := none

/-- That document holds the pairs that it is made of. -/
theorem pairs_plain (pairs : List (String × String)) : (plain pairs).pairs = pairs := by
  simp [Document.pairs, plain, lines, Line.pair?, List.filterMap_map, Function.comp_def]

end Document

end MessageCatalogue.Properties
