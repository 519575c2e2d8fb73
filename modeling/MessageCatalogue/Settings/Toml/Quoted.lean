import MessageCatalogue.Settings.Toml.Reader
import MessageCatalogue.Text.Digits

/-! Quoted text stands in single or double quotes, and between three of them it may span lines. -/

namespace MessageCatalogue.Toml

/-- The character that a letter after a backslash stands for. -/
def escaped? (c : Char) : Option Char :=
  -- Other letters are errors behind a backslash.
  if c = '"' ∨ c = '\\' then some c
  else if c = 'b' then some '\x08'
  else if c = 't' then some '\t'
  else if c = 'n' then some '\n'
  else if c = 'f' then some '\x0c'
  else if c = 'r' then some '\r'
  else none

/-- The character whose code point has some hexadecimal digits. -/
def codePoint? (digits : List Char) : Option Char := (Text.numberFrom? 16 0 digits).bind Text.charOf?

/-- A character, if there is one, before the text that the rest of a quotation gives. -/
def cons? (c : Option Char) (rest : Option (List Char × List Char)) : Option (List Char × List Char) :=
  c.bind fun c => rest.map fun (text, after) => (c :: text, after)

/-- The text up to a closing double quote and what comes after it. -/
def basic : List Char → Option (List Char × List Char)
  -- Code points need all of their digits, so their escapes come before those of one letter.
  | [] => none
  | '"' :: rest => some ([], rest)
  | '\\' :: 'u' :: a :: b :: c :: d :: rest => cons? (codePoint? [a, b, c, d]) (basic rest)
  | '\\' :: 'U' :: a :: b :: c :: d :: e :: f :: g :: h :: rest =>
    cons? (codePoint? [a, b, c, d, e, f, g, h]) (basic rest)
  | '\\' :: c :: rest => cons? (escaped? c) (basic rest)
  | c :: rest => if isPlain c then cons? c (basic rest) else none

/-- Whether only blanks stand before the next line ending. -/
def endsLine (text : List Char) : Bool :=
  -- The end of the text is no line ending.
  match text.dropWhile isBlank with
  | '\n' :: _ => true
  | '\r' :: '\n' :: _ => true
  | _ => false

/-- The text up to three closing double quotes and what comes after them. -/
def basicLines (folding : Bool) : List Char → Option (List Char × List Char)
  -- A backslash before a line ending folds the blanks and line endings that follow it.
  | [] => none
  | '"' :: '"' :: '"' :: '"' :: '"' :: rest => some (['"', '"'], rest)
  | '"' :: '"' :: '"' :: '"' :: rest => some (['"'], rest)
  | '"' :: '"' :: '"' :: rest => some ([], rest)
  | '\\' :: 'u' :: a :: b :: c :: d :: rest =>
    cons? (codePoint? [a, b, c, d]) (basicLines false rest)
  | '\\' :: 'U' :: a :: b :: c :: d :: e :: f :: g :: h :: rest =>
    cons? (codePoint? [a, b, c, d, e, f, g, h]) (basicLines false rest)
  | '\r' :: '\n' :: rest => if folding then basicLines true rest else cons? '\n' (basicLines false rest)
  | '\n' :: rest => if folding then basicLines true rest else cons? '\n' (basicLines false rest)
  | '\\' :: c :: rest =>
    if endsLine (c :: rest) then basicLines true (c :: rest)
    else cons? (escaped? c) (basicLines false rest)
  | c :: rest =>
    if folding ∧ isBlank c then basicLines true rest
    else if isPlain c then cons? c (basicLines false rest)
    else none

/-- The text up to a closing single quote and what comes after it. -/
def literal : List Char → Option (List Char × List Char)
  | [] => none
  | '\'' :: rest => some ([], rest)
  | c :: rest => if isPlain c then cons? c (literal rest) else none

/-- The text up to three closing single quotes and what comes after them. -/
def literalLines : List Char → Option (List Char × List Char)
  -- Up to two quotes may stand right before the closing ones and belong to the text.
  | [] => none
  | '\'' :: '\'' :: '\'' :: '\'' :: '\'' :: rest => some (['\'', '\''], rest)
  | '\'' :: '\'' :: '\'' :: '\'' :: rest => some (['\''], rest)
  | '\'' :: '\'' :: '\'' :: rest => some ([], rest)
  | '\r' :: '\n' :: rest => cons? '\n' (literalLines rest)
  | '\n' :: rest => cons? '\n' (literalLines rest)
  | c :: rest => if isPlain c then cons? c (literalLines rest) else none

/-- A text without the line ending at its start. -/
def dropLineEnd : List Char → List Char
  | '\n' :: rest => rest
  | '\r' :: '\n' :: rest => rest
  | text => text

namespace Reader

/-- Quoted text on one line, if there is a quote at the front. -/
def quotedLine? : Reader (Option String) := do
  if ← accept ['"'] then return some (String.ofList (← (basic : Reader (List Char))))
  else if ← accept ['\''] then return some (String.ofList (← (literal : Reader (List Char))))
  else return none

/-- Quoted text on one line or several, if there is a quote at the front. -/
def quoted? : Reader (Option String) := do
  -- A line ending right after three opening quotes is not part of the text.
  if ← accept ['"', '"', '"'] then
    modify dropLineEnd
    return some (String.ofList (← (basicLines false : Reader (List Char))))
  else if ← accept ['\'', '\'', '\''] then
    modify dropLineEnd
    return some (String.ofList (← (literalLines : Reader (List Char))))
  else quotedLine?

end Reader

end MessageCatalogue.Toml
