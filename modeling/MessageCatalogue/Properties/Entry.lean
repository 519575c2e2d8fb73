import MessageCatalogue.Properties.Escape

/-! A logical line holds a key and a value with a separator or blanks between them. -/

namespace MessageCatalogue.Properties

/-- The characters that separate a key from its value. -/
def isSeparator (c : Char) : Bool := c == '=' || c == ':'

/-- The characters that end a key and may surround a separator. -/
def isBlank (c : Char) : Bool := c == ' ' || c == '\t' || c == '\x0c'

/-- The raw key at the start of a logical line and the rest of the line. -/
def splitKey : List Char → List Char × List Char
  -- A character after a backslash belongs to the key whatever it is.
  | [] => ([], [])
  | '\\' :: c :: rest =>
    let (key, after) := splitKey rest
    ('\\' :: c :: key, after)
  | c :: rest =>
    if isSeparator c || isBlank c then ([], c :: rest)
    else
      let (key, after) := splitKey rest
      (c :: key, after)

/-- A line without the separator at its start. -/
def dropSeparator : List Char → List Char
  | [] => []
  | c :: rest => if isSeparator c then rest else c :: rest

/-- The raw value in what follows a raw key. -/
def rawValue (after : List Char) : List Char :=
  (dropSeparator (after.dropWhile isBlank)).dropWhile isBlank

/-- The raw key and the raw value of a logical line. -/
def splitEntry (line : List Char) : List Char × List Char :=
  let (key, after) := splitKey line
  (key, rawValue after)

/-- A key with its value and the number of the physical line it starts on. -/
structure Entry where
  line : Nat
  key : String
  value : String
deriving DecidableEq, Repr

/-- A malformed escape in the entry that starts on a line. -/
structure EntryError where
  line : Nat
  digits : String
deriving DecidableEq, Repr

/-- The account of a malformed escape. -/
def EntryError.detail (error : EntryError) : String :=
  s!"malformed \\uxxxx escape '\\u{error.digits}'"

/-- The account of a malformed escape with its line. -/
def EntryError.message (error : EntryError) : String := s!"line {error.line}: {error.detail}"

/-- The text of a raw key or value on a line. -/
def decodePart (line : Nat) (raw : List Char) : Except EntryError String :=
  match unescape raw with
  | .ok text => .ok (String.ofList text)
  | .error malformed => .error ⟨line, String.ofList malformed.digits⟩

/-- The entry of a logical line that starts on a physical line. -/
def readEntry (line : Nat) (logical : List Char) : Except EntryError Entry := do
  -- A malformed key is reported before a malformed value.
  let (rawKey, rawText) := splitEntry logical
  let key ← decodePart line rawKey
  let value ← decodePart line rawText
  return ⟨line, key, value⟩

end MessageCatalogue.Properties
