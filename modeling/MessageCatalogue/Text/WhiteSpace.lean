/-! Trimming follows the Unicode property White_Space, so every reader agrees on where its text begins. -/

namespace MessageCatalogue

/-- The characters that have the Unicode property White_Space. -/
def isWhiteSpace (c : Char) : Bool :=
  -- Six of them are ASCII, and the remaining nineteen lie beyond it.
  ('\t' ≤ c && c ≤ '\r') || c == ' ' || c == '\u0085' || c == '\u00a0' || c == '\u1680' ||
    ('\u2000' ≤ c && c ≤ '\u200a') || c == '\u2028' || c == '\u2029' || c == '\u202f' ||
    c == '\u205f' || c == '\u3000'

namespace Text

/-- The text from its first character that is not white space. -/
def trimStart (text : List Char) : List Char := text.dropWhile isWhiteSpace

/-- The text up to its last character that is not white space. -/
def trimEnd (text : List Char) : List Char := (text.reverse.dropWhile isWhiteSpace).reverse

/-- The text without white space around it. -/
def trim (text : List Char) : List Char := trimEnd (trimStart text)

/-- A string without white space around it. -/
def trimmed (text : String) : String := String.ofList (trim text.toList)

end Text

end MessageCatalogue
