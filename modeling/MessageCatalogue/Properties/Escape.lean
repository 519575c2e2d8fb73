import MessageCatalogue.Text.Digits

/-! Escapes in keys and values stand for single characters, among them any character by its code point. -/

namespace MessageCatalogue.Properties

/-- The escape for a code point whose digits are missing or denote no character. -/
structure MalformedEscape where
  digits : List Char
deriving DecidableEq, Repr

/-- The number written with hexadecimal digits, at least one of them, after an optional plus sign. -/
def hexNumber? : List Char → Option Nat
  -- A sign without digits writes no number, and minus signs are not known at all.
  | [] => none
  | ['+'] => none
  | '+' :: digits => Text.numberFrom? 16 0 digits
  | digits => Text.numberFrom? 16 0 digits

/-- The character whose code point is written with hexadecimal digits. -/
def codePoint? (digits : List Char) : Option Char :=
  -- Surrogate code points denote no character.
  (hexNumber? digits).bind Text.charOf?

/-- The character that an escape stands for when its letter names no code point. -/
def escapedChar (c : Char) : Char :=
  -- A backslash in front of any other character is dropped.
  if c = 't' then '\t'
  else if c = 'n' then '\n'
  else if c = 'r' then '\r'
  else if c = 'f' then '\x0c'
  else c

/-- The text that a raw key or value stands for. -/
def unescape : List Char → Except MalformedEscape (List Char)
  -- A code point takes four characters, and a backslash that ends the text stands for nothing.
  | [] => .ok []
  | '\\' :: 'u' :: a :: b :: c :: d :: rest =>
    match codePoint? [a, b, c, d] with
    | some point => (unescape rest).map (point :: ·)
    | none => .error ⟨[a, b, c, d]⟩
  | '\\' :: 'u' :: digits => .error ⟨digits⟩
  | '\\' :: c :: rest => (unescape rest).map (escapedChar c :: ·)
  | ['\\'] => .ok []
  | c :: rest => (unescape rest).map (c :: ·)

end MessageCatalogue.Properties
