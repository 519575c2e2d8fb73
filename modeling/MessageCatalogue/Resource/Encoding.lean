import MessageCatalogue.Text.Utf8

/-! Resource files hold text in one of two encodings. -/

namespace MessageCatalogue

/-- The encodings of resource files, of which UTF-8 is used unless another one is set. -/
inductive Encoding where
  | utf8
  | latin1
deriving DecidableEq, Repr, Inhabited

namespace Encoding

/-- The name under which an encoding is shown. -/
def name : Encoding → String
  | .utf8 => "utf-8"
  | .latin1 => "iso-8859-1"

/-- The encoding of a name in one of its accepted spellings. -/
def ofName? (name : String) : Option Encoding :=
  if name ∈ ["utf-8", "utf8", "UTF-8"] then some .utf8
  else if name ∈ ["iso-8859-1", "latin1", "ISO-8859-1"] then some .latin1
  else none

/-- The text that the bytes of a file hold. -/
def decode (encoding : Encoding) (bytes : ByteArray) : Except Utf8.Malformed String :=
  -- Every byte is a character of its own in ISO 8859-1, so only UTF-8 can be malformed.
  match encoding with
  | .utf8 => Utf8.decode bytes
  | .latin1 => .ok (String.ofList (bytes.toList.map fun byte => Char.ofNat byte.toNat))

end Encoding

end MessageCatalogue
