/-! UTF-8 decoding accepts exactly the encodings of text and locates the first malformed sequence otherwise. -/

namespace MessageCatalogue.Utf8

/-- Where bytes stop being UTF-8, with the length of the malformed sequence unless the bytes end inside it. -/
structure Malformed where
  index : Nat
  length : Option Nat
deriving DecidableEq, Repr

/-- The account of a malformed sequence. -/
def Malformed.message (malformed : Malformed) : String :=
  match malformed.length with
  | some length => s!"invalid utf-8 sequence of {length} bytes from index {malformed.index}"
  | none => s!"incomplete utf-8 byte sequence from index {malformed.index}"

/-- An inclusive range of bytes. -/
structure ByteRange where
  first : UInt8
  last : UInt8
deriving DecidableEq, Repr

/-- Whether a byte lies in a range. -/
def ByteRange.holds (range : ByteRange) (byte : UInt8) : Bool := range.first ≤ byte && byte ≤ range.last

/-- The bytes that may follow a lead byte, or nothing when no sequence begins with it. -/
def following? (lead : UInt8) : Option (List ByteRange) :=
  -- Narrowed second bytes keep out long forms, surrogates and values past the last code point.
  let any : ByteRange := ⟨0x80, 0xbf⟩
  if lead ≤ 0x7f then some []
  else if lead < 0xc2 then none
  else if lead ≤ 0xdf then some [any]
  else if lead = 0xe0 then some [⟨0xa0, 0xbf⟩, any]
  else if lead = 0xed then some [⟨0x80, 0x9f⟩, any]
  else if lead ≤ 0xef then some [any, any]
  else if lead = 0xf0 then some [⟨0x90, 0xbf⟩, any, any]
  else if lead ≤ 0xf3 then some [any, any, any]
  else if lead = 0xf4 then some [⟨0x80, 0x8f⟩, any, any]
  else none

/-- The first malformed sequence at or after an open one that began at an index and has read some bytes. -/
def locate (start read : Nat) : List ByteRange → List UInt8 → Malformed
  -- A byte out of range ends the open sequence at the bytes read so far.
  | _, [] => ⟨start, none⟩
  | range :: pending, byte :: rest =>
    if range.holds byte then locate start (read + 1) pending rest else ⟨start, some read⟩
  | [], lead :: rest =>
    match following? lead with
    | some pending => locate (start + read) 1 pending rest
    | none => ⟨start + read, some 1⟩

/-- The text that some bytes encode, or the place where they stop being UTF-8. -/
def decode (bytes : ByteArray) : Except Malformed String :=
  match String.fromUTF8? bytes with
  | some text => .ok text
  | none => .error (locate 0 0 [] bytes.toList)

end MessageCatalogue.Utf8
