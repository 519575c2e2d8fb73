import MessageCatalogue.Settings.Toml.Reader
import MessageCatalogue.Settings.Value
import MessageCatalogue.Text.Digits
import MessageCatalogue.Text.Pieces

/-! Unquoted values are flags, integers in one of four bases, and decimals with a fraction or an exponent. -/

namespace MessageCatalogue.Toml

/-- The digits of a text in a base, which underscores may separate into groups. -/
def groupedDigits? (base : Nat) (text : List Char) : Option (List Char) :=
  -- Underscores stand between digits only, so no group is empty.
  let groups := Text.pieces ['_'] text
  if groups.all fun group => !group.isEmpty && group.all fun c => (Text.digit? base c).isSome then
    some groups.flatten
  else none

/-- The figures of a whole number, of which only a lone zero may come first. -/
def wholeFigures? (text : List Char) : Option (List Char) :=
  (groupedDigits? 10 text).filter fun figures => figures.length = 1 || figures.head? ≠ some '0'

/-- Whether a number is negative by the sign at its start, and what follows the sign. -/
def takeSign : List Char → Bool × List Char
  | '-' :: rest => (true, rest)
  | '+' :: rest => (false, rest)
  | text => (false, text)

/-- An integer, which must have a place among the signed words of 64 bits. -/
def boundedInteger? (value : Int) : Option SettingValue :=
  if -0x8000000000000000 ≤ value ∧ value < 0x8000000000000000 then some (.integer value) else none

/-- The integer of some digits in a base. -/
def unsignedInteger? (base : Nat) (text : List Char) : Option SettingValue := do
  let digits ← groupedDigits? base text
  let value ← Text.numberFrom? base 0 digits
  boundedInteger? value

/-- The integer that a text writes, where a base other than ten is marked and takes no sign. -/
def integer? : List Char → Option SettingValue
  -- A sign in front of a marked base leaves nothing that is a number.
  | '0' :: 'x' :: digits => unsignedInteger? 16 digits
  | '0' :: 'o' :: digits => unsignedInteger? 8 digits
  | '0' :: 'b' :: digits => unsignedInteger? 2 digits
  | text => do
    let (isNegative, digits) := takeSign text
    let figures ← wholeFigures? digits
    let value ← Text.numberFrom? 10 0 figures
    boundedInteger? (if isNegative then -value else value)

/-- The parts of a decimal, of which the fraction or the exponent may be missing. -/
structure DecimalParts where
  isNegative : Bool
  whole : List Char
  fraction : Option (List Char)
  exponent : Option (List Char)

/-- The parts of a text that is written like a decimal. -/
def decimalParts (text : List Char) : DecimalParts :=
  -- An exponent follows its mark, and the point belongs to what stands before the mark.
  let (isNegative, unsigned) := takeSign text
  let (mantissa, exponent) :=
    match Text.cutFirst? ['e'] (unsigned.map fun c => if c = 'E' then 'e' else c) with
    | some (before, after) => (before, some after)
    | none => (unsigned, none)
  match Text.cutFirst? ['.'] mantissa with
  | some (whole, fraction) => ⟨isNegative, whole, some fraction, exponent⟩
  | none => ⟨isNegative, mantissa, none, exponent⟩

/-- The value of an exponent, which may have a sign and leading zeros. -/
def exponentValue? (text : List Char) : Option Int := do
  -- The figures of an exponent may begin with zeros, unlike those of other numbers.
  let (isNegative, digits) := takeSign text
  let figures ← groupedDigits? 10 digits
  let value ← Text.numberFrom? 10 0 figures
  return if isNegative then -value else value

/-- Whether some figures with a power of ten stay below the values that round beyond double precision. -/
def isFinite (figures : List Char) (power : Int) : Bool :=
  -- The number of significant figures settles all but the values next to the bound.
  let significant := figures.dropWhile (· == '0')
  let size := significant.length + power
  match Text.numberFrom? 10 0 significant with
  | none => false
  | some value =>
    let bound := Nat.pow 2 1024 - Nat.pow 2 970
    if value = 0 ∨ size < 309 then true
    else if 309 < size then false
    else value * Nat.pow 10 power.toNat < bound * Nat.pow 10 (-power).toNat

/-- The decimal that a text writes, which is finite unless it is negative. -/
def decimal? (text : List Char) : Option SettingValue := do
  -- Without a fraction or an exponent the text would be an integer.
  let parts := decimalParts text
  if parts.fraction.isNone ∧ parts.exponent.isNone then none
  let whole ← wholeFigures? parts.whole
  let fraction ← (parts.fraction.map (groupedDigits? 10)).getD (some [])
  let exponent ← (parts.exponent.map exponentValue?).getD (some 0)
  if parts.isNegative || isFinite (whole ++ fraction) (exponent - fraction.length) then
    return .decimal (String.ofList text)
  else none

/-- The value that an unquoted word writes. -/
def word? (word : List Char) : Option SettingValue :=
  -- A word in which no number can be read is an error.
  let text := String.ofList word
  if text = "true" then some (.flag true)
  else if text = "false" then some (.flag false)
  else if text ∈ ["inf", "+inf", "-inf", "nan", "+nan", "-nan"] then some (.decimal text)
  else (integer? word).orElse fun _ => decimal? word

/-- The characters of unquoted words. -/
def isWordCharacter (c : Char) : Bool := c.isAlphanum || c == '_' || c == '+' || c == '-' || c == '.'

namespace Reader

/-- The value of the unquoted word at the front. -/
def word : Reader SettingValue := do
  let word ← takeWhile isWordCharacter
  word? word

end Reader

end MessageCatalogue.Toml
