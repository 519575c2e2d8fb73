import MessageCatalogue.Settings.Toml.Reader
import MessageCatalogue.Settings.Value
import MessageCatalogue.Text.Digits

/-! Dates and times of day are written in digits of fixed width, alone or together, perhaps with a time zone. -/

namespace MessageCatalogue.Toml

/-- The number that some digits at the front write, if it lies between two bounds, and what follows them. -/
def digitsWithin? (width least greatest : Nat) (text : List Char) : Option (Nat × List Char) := do
  -- A number of fixed width needs all of its digits.
  let digits := text.take width
  if digits.length < width then none
  let value ← Text.numberFrom? 10 0 digits
  if least ≤ value ∧ value ≤ greatest then return (value, text.drop width) else none

/-- The number of days in a month of a year. -/
def daysIn (year month : Nat) : Nat :=
  -- A year is a leap year every fourth time, but only one in four of those that end a century.
  if month = 2 then
    if year % 4 = 0 ∧ (year % 0x64 ≠ 0 ∨ year % 0x190 = 0) then 0x1d else 0x1c
  else if month ∈ [4, 6, 9, 0xb] then 0x1e
  else 0x1f

/-- What follows a date at the front. -/
def afterDate? (text : List Char) : Option (List Char) := do
  -- The days depend on the month and the year.
  let (year, text) ← digitsWithin? 4 0 0x270f text
  let text ← ['-'].isPrefixOf? text
  let (month, text) ← digitsWithin? 2 1 0xc text
  let text ← ['-'].isPrefixOf? text
  let (_, text) ← digitsWithin? 2 1 (daysIn year month) text
  return text

/-- What follows the fraction of a second at the front, where there need not be one. -/
def afterFraction : List Char → List Char
  | '.' :: digit :: rest => if digit.isDigit then rest.dropWhile Char.isDigit else '.' :: digit :: rest
  | text => text

/-- What follows a time of day at the front, in which a minute may have a leap second. -/
def afterTime? (text : List Char) : Option (List Char) := do
  -- A fraction of a second is optional.
  let (_, text) ← digitsWithin? 2 0 0x17 text
  let text ← [':'].isPrefixOf? text
  let (_, text) ← digitsWithin? 2 0 0x3b text
  let text ← [':'].isPrefixOf? text
  let (_, text) ← digitsWithin? 2 0 0x3c text
  return afterFraction text

/-- What follows the distance of a time zone at the front. -/
def afterDistance? (text : List Char) : Option (List Char) := do
  -- A distance has hours and minutes, and the sign in front of it is taken already.
  let (_, text) ← digitsWithin? 2 0 0x17 text
  let text ← [':'].isPrefixOf? text
  let (_, text) ← digitsWithin? 2 0 0x3b text
  return text

/-- What follows a time zone at the front, where there need not be one. -/
def afterZone : List Char → List Char
  -- A distance that is no time is left to whatever comes next.
  | [] => []
  | mark :: rest =>
    if mark = 'Z' ∨ mark = 'z' then rest
    else if mark = '+' ∨ mark = '-' then (afterDistance? rest).getD (mark :: rest)
    else mark :: rest

/-- What follows a time of day with its zone after a date, where there need not be one. -/
def afterClock : List Char → List Char
  -- A date may stand without a time, even when a separator follows it.
  | [] => []
  | mark :: rest =>
    if mark = 'T' ∨ mark = 't' ∨ mark = ' ' then ((afterTime? rest).map afterZone).getD (mark :: rest)
    else mark :: rest

/-- What follows a date with or without a time at the front, or else a time of day. -/
def afterMoment? (text : List Char) : Option (List Char) :=
  ((afterDate? text).map afterClock).orElse fun _ => afterTime? text

/-- The key that marks a table as a moment in time. -/
def momentKey : String := "$__toml_private_datetime"

namespace Reader

/-- A moment in time, if there is one at the front, as a table of its text under the key for moments. -/
def moment? : Reader (Option SettingValue) := fun text =>
  -- The moment is kept as it was written.
  match afterMoment? text with
  | some rest =>
    let written := String.ofList (text.take (text.length - rest.length))
    some (some (.table [(momentKey, .text written)]), rest)
  | none => some (none, text)

end Reader

end MessageCatalogue.Toml
