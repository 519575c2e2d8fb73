/-! Numbers are written with digits of a base, where letters of either case follow the ten figures. -/

namespace MessageCatalogue.Text

/-- The value of a digit in a base. -/
def digit? (base : Nat) (c : Char) : Option Nat :=
  -- Letters go on where the figures end, in either case.
  let value :=
    if '0' ≤ c ∧ c ≤ '9' then some (c.toNat - '0'.toNat)
    else if 'a' ≤ c ∧ c ≤ 'z' then some (c.toNat - 'a'.toNat + 10)
    else if 'A' ≤ c ∧ c ≤ 'Z' then some (c.toNat - 'A'.toNat + 10)
    else none
  value.filter (· < base)

/-- The number whose digits in a base continue a number read so far. -/
def numberFrom? (base read : Nat) : List Char → Option Nat
  -- An empty text adds nothing to the number.
  | [] => some read
  | c :: rest =>
    match digit? base c with
    | some digit => numberFrom? base (base * read + digit) rest
    | none => none

/-- The character whose code point is a number, which surrogates are not. -/
def charOf? (point : Nat) : Option Char :=
  if point.isValidChar then some (Char.ofNat point) else none

end MessageCatalogue.Text
