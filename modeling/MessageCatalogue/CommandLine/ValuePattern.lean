import MessageCatalogue.RegularExpression.Support

/-! A pattern for the values of a field is a number or a regular expression that can be matched. -/

namespace MessageCatalogue.ValuePattern

/-- Whether a number with a plus sign, which would be no regular expression, stands at the front. -/
def isPositiveNumber : List Char → Bool
  | '+' :: text =>
    -- A plus sign cannot start a regular expression, but floating-point numbers are tried first.
    let whole := text.takeWhile Char.isDigit
    let after := text.drop whole.length
    let fraction := ((['.'].isPrefixOf? after).getD []).takeWhile Char.isDigit
    let after := if after.head? = some '.' then after.drop (fraction.length + 1) else after
    let exponent :=
      match after with
      | mark :: sign :: rest =>
        let figures := if sign = '+' ∨ sign = '-' then rest else sign :: rest
        mark.toLower == 'e' && ! figures.isEmpty && figures.all Char.isDigit
      | _ => after.isEmpty
    String.ofList (text.map Char.toLower) ∈ ["inf", "infinity", "nan"] ||
      ((! whole.isEmpty || ! fraction.isEmpty) && exponent)
  | _ => false

/-- Whether a text is a pattern. -/
def isPattern (text : List Char) : Bool :=
  isPositiveNumber text || ((RegularExpression.ofText? text).map (·.isSupported)).getD false

end MessageCatalogue.ValuePattern
