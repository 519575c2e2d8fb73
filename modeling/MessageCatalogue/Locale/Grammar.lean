import MessageCatalogue.Distinct
import MessageCatalogue.Error
import MessageCatalogue.Text.Pieces
import MessageCatalogue.Text.WhiteSpace

/-! Locales are read from text whose parts stand in a fixed order, in any case and with either separator. -/

namespace MessageCatalogue.Locale

/-- Why a text is not a locale. -/
inductive Defect where
  | empty
  | badLanguage
  | badSubtag
deriving DecidableEq, Repr

/-- The account of a text that is not a locale. -/
def Defect.message : Defect → String
  | .empty => "locale must not be empty"
  | .badLanguage => "Parser error: The given language subtag is invalid"
  | .badSubtag => "Parser error: Invalid subtag"

/-- A language has two, three or five to eight letters, and one name stands for the undetermined one. -/
def language? (subtag : List Char) : Option String :=
  -- Four letters are left to scripts.
  let lower := subtag.map Char.toLower
  if 2 ≤ subtag.length ∧ subtag.length ≤ 8 ∧ subtag.length ≠ 4 ∧ subtag.all Char.isAlpha then
    some (if lower = ['u', 'n', 'd'] then "" else String.ofList lower)
  else none

/-- A script has four letters, of which the first is capital. -/
def script? : List Char → Option String
  -- The first letter is made a capital and the others small, however they were written.
  | [a, b, c, d] =>
    if [a, b, c, d].all Char.isAlpha then some (String.ofList [a.toUpper, b.toLower, c.toLower, d.toLower])
    else none
  | _ => none

/-- A region has two letters, which are capital, or three digits. -/
def region? (subtag : List Char) : Option String :=
  if subtag.length = 2 ∧ subtag.all Char.isAlpha then some (String.ofList (subtag.map Char.toUpper))
  else if subtag.length = 3 ∧ subtag.all Char.isDigit then some (String.ofList subtag)
  else none

/-- Whether a character may stand in a locale at all, which is any of ASCII but the null character. -/
def isPlain (c : Char) : Bool := 0 < c.toNat && c.toNat < 128

/-- Whether four characters form a variant, by a digit in front or by letters and digits behind. -/
def isShortVariant : List Char → Bool
  | first :: rest => first.isDigit || rest.all Char.isAlphanum
  | [] => false

/-- A variant has five to eight letters or digits, or four characters of their own shape. -/
def variant? (subtag : List Char) : Option String :=
  -- Neither shape depends on the case, which is dropped only in the end.
  if subtag.all isPlain ∧ (subtag.length = 4 ∧ isShortVariant subtag ∨
      5 ≤ subtag.length ∧ subtag.length ≤ 8 ∧ subtag.all Char.isAlphanum) then
    some (String.ofList (subtag.map Char.toLower))
  else none

/-- The value of the first subtag, if it fits, and the subtags after it. -/
def takeFitting (fits? : List Char → Option String) :
    List (List Char) → Option String × List (List Char)
  -- A subtag that does not fit is left for the next part.
  | [] => (none, [])
  | subtag :: rest =>
    match fits? subtag with
    | some value => (some value, rest)
    | none => (none, subtag :: rest)

/-- The locale of some subtags, whose variants are put in order without repeats. -/
def ofSubtags : List (List Char) → Except Defect Locale
  -- A script and a region are taken only in their places, and what remains must be variants.
  | [] => .error .badLanguage
  | first :: rest =>
    match language? first with
    | none => .error .badLanguage
    | some language =>
      let (script, rest) := takeFitting script? rest
      let (region, rest) := takeFitting region? rest
      match rest.mapM variant? with
      | some variants => .ok ⟨language, script, region, increasing variants⟩
      | none => .error .badSubtag

/-- The subtags of a text, which hyphens or underscores separate. -/
def splitSubtags (text : List Char) : List (List Char) :=
  Text.pieces ['-'] (text.map fun c => if c = '_' then '-' else c)

/-- The locale that a text names, apart from white space around it. -/
def parse (text : String) : Except MessageError Locale :=
  -- White space at the ends is dropped before anything is read, and errors quote what is left.
  let trimmed := Text.trim text.toList
  if trimmed.isEmpty then .error (.invalidLocale "" Defect.empty.message)
  else
    match ofSubtags (splitSubtags trimmed) with
    | .ok locale => .ok locale
    | .error defect => .error (.invalidLocale (String.ofList trimmed) defect.message)

/-- The locales that texts name, unless one of them names none. -/
def parseAll : List String → Except MessageError (List Locale)
  -- The first text that names no locale decides the error.
  | [] => .ok []
  | text :: rest => do
    let locale ← parse text
    let locales ← parseAll rest
    return locale :: locales

end MessageCatalogue.Locale
