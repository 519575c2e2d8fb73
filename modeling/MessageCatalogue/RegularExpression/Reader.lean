import MessageCatalogue.RegularExpression.Basic
import MessageCatalogue.Text.Alphanumeric
import MessageCatalogue.Text.Digits
import MessageCatalogue.Text.Pieces
import MessageCatalogue.Text.WhiteSpace

/-! A regular expression is read from its text, where white space and comments may count for nothing. -/

namespace MessageCatalogue.RegularExpression

/-- The text after white space and comments, which last to the end of their line. -/
def skipSpacing (inComment : Bool) : List Char → List Char
  | [] => []
  -- The end of a line also ends a comment.
  | c :: rest =>
    if inComment then skipSpacing (c != '\n') rest
    else if c = '#' then skipSpacing true rest
    else if isWhiteSpace c then skipSpacing false rest
    else c :: rest

/-- The text from its next character that counts. -/
def fromNext (spaced : Bool) (text : List Char) : List Char :=
  if spaced then skipSpacing false text else text

/-- The next character, which is looked for behind the mark of a comment and not behind the comment. -/
def lookAhead? (spaced : Bool) (text : List Char) : Option Char :=
  -- Where there is nothing but spacing, the first character of it will do.
  if ! spaced then text.head?
  else
    let rest := text.dropWhile isWhiteSpace
    let rest := ((['#'].isPrefixOf? rest).map (·.dropWhile isWhiteSpace)).getD rest
    rest.head? <|> text.head?

/-- The number that hexadecimal digits write after others, and what follows them. -/
def hexNumber? (spaced : Bool) : Nat → Nat → List Char → Option (Nat × List Char)
  -- Where spacing is allowed it may stand between the digits too.
  | 0, read, text => some (read, fromNext spaced text)
  | width + 1, read, text =>
    match fromNext spaced text with
    | [] => none
    | c :: rest => (Text.digit? 0x10 c).bind fun digit => hexNumber? spaced width (0x10 * read + digit) rest

/-- The character of a code point in hexadecimal digits, and what follows them. -/
def hexLiteral? (spaced : Bool) (width : Nat) (text : List Char) : Option (Primitive × List Char) := do
  let (point, after) ← hexNumber? spaced width 0 text
  let c ← Text.charOf? point
  return (.literal ⟨c, width = 2⟩, after)

/-- The character that a letter after a backslash stands for. -/
def control? (letter : Char) : Option Char :=
  -- Other letters have no character of their own.
  if letter = 'a' then some '\x07'
  else if letter = 'f' then some '\x0c'
  else if letter = 't' then some '\t'
  else if letter = 'n' then some '\n'
  else if letter = 'r' then some '\r'
  else if letter = 'v' then some '\x0b'
  else none

/-- What a character after a backslash means, of which letters and figures never mean themselves. -/
def escape? (c : Char) : Option Primitive :=
  -- Letters and figures without a meaning are kept for later use, so they are errors.
  if c ∈ ['d', 's', 'w'] then some (.shorthand false)
  else if c ∈ ['D', 'S', 'W'] then some (.shorthand true)
  else if c ∈ ['A', 'z'] then some .edge
  else if c ∈ ['b', 'B', '<', '>'] then some .wordBoundary
  else if c.toNat < 0x80 ∧ ¬ c.isAlphanum then some (.literal ⟨c, false⟩)
  else (control? c).map (.literal ⟨·, false⟩)

/-- What a backslash introduces, and what follows that. -/
def escaped? (spaced : Bool) : List Char → Option (Primitive × List Char)
  -- The letter says how many digits there must be, unless they stand in braces.
  | [] => none
  | 'x' :: rest => hexLiteral? spaced 2 rest
  | 'u' :: rest => hexLiteral? spaced 4 rest
  | 'U' :: rest => hexLiteral? spaced 8 rest
  | c :: rest => (escape? c).map (·, rest)

/-- The primitive at the front of a text, and what follows it. -/
def primitive? (spaced : Bool) : List Char → Option (Primitive × List Char)
  -- Parentheses, brackets and repetitions are told apart before this is asked.
  | [] => none
  | '\\' :: rest => escaped? spaced rest
  | '.' :: rest => some (.anyCharacter, rest)
  | '^' :: rest => some (.edge, rest)
  | '$' :: rest => some (.edge, rest)
  | c :: rest => some (.literal ⟨c, false⟩, rest)

/-! ## Sets of characters -/

/-- The primitive at the front of a text within brackets, and what follows it. -/
def member? (spaced : Bool) : List Char → Option (Primitive × List Char)
  | [] => none
  | '\\' :: rest => escaped? spaced rest
  | c :: rest => some (.literal ⟨c, false⟩, rest)

/-- The set of a primitive. -/
def CharacterSet.ofPrimitive? : Primitive → Option CharacterSet
  | .literal only => some (.literal only)
  | .shorthand isNegated => some (.shorthand isNegated)
  | _ => none

/-- The range between two primitives. -/
def CharacterSet.rangeOf? : Primitive → Primitive → Option CharacterSet
  | .literal first, .literal last => if first.value ≤ last.value then some (.range first last) else none
  | _, _ => none

/-- The range or single member at the front of a text within brackets, and what follows it. -/
def range? (spaced : Bool) (text : List Char) : Option (CharacterSet × List Char) := do
  -- A hyphen before a closing bracket or another hyphen makes no range.
  let (first, after) ← member? spaced text
  match fromNext spaced after with
  | '-' :: rest =>
    if lookAhead? spaced rest = some ']' ∨ lookAhead? spaced rest = some '-' then
      return (← CharacterSet.ofPrimitive? first, '-' :: rest)
    else
      let (last, after) ← member? spaced (fromNext spaced rest)
      return (← CharacterSet.rangeOf? first last, after)
  | after => return (← CharacterSet.ofPrimitive? first, after)

/-- The names of the sets that are written between colons. -/
def setNames : List String :=
  ["alnum", "alpha", "ascii", "blank", "cntrl", "digit", "graph", "lower", "print", "punct", "space",
    "upper", "word", "xdigit"]

/-- The set that is named between colons and brackets, of which the first is taken, and what follows it. -/
def namedSet? (text : List Char) : Option (CharacterSet × List Char) := do
  -- The name must be one that is known, or else the bracket opens an ordinary set.
  let inner ← [':'].isPrefixOf? text
  let unsigned := (['^'].isPrefixOf? inner).getD inner
  let name := unsigned.takeWhile (· ≠ ':')
  let after ← [':', ']'].isPrefixOf? (unsigned.drop name.length)
  if String.ofList name ∈ setNames then return (.named (inner.head? = some '^'), after) else none

/-- What has been read of a set whose bracket is open, with the left side of an operation and the members last first. -/
structure OpenSet where
  isNegated : Bool
  isFresh : Bool
  left : Option CharacterSet
  members : List CharacterSet

namespace OpenSet

/-- A set after its opening bracket, with the text of its members. -/
def start (spaced : Bool) (text : List Char) : OpenSet × List Char :=
  match fromNext spaced text with
  | '^' :: rest => (⟨true, true, none, []⟩, rest)
  | rest => (⟨false, true, none, []⟩, rest)

/-- A set with one more member. -/
def add (opened : OpenSet) (member : CharacterSet) : OpenSet :=
  { opened with isFresh := false, members := member :: opened.members }

/-- A set with one more of the hyphens at its start. -/
def addHyphen (opened : OpenSet) : OpenSet :=
  { opened with members := .literal ⟨'-', false⟩ :: opened.members }

/-- The members so far, on the right side of an operation if there is one. -/
def value (opened : OpenSet) : CharacterSet :=
  -- Members were collected in reverse.
  let right := match opened.members with
    | [] => .nothing
    | [member] => member
    | members => .union members.reverse
  match opened.left with
  | none => right
  | some left => .operation left right

/-- A set whose members so far are the left side of an operation. -/
def operate (opened : OpenSet) : OpenSet :=
  { opened with isFresh := false, left := some opened.value, members := [] }

end OpenSet

/-- The set up to its closing bracket and what follows that, read with a budget for the steps that it may take. -/
def characterSet? (spaced : Bool) : Nat → OpenSet → List Char → Option (CharacterSet × List Char)
  -- At the start hyphens and a closing bracket mean themselves.
  | 0, _, _ => none
  | budget + 1, opened, text =>
    match fromNext spaced text with
    | [] => none
    | c :: rest =>
      if c = '-' ∧ opened.isFresh then characterSet? spaced budget opened.addHyphen rest
      else if c = ']' then
        if opened.isFresh ∧ opened.members.isEmpty then
          characterSet? spaced budget (opened.add (.literal ⟨']', false⟩)) rest
        else some (.bracketed opened.isNegated opened.value, rest)
      else if c = '[' then
        match namedSet? rest with
        | some (member, after) => characterSet? spaced budget (opened.add member) after
        | none =>
          let (inner, text) := OpenSet.start spaced rest
          (characterSet? spaced budget inner text).bind fun (member, after) =>
            characterSet? spaced budget (opened.add member) after
      else if c ∈ ['&', '-', '~'] ∧ rest.head? = some c then
        characterSet? spaced budget opened.operate (rest.drop 1)
      else
        (range? spaced (c :: rest)).bind fun (member, after) =>
          characterSet? spaced budget (opened.add member) after

/-! ## Groups -/

/-- What a parenthesis opens, which is a group unless there are flags alone in it. -/
inductive Opening where
  | flags (change : FlagChange)
  | group (name : Option (List Char)) (change : FlagChange)

/-- The change that letters write, where those after a hyphen are switched off. -/
def flagChange? (letters : List Char) : Option FlagChange := do
  -- No letter may stand twice, not even once before the hyphen and once behind it.
  let (on, off) ← match Text.cutFirst? ['-'] letters with
    | none => some (letters, [])
    | some (on, off) => if off.isEmpty then none else some (on, off)
  let change : FlagChange := ⟨← on.mapM Flag.ofLetter?, ← off.mapM Flag.ofLetter?⟩
  if (change.on ++ change.off).Nodup then some change else none

/-- Whether a group can have a name. -/
def isGroupName : List Char → Bool
  | [] => false
  -- A digit may not stand first.
  | c :: rest =>
    (c == '_' || Text.isAlphabetic c) &&
      rest.all fun c => c == '_' || c == '.' || c == '[' || c == ']' || Text.isAlphanumeric c

/-- The opening of a group with a name, and what follows it. -/
def namedOpening? (text : List Char) : Option (Opening × List Char) :=
  -- Without the closing bracket there is no name.
  let name := text.takeWhile (· ≠ '>')
  if isGroupName name then
    (['>'].isPrefixOf? (text.drop name.length)).map (.group (some name) .none, ·)
  else none

/-- What stands right after a parenthesis, and what follows that. -/
def opening? : List Char → Option (Opening × List Char)
  -- The longer opening of a name is tried first, since the others begin like it.
  | '?' :: 'P' :: '<' :: rest => namedOpening? rest
  | '?' :: '<' :: rest => namedOpening? rest
  | '?' :: rest => do
    let letters := rest.takeWhile fun c => c ≠ ':' ∧ c ≠ ')'
    match rest.drop letters.length with
    | ':' :: after => return (.group none (← flagChange? letters), after)
    | ')' :: after => if letters.isEmpty then none else return (.flags (← flagChange? letters), after)
    | _ => none
  | text => some (.group none .none, text)

/-! ## Expressions -/

/-- What has been read of an expression, with its branches and the parts of the last one last first. -/
structure Unfinished where
  spaced : Bool
  branches : List RegularExpression
  parts : List RegularExpression

namespace Unfinished

/-- Nothing read yet. -/
def start (spaced : Bool) : Unfinished := ⟨spaced, [], []⟩

/-- One more part. -/
def add (read : Unfinished) (part : RegularExpression) : Unfinished := { read with parts := part :: read.parts }

/-- One more branch, which is still empty. -/
def branch (read : Unfinished) : Unfinished :=
  { read with branches := ofParts read.parts.reverse :: read.branches, parts := [] }

/-- The last part repeated, if there is one to repeat. -/
def repeatLast? (read : Unfinished) : Option Unfinished :=
  match read.parts with
  | [] => none
  | part :: others => if part.isRepeatable then some { read with parts := .repetition part :: others } else none

/-- The flags that a change leads to from here on. -/
def switch (read : Unfinished) (change : FlagChange) : Unfinished :=
  { read.add (.flags change) with spaced := change.after .spaced read.spaced }

/-- The expression with all of its branches. -/
def finish (read : Unfinished) : RegularExpression := ofBranches read.branch.branches.reverse

end Unfinished

/-- The expression up to a closing parenthesis or the end, read with a budget for the steps that it may take. -/
def expression? : Nat → Unfinished → List Char → Option (RegularExpression × List Char)
  -- A number of repetitions between braces is not supported, nor is a brace that means itself.
  | 0, _, _ => none
  | budget + 1, read, text =>
    match fromNext read.spaced text with
    | [] => some (read.finish, [])
    | c :: rest =>
      if c = ')' then some (read.finish, c :: rest)
      else if c = '|' then expression? budget read.branch rest
      else if c = '(' then
        match opening? (fromNext read.spaced rest) with
        | none => none
        | some (.flags change, after) => expression? budget (read.switch change) after
        | some (.group name change, after) =>
          let inside := Unfinished.start (change.after .spaced read.spaced)
          (expression? budget inside after).bind fun (inner, after) =>
            ([')'].isPrefixOf? after).bind fun after =>
              expression? budget (read.add (.group name change inner)) after
      else if c = '[' then
        let (opened, members) := OpenSet.start read.spaced rest
        (characterSet? read.spaced budget opened members).bind fun (members, after) =>
          expression? budget (read.add (.characters members)) after
      else if c ∈ ['*', '+', '?'] then
        read.repeatLast?.bind fun read => expression? budget read ((['?'].isPrefixOf? rest).getD rest)
      else if c = '\x7b' then none
      else
        (primitive? read.spaced (c :: rest)).bind fun (part, after) =>
          expression? budget (read.add (.primitive part)) after

/-- The expression that a text writes. -/
def ofText? (text : List Char) : Option RegularExpression :=
  -- Every step takes a character, so the length of the text is budget enough.
  match expression? (text.length + 1) (Unfinished.start false) text with
  | some (expression, []) => some expression
  | _ => none

end MessageCatalogue.RegularExpression
