import MessageCatalogue.CommandLine.LogEvent
import MessageCatalogue.CommandLine.ValuePattern
import MessageCatalogue.Text.Pieces
import MessageCatalogue.Text.WhiteSpace

/-! A log directive names events by their target, by the span they happen in and by a field, and says how many pass. -/

namespace MessageCatalogue

/-- The level that a text names in any case or by its number. -/
def LogLevel.ofText? (text : List Char) : Option LogLevel :=
  -- A number may have a plus sign and leading zeros.
  let figures := (['+'].isPrefixOf? text).getD text
  let number := if figures.isEmpty then none else Text.numberFrom? 0xa 0 figures
  LogLevel.all.find? fun level => text.map Char.toLower = level.name.toList ∨ number = some level.rank

/-- A field that an event must have, perhaps with a value. -/
structure FieldFilter where
  name : List Char
  value : Option (List Char)
deriving DecidableEq, Repr

/-- How much may be reported of the events whose target starts with some text, in a span and with a field if any. -/
structure LogDirective where
  target : Option (List Char)
  span : Option (List Char)
  field : Option FieldFilter
  level : LogLevel
deriving DecidableEq, Repr

namespace LogDirective

/-- The field filter that a text writes with an equals sign before a value. -/
def field? (text : List Char) : Option FieldFilter :=
  -- What follows a second equals sign is ignored.
  match Text.pieces ['='] text with
  | [] => none
  | name :: [] => if text.isEmpty then none else some ⟨name, none⟩
  | name :: value :: _ => if ValuePattern.isPattern value then some ⟨name, some value⟩ else none

/-- The number of bytes of a text. -/
def byteSize (text : List Char) : Nat := text.foldr (·.utf8Size + ·) 0

/-- The characters after a number of bytes. -/
def dropBytes : Nat → List Char → List Char
  | 0, text => text
  | _, [] => []
  | size, c :: rest => dropBytes (size - c.utf8Size) rest

/-- The characters within a number of bytes. -/
def takeBytes : Nat → List Char → List Char
  | 0, _ => []
  | _, [] => []
  | size, c :: rest => c :: takeBytes (size - c.utf8Size) rest

/-- The part of a text that starts after some bytes and has a number of them. -/
def excerpt (text : List Char) (start size : Nat) : List Char := takeBytes size (dropBytes start text)

/-- The level at the end of a directive after some bytes, where everything may be reported without one. -/
def levelFrom? (written : List Char) (position : Nat) : List Char → Option LogLevel
  -- Without an equals sign there must be nothing left.
  | [] => some .trace
  | '=' :: _ =>
    let text := dropBytes (position + 1) written
    if text.isEmpty then some .trace else LogLevel.ofText? text
  | _ => none

/-- The directive for a target with what stands from some bytes on between brackets, of which the first is taken. -/
def bracketed? (written : List Char) (target : Option (List Char)) (position : Nat) (text : List Char) :
    Option LogDirective := do
  -- The positions count bytes, since excerpts are cut from the text as it was written.
  let inside := text.takeWhile fun c => c ≠ ']' ∧ c ≠ '\x7b'
  let span := excerpt written position (byteSize inside)
  let position := position + byteSize inside + 1
  match text.drop inside.length with
  | ']' :: after =>
    let level ← levelFrom? written position after
    return ⟨target, some span, none, level⟩
  | '\x7b' :: text =>
    let inside := text.takeWhile (· ≠ '\x7d')
    let field ← field? (excerpt written position (byteSize inside))
    let after ← ['\x7d', ']'].isPrefixOf? (text.drop inside.length)
    let level ← levelFrom? written (position + byteSize inside + 2) after
    return ⟨target, if span.isEmpty then none else some span, some field, level⟩
  | _ => none

/-- Whether a directive without brackets can start with a character. -/
def isOpening (c : Char) : Bool := c == '-' || c == ':' || c == '_' || Text.isAlphanumeric c

/-- The directive that a text writes as a level, or as a target with or without its level. -/
def ofText? (written : List Char) : Option LogDirective :=
  -- Its parts are found without the white space around it but have their places counted with that.
  let text := Text.trim written
  match text with
  | [] => none
  | '[' :: rest => bracketed? written none 1 rest
  | first :: _ =>
    if ! isOpening first then none
    else
      let inside := text.takeWhile fun c => c ≠ '=' ∧ c ≠ '['
      let size := byteSize inside
      let target := some (excerpt written 0 size)
      match text.drop inside.length with
      | [] =>
        match LogLevel.ofText? written with
        | some level => some ⟨none, none, none, level⟩
        | none => some ⟨some written, none, none, .trace⟩
      | '[' :: rest => bracketed? written target (size + 1) rest
      | after => (levelFrom? written size after).map (⟨target, none, none, ·⟩)

/-- Whether a directive can decide about events, which happen in no span and whose values are not looked at. -/
def isDecisive (directive : LogDirective) : Bool :=
  directive.span.isNone && (directive.field.bind (·.value)).isNone

/-- Whether a directive is about an event. -/
def concerns (directive : LogDirective) (event : LogEvent) : Bool :=
  (directive.target.all (·.isPrefixOf event.target.toList)) &&
    directive.field.all fun field => event.fields.contains (String.ofList field.name)

/-- How specific a directive is by its target, and how specific by its field. -/
def specificity (directive : LogDirective) : Nat × Nat :=
  ((directive.target.map (·.length + 1)).getD 0, if directive.field.isSome then 1 else 0)

/-- The name of the field that a directive asks for. -/
def fieldName (directive : LogDirective) : String :=
  String.ofList ((directive.field.map (·.name)).getD [])

/-- Whether a directive gives way to a later one that is about the same event. -/
def givesWayTo (directive later : LogDirective) : Bool :=
  -- The longer target comes first, then the one with a field, then the later of two names.
  let (target, field) := directive.specificity
  let (laterTarget, laterField) := later.specificity
  target < laterTarget || target = laterTarget ∧
    (field < laterField ∨ field = laterField ∧ directive.fieldName ≤ later.fieldName)

end LogDirective

end MessageCatalogue
