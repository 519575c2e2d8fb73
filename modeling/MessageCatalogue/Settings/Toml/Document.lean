import MessageCatalogue.Settings.Toml.Block
import MessageCatalogue.Settings.Toml.Moment
import MessageCatalogue.Settings.Toml.Number
import MessageCatalogue.Settings.Toml.Quoted

/-! A TOML document assigns values to keys, in tables that headers open and arrays that brackets enclose. -/

namespace MessageCatalogue.Toml

/-- A key with the keys of the tables that lead to it. -/
structure DottedKey where
  path : List String
  key : String
deriving DecidableEq, Repr

/-- A line of a document with content. -/
inductive Statement where
  | tableHeader (name : DottedKey)
  | elementHeader (name : DottedKey)
  | assignment (name : DottedKey) (value : SettingValue)

/-- The tables of a document so far, with the path to the one that assignments go to. -/
structure Progress where
  blocks : Blocks
  current : List String

/-- The number of levels to which lists and tables nest in a value, and of parts in a key. -/
def depthLimit : Nat := 0x4f

/-- The characters of keys without quotes. -/
def isKeyCharacter (c : Char) : Bool := c.isAlphanum || c == '_' || c == '-'

/-- The entries of a table that is written within braces. -/
def inlineEntries : List (DottedKey × SettingValue) → Blocks → Option Blocks
  | [], blocks => some blocks
  | (name, value) :: rest, blocks =>
    (Block.assign name.path name.key value blocks).bind (inlineEntries rest)

namespace Reader

/-- One part of a key, in quotes or without. -/
def keyPart : Reader String := do
  -- A key in quotes may be empty, and one without quotes may not.
  match ← quotedLine? with
  | some key => return key
  | none =>
    let key ← takeWhile isKeyCharacter
    if key.isEmpty then failure else return String.ofList key

/-- A key whose parts are separated by dots, at most as many of them as there is room for. -/
def keyWithin : Nat → Reader DottedKey
  -- The room bounds the number of parts, so the reading ends.
  | 0 => failure
  | room + 1 => do
    blanks
    let part ← keyPart
    blanks
    if ← accept ['.'] then
      let name ← keyWithin room
      return { name with path := part :: name.path }
    else return ⟨[], part⟩

/-- A key whose parts are separated by dots. -/
def dottedKey : Reader DottedKey := keyWithin depthLimit

mutual

/-- A value with room for levels of nesting, read with a budget for the steps that it may take. -/
def value (room : Nat) : Nat → Reader SettingValue
  -- Quotes, brackets and braces tell the kind of a value, and what is left is a moment or a word.
  | 0 => failure
  | budget + 1 => do
    match ← quoted? with
    | some text => return .text text
    | none =>
      if ← accept ['['] then
        if room = 0 then failure
        return .list (← items (room - 1) budget)
      else if ← accept ['\x7b'] then
        if room = 0 then failure
        blanks
        let entries ← if ← accept ['\x7d'] then pure [] else pairs (room - 1) budget
        let blocks ← inlineEntries entries []
        return .table (Block.settings blocks)
      else
        match ← moment? with
        | some moment => return moment
        | none => word

/-- The values of a list up to its closing bracket, where a comma may follow the last one. -/
def items (room : Nat) : Nat → Reader (List SettingValue)
  -- Line endings and comments may stand between the values.
  | 0 => failure
  | budget + 1 => do
    gaps
    if ← accept [']'] then return []
    let first ← value room budget
    gaps
    if ← accept [','] then
      let rest ← items room budget
      return first :: rest
    expect [']']
    return [first]

/-- The assignments within braces up to the closing one, all of them on one line. -/
def pairs (room : Nat) : Nat → Reader (List (DottedKey × SettingValue))
  -- Only blanks may stand around the assignments, and no comma behind the last one.
  | 0 => failure
  | budget + 1 => do
    let name ← dottedKey
    expect ['=']
    blanks
    let first ← value room budget
    blanks
    if ← accept [','] then
      let rest ← pairs room budget
      return (name, first) :: rest
    expect ['\x7d']
    return [(name, first)]

end

/-- The statement of a line, read with a budget for the steps that it may take. -/
def statement (budget : Nat) : Reader Statement := do
  -- Two brackets are tried before one, which they also begin with.
  if ← accept ['[', '['] then
    let name ← dottedKey
    expect [']', ']']
    return .elementHeader name
  if ← accept ['['] then
    let name ← dottedKey
    expect [']']
    return .tableHeader name
  let name ← dottedKey
  expect ['=']
  blanks
  return .assignment name (← value depthLimit budget)

/-- The statements of a document to its end, read with a budget for their number. -/
def statements : Nat → Reader (List Statement)
  -- Every statement takes part of the text, which bounds their number.
  | 0 => failure
  | budget + 1 => do
    gaps
    if (← peek).isNone then return []
    let first ← statement budget
    lineEnd
    let rest ← statements budget
    return first :: rest

end Reader

/-- The tables of a document after one more statement, unless it defines something twice. -/
def Progress.apply (progress : Progress) : Statement → Option Progress
  -- A header changes where later assignments go, and it is read from the top of the document.
  | .tableHeader name =>
    (Block.changeAt .implied (fun _ => Block.openTable name.key) name.path .opened progress.blocks).map
      (⟨·, name.path ++ [name.key]⟩)
  | .elementHeader name =>
    (Block.changeAt .implied (fun _ => Block.openElement name.key) name.path .opened progress.blocks).map
      (⟨·, name.path ++ [name.key]⟩)
  | .assignment name value =>
    (Block.changeAt .implied (fun _ => Block.assign name.path name.key value) progress.current .opened
      progress.blocks).map (⟨·, progress.current⟩)

/-- The settings that a document writes, unless it is malformed. -/
def parse (text : String) : Option (Table SettingValue) := do
  -- Every step of reading takes a character, so the length of the text is budget enough.
  let characters := match text.toList with
    | '\ufeff' :: rest => rest
    | characters => characters
  let (statements, _) ← Reader.statements (characters.length + 2) characters
  let progress ← statements.foldlM Progress.apply ⟨[], []⟩
  return Block.settings progress.blocks

end MessageCatalogue.Toml
