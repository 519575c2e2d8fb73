import MessageCatalogue.Settings.Value

/-! The tables of a document grow line by line, and a table that one line has defined may not be defined by another. -/

namespace MessageCatalogue.Toml

/-- How a table came to be, by a header of its own, by a longer header or by a dotted key. -/
inductive BlockForm where
  | opened
  | implied
  | dotted
deriving DecidableEq, Repr

/-- A part of a document, which is a value, a table or a series of tables. -/
inductive Block where
  | value (written : SettingValue)
  | table (form : BlockForm) (entries : List (String × Block))
  | series (elements : List (List (String × Block)))

/-- The parts of a document under the keys of one table. -/
abbrev Blocks : Type := Table Block

namespace Block

mutual

/-- The settings value of a part of a document. -/
def setting : Block → SettingValue
  | .value written => written
  | .table _ entries => .table (settings entries)
  | .series elements => .list (settingsOfEach elements)

/-- The settings values of the parts of a table. -/
def settings : List (String × Block) → Table SettingValue
  | [] => []
  | (key, block) :: rest => (key, setting block) :: settings rest

/-- The settings values of a series of tables. -/
def settingsOfEach : List (List (String × Block)) → List SettingValue
  | [] => []
  | entries :: rest => .table (settings entries) :: settingsOfEach rest

end

/-- The last table of a series changed in place. -/
def changeLast (change : Blocks → Option Blocks) : List Blocks → Option (List Blocks)
  | [] => none
  | [last] => (change last).map ([·])
  | first :: rest => (changeLast change rest).map (first :: ·)

/-- A table changed at the end of a path, with tables of a form made where the path leads to none. -/
def changeAt (made : BlockForm) (change : BlockForm → Blocks → Option Blocks) :
    List String → BlockForm → Blocks → Option Blocks
  -- A dotted key cannot lead through a table that has a header of its own.
  | [], form, blocks => change form blocks
  | key :: rest, _, blocks =>
    match blocks.find? key with
    | none => (changeAt made change rest made []).map fun inner => blocks.insert key (.table made inner)
    | some (.value _) => none
    | some (.table form inner) =>
      if made = .dotted ∧ form = .opened then none
      else
        (changeAt made change rest form inner).map fun changed => blocks.insert key (.table form changed)
    | some (.series elements) =>
      (changeLast (changeAt made change rest .opened) elements).map fun changed =>
        blocks.insert key (.series changed)

/-- A table with a value under a dotted key that is not in use. -/
def assign (path : List String) (key : String) (written : SettingValue) (blocks : Blocks) :
    Option Blocks :=
  -- Only a table that dotted keys have made can receive a value from another one of them.
  changeAt .dotted (fun form inner =>
    if (form = .dotted) = (path = []) then none
    else if (inner.find? key).isSome then none
    else some (inner.insert key (.value written))) path .opened blocks

/-- A table with an open table under a key, where there was none but for longer headers. -/
def openTable (key : String) (blocks : Blocks) : Option Blocks :=
  -- A header may come after longer ones that begin with it, but only once.
  match blocks.find? key with
  | none => some (blocks.insert key (.table .opened []))
  | some (.table .implied inner) => some (blocks.insert key (.table .opened inner))
  | some _ => none

/-- A table with one more table in the series under a key. -/
def openElement (key : String) (blocks : Blocks) : Option Blocks :=
  -- A series grows by headers in double brackets alone.
  match blocks.find? key with
  | none => some (blocks.insert key (.series [[]]))
  | some (.series elements) => some (blocks.insert key (.series (elements ++ [[]])))
  | some _ => none

end Block

end MessageCatalogue.Toml
