/-! A regular expression is a tree of characters, classes, repetitions, groups and branches. -/

namespace MessageCatalogue

namespace RegularExpression

/-- How an expression is to be read and matched, which letters within it switch on and off. -/
inductive Flag where
  | anyCase
  | manyLines
  | dotAll
  | swappedGreed
  | unicode
  | returns
  | spaced
deriving DecidableEq, Repr

/-- The flag of a letter. -/
def Flag.ofLetter? (letter : Char) : Option Flag :=
  -- Two of the flags differ in case alone.
  if letter = 'i' then some .anyCase
  else if letter = 'm' then some .manyLines
  else if letter = 's' then some .dotAll
  else if letter = 'U' then some .swappedGreed
  else if letter = 'u' then some .unicode
  else if letter = 'R' then some .returns
  else if letter = 'x' then some .spaced
  else none

/-- The flags that are switched on and those that are switched off at one place. -/
structure FlagChange where
  on : List Flag
  off : List Flag
deriving DecidableEq, Repr

namespace FlagChange

/-- No change at all. -/
def none : FlagChange := ⟨[], []⟩

/-- Whether a flag is on after a change. -/
def after (change : FlagChange) (flag : Flag) (before : Bool) : Bool :=
  if flag ∈ change.on then true else if flag ∈ change.off then false else before

end FlagChange

/-- A character that stands for itself, which may be written as the number of a byte. -/
structure Literal where
  value : Char
  isByte : Bool
deriving DecidableEq, Repr

/-- An expression without parts, of which a shorthand is a class of digits, white space or word characters. -/
inductive Primitive where
  | literal (literal : Literal)
  | anyCharacter
  | edge
  | wordBoundary
  | shorthand (isNegated : Bool)
deriving DecidableEq, Repr

/-- A set of characters between brackets or a part of one. -/
inductive CharacterSet where
  | nothing
  | literal (literal : Literal)
  | range (first last : Literal)
  | named (isNegated : Bool)
  | shorthand (isNegated : Bool)
  | union (members : List CharacterSet)
  | operation (left right : CharacterSet)
  | bracketed (isNegated : Bool) (inner : CharacterSet)

namespace CharacterSet

mutual

/-- The number of levels to which the parts of a set nest. -/
def depth : CharacterSet → Nat
  -- A named set or a range nests nothing, and it is as flat as a single character.
  | .union members => depthOfAll members + 1
  | .operation left right => max left.depth right.depth + 1
  | .bracketed _ inner => inner.depth + 1
  | _ => 0

/-- The number of levels to which the parts of some sets nest. -/
def depthOfAll : List CharacterSet → Nat
  | [] => 0
  | first :: rest => max first.depth (depthOfAll rest)

end

end CharacterSet

end RegularExpression

open MessageCatalogue.RegularExpression in
/-- A regular expression, in which a group may have a name. -/
inductive RegularExpression where
  | empty
  | flags (change : FlagChange)
  | primitive (primitive : Primitive)
  | characters (members : CharacterSet)
  | repetition (inner : RegularExpression)
  | group (name : Option (List Char)) (change : FlagChange) (inner : RegularExpression)
  | sequence (parts : List RegularExpression)
  | branches (choices : List RegularExpression)

namespace RegularExpression

/-- Whether an expression can be repeated. -/
def isRepeatable : RegularExpression → Bool
  | .empty => false
  | .flags _ => false
  | _ => true

/-- One expression after the other. -/
def ofParts : List RegularExpression → RegularExpression
  | [] => .empty
  | [part] => part
  | parts => .sequence parts

/-- One expression or the other. -/
def ofBranches : List RegularExpression → RegularExpression
  | [] => .empty
  | [choice] => choice
  | choices => .branches choices

mutual

/-- The number of levels to which the parts of an expression nest. -/
def depth : RegularExpression → Nat
  -- The levels of a set in brackets are added to those around it.
  | .empty => 0
  | .flags _ => 0
  | .primitive _ => 0
  | .characters members => members.depth
  | .repetition inner => inner.depth + 1
  | .group _ _ inner => inner.depth + 1
  | .sequence parts => depthOfAll parts + 1
  | .branches choices => depthOfAll choices + 1

/-- The number of levels to which the parts of some expressions nest. -/
def depthOfAll : List RegularExpression → Nat
  | [] => 0
  | first :: rest => max first.depth (depthOfAll rest)

end

mutual

/-- The names of the groups of an expression. -/
def groupNames : RegularExpression → List (List Char)
  -- Names come in the order of their groups, with repeated ones repeated.
  | .repetition inner => inner.groupNames
  | .group name _ inner => name.toList ++ inner.groupNames
  | .sequence parts => namesOfAll parts
  | .branches choices => namesOfAll choices
  | _ => []

/-- The names of the groups of some expressions. -/
def namesOfAll : List RegularExpression → List (List Char)
  | [] => []
  | first :: rest => first.groupNames ++ namesOfAll rest

end

end RegularExpression

end MessageCatalogue
