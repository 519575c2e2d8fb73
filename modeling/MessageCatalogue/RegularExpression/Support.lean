import MessageCatalogue.RegularExpression.Reader

/-!
Some expressions cannot be matched, because they depend on tables of characters that there are none of or because
they match parts of characters.
-/

namespace MessageCatalogue.RegularExpression

/-- How characters are compared, where an expression is about bytes unless it is about Unicode. -/
structure Mode where
  anyCase : Bool
  unicode : Bool
deriving DecidableEq, Repr

namespace Mode

/-- The mode at the start of an expression. -/
def standard : Mode := ⟨false, true⟩

/-- The mode after a change of flags. -/
def changed (mode : Mode) (change : FlagChange) : Mode :=
  ⟨change.after .anyCase mode.anyCase, change.after .unicode mode.unicode⟩

/-- Whether some character beyond ASCII would have to be compared in either case. -/
def foldsAll (mode : Mode) : Bool := mode.anyCase && mode.unicode

end Mode

/-- Whether a literal can be matched, which half a character cannot. -/
def Literal.isSupported (mode : Mode) (literal : Literal) : Bool :=
  ! mode.foldsAll && (mode.unicode || ! literal.isByte || literal.value.toNat < 0x80)

/-- Whether a literal can be a member of a set, which without Unicode is a set of bytes. -/
def Literal.isMember (mode : Mode) (literal : Literal) : Bool :=
  ! mode.foldsAll && (mode.unicode || literal.value.toNat < 0x80)

/-- Whether a shorthand can be matched, for which there are no tables of Unicode and no parts of characters. -/
def isSupportedShorthand (mode : Mode) (isNegated : Bool) : Bool := ! mode.unicode && ! isNegated

/-- Whether a primitive can be matched. -/
def Primitive.isSupported (mode : Mode) : Primitive → Bool
  -- Without Unicode part of a character could be matched, and with it word boundaries would need tables.
  | .literal only => only.isSupported mode
  | .anyCharacter => mode.unicode
  | .edge => true
  | .wordBoundary => ! mode.unicode
  | .shorthand isNegated => isSupportedShorthand mode isNegated

namespace CharacterSet

mutual

/-- Whether a set can be matched, where the bytes outside a set would be parts of characters. -/
def isSupported (mode : Mode) : CharacterSet → Bool
  -- A negated set without characters matches single bytes, which may be no text.
  | .nothing => true
  | .literal only => only.isMember mode
  | .range first last => first.isMember mode && last.isMember mode
  | .named isNegated => ! mode.foldsAll && (mode.unicode || ! isNegated)
  | .shorthand isNegated => isSupportedShorthand mode isNegated
  | .union members => areSupported mode members
  | .operation left right => left.isSupported mode && right.isSupported mode
  | .bracketed isNegated inner => inner.isSupported mode && (mode.unicode || ! isNegated)

/-- Whether all of some sets can be matched. -/
def areSupported (mode : Mode) : List CharacterSet → Bool
  | [] => true
  | first :: rest => first.isSupported mode && areSupported mode rest

end

end CharacterSet

mutual

/-- The mode that holds after an expression, if all of it can be matched. -/
def modeAfter? (mode : Mode) : RegularExpression → Option Mode
  -- What changes within a group lasts to its end.
  | .empty => some mode
  | .flags change => some (mode.changed change)
  | .primitive single => if single.isSupported mode then some mode else none
  | .characters members => if members.isSupported mode then some mode else none
  | .repetition inner => modeAfter? mode inner
  | .group _ change inner => (modeAfter? (mode.changed change) inner).map fun _ => mode
  | .sequence parts => modeAfterAll? mode parts
  | .branches choices => modeAfterAll? mode choices

/-- The mode that holds after some expressions in a row, if all of them can be matched. -/
def modeAfterAll? (mode : Mode) : List RegularExpression → Option Mode
  | [] => some mode
  | first :: rest => (modeAfter? mode first).bind (modeAfterAll? · rest)

end

/-- The number of levels to which the parts of an expression may nest. -/
def depthLimit : Nat := 0xfa

/-- Whether an expression can be matched, in which every group has a name of its own. -/
def isSupported (expression : RegularExpression) : Bool :=
  expression.depth ≤ depthLimit && expression.groupNames.Nodup && (modeAfter? .standard expression).isSome

end MessageCatalogue.RegularExpression
