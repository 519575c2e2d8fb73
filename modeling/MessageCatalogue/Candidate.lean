import MessageCatalogue.Distinct
import MessageCatalogue.Text.Pieces

/-! A code is looked up together with shorter codes that keep its last segment. -/

namespace MessageCatalogue

/-- The namespace segments and the last segment of a code whose segments are separated by dots. -/
def segments (code : List Char) : List (List Char) × List Char :=
  match Text.cutLast? '.' code with
  | some (nameSpace, leaf) => (Text.pieces ['.'] nameSpace, leaf)
  | none => ([], code)

/-- The code of a leaf under some namespace segments. -/
def qualified (nameSpace : List (List Char)) (leaf : List Char) : String :=
  String.ofList (List.intercalate ['.'] (nameSpace ++ [leaf]))

/-- The codes left when namespace segments are dropped from the end one at a time. -/
def shortenedCodes (nameSpace : List (List Char)) (leaf : List Char) : List String :=
  (List.range nameSpace.length).reverse.map fun kept => qualified (nameSpace.take kept) leaf

/-- The code of a leaf under a common namespace, when there is one. -/
def commonCode? (common : Option String) (leaf : List Char) : Option String :=
  match common with
  | some nameSpace => if nameSpace = "" then none else some (nameSpace ++ "." ++ String.ofList leaf)
  | none => none

/-- The codes to look up for a code, in order and each of them once. -/
def candidateCodes (code : String) (common : Option String) : List String :=
  -- The code itself comes first and its leaf in the common namespace last.
  let (nameSpace, leaf) := segments code.toList
  (shortenedCodes nameSpace leaf ++ (commonCode? common leaf).toList).foldl appendNew [code]

end MessageCatalogue
