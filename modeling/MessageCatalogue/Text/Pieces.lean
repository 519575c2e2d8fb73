/-! Text is cut at a mark and joined again, which covers counting, replacing and splitting alike. -/

namespace MessageCatalogue.Text

/-- The pieces of a text around the occurrences of a mark, read from the left, after some characters are passed over. -/
def piecesAfter (mark : List Char) : Nat → List Char → List (List Char)
  -- An occurrence closes the open piece, and the rest of its characters are passed over.
  | _, [] => [[]]
  | skipped + 1, _ :: rest => piecesAfter mark skipped rest
  | 0, c :: rest =>
    if mark.isPrefixOf (c :: rest) then [] :: piecesAfter mark (mark.length - 1) rest
    else match piecesAfter mark 0 rest with
      | [] => [[c]]
      | piece :: more => (c :: piece) :: more

/-- The pieces of a text around the occurrences of a mark, read from the left. -/
def pieces (mark text : List Char) : List (List Char) := piecesAfter mark 0 text

/-- The number of occurrences of a mark that do not overlap, read from the left. -/
def occurrences (mark text : List Char) : Nat := (pieces mark text).length - 1

/-- Every occurrence of a mark gives way to a value. -/
def replace (mark value text : List Char) : List Char := List.intercalate value (pieces mark text)

/-- The text before and after the first occurrence of a mark. -/
def cutFirst? (mark : List Char) : List Char → Option (List Char × List Char)
  -- The mark is tried at each position from the left.
  | [] => (mark.isPrefixOf? []).map ([], ·)
  | c :: rest =>
    match mark.isPrefixOf? (c :: rest) with
    | some after => some ([], after)
    | none => (cutFirst? mark rest).map fun (before, after) => (c :: before, after)

/-- The text before and after the last occurrence of a character. -/
def cutLast? (mark : Char) : List Char → Option (List Char × List Char)
  -- A later occurrence is preferred to the one at the head.
  | [] => none
  | c :: rest =>
    match cutLast? mark rest with
    | some (before, after) => some (c :: before, after)
    | none => if c = mark then some ([], rest) else none

end MessageCatalogue.Text
