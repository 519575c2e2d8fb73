/-! Physical lines end at a line feed or at a carriage return with its line feed. -/

namespace MessageCatalogue.Text

/-- The physical lines of a text without their endings, where a final line needs no ending. -/
def lines : List Char → List (List Char)
  -- A carriage return belongs to an ending only when a line feed follows it.
  | [] => []
  | '\n' :: rest => [] :: lines rest
  | '\r' :: '\n' :: rest => [] :: lines rest
  | c :: rest =>
    match lines rest with
    | [] => [[c]]
    | line :: more => (c :: line) :: more

end MessageCatalogue.Text
