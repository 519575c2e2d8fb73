import MessageCatalogue.Text.WhiteSpace

/-! Text that consists of a code in braces refers to the message of that code. -/

namespace MessageCatalogue

/-- The characters between an opening brace and a closing brace at the ends of a text. -/
def braced? : List Char → Option (List Char)
  | '{' :: rest => List.isSuffixOf? ['}'] rest
  | _ => none

/-- The code that a text refers to, which is not empty and holds no brace of its own. -/
def referencedCode? (text : String) : Option String :=
  -- White space around the braces is not part of a reference.
  match braced? (Text.trim text.toList) with
  | some code =>
    if code.isEmpty || code.contains '{' || code.contains '}' then none else some (String.ofList code)
  | none => none

end MessageCatalogue
