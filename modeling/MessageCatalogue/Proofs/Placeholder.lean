import MessageCatalogue.Placeholder
import MessageCatalogue.Proofs.Text.Pieces

/-! A message has the texts between the placeholders of its template, with what its arguments show between them. -/

namespace MessageCatalogue

/-- What stands in a template for an argument. -/
def placeholder : List Char := ['{', '}']

theorem isSolid_placeholder : Text.IsSolid placeholder := ⟨'{', ['}'], rfl, by decide⟩

/-- A placeholder gives way to the next pending text, and it stays when there is none. -/
theorem fillPlaceholders_append (pending : List (List Char)) (rest : List Char) :
    fillPlaceholders pending (placeholder ++ rest) =
      pending.head?.getD placeholder ++ fillPlaceholders pending.tail rest := by
  cases pending <;> rfl

/-- A character at which no placeholder begins stays. -/
theorem fillPlaceholders_cons {c : Char} {rest : List Char} (absent : ¬ placeholder <+: c :: rest)
    (pending : List (List Char)) : fillPlaceholders pending (c :: rest) = c :: fillPlaceholders pending rest := by
  have other : ∀ after, c = '{' → rest = '}' :: after → False := fun after opened closed =>
    absent ⟨after, by rw [opened, closed]; rfl⟩
  -- The last case of the definition is left, whether there are pending texts or not.
  rw [fillPlaceholders]
  · exact fun _ _ after _ => other after
  · exact fun after _ => other after

/-- Pending texts stand between the pieces of the template, and placeholders where they run out. -/
theorem fillPlaceholders_eq (pending : List (List Char)) (template : List Char) :
    ∃ first rest, Text.pieces placeholder template = first :: rest ∧
      fillPlaceholders pending template =
        first ++ (rest.mapIdx fun number piece => pending[number]?.getD placeholder ++ piece).flatten := by
  -- A placeholder takes the first pending text and leaves the others to the placeholders behind it.
  induction template using Text.induction_on_mark isSolid_placeholder.ne_nil generalizing pending with
  | nil => exact ⟨[], [], rfl, by simp [fillPlaceholders]⟩
  | occurrence rest ih =>
    obtain ⟨first, more, found, filled⟩ := ih pending.tail
    refine ⟨[], first :: more, by rw [Text.pieces_mark_append isSolid_placeholder.ne_nil, found], ?_⟩
    rw [fillPlaceholders_append, filled]
    simp [List.mapIdx_cons, List.head?_eq_getElem?, List.getElem?_tail]
  | cons c rest absent ih =>
    obtain ⟨first, more, found, filled⟩ := ih pending
    obtain ⟨piece, others, found', opened⟩ := Text.pieces_cons absent
    obtain ⟨rfl, rfl⟩ := List.cons.inj (found.symm.trans found')
    exact ⟨_, _, opened, by rw [fillPlaceholders_cons absent, filled, List.cons_append]⟩

/-- Texts without placeholders that give a template when there is a placeholder between each two of them. -/
structure IsCut (template : List Char) (parts : List (List Char)) : Prop where
  occupied : parts ≠ []
  joined : placeholder.intercalate parts = template
  free : ∀ part ∈ parts, ¬ placeholder <:+: part

/-- A template is cut into its pieces and in no other way. -/
theorem isCut_iff {template : List Char} {parts : List (List Char)} :
    IsCut template parts ↔ parts = Text.pieces placeholder template := by
  constructor
  · rintro ⟨occupied, rfl, free⟩
    exact (isSolid_placeholder.pieces_intercalate occupied free).symm
  · rintro rfl
    exact ⟨Text.pieces_ne_nil _ _, Text.intercalate_pieces isSolid_placeholder.ne_nil template,
      fun _ member => Text.not_infix_of_mem_pieces isSolid_placeholder.ne_nil member⟩

/-- Without arguments, a template is filled with its own placeholders. -/
theorem fillPlaceholders_nil (template : List Char) : fillPlaceholders [] template = template := by
  -- Nothing is pending, so every placeholder stays.
  induction template using Text.induction_on_mark isSolid_placeholder.ne_nil with
  | nil => rfl
  | occurrence rest ih =>
    rw [fillPlaceholders_append]
    exact congrArg (placeholder ++ ·) ih
  | cons c rest absent ih => rw [fillPlaceholders_cons absent, ih]

/-- A template is read for its placeholders, or it could be when there are no arguments. -/
theorem formatMessage_eq (template : String) (arguments : List Argument) :
    formatMessage template arguments =
      String.ofList (fillPlaceholders (arguments.map (·.shown.toList)) template.toList) := by
  cases arguments with
  | nil => rw [List.map_nil, fillPlaceholders_nil, String.ofList_toList]; rfl
  | cons first rest => rfl

/--
A template is cut at its placeholders in one way, and a message has what its arguments show in place of them.

What an argument shows is not read again, placeholders stay where there are no more arguments, and a template without
arguments is the same message as if its placeholders had been looked for.
-/
theorem message_fills_placeholders (template : String) (arguments : List Argument) :
    ∃ first rest, (∀ parts, IsCut template.toList parts ↔ parts = first :: rest) ∧
      formatMessage template arguments = String.ofList (first ++
        (rest.mapIdx fun number part => (arguments[number]?.map (·.shown.toList)).getD placeholder ++ part).flatten) ∧
      formatMessage template [] = String.ofList (fillPlaceholders [] template.toList) := by
  obtain ⟨first, rest, found, filled⟩ := fillPlaceholders_eq (arguments.map (·.shown.toList)) template.toList
  refine ⟨first, rest, fun parts => by rw [isCut_iff, found], ?_, formatMessage_eq template []⟩
  rw [formatMessage_eq, filled]
  simp only [List.getElem?_map]

example : fillPlaceholders [['}'], ['x']] ['{', '{', '}', '{', '}'] = ['{', '}', 'x'] := by decide

/-- A text that neither makes a placeholder with the texts around it nor lets them make one. -/
structure IsInert (text : List Char) : Prop where
  occupied : text ≠ []
  notOpening : '{' ∉ text
  notClosing : '}' ∉ text

variable {pending : List (List Char)}

/-- A text without opening braces stays as it is. -/
theorem fillPlaceholders_append_of_notMem {text : List Char} (free : '{' ∉ text) (pending : List (List Char))
    (rest : List Char) : fillPlaceholders pending (text ++ rest) = text ++ fillPlaceholders pending rest := by
  -- No placeholder begins at any of its characters.
  induction text with
  | nil => rfl
  | cons c text ih =>
    obtain ⟨other, free⟩ := not_or.mp (mt List.mem_cons.mpr free)
    have absent : ¬ placeholder <+: c :: (text ++ rest) := fun begins => other (List.cons_prefix_cons.mp begins).1
    rw [List.cons_append, fillPlaceholders_cons absent, ih free, List.cons_append]

/-- A template that inert texts are put into begins with a closing brace only when it did so before. -/
theorem head?_fillPlaceholders (inert : ∀ text ∈ pending, IsInert text) {template : List Char}
    (closed : (fillPlaceholders pending template).head? = some '}') : template.head? = some '}' := by
  cases template using Text.induction_on_mark isSolid_placeholder.ne_nil with
  | nil => simp [fillPlaceholders] at closed
  | occurrence rest _ =>
    -- What stands for the placeholder begins with an opening brace or with a character of an inert text.
    rw [fillPlaceholders_append] at closed
    cases pending with
    | nil => simp [placeholder] at closed
    | cons text later =>
      have own := inert text List.mem_cons_self
      obtain ⟨c, more, rfl⟩ := List.exists_cons_of_ne_nil own.occupied
      obtain rfl : c = '}' := by simpa using closed
      exact absurd List.mem_cons_self own.notClosing
  | cons c rest absent _ =>
    rw [fillPlaceholders_cons absent] at closed
    exact closed

/-- Inert texts make no placeholder where none begins. -/
theorem not_prefix_fillPlaceholders (inert : ∀ text ∈ pending, IsInert text) {c : Char} {rest : List Char}
    (absent : ¬ placeholder <+: c :: rest) : ¬ placeholder <+: c :: fillPlaceholders pending rest := by
  -- The closing brace would have to stand at the beginning of the rest already.
  rintro ⟨after, same⟩
  obtain ⟨rfl, closed⟩ := List.cons.inj same
  have before : rest.head? = some '}' := head?_fillPlaceholders inert (by rw [← closed]; rfl)
  obtain ⟨more, rfl⟩ := List.head?_eq_some_iff.mp before
  exact absent ⟨more, rfl⟩

/-- Placeholders that inert texts leave are filled as if the later texts had been pending behind them. -/
theorem fillPlaceholders_fillPlaceholders (inert : ∀ text ∈ pending, IsInert text) (later : List (List Char))
    (template : List Char) :
    fillPlaceholders later (fillPlaceholders pending template) = fillPlaceholders (pending ++ later) template := by
  -- A placeholder of the template is filled at the first stage unless no text is pending any more.
  induction template using Text.induction_on_mark isSolid_placeholder.ne_nil generalizing pending with
  | nil => rfl
  | occurrence rest ih =>
    cases pending with
    | nil => rw [fillPlaceholders_nil, List.nil_append]
    | cons text others =>
      obtain ⟨own, inert⟩ := List.forall_mem_cons.mp inert
      calc fillPlaceholders later (fillPlaceholders (text :: others) (placeholder ++ rest))
        _ = fillPlaceholders later (text ++ fillPlaceholders others rest) := by rw [fillPlaceholders_append]; rfl
        _ = text ++ fillPlaceholders later (fillPlaceholders others rest) :=
          fillPlaceholders_append_of_notMem own.notOpening later _
        _ = text ++ fillPlaceholders (others ++ later) rest := by rw [ih inert]
        _ = fillPlaceholders (text :: others ++ later) (placeholder ++ rest) := by rw [fillPlaceholders_append]; rfl
  | cons c rest absent ih =>
    have still := not_prefix_fillPlaceholders inert absent
    rw [fillPlaceholders_cons absent, fillPlaceholders_cons still, ih inert, fillPlaceholders_cons absent]

/-- A message whose arguments come in two stages is the one for all of them together, if the first ones are inert. -/
theorem stages_make_one_message (template : String) {first : List Argument} (second : List Argument)
    (inert : ∀ argument ∈ first, IsInert argument.shown.toList) :
    formatMessage (formatMessage template first) second = formatMessage template (first ++ second) := by
  have each : ∀ text ∈ first.map (·.shown.toList), IsInert text := List.forall_mem_map.mpr inert
  rw [formatMessage_eq, formatMessage_eq template first, String.toList_ofList,
    fillPlaceholders_fillPlaceholders each, ← List.map_append, ← formatMessage_eq]

/-- Braces around a placeholder are still not a placeholder when an inert text has been put between them. -/
theorem braces_stay_between_stages :
    (∀ argument ∈ [Argument.text "a"], IsInert argument.shown.toList) ∧
      formatMessage (formatMessage "\x7b\x7b\x7d\x7d \x7b\x7d" [.text "a"]) [.integer 7, .text "surplus"] =
        "\x7ba\x7d 7" := by
  have inert : ∀ argument ∈ [Argument.text "a"], IsInert argument.shown.toList := by
    intro argument member
    obtain rfl := List.mem_singleton.mp member
    exact ⟨by decide, by decide, by decide⟩
  exact ⟨inert, (stages_make_one_message _ _ inert).trans (by cbv)⟩

-- An empty text lets the braces around it make a placeholder.
example : formatMessage (formatMessage "\x7b\x7b\x7d\x7d" [.text ""]) [.text "x"] = "x" := by cbv

end MessageCatalogue
