import MessageCatalogue.Proofs.Properties.LineNumbers

/-! A line reads the same when backslashes break it over several physical lines at harmless places. -/

namespace MessageCatalogue.Properties

/-- What follows a break in a line, which is white space and then the text up to the next break or the end. -/
structure Break where
  margin : Margin
  text : List Char

/-- A text in which no line is broken. -/
def unbroken (first : List Char) (breaks : List Break) : List Char := first ++ breaks.flatMap (·.text)

/-- The same text with a backslash and a line feed at each break. -/
def broken (first : List Char) (breaks : List Break) : List Char :=
  first ++ breaks.flatMap fun next => '\\' :: '\n' :: (next.margin.text ++ next.text)

/-- No break stands behind an odd run of backslashes or before white space of the text. -/
def AreHarmless (first : List Char) (breaks : List Break) : Prop :=
  ∀ earlier next later, breaks = earlier ++ next :: later →
    continues (unbroken first earlier) = false ∧
      ∀ c ∈ (unbroken next.text later).head?, isWhiteSpace c = false

/-- A logical line at the end of a document, where a last backslash has nothing left to go on with. -/
def closedText (text : List Char) : List Char := if continues text then text.dropLast else text

/-- A text before the first break stays in front of what the breaks bring. -/
theorem unbroken_cons (first : List Char) (next : Break) (more : List Break) :
    unbroken first (next :: more) = first ++ unbroken next.text more := by
  simp [unbroken]

/-- The first break ends the first physical line. -/
theorem broken_cons (first : List Char) (next : Break) (more : List Break) :
    broken first (next :: more) = (first ++ ['\\']) ++ '\n' :: (next.margin.text ++ broken next.text more) := by
  simp [broken]

variable {first front text : List Char} {breaks : List Break}

/-- Without breaks there is none to do harm. -/
theorem areHarmless_nil (first : List Char) : AreHarmless first [] := by
  intro earlier next later split
  simp at split

/-- The first break does no harm by itself, and the others do none behind the text that it brings. -/
theorem areHarmless_cons {next : Break} {more : List Break} :
    AreHarmless first (next :: more) ↔
      (continues first = false ∧ ∀ c ∈ (unbroken next.text more).head?, isWhiteSpace c = false) ∧
        AreHarmless (first ++ next.text) more := by
  -- A break behind the first one has the text of the first one in front of it.
  have shifted : ∀ earlier, unbroken first (next :: earlier) = unbroken (first ++ next.text) earlier := by
    simp [unbroken]
  constructor
  · intro harmless
    have here := harmless [] next more rfl
    refine ⟨by simpa [unbroken] using here, fun earlier other later split => ?_⟩
    rw [← shifted]
    exact harmless (next :: earlier) other later (by rw [split, List.cons_append])
  · rintro ⟨here, others⟩ earlier other later split
    cases earlier with
    | nil =>
      obtain ⟨rfl, rfl⟩ := List.cons.inj split
      simpa [unbroken] using here
    | cons start earlier =>
      obtain ⟨rfl, rfl⟩ := List.cons.inj split
      rw [shifted]
      exact others earlier other later rfl

/-- A line that is not continued is continued with one more backslash. -/
theorem continues_append_backslash (ended : continues front = false) : continues (front ++ ['\\']) = true := by
  rw [continues_append ended]
  rfl

/-- What goes on with a logical line joins it as if no break stood in it. -/
theorem assemble_broken (number line : Nat) (margin : Margin) (ended : continues front = false)
    (flat : '\n' ∉ unbroken text breaks) (begun : ∀ c ∈ (unbroken text breaks).head?, isWhiteSpace c = false)
    (harmless : AreHarmless (front ++ text) breaks) :
    assemble number (some ⟨line, front⟩) (Text.lines (margin.text ++ broken text breaks)) =
      [⟨line, closedText (front ++ unbroken text breaks)⟩] := by
  -- Each break moves the text before it to what is already joined, which stays quantified over.
  induction breaks generalizing number margin front text with
  | nil =>
    simp only [unbroken, broken, List.flatMap_nil, List.append_nil] at flat begun ⊢
    have whole : '\n' ∉ margin.text ++ text := by simp [margin.unbroken, flat]
    rw [Text.lines_of_unbroken whole]
    split
    · -- Where nothing is left there is no physical line, and what was joined is finished as it is.
      rename_i empty
      obtain rfl := (List.append_eq_nil_iff.mp empty).2
      simp [assemble, closedText, ended]
    · rw [assemble, margin.trimStart_append, Text.trimStart_of_head? begun, closedText]
      split <;> simp [assemble]
  | cons next more ih =>
    obtain ⟨⟨unescaped, behind⟩, harmless⟩ := areHarmless_cons.mp harmless
    rw [unbroken_cons] at flat begun ⊢
    rw [List.mem_append, not_or] at flat
    -- The physical line holds the text up to the break and the backslash at its end.
    have whole : margin.text ++ broken text (next :: more) =
        (margin.text ++ (text ++ ['\\'])) ++ '\n' :: (next.margin.text ++ broken next.text more) := by
      rw [broken_cons]
      simp only [List.append_assoc]
    have feedless : '\n' ∉ margin.text ++ (text ++ ['\\']) := by simp [margin.unbroken, flat.1]
    have kept : Text.dropReturn (margin.text ++ (text ++ ['\\'])) = margin.text ++ (text ++ ['\\']) := by
      rw [← List.append_assoc]
      exact Text.dropReturn_append_cons (by decide) _ []
    have trimmed : Text.trimStart (margin.text ++ (text ++ ['\\'])) = text ++ ['\\'] := by
      rw [margin.trimStart_append]
      refine Text.trimStart_of_head? fun c first => ?_
      cases text with
      | nil =>
        obtain rfl := Option.some.inj first
        decide
      | cons d rest => exact begun c first
    have goesOn : continues (front ++ (text ++ ['\\'])) = true := by
      rw [← List.append_assoc]
      exact continues_append_backslash unescaped
    rw [whole, Text.lines_append_lineFeed feedless, kept, assemble, trimmed]
    simp only [goesOn, if_true]
    rw [← List.append_assoc, List.dropLast_concat, ih (number + 1) next.margin unescaped flat.2 behind harmless,
      List.append_assoc]

/-- A line that holds content begins a logical line with nothing in it. -/
theorem assemble_of_holdsContent {physical : List Char} (content : HoldsContent physical) (number : Nat)
    (rest : List (List Char)) :
    assemble number none (physical :: rest) = assemble number (some ⟨number, []⟩) (physical :: rest) := by
  rw [assemble, assemble, holdsContent_iff.mp content]
  simp

/-- The first physical line of a text with breaks begins with what stands before them. -/
theorem exists_lines_broken (occupied : first ≠ []) (flat : '\n' ∉ unbroken first breaks) :
    ∃ ending rest, Text.lines (broken first breaks) = (first ++ ending) :: rest := by
  -- The first line feed is that of the first break, whose backslash keeps a return before it.
  cases breaks with
  | nil =>
    have flat : '\n' ∉ first := by simpa [unbroken] using flat
    refine ⟨[], [], ?_⟩
    rw [List.append_nil, broken, List.flatMap_nil, List.append_nil, Text.lines_of_unbroken flat, if_neg occupied]
  | cons next more =>
    rw [unbroken_cons, List.mem_append, not_or] at flat
    have feedless : '\n' ∉ first ++ ['\\'] := by simp [flat.1]
    refine ⟨['\\'], Text.lines (next.margin.text ++ broken next.text more), ?_⟩
    rw [broken_cons, Text.lines_append_lineFeed feedless, Text.dropReturn_append_cons (by decide)]
    rfl

/-- White space at the start of a line that holds content is all in front of that content. -/
theorem trimStart_append_of_holdsContent (content : HoldsContent first) (rest : List Char) :
    Text.trimStart (first ++ rest) = Text.trimStart first ++ rest := by
  obtain ⟨c, found, _⟩ := content
  unfold Text.trimStart at found ⊢
  have occupied : (first.dropWhile isWhiteSpace).isEmpty = false := by
    cases shape : first.dropWhile isWhiteSpace <;> simp_all
  rw [List.dropWhile_append, occupied]
  rfl

/-- A line that holds content is not empty. -/
theorem HoldsContent.ne_nil (content : HoldsContent first) : first ≠ [] := by
  rintro rfl
  obtain ⟨c, found, _⟩ := content
  simp [Text.trimStart] at found

/-- A line that holds content still does so with more behind it. -/
theorem HoldsContent.append (content : HoldsContent first) (rest : List Char) : HoldsContent (first ++ rest) := by
  obtain ⟨c, found, plain⟩ := id content
  refine ⟨c, ?_, plain⟩
  rw [trimStart_append_of_holdsContent content, List.head?_append, found]
  rfl

/-- A text without white space at its start does not begin with any. -/
theorem not_isWhiteSpace_of_head?_trimStart : ∀ c ∈ (Text.trimStart text).head?, isWhiteSpace c = false :=
  Text.refused_of_head?_dropWhile isWhiteSpace text

/-- A text with breaks is one logical line, which begins behind the white space at its start. -/
theorem logicalLines_broken (unmarked : first.head? ≠ some '\ufeff') (content : HoldsContent first)
    (flat : '\n' ∉ unbroken first breaks) (harmless : AreHarmless first breaks) :
    logicalLines (broken first breaks) = [⟨1, closedText (Text.trimStart (unbroken first breaks))⟩] := by
  have split : first.takeWhile isWhiteSpace ++ Text.trimStart first = first := List.takeWhile_append_dropWhile
  have occupied := content.ne_nil
  have unmarked : (broken first breaks).head? ≠ some '\ufeff' := by
    rwa [broken, List.head?_append_of_ne_nil _ occupied]
  -- The white space at the start is a margin, behind which an empty logical line goes on with the text.
  have flatMargin : '\n' ∉ first.takeWhile isWhiteSpace := fun member => by
    have inside : '\n' ∈ first := split ▸ List.mem_append_left _ member
    exact flat (List.mem_append_left _ inside)
  let margin : Margin := ⟨first.takeWhile isWhiteSpace, fun c member => List.mem_takeWhile_imp member, flatMargin⟩
  have parts : broken first breaks = margin.text ++ broken (Text.trimStart first) breaks := by
    rw [broken, broken, ← List.append_assoc, split]
  have trimmed : ∀ some, Text.trimStart (unbroken first some) = unbroken (Text.trimStart first) some := fun some =>
    trimStart_append_of_holdsContent content _
  -- White space in front does not matter to what ends in a backslash.
  have harmless : AreHarmless ([] ++ Text.trimStart first) breaks := by
    intro earlier next later same
    obtain ⟨unescaped, behind⟩ := harmless earlier next later same
    rw [← continues_trimStart, trimmed] at unescaped
    exact ⟨unescaped, behind⟩
  have begun : ∀ c ∈ (unbroken (Text.trimStart first) breaks).head?, isWhiteSpace c = false := by
    rw [← trimmed]
    exact not_isWhiteSpace_of_head?_trimStart
  have flat' : '\n' ∉ unbroken (Text.trimStart first) breaks := by
    rw [← trimmed]
    exact fun member => flat ((List.dropWhile_suffix isWhiteSpace).subset member)
  obtain ⟨ending, rest, physical⟩ := exists_lines_broken occupied flat
  calc logicalLines (broken first breaks)
    _ = assemble 1 none (Text.lines (broken first breaks)) := by
      rw [logicalLines, dropByteOrderMark_of_head?_ne unmarked]
    _ = assemble 1 (some ⟨1, []⟩) (Text.lines (margin.text ++ broken (Text.trimStart first) breaks)) := by
      rw [physical, assemble_of_holdsContent (content.append ending), ← physical, parts]
    _ = [⟨1, closedText ([] ++ unbroken (Text.trimStart first) breaks)⟩] :=
      assemble_broken 1 1 margin rfl flat' begun harmless
    _ = [⟨1, closedText (Text.trimStart (unbroken first breaks))⟩] := by rw [trimmed, List.nil_append]

/-- One logical line gives one entry with its number or fails with it. -/
theorem readEntries_singleton (line : Nat) (text : List Char) :
    (∃ key value, readEntries [⟨line, text⟩] = .ok [⟨line, key, value⟩]) ∨
      ∃ digits, readEntries [⟨line, text⟩] = .error ⟨line, digits⟩ := by
  -- The number of the line is handed on to the entry as well as to the error.
  rw [readEntries, readEntries]
  cases read : readEntry line text with
  | ok entry =>
    obtain rfl := (readEntry_eq_ok.mp read).2.2
    exact .inl ⟨entry.key, entry.value, rfl⟩
  | error error =>
    obtain rfl := (readEntry_eq_error.mp read).2
    exact .inr ⟨error.digits, rfl⟩

/--
Breaking a line changes nothing about what is read from it, wherever it is broken and however often.

The line stays one entry on the first line of the document, or the same error there.
-/
theorem parse_broken (unmarked : first.head? ≠ some '\ufeff') (content : HoldsContent first)
    (flat : '\n' ∉ unbroken first breaks) (harmless : AreHarmless first breaks) :
    parse (String.ofList (broken first breaks)) = parse (String.ofList (unbroken first breaks)) ∧
      ((∃ key value, parse (String.ofList (unbroken first breaks)) = .ok [⟨1, key, value⟩]) ∨
        ∃ digits, parse (String.ofList (unbroken first breaks)) = .error ⟨1, digits⟩) := by
  have wrapped := logicalLines_broken unmarked content flat harmless
  -- Without breaks the text is one logical line too, and it is the same one.
  have whole : logicalLines (unbroken first breaks) = [⟨1, closedText (Text.trimStart (unbroken first breaks))⟩] := by
    have unmarked : (unbroken first breaks).head? ≠ some '\ufeff' := by
      rwa [unbroken, List.head?_append_of_ne_nil _ content.ne_nil]
    have plain : unbroken (unbroken first breaks) [] = unbroken first breaks := List.append_nil _
    have alone := logicalLines_broken unmarked (content.append _) (by rwa [plain]) (areHarmless_nil _)
    rwa [plain, broken, List.flatMap_nil, List.append_nil] at alone
  rw [parse, parse, String.toList_ofList, String.toList_ofList, wrapped, whole]
  exact ⟨rfl, readEntries_singleton 1 _⟩

/-- Breaks of a line behind an escaped backslash, twice before its separator and within an escape for a code point. -/
def manyBreaks : List Break :=
  -- White space of every kind may stand behind a break, including a return and a space that does not break.
  [⟨⟨['\t'], List.forall_mem_singleton.mpr rfl, by decide⟩, ['b', ' ']⟩,
    ⟨⟨['\u00a0'], List.forall_mem_singleton.mpr rfl, by decide⟩, []⟩,
    ⟨⟨[' '], List.forall_mem_singleton.mpr rfl, by decide⟩, ['=', '\\', 'u', '0', '0']⟩,
    ⟨⟨['\r'], List.forall_mem_singleton.mpr rfl, by decide⟩, ['4', '1']⟩]

/-- Such a line reads like the line without them. -/
theorem parse_manyBreaks :
    let first := [' ', 'a', '\\', '\\']
    first.head? ≠ some '\ufeff' ∧ HoldsContent first ∧ '\n' ∉ unbroken first manyBreaks ∧
      AreHarmless first manyBreaks ∧ unbroken first manyBreaks = " a\\\\b =\\u0041".toList ∧
      parse (String.ofList (broken first manyBreaks)) = .ok [⟨1, "a\\b", "A"⟩] := by
  intro first
  -- The text without the breaks is short enough to be evaluated.
  have unmarked : first.head? ≠ some '\ufeff' := by decide
  have content : HoldsContent first := ⟨'a', rfl, by decide, by decide⟩
  have whole : unbroken first manyBreaks = " a\\\\b =\\u0041".toList := by rfl
  have flat : '\n' ∉ unbroken first manyBreaks := by
    rw [whole]
    decide
  have harmless : AreHarmless first manyBreaks := by
    simp only [manyBreaks, areHarmless_cons]
    refine ⟨⟨by decide, ?_⟩, ⟨by decide, ?_⟩, ⟨by decide, ?_⟩, ⟨by decide, ?_⟩, areHarmless_nil _⟩ <;>
      simp [unbroken, isWhiteSpace]
  have read : parse (String.ofList (unbroken first manyBreaks)) = .ok [⟨1, "a\\b", "A"⟩] := by
    rw [whole]
    decide
  exact ⟨unmarked, content, flat, harmless, whole, (parse_broken unmarked content flat harmless).1.trans read⟩

end MessageCatalogue.Properties
