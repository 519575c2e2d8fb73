import MessageCatalogue.Proofs.Properties.Layout
import MessageCatalogue.Proofs.Text.Lines

/-! A document reads back as the pairs that it was written from, whatever stands around them. -/

namespace MessageCatalogue.Properties

/-- The character of a separator separates keys from values. -/
theorem Separator.isSeparator_char (separator : Separator) : isSeparator separator.char := by
  cases separator <;> decide

/-- A separator is no white space. -/
theorem Separator.not_isWhiteSpace_char (separator : Separator) : isWhiteSpace separator.char = false := by
  cases separator <;> decide

/-- A comment mark makes a comment of whatever follows it. -/
theorem CommentMark.isSkipped_char (mark : CommentMark) (rest : List Char) : isSkipped (mark.char :: rest) := by
  cases mark <;> rfl

/-- A comment mark is no white space. -/
theorem CommentMark.not_isWhiteSpace_char (mark : CommentMark) : isWhiteSpace mark.char = false := by
  cases mark <;> decide

/-- Nothing but a comment mark at its start makes a line with something on it a comment. -/
theorem isSkipped_cons {c : Char} (notHash : c ≠ '#') (notExclamation : c ≠ '!') (rest : List Char) :
    isSkipped (c :: rest) = false := by
  simp [isSkipped, notHash, notExclamation]

/-- A margin is trimmed from whatever follows it. -/
theorem Margin.trimStart_append (margin : Margin) (rest : List Char) :
    Text.trimStart (margin.text ++ rest) = Text.trimStart rest :=
  List.dropWhile_append_of_pos margin.white

/-- A character that is not blank is none of some blanks. -/
theorem Blanks.notMem (blanks : Blanks) {c : Char} (not : isBlank c = false) : c ∉ blanks.text :=
  fun member => ne_of_holds (blanks.blank c member) not rfl

/-- Blanks are dropped in front of what starts with none. -/
theorem Blanks.dropWhile_append (blanks : Blanks) {rest : List Char}
    (stop : ∀ c, rest.head? = some c → isBlank c = false) :
    (blanks.text ++ rest).dropWhile isBlank = rest := by
  rw [List.dropWhile_append_of_pos blanks.blank]
  cases rest with
  | nil => rfl
  | cons c more => exact List.dropWhile_cons_of_neg (by simp [stop c rfl])

namespace Assignment

variable (assignment : Assignment)

/-- Blanks and a separator start no key. -/
theorem splitKey_gap (gap : Blanks) :
    splitKey (gap.text ++ assignment.tail) = ([], gap.text ++ assignment.tail) := by
  -- The first character is a blank or, without blanks, the separator, and both end a key at once.
  have isSeparator := assignment.separator.isSeparator_char
  cases shape : gap.text with
  | nil =>
    rw [List.nil_append, tail, splitKey]
    · simp [isSeparator]
    · exact fun _ _ same => absurd same (ne_of_holds isSeparator (by decide))
  | cons c more =>
    have blank : isBlank c := gap.blank c (by simp [shape])
    rw [List.cons_append, splitKey]
    · simp [blank]
    · exact fun _ _ same => absurd same (ne_of_holds blank (by decide))

/-- The raw value behind blanks and a separator is the written value. -/
theorem rawValue_gap (gap : Blanks) :
    rawValue (gap.text ++ assignment.tail) = escape assignment.value.toList := by
  -- Blanks are dropped on both sides of the separator, and neither it nor the value starts with one.
  have notBlank := not_isBlank_of_not_isWhiteSpace assignment.separator.not_isWhiteSpace_char
  have outer : (gap.text ++ assignment.tail).dropWhile isBlank = assignment.tail := by
    refine gap.dropWhile_append fun c first => ?_
    obtain rfl := Option.some.inj first
    exact notBlank
  have inner : (assignment.after.text ++ escape assignment.value.toList).dropWhile isBlank =
      escape assignment.value.toList := by
    refine assignment.after.dropWhile_append fun c first => ?_
    have opening := (written_escape _).isOpening_of_head? first
    exact not_isBlank_of_not_isWhiteSpace (not_isWhiteSpace_of_isOpening opening)
  rw [rawValue, outer, tail, dropSeparator, if_pos assignment.separator.isSeparator_char, inner]

/-- A line that is trimmed to a key, blanks and what follows them is the entry of that key. -/
theorem readEntry_gap (gap : Blanks) (number : Nat) :
    readEntry number (escape assignment.key.toList ++ (gap.text ++ assignment.tail)) =
      .ok ⟨number, assignment.key, assignment.value⟩ := by
  have split := (written_escape assignment.key.toList).splitKey_append (assignment.splitKey_gap gap)
  have key := (written_escape assignment.key.toList).unescape_eq
  have value := (written_escape assignment.value.toList).unescape_eq
  simp only [readEntry, splitEntry, split, rawValue_gap, decodePart, key, value, String.ofList_toList]
  rfl

/-- The value at the end of an assignment does not continue the line. -/
theorem continues_gap (gap : Blanks) :
    continues (escape assignment.key.toList ++ (gap.text ++ assignment.tail)) = false := by
  -- What precedes the value ends in a blank or in the separator.
  have closed : ∀ front : List Char,
      continues (front ++ assignment.separator.char :: assignment.after.text) = false := by
    intro front
    rcases List.eq_nil_or_concat assignment.after.text with shape | ⟨more, last, shape⟩
    · rw [shape]
      exact continues_append_plain (ne_of_holds assignment.separator.isSeparator_char (by decide)) front
    · have blank : isBlank last := assignment.after.blank last (by simp [shape])
      rw [shape, List.concat_eq_append, ← List.cons_append, ← List.append_assoc]
      exact continues_append_plain (ne_of_holds blank (by decide)) _
  have written := written_escape assignment.value.toList
  have whole := written.continues_append (closed (escape assignment.key.toList ++ gap.text))
  simpa [tail] using whole

/-- A key, blanks and what follows them are no comment. -/
theorem isSkipped_gap (gap : Blanks) :
    isSkipped (escape assignment.key.toList ++ (gap.text ++ assignment.tail)) = false := by
  -- Whatever the first character is, it has a property that comment marks lack.
  cases key : escape assignment.key.toList with
  | nil =>
    cases shape : gap.text with
    | nil =>
      have isSeparator := assignment.separator.isSeparator_char
      exact isSkipped_cons (ne_of_holds isSeparator (by decide)) (ne_of_holds isSeparator (by decide)) _
    | cons c more =>
      have blank : isBlank c := gap.blank c (by simp [shape])
      exact isSkipped_cons (ne_of_holds blank (by decide)) (ne_of_holds blank (by decide)) _
  | cons c more =>
    have opening := (written_escape assignment.key.toList).isOpening_of_head? (congrArg List.head? key)
    exact isSkipped_cons (ne_of_holds opening (by decide)) (ne_of_holds opening (by decide)) _

/-- Only the margin is trimmed from an assignment, unless its key is empty and blanks go with it. -/
theorem trimStart_text :
    ∃ gap : Blanks, Text.trimStart assignment.text =
      escape assignment.key.toList ++ (gap.text ++ assignment.tail) := by
  -- Trimming stops at the key, whose first character is no white space, or else at the separator.
  rw [text, Margin.trimStart_append]
  cases key : escape assignment.key.toList with
  | nil =>
    refine ⟨⟨[], by simp⟩, ?_⟩
    have blanks := fun c member => isWhiteSpace_of_isBlank (assignment.before.blank c member)
    rw [List.nil_append, List.nil_append, List.nil_append, Text.trimStart, List.dropWhile_append_of_pos blanks]
    exact List.dropWhile_cons_of_neg (by simp [assignment.separator.not_isWhiteSpace_char])
  | cons c more =>
    refine ⟨assignment.before, ?_⟩
    have opening := (written_escape assignment.key.toList).isOpening_of_head? (congrArg List.head? key)
    exact List.dropWhile_cons_of_neg (by simp [not_isWhiteSpace_of_isOpening opening])

/-- No assignment ends in a carriage return. -/
theorem dropReturn_text : Text.dropReturn assignment.text = assignment.text := by
  -- There is none from the separator on, and what stands before it is not at the end.
  have notReturn : assignment.separator.char ≠ '\r' := ne_of_holds assignment.separator.isSeparator_char (by decide)
  have none : '\r' ∉ assignment.after.text ++ escape assignment.value.toList := by
    rw [List.mem_append, not_or]
    exact ⟨assignment.after.notMem (by decide), (written_escape _).ending_notMem.2⟩
  have regrouped : assignment.text =
      (assignment.margin.text ++ (escape assignment.key.toList ++ assignment.before.text)) ++ assignment.tail := by
    simp [text]
  rw [regrouped, tail, Text.dropReturn_append_cons notReturn, Text.dropReturn_of_notMem none]

/-- No assignment has a line feed in it. -/
theorem unbroken_text : '\n' ∉ assignment.text := by
  have notFeed : assignment.separator.char ≠ '\n' := ne_of_holds assignment.separator.isSeparator_char (by decide)
  simp only [text, tail, List.mem_append, List.mem_cons, not_or]
  exact ⟨assignment.margin.unbroken, (written_escape _).ending_notMem.1, assignment.before.notMem (by decide),
    notFeed.symm, assignment.after.notMem (by decide), (written_escape _).ending_notMem.1⟩

end Assignment

/-- A line that is skipped gives no entry. -/
theorem readEntries_skipped {physical : List Char} (skipped : isSkipped (Text.trimStart physical)) (number : Nat)
    (rest : List (List Char)) :
    readEntries (assemble number none (physical :: rest)) = readEntries (assemble (number + 1) none rest) := by
  rw [assemble, if_pos skipped]

/-- An assignment on a line gives its entry. -/
theorem Assignment.readEntries_text (assignment : Assignment) (number : Nat) (rest : List (List Char)) :
    readEntries (assemble number none (assignment.text :: rest)) =
      (readEntries (assemble (number + 1) none rest)).map (⟨number, assignment.key, assignment.value⟩ :: ·) := by
  -- The text is neither skipped nor continued, so it is a logical line of its own.
  obtain ⟨gap, trimmed⟩ := assignment.trimStart_text
  have notSkipped := assignment.isSkipped_gap gap
  have closed := assignment.continues_gap gap
  have entry := assignment.readEntry_gap gap number
  rw [assemble, trimmed, notSkipped, closed]
  simp only [Bool.false_eq_true, if_false, readEntries, entry]
  cases readEntries (assemble (number + 1) none rest) <;> rfl

/-- Two texts start with a character together only if one of them does. -/
theorem head?_append_ne {c : Char} {front rest : List Char} (here : front.head? ≠ some c)
    (there : rest.head? ≠ some c) : (front ++ rest).head? ≠ some c := by
  cases front with
  | nil => exact there
  | cons first more => exact here

namespace Line

/-- No line has a line feed in it. -/
theorem unbroken_text (line : Line) : '\n' ∉ line.text := by
  cases line with
  | blank margin => exact margin.unbroken
  | comment margin mark remark =>
    have notFeed : mark.char ≠ '\n' := by cases mark <;> decide
    simp only [text, List.mem_append, List.mem_cons, not_or]
    exact ⟨margin.unbroken, notFeed.symm, remark.unbroken⟩
  | pair assignment => exact assignment.unbroken_text

/-- A line reads as the entry that it gives, with or without a carriage return at its end. -/
theorem readEntries_text (line : Line) {physical : List Char}
    (shown : physical = line.text ∨ physical = Text.dropReturn line.text) (number : Nat)
    (rest : List (List Char)) :
    readEntries (assemble number none (physical :: rest)) =
      (readEntries (assemble (number + 1) none rest)).map ((line.entry? number).toList ++ ·) := by
  -- A carriage return is white space on a blank line and part of the text of a comment.
  cases line with
  | blank margin =>
    have white : ∀ c ∈ physical, isWhiteSpace c := by
      rcases shown with rfl | rfl
      · exact margin.white
      · exact fun c member => margin.white c (Text.mem_of_mem_dropReturn member)
    have skipped : isSkipped (Text.trimStart physical) := by
      rw [Text.trimStart, List.dropWhile_eq_nil_iff.mpr white]
      rfl
    rw [readEntries_skipped skipped]
    cases readEntries (assemble (number + 1) none rest) <;> rfl
  | comment margin mark remark =>
    have notReturn : mark.char ≠ '\r' := by cases mark <;> decide
    obtain ⟨remainder, rfl⟩ : ∃ remainder, physical = margin.text ++ mark.char :: remainder := by
      rcases shown with rfl | rfl
      · exact ⟨remark.text, rfl⟩
      · exact ⟨_, Text.dropReturn_append_cons notReturn margin.text remark.text⟩
    have skipped : isSkipped (Text.trimStart (margin.text ++ mark.char :: remainder)) := by
      have notWhite : ¬isWhiteSpace mark.char := by simp [mark.not_isWhiteSpace_char]
      rw [margin.trimStart_append, Text.trimStart, List.dropWhile_cons_of_neg notWhite]
      exact mark.isSkipped_char remainder
    rw [readEntries_skipped skipped]
    cases readEntries (assemble (number + 1) none rest) <;> rfl
  | pair assignment =>
    obtain rfl : physical = assignment.text := by
      rcases shown with rfl | rfl
      · rfl
      · exact assignment.dropReturn_text
    exact assignment.readEntries_text number rest

/-- No line starts with a byte order mark. -/
theorem head?_text_ne (line : Line) : line.text.head? ≠ some '\ufeff' := by
  have margins : ∀ margin : Margin, margin.text.head? ≠ some '\ufeff' := fun margin first =>
    ne_of_holds (margin.white _ (List.mem_of_mem_head? first)) (by decide) rfl
  cases line with
  | blank margin => exact margins margin
  | comment margin mark remark =>
    refine head?_append_ne (margins margin) ?_
    cases mark <;> exact ne_of_beq_false rfl
  | pair assignment =>
    -- A byte order mark in a key has a backslash before it.
    refine head?_append_ne (margins assignment.margin) (head?_append_ne ?_ (head?_append_ne ?_ ?_))
    · exact fun first => ne_of_holds ((written_escape _).isOpening_of_head? first) (by decide) rfl
    · exact fun first => ne_of_holds (assignment.before.blank _ (List.mem_of_mem_head? first)) (by decide) rfl
    · exact fun first => ne_of_holds assignment.separator.isSeparator_char (by decide) (Option.some.inj first)

end Line

/-- A line with its ending reads as the entry that the line gives. -/
theorem readEntries_ended (line : Line) (ending : Ending) (number : Nat) (rest : List Char) :
    readEntries (assemble number none (Text.lines (line.text ++ ending.text ++ rest))) =
      (readEntries (assemble (number + 1) none (Text.lines rest))).map ((line.entry? number).toList ++ ·) := by
  cases ending with
  | lineFeed =>
    rw [Ending.text, List.append_assoc, List.singleton_append, Text.lines_append_lineFeed line.unbroken_text]
    exact line.readEntries_text (.inr rfl) number _
  | returnAndFeed =>
    -- The carriage return that is dropped is the one of the ending.
    have unbroken : '\n' ∉ line.text ++ ['\r'] := by simp [line.unbroken_text]
    have regrouped : line.text ++ Ending.returnAndFeed.text ++ rest = (line.text ++ ['\r']) ++ '\n' :: rest := by
      simp [Ending.text]
    rw [regrouped, Text.lines_append_lineFeed unbroken, Text.dropReturn_append_return]
    exact line.readEntries_text (.inl rfl) number _

/-- A last line without an ending reads as the entry that it gives. -/
theorem readEntries_unended (line : Line) (number : Nat) :
    readEntries (assemble number none (Text.lines line.text)) = .ok (line.entry? number).toList := by
  rw [Text.lines_of_unbroken line.unbroken_text]
  split
  · rename_i empty
    -- A line with nothing on it holds no pair.
    cases line with
    | blank => rfl
    | comment => simp [Line.text] at empty
    | pair => simp [Line.text, Assignment.text, Assignment.tail] at empty
  · rw [line.readEntries_text (.inl rfl)]
    exact congrArg Except.ok (List.append_nil _)

/-- The lines of a document read as the entries that they give, wherever their numbers begin. -/
theorem readEntries_characters (document : Document) (number : Nat) :
    readEntries (assemble number none (Text.lines document.characters)) =
      .ok (entriesFrom number document.lines) := by
  -- The lines before the rest only move its numbers, so the number stays quantified over.
  obtain ⟨ended, unended⟩ := document
  unfold Document.characters Document.lines
  induction ended generalizing number with
  | nil =>
    cases unended with
    | none => rfl
    | some line =>
      have last := readEntries_unended line number
      have one : entriesFrom number [line] = (line.entry? number).toList := by
        rw [entriesFrom_cons, entriesFrom_nil, List.append_nil]
      simpa [one] using last
  | cons first rest ih =>
    obtain ⟨line, ending⟩ := first
    rw [List.flatMap_cons, List.append_assoc, readEntries_ended, ih, List.map_cons, List.cons_append,
      entriesFrom_cons]
    rfl

/-- No document starts with a byte order mark. -/
theorem head?_characters_ne (document : Document) : document.characters.head? ≠ some '\ufeff' := by
  -- What comes first is a line, an ending or, when both are missing, what follows them.
  obtain ⟨ended, unended⟩ := document
  unfold Document.characters
  induction ended with
  | nil =>
    cases unended with
    | none => simp
    | some line => simpa using line.head?_text_ne
  | cons first rest ih =>
    obtain ⟨line, ending⟩ := first
    rw [List.flatMap_cons, List.append_assoc, List.append_assoc]
    refine head?_append_ne line.head?_text_ne (head?_append_ne ?_ ih)
    cases ending <;> exact ne_of_beq_false rfl

/-- A text that starts with no byte order mark has none to drop. -/
theorem dropByteOrderMark_of_head?_ne {text : List Char} (first : text.head? ≠ some '\ufeff') :
    dropByteOrderMark text = text := by
  unfold dropByteOrderMark
  split
  · simp at first
  · rfl

/--
Any pairs can be written in a document, and any document reads back as the pairs that are written in it.

They come in their order and each with the number of its line, whatever characters they are made of.
-/
theorem parse_reads_what_is_written :
    (∀ pairs, ∃ document : Document, document.pairs = pairs) ∧
      ∀ document : Document, parse document.text = .ok document.entries ∧
        (document.entries.map fun entry => (entry.key, entry.value)) = document.pairs := by
  refine ⟨fun pairs => ⟨.plain pairs, Document.pairs_plain pairs⟩, fun document => ⟨?_, map_entriesFrom 1 _⟩⟩
  have unmarked := dropByteOrderMark_of_head?_ne (head?_characters_ne document)
  rw [parse, Document.text, String.toList_ofList, logicalLines, unmarked]
  exact readEntries_characters document 1

end MessageCatalogue.Properties
