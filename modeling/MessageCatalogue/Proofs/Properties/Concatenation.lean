import MessageCatalogue.Proofs.Properties.Continuation
import MessageCatalogue.Proofs.Properties.RoundTrip

/-! A document whose last line leaves nothing unfinished is read apart from whatever follows it. -/

namespace MessageCatalogue.Properties

/-- A logical line that stands some physical lines further down. -/
def LogicalLine.moved (count : Nat) (logical : LogicalLine) : LogicalLine :=
  { logical with line := logical.line + count }

/-- An entry that stands some physical lines further down. -/
def Entry.moved (count : Nat) (entry : Entry) : Entry := { entry with line := entry.line + count }

/-- An error that stands some physical lines further down. -/
def EntryError.moved (count : Nat) (error : EntryError) : EntryError := { error with line := error.line + count }

/-- What is read when everything stands some physical lines further down. -/
def movedResult (count : Nat) : Except EntryError (List Entry) → Except EntryError (List Entry)
  | .ok entries => .ok (entries.map (·.moved count))
  | .error error => .error (error.moved count)

/-- What is read from two documents in a row, of which the first one to be malformed is reported. -/
def inSequence (first second : Except EntryError (List Entry)) : Except EntryError (List Entry) :=
  -- An error of the second document is reported only when the first one has none.
  match first, second with
  | .ok entries, .ok others => .ok (entries ++ others)
  | .ok _, .error error => .error error
  | .error error, _ => .error error

variable {number count : Nat}

/-- A logical line goes on further down as it does above. -/
theorem joined_moved (number count : Nat) (unfinished : Option LogicalLine) (physical : List Char) :
    joined (number + count) (unfinished.map (·.moved count)) physical =
      (joined number unfinished physical).moved count := by
  cases unfinished <;> rfl

/-- Whether a physical line is passed over does not depend on where the unfinished logical line began. -/
theorem isPassedOver_moved (count : Nat) (unfinished : Option LogicalLine) (physical : List Char) :
    isPassedOver (unfinished.map (·.moved count)) physical = isPassedOver unfinished physical := by
  cases unfinished <;> rfl

/-- Physical lines that stand further down form the same logical lines there. -/
theorem assemble_moved (number count : Nat) (unfinished : Option LogicalLine) (lines : List (List Char)) :
    assemble (number + count) (unfinished.map (·.moved count)) lines =
      (assemble number unfinished lines).map (·.moved count) := by
  -- What is finished and what is unfinished is moved line by line.
  induction lines generalizing number unfinished with
  | nil => cases unfinished <;> rfl
  | cons first rest ih =>
    have finished : finishedBy (number + count) (unfinished.map (·.moved count)) first =
        (finishedBy number unfinished first).map (·.moved count) := by
      rw [finishedBy, finishedBy, joined_moved, isPassedOver_moved, LogicalLine.moved]
      split <;> rfl
    have unfinished : unfinishedAfter (number + count) (unfinished.map (·.moved count)) first =
        (unfinishedAfter number unfinished first).map (·.moved count) := by
      rw [unfinishedAfter, unfinishedAfter, joined_moved, isPassedOver_moved, LogicalLine.moved]
      dsimp only
      split
      · rfl
      · split <;> rfl
    rw [assemble_cons, assemble_cons, finished, unfinished, Nat.add_right_comm, ih, List.map_append,
      Option.toList_map]

/-- A part is decoded further down as it is above. -/
theorem decodePart_moved (line count : Nat) (raw : List Char) :
    decodePart (line + count) raw = (decodePart line raw).mapError (·.moved count) := by
  unfold decodePart
  cases unescape raw <;> rfl

/-- An entry that stands further down is read from there. -/
theorem readEntry_moved (line count : Nat) (text : List Char) :
    (readEntry (line + count) text).map (fun entry => [entry]) =
      movedResult count ((readEntry line text).map fun entry => [entry]) := by
  -- The first part that is malformed is reported, and it is the same one further down.
  simp only [readEntry, decodePart_moved]
  cases decodePart line (splitEntry text).1 with
  | error error => rfl
  | ok key => cases decodePart line (splitEntry text).2 <;> rfl

/-- What is read from two documents in a row moves as a whole when both of them do. -/
theorem movedResult_inSequence (count : Nat) (first second : Except EntryError (List Entry)) :
    movedResult count (inSequence first second) =
      inSequence (movedResult count first) (movedResult count second) := by
  cases first with
  | error error => rfl
  | ok entries =>
    cases second with
    | error error => rfl
    | ok others => exact congrArg Except.ok List.map_append

/-- Three documents in a row can be grouped either way. -/
theorem inSequence_assoc (first second third : Except EntryError (List Entry)) :
    inSequence (inSequence first second) third = inSequence first (inSequence second third) := by
  -- The first of the three to fail decides either way.
  cases first with
  | error error => rfl
  | ok entries =>
    cases second with
    | error error => rfl
    | ok others =>
      cases third with
      | error error => rfl
      | ok more => exact congrArg Except.ok (List.append_assoc entries others more)

/-- The entry of the first logical line comes before those of the others. -/
theorem readEntries_cons (first : LogicalLine) (rest : List LogicalLine) :
    readEntries (first :: rest) =
      inSequence ((readEntry first.line first.text).map fun entry => [entry]) (readEntries rest) := by
  rw [readEntries]
  cases readEntry first.line first.text with
  | error error => rfl
  | ok entry => cases readEntries rest <;> rfl

/-- Entries that stand further down are read from there. -/
theorem readEntries_moved (count : Nat) (lines : List LogicalLine) :
    readEntries (lines.map (·.moved count)) = movedResult count (readEntries lines) := by
  induction lines with
  | nil => rfl
  | cons first rest ih =>
    rw [List.map_cons, readEntries_cons, readEntries_cons, movedResult_inSequence, ← readEntry_moved, ih]
    rfl

/-- Entries are read from logical lines one after the other. -/
theorem readEntries_append (front back : List LogicalLine) :
    readEntries (front ++ back) = inSequence (readEntries front) (readEntries back) := by
  induction front with
  | nil =>
    rw [List.nil_append]
    cases readEntries back <;> rfl
  | cons first rest ih => rw [List.cons_append, readEntries_cons, readEntries_cons, ih, inSequence_assoc]

/-- The physical lines of a document. -/
def physicalLines (text : String) : List (List Char) := Text.lines (dropByteOrderMark text.toList)

/-- A line is a comment when it begins with a comment mark after any white space. -/
def IsComment (line : List Char) : Prop := ∃ mark : CommentMark, (Text.trimStart line).head? = some mark.char

/-- The last line of a document is not continued, or it is a comment behind a line that is not continued. -/
def IsSettled (text : String) : Prop :=
  -- Behind a line that is continued, what looks like a comment belongs to the message.
  ∀ earlier last, physicalLines text = earlier ++ [last] → continues last = false ∨
    IsComment last ∧ ∀ previous ∈ earlier.getLast?, continues previous = false

/-- Comments hold nothing. -/
theorem IsComment.isSkipped {line : List Char} (comment : IsComment line) : isSkipped (Text.trimStart line) := by
  obtain ⟨mark, first⟩ := comment
  cases trimmed : Text.trimStart line with
  | nil => simp [trimmed] at first
  | cons c rest =>
    obtain rfl : c = mark.char := by simpa [trimmed] using first
    exact mark.isSkipped_char rest

/-- Behind lines of which the last one is not continued nothing is unfinished. -/
theorem unfinishedBehind_of_getLast? {lines : List (List Char)}
    (ended : ∀ last ∈ lines.getLast?, continues last = false) (number : Nat) :
    unfinishedBehind number none lines = none := by
  rcases List.eq_nil_or_concat lines with rfl | ⟨earlier, last, rfl⟩
  · rfl
  · rw [List.concat_eq_append] at ended ⊢
    rw [unfinishedBehind_append]
    -- Whatever is unfinished before the last line, that line finishes it.
    have closed := isClosed_unfinishedBehind isClosed_none number earlier
    exact unfinishedAfter_eq_none closed (ended last (by simp)) _

/-- At the end of a settled document nothing is unfinished. -/
theorem IsSettled.unfinishedBehind {text : String} (settled : IsSettled text) (number : Nat) :
    unfinishedBehind number none (physicalLines text) = none := by
  -- Only the last line can leave anything unfinished, and it does not do so when the document is settled.
  rcases List.eq_nil_or_concat (physicalLines text) with empty | ⟨earlier, last, whole⟩
  · rw [empty]
    rfl
  · rw [List.concat_eq_append] at whole
    rw [whole]
    rcases settled earlier last whole with ended | ⟨comment, ended⟩
    · exact unfinishedBehind_of_getLast? (by simpa using ended) number
    · -- A comment that begins no logical line would belong to an unfinished one.
      rw [unfinishedBehind_append, unfinishedBehind_of_getLast? ended]
      simp [Properties.unfinishedBehind, unfinishedAfter, isPassedOver, comment.isSkipped]

/-- Of two texts in a row, only the first one can begin with a byte order mark that is dropped. -/
theorem dropByteOrderMark_append {front : List Char} (occupied : front ≠ []) (back : List Char) :
    dropByteOrderMark (front ++ back) = dropByteOrderMark front ++ back := by
  obtain ⟨first, rest, rfl⟩ := List.exists_cons_of_ne_nil occupied
  by_cases mark : first = '\ufeff'
  · subst mark
    rfl
  · rw [List.cons_append, dropByteOrderMark_of_head?_ne (by simpa using mark),
      dropByteOrderMark_of_head?_ne (by simpa using mark), List.cons_append]

/-- A byte order mark takes no part in how the lines of a text are ended. -/
theorem isEnded_dropByteOrderMark {text : List Char} (ended : text.getLast? = some '\n') :
    Text.IsEnded (dropByteOrderMark text) ∧ (dropByteOrderMark text).count '\n' = text.count '\n' := by
  -- The mark stands at the beginning and is no line feed, so it does not matter to the end or the count.
  by_cases mark : text.head? = some '\ufeff'
  · obtain ⟨rest, rfl⟩ : ∃ rest, text = '\ufeff' :: rest := List.head?_eq_some_iff.mp mark
    have last : rest.getLast? = some '\n' := by
      cases rest with
      | nil => simp at ended
      | cons c more => simpa using ended
    exact ⟨Text.isEnded_of_getLast? last, (List.count_cons_of_ne (by decide)).symm⟩
  · rw [dropByteOrderMark_of_head?_ne mark]
    exact ⟨Text.isEnded_of_getLast? ended, rfl⟩

/--
A document that ends with a settled line is read apart from the document that follows it.

Its entries come first, and what is read behind it stands as many lines further down as it has.
-/
theorem parse_append {first second : String} (ended : first.toList.getLast? = some '\n')
    (unmarked : second.toList.head? ≠ some '\ufeff') (settled : IsSettled first) :
    parse (first ++ second) =
      match parse first, parse second with
      | .error error, _ => .error error
      | .ok entries, .ok others => .ok (entries ++ others.map (·.moved (first.toList.count '\n')))
      | .ok _, .error error => .error (error.moved (first.toList.count '\n')) := by
  -- Only the first document may begin with a mark, which is no line of its own.
  obtain ⟨lines, count⟩ := isEnded_dropByteOrderMark ended
  have occupied : first.toList ≠ [] := fun empty => by simp [empty] at ended
  -- Both documents consist of lines of their own.
  have split : physicalLines (first ++ second) = physicalLines first ++ physicalLines second := by
    rw [physicalLines, String.toList_append, dropByteOrderMark_append occupied, lines.lines_append, physicalLines,
      physicalLines, dropByteOrderMark_of_head?_ne unmarked]
  have length : (physicalLines first).length = first.toList.count '\n' := lines.length_lines.trans count
  -- The lines of the second one form logical lines as they do by themselves, but further down.
  have behind : assemble (1 + (physicalLines first).length) none (physicalLines second) =
      (logicalLines second.toList).map (·.moved (first.toList.count '\n')) :=
    length ▸ assemble_moved 1 _ none (physicalLines second)
  have whole : logicalLines (first ++ second).toList =
      logicalLines first.toList ++ (logicalLines second.toList).map (·.moved (first.toList.count '\n')) := by
    rw [← behind]
    exact (congrArg (assemble 1 none) split).trans (assemble_append (settled.unfinishedBehind 1) _)
  have sequence : parse (first ++ second) =
      inSequence (parse first) (movedResult (first.toList.count '\n') (parse second)) := by
    rw [parse, whole, readEntries_append, readEntries_moved]
    rfl
  rw [sequence]
  cases parse first with
  | error error => rfl
  | ok entries => cases parse second <;> rfl

/-- A backslash at the end of a comment does not reach over to the next document, which is continued by its own. -/
theorem comment_keeps_documents_apart :
    let first := "a=1\n# b\\\n"
    let second := "c=2\\\n3\n"
    first.toList.getLast? = some '\n' ∧ second.toList.head? ≠ some '\ufeff' ∧ IsSettled first ∧
      parse first = .ok [⟨1, "a", "1"⟩] ∧ parse second = .ok [⟨1, "c", "23"⟩] ∧
      parse (first ++ second) = .ok [⟨1, "a", "1"⟩, ⟨3, "c", "23"⟩] := by
  -- The first document ends in a comment, which settles it in spite of its backslash.
  intro first second
  have ended : first.toList.getLast? = some '\n' := by decide
  have unmarked : second.toList.head? ≠ some '\ufeff' := by decide
  have lines : physicalLines first = ["a=1".toList] ++ ["# b\\".toList] := by decide
  have settled : IsSettled first := by
    intro earlier last whole
    obtain ⟨rfl, same⟩ := List.append_inj' (lines.symm.trans whole) rfl
    obtain rfl := List.singleton_inj.mp same
    exact .inr ⟨⟨.hash, by decide⟩, by decide⟩
  have parsed : parse first = .ok [⟨1, "a", "1"⟩] := by decide
  have parsed' : parse second = .ok [⟨1, "c", "23"⟩] := by decide
  have count : first.toList.count '\n' = 2 := by decide
  have whole := parse_append ended unmarked settled
  rw [parsed, parsed', count] at whole
  exact ⟨ended, unmarked, settled, parsed, parsed', whole⟩

end MessageCatalogue.Properties
