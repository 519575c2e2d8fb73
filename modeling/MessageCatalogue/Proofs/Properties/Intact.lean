import MessageCatalogue.Proofs.Properties.Continuation
import MessageCatalogue.Proofs.Properties.Escape

/-! No escape is torn apart on the way from the physical lines of a document to its raw keys and values. -/

namespace MessageCatalogue.Properties

/-- A character other than a backslash takes no part in whether the line behind it is continued. -/
theorem continues_cons {c : Char} (unmarked : c ≠ '\\') (rest : List Char) : continues (c :: rest) = continues rest :=
  continues_append (continues_append_plain unmarked []) rest

/-- Neither does a backslash with the character that it escapes. -/
theorem continues_cons_cons (c : Char) (rest : List Char) : continues ('\\' :: c :: rest) = continues rest := by
  have escape : continues ['\\', c] = false := continues_append_marked (rfl : continues [] = false) c
  exact continues_append escape rest

/-- No logical line ends in a backslash that escapes nothing. -/
theorem continues_of_mem_assemble {unfinished : Option LogicalLine} (closed : IsClosed unfinished) (number : Nat)
    (lines : List (List Char)) :
    ∀ logical ∈ assemble number unfinished lines, continues logical.text = false := by
  -- What is finished is not continued, and what is unfinished at the end has lost its last backslash.
  induction lines generalizing number unfinished with
  | nil =>
    intro logical member
    exact closed logical (Option.mem_toList.mp member)
  | cons physical rest ih =>
    intro logical member
    rw [assemble_cons] at member
    rcases List.mem_append.mp member with finished | later
    · have finished := Option.mem_toList.mp finished
      rw [finishedBy] at finished
      split at finished
      · cases finished
      · rename_i ended
        obtain rfl := Option.some.inj finished
        simp only [Bool.or_eq_true, not_or, Bool.not_eq_true] at ended
        exact ended.2
    · exact ih (isClosed_unfinishedAfter number unfinished physical) _ logical later

/-- A character that escapes none behind it is no backslash in a line that ends in no unescaped backslash. -/
theorem unmarked_of_continues {c : Char} {rest : List Char}
    (noEscape : ∀ letter more, c = '\\' → rest = letter :: more → False) (whole : continues (c :: rest) = false) :
    c ≠ '\\' := by
  rintro rfl
  cases rest with
  | nil => cases whole
  | cons letter more => exact noEscape letter more rfl rfl

/-- A line that ends in no unescaped backslash is split into a key and a rest that do not either. -/
theorem continues_splitKey {line : List Char} (whole : continues line = false) :
    continues (splitKey line).1 = false ∧ continues (splitKey line).2 = false := by
  -- A backslash is taken together with the character that it escapes.
  fun_induction splitKey line with
  | case1 => exact ⟨rfl, rfl⟩
  | case2 c rest key after split ih =>
    rw [continues_cons_cons] at whole
    obtain ⟨own, behind⟩ := ih whole
    rw [split] at own behind
    exact ⟨(continues_cons_cons c key).trans own, behind⟩
  | case3 c rest noEscape ends => exact ⟨rfl, whole⟩
  | case4 c rest noEscape stays key after split ih =>
    -- A backslash that is read as a plain character would be the last one of the line.
    have unmarked := unmarked_of_continues noEscape whole
    rw [continues_cons unmarked] at whole
    obtain ⟨own, behind⟩ := ih whole
    rw [split] at own behind
    exact ⟨(continues_cons unmarked key).trans own, behind⟩

/-- Neither does the raw value in such a rest. -/
theorem continues_rawValue {after : List Char} (whole : continues after = false) :
    continues (rawValue after) = false := by
  -- Only blanks and a separator are left out.
  have outer : continues (after.dropWhile isBlank) = false := by rwa [continues_dropWhile (by decide)]
  rw [rawValue, continues_dropWhile (by decide)]
  cases shape : after.dropWhile isBlank with
  | nil => rfl
  | cons c rest =>
    rw [dropSeparator]
    split
    · rename_i separator
      rwa [shape, continues_cons (ne_of_holds separator (by decide))] at outer
    · rwa [shape] at outer

/-- The raw key and the raw value of a logical line are made of plain characters and complete escapes. -/
theorem continues_splitEntry {text : String} {logical : LogicalLine} (member : logical ∈ logicalLines text.toList) :
    continues (splitEntry logical.text).1 = false ∧ continues (splitEntry logical.text).2 = false := by
  -- Nothing is unfinished at the start of a document.
  have whole := continues_of_mem_assemble isClosed_none 1 _ logical member
  obtain ⟨key, after⟩ := continues_splitKey whole
  exact ⟨key, continues_rawValue after⟩

end MessageCatalogue.Properties
