import MessageCatalogue.Proofs.Text.WhiteSpace
import MessageCatalogue.Properties.Document

/-! Any text can be written with escapes so that it is read back and takes part in nothing around it. -/

namespace MessageCatalogue.Properties

/-- A character as it is written in a key or a value. -/
def escapeChar (c : Char) : List Char :=
  -- Letters and digits stay bare, since an escape in front of them could have a meaning of its own.
  if c = '\n' then ['\\', 'n']
  else if c = '\r' then ['\\', 'r']
  else if c.isAlphanum then [c]
  else ['\\', c]

/-- A text as it is written in a key or a value. -/
def escape (text : List Char) : List Char := text.flatMap escapeChar

/-- The raw forms of a text, where a character stands for itself or a letter behind a backslash stands for it. -/
inductive Written : List Char → List Char → Prop where
  | nil : Written [] []
  | plain {c : Char} {text raw : List Char} (alphanumeric : c.isAlphanum) (rest : Written text raw) :
      Written (c :: text) (c :: raw)
  | marked {letter : Char} {text raw : List Char} (noCodePoint : letter ≠ 'u')
      (noEnding : letter ≠ '\n' ∧ letter ≠ '\r') (rest : Written text raw) :
      Written (escapedChar letter :: text) ('\\' :: letter :: raw)

/-- A character with a property is none without it. -/
theorem ne_of_holds {property : Char → Bool} {c other : Char} (holds : property c)
    (not : property other = false) : c ≠ other := by
  rintro rfl
  simp [holds] at not

/-- Escaping writes a text in such a form. -/
theorem written_escape (text : List Char) : Written text (escape text) := by
  -- Characters of line endings have letters of their own, and others follow the backslash themselves.
  induction text with
  | nil => exact .nil
  | cons c rest ih =>
    rw [escape, List.flatMap_cons, ← escape, escapeChar]
    split
    · subst c
      exact .marked (by decide : 'n' ≠ 'u') (by decide) ih
    · rename_i notFeed
      split
      · subst c
        exact .marked (by decide : 'r' ≠ 'u') (by decide) ih
      · rename_i notReturn
        split
        · exact .plain ‹_› ih
        · rename_i other
          -- The letters with a meaning of their own are alphanumeric.
          have different : ∀ letter : Char, letter.isAlphanum → c ≠ letter := fun letter alphanumeric =>
            (ne_of_holds alphanumeric (by simpa using other)).symm
          have same : escapedChar c = c := by
            simp [escapedChar, different 't' (by decide), different 'n' (by decide), different 'r' (by decide),
              different 'f' (by decide)]
          have written := Written.marked (different 'u' (by decide)) ⟨notFeed, notReturn⟩ ih
          rwa [same] at written

example : escape "a=b\n".toList = "a\\=b\\n".toList := by decide

/-- Blanks are white space. -/
theorem isWhiteSpace_of_isBlank {c : Char} (blank : isBlank c) : isWhiteSpace c := by
  simp only [isBlank, Bool.or_eq_true, beq_iff_eq] at blank
  rcases blank with (rfl | rfl) | rfl <;> decide

/-- Whether a written text may start with a character, which is alphanumeric or a backslash. -/
def isOpening (c : Char) : Bool := c.isAlphanum || c == '\\'

/-- A text starts with no white space once it is written. -/
theorem not_isWhiteSpace_of_isOpening {c : Char} (opening : isOpening c) : isWhiteSpace c = false := by
  rcases Bool.or_eq_true_iff.mp opening with alphanumeric | mark
  · exact Text.isWhiteSpace_of_isAlphanum alphanumeric
  · obtain rfl := beq_iff_eq.mp mark
    decide

/-- What is no white space is no blank either. -/
theorem not_isBlank_of_not_isWhiteSpace {c : Char} (not : isWhiteSpace c = false) : isBlank c = false := by
  refine Bool.eq_false_iff.mpr fun blank => ?_
  simp [isWhiteSpace_of_isBlank blank] at not

variable {text raw : List Char}

/-- A written text starts with such a character unless it is empty. -/
theorem Written.isOpening_of_head? (written : Written text raw) {c : Char} (first : raw.head? = some c) :
    isOpening c := by
  -- The first character decides how the text was written.
  cases written with
  | nil => simp at first
  | plain alphanumeric =>
    obtain rfl := Option.some.inj first
    simp [isOpening, alphanumeric]
  | marked =>
    obtain rfl := Option.some.inj first
    decide

/-- No character of a line ending is left in a written text. -/
theorem Written.ending_notMem (written : Written text raw) : '\n' ∉ raw ∧ '\r' ∉ raw := by
  -- Neither of the two is alphanumeric, and a letter behind a backslash is neither of them.
  induction written with
  | nil => simp
  | plain alphanumeric rest ih =>
    have notFeed := ne_of_holds alphanumeric (by decide : '\n'.isAlphanum = false)
    have notReturn := ne_of_holds alphanumeric (by decide : '\r'.isAlphanum = false)
    exact ⟨List.not_mem_cons_of_ne_of_not_mem notFeed.symm ih.1,
      List.not_mem_cons_of_ne_of_not_mem notReturn.symm ih.2⟩
  | marked noCodePoint noEnding rest ih => simp [noEnding.1.symm, noEnding.2.symm, ih]

/-- A character other than a backslash stands for itself. -/
theorem unescape_cons {c : Char} (plain : c ≠ '\\') (rest : List Char) :
    unescape (c :: rest) = (unescape rest).map (c :: ·) := by
  rw [unescape] <;> simp [plain]

/-- A backslash gives the letter after it its meaning, unless a code point follows. -/
theorem unescape_marked {letter : Char} (noCodePoint : letter ≠ 'u') (rest : List Char) :
    unescape ('\\' :: letter :: rest) = (unescape rest).map (escapedChar letter :: ·) := by
  rw [unescape] <;> simp [noCodePoint]

/-- A written text stands for the text itself. -/
theorem Written.unescape_eq (written : Written text raw) : unescape raw = .ok text := by
  -- One written character is read at a time, and what it stands for is put in front of the rest.
  induction written with
  | nil => rw [unescape]
  | plain alphanumeric rest ih =>
    rw [unescape_cons (ne_of_holds alphanumeric (by decide)), ih]
    rfl
  | marked noCodePoint noEnding rest ih =>
    rw [unescape_marked noCodePoint, ih]
    rfl

/-- A written key is split off in front of anything that starts no key. -/
theorem Written.splitKey_append (written : Written text raw) {after : List Char}
    (stop : splitKey after = ([], after)) : splitKey (raw ++ after) = (raw, after) := by
  -- An alphanumeric character ends no key, and a backslash keeps the one behind it from ending it.
  induction written with
  | nil => exact stop
  | @plain c _ _ alphanumeric rest ih =>
    have notSeparator : isSeparator c = false := by
      simp only [isSeparator, Bool.or_eq_false_iff, beq_eq_false_iff_ne]
      exact ⟨ne_of_holds alphanumeric (by decide), ne_of_holds alphanumeric (by decide)⟩
    have opening : isOpening c := by simp [isOpening, alphanumeric]
    have notBlank := not_isBlank_of_not_isWhiteSpace (not_isWhiteSpace_of_isOpening opening)
    rw [List.cons_append, splitKey]
    · simp [notSeparator, notBlank, ih]
    · exact fun _ _ same => absurd same (ne_of_holds alphanumeric (by decide))
  | marked noCodePoint noEnding rest ih =>
    rw [List.cons_append, List.cons_append, splitKey, ih]

/-- A line that ends in a character other than a backslash is not continued. -/
theorem continues_append_plain {c : Char} (plain : c ≠ '\\') (line : List Char) :
    continues (line ++ [c]) = false := by
  simp [continues, plain]

/-- A backslash with its letter does not continue a line that is not continued without them. -/
theorem continues_append_marked {line : List Char} (closed : continues line = false) (letter : Char) :
    continues (line ++ ['\\', letter]) = false := by
  by_cases mark : letter = '\\'
  · subst mark
    -- Two more backslashes keep the parity of the run.
    simpa [continues, Nat.add_assoc, Nat.add_mod] using closed
  · exact List.append_cons line '\\' [letter] ▸ continues_append_plain mark _

/-- A written text does not continue a line that is not continued without it. -/
theorem Written.continues_append (written : Written text raw) {line : List Char}
    (closed : continues line = false) : continues (line ++ raw) = false := by
  -- The line before the text grows by one written character at a time, so it stays quantified over.
  induction written generalizing line with
  | nil => rwa [List.append_nil]
  | plain alphanumeric rest ih =>
    rw [List.append_cons]
    exact ih (continues_append_plain (ne_of_holds alphanumeric (by decide)) line)
  | @marked letter _ raw _ _ _ ih =>
    rw [List.append_cons, List.append_cons, List.append_assoc line]
    exact ih (continues_append_marked closed letter)

end MessageCatalogue.Properties
