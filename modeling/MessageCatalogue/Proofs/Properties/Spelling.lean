import MessageCatalogue.Proofs.Properties.EscapedCodePoint

/-! Raw keys and values are spelled with plain characters and complete escapes, each standing for one character. -/

namespace MessageCatalogue.Properties

/-- A text of plain characters and of backslashes, each of them with the character that it escapes. -/
inductive IsWhole : List Char → Prop where
  | nil : IsWhole []
  | plain {c : Char} {raw : List Char} (unmarked : c ≠ '\\') (rest : IsWhole raw) : IsWhole (c :: raw)
  | escape (c : Char) {raw : List Char} (rest : IsWhole raw) : IsWhole ('\\' :: c :: raw)

/-- The text that a raw part stands for when a last backslash that escapes nothing has some meaning. -/
def unescapeWith (meaning : Except MalformedEscape (List Char)) : List Char → Except MalformedEscape (List Char)
  | [] => .ok []
  | '\\' :: 'u' :: a :: b :: c :: d :: rest =>
    match codePoint? [a, b, c, d] with
    | some point => (unescapeWith meaning rest).map (point :: ·)
    | none => .error ⟨[a, b, c, d]⟩
  | '\\' :: 'u' :: digits => .error ⟨digits⟩
  | '\\' :: c :: rest => (unescapeWith meaning rest).map (escapedChar c :: ·)
  -- Only the case of a lone backslash differs from the reading of escapes.
  | ['\\'] => meaning
  | c :: rest => (unescapeWith meaning rest).map (c :: ·)

/-- A plain character, a backslash with its letter, or an escape for a code point with its four characters. -/
inductive Spelling where
  | plain (c : Char) (unmarked : c ≠ '\\')
  | letter (c : Char) (noCodePoint : c ≠ 'u')
  | codePoint (digits : List Char) (four : digits.length = 4)

namespace Spelling

/-- A spelling as it is written. -/
def text : Spelling → List Char
  | .plain c _ => [c]
  | .letter c _ => ['\\', c]
  | .codePoint digits _ => '\\' :: 'u' :: digits

/-- A spelling stands for a character. -/
inductive Denotes : Spelling → Char → Prop where
  | plain {c : Char} (unmarked : c ≠ '\\') : Denotes (.plain c unmarked) c
  | letter {c : Char} (noCodePoint : c ≠ 'u') : Denotes (.letter c noCodePoint) (escapedChar c)
  | codePoint {digits : List Char} {point : Nat} (four : digits.length = 4) (writes : WritesNumber digits point)
      (proper : isSurrogate point = false) : Denotes (.codePoint digits four) (Char.ofNat point)

end Spelling

/-- A raw part is written with spellings in one way only, and these stand for the characters of a text one by one. -/
def Spells (raw text : List Char) : Prop :=
  ∃ spellings : List Spelling, raw = spellings.flatMap Spelling.text ∧
    (∀ others : List Spelling, raw = others.flatMap Spelling.text → others = spellings) ∧
    List.Forall₂ Spelling.Denotes spellings text

variable {raw text : List Char}

/-- A text that ends in no unescaped backslash is made of plain characters and escapes. -/
theorem isWhole_of_continues (whole : continues raw = false) : IsWhole raw := by
  -- A backslash is taken off together with the character behind it, so two characters may go at once.
  induction raw using List.twoStepInduction with
  | nil => exact .nil
  | singleton c =>
    refine .plain (fun mark => ?_) .nil
    subst mark
    cases whole
  | cons_cons c d rest ih ih' =>
    by_cases mark : c = '\\'
    · subst mark
      exact .escape d (ih (continues_cons_cons d rest ▸ whole))
    · exact .plain mark (ih' d (continues_cons mark (d :: rest) ▸ whole))

/-- A last backslash that escapes nothing stands for nothing. -/
theorem unescapeWith_ok_nil (raw : List Char) : unescapeWith (.ok []) raw = unescape raw := by
  fun_induction unescape raw with
  | case1 => rw [unescapeWith]
  | case2 a b c d rest point found ih => rw [unescapeWith, found, ih]
  | case3 a b c d rest found => rw [unescapeWith, found]
  | case4 few tooFew => rw [unescapeWith]; exact tooFew
  | case5 c rest noDigits noCodePoint ih => rw [unescapeWith, ih] <;> assumption
  | case6 => rw [unescapeWith]
  | case7 c rest noDigits noCodePoint noLetter noEnd ih => rw [unescapeWith, ih] <;> assumption

/-- No backslash is left over in a text that ends in no unescaped one, so nothing depends on its meaning. -/
theorem unescapeWith_of_continues (whole : continues raw = false)
    (meaning other : Except MalformedEscape (List Char)) : unescapeWith meaning raw = unescapeWith other raw := by
  -- What is left behind each character or escape ends in no unescaped backslash either.
  fun_induction unescapeWith meaning raw with
  | case1 => rw [unescapeWith]
  | case2 a b c d rest point found ih =>
    rw [continues_codePoint found] at whole
    rw [unescapeWith, found, ih whole]
  | case3 a b c d rest found => rw [unescapeWith, found]
  | case4 few tooFew => rw [unescapeWith]; exact tooFew
  | case5 c rest noDigits noCodePoint ih =>
    rw [continues_cons_cons] at whole
    rw [unescapeWith, ih whole] <;> assumption
  | case6 => cases whole
  | case7 c rest noDigits noCodePoint noLetter noEnd ih =>
    rw [continues_cons (unmarked_of_continues noLetter whole)] at whole
    rw [unescapeWith, ih whole] <;> assumption

/-- Texts that begin with spellings are equal only when the spellings are the same, and so is what is behind them. -/
theorem Spelling.text_append_inj {one other : Spelling} {rest rest' : List Char}
    (same : one.text ++ rest = other.text ++ rest') : one = other ∧ rest = rest' := by
  -- The first characters tell the three kinds apart.
  cases one with
  | plain c unmarked =>
    cases other with
    | plain => simpa [text] using same
    | letter | codePoint => exact absurd (List.cons.inj same).1 unmarked
  | letter c noCodePoint =>
    cases other with
    | plain _ unmarked => exact absurd (List.cons.inj same).1.symm unmarked
    | letter => simpa [text] using same
    | codePoint => exact absurd (List.cons.inj (List.cons.inj same).2).1 noCodePoint
  | codePoint digits four =>
    cases other with
    | plain _ unmarked => exact absurd (List.cons.inj same).1.symm unmarked
    | letter _ noCodePoint => exact absurd (List.cons.inj (List.cons.inj same).2).1.symm noCodePoint
    | codePoint digits' four' =>
      obtain ⟨rfl, rfl⟩ := List.append_inj (List.cons.inj (List.cons.inj same).2).2 (four.trans four'.symm)
      exact ⟨rfl, rfl⟩

/-- A text is written with spellings in at most one way. -/
theorem Spelling.flatMap_text_inj {one other : List Spelling}
    (same : one.flatMap Spelling.text = other.flatMap Spelling.text) : one = other := by
  -- No spelling is empty, so as many of them are needed for either way.
  have occupied : ∀ spelling : Spelling, spelling.text ≠ [] := fun spelling => by cases spelling <;> simp [text]
  induction one generalizing other with
  | nil =>
    cases other with
    | nil => rfl
    | cons first rest => simp [occupied first] at same
  | cons first rest ih =>
    cases other with
    | nil => simp [occupied first] at same
    | cons first' rest' =>
      obtain ⟨rfl, onward⟩ := text_append_inj same
      rw [ih onward]

/-- A raw part that stands for a text spells it. -/
theorem spells_of_standsFor (stands : StandsFor raw text) : Spells raw text := by
  -- Each step of the reading takes one spelling, and there is no other way to write the same raw part.
  obtain ⟨spellings, written, denoted⟩ : ∃ spellings : List Spelling,
      raw = spellings.flatMap Spelling.text ∧ List.Forall₂ Spelling.Denotes spellings text := by
    induction stands with
    | nil => exact ⟨[], rfl, .nil⟩
    | @plain c _ _ unmarked _ ih =>
      obtain ⟨spellings, rfl, denoted⟩ := ih
      exact ⟨.plain c unmarked :: spellings, rfl, .cons (.plain unmarked) denoted⟩
    | @letter c _ _ noCodePoint _ ih =>
      obtain ⟨spellings, rfl, denoted⟩ := ih
      exact ⟨.letter c noCodePoint :: spellings, rfl, .cons (.letter noCodePoint) denoted⟩
    | @codePoint digits _ _ _ four number proper _ ih =>
      obtain ⟨spellings, rfl, denoted⟩ := ih
      have writes := (hexNumber?_eq_some_iff four).mp number
      exact ⟨.codePoint digits four :: spellings, rfl, .cons (.codePoint four writes proper) denoted⟩
  exact ⟨spellings, written, fun others same => Spelling.flatMap_text_inj (same.symm.trans written), denoted⟩

/-- No raw part of a document ends in a backslash that escapes nothing. -/
theorem continues_of_mem_rawParts {document : String} {logical : LogicalLine}
    (member : logical ∈ logicalLines document.toList) : ∀ raw ∈ logical.rawParts, continues raw = false := by
  obtain ⟨key, value⟩ := continues_splitEntry member
  simpa [LogicalLine.rawParts] using ⟨key, value⟩

/--
The raw keys and values of a document are made of plain characters and escapes, so that what a last backslash by itself
might mean never matters, and a document with an escape for a code point that is cut short has no entries.

In a document that is read, each plain character and each complete escape stands for one character of a key or a value.
-/
theorem no_backslash_is_left_over (document : String) :
    (∀ logical ∈ logicalLines document.toList, ∀ raw ∈ logical.rawParts,
      IsWhole raw ∧ (∀ meaning, unescapeWith meaning raw = unescape raw) ∧
        ∀ before after, HasEscape raw before after → after.length < 4 → ∃ error, parse document = .error error) ∧
    ∀ entries, parse document = .ok entries →
      List.Forall₂ (fun logical entry => Spells (splitEntry logical.text).1 entry.key.toList ∧
        Spells (splitEntry logical.text).2 entry.value.toList) (logicalLines document.toList) entries := by
  constructor
  · intro logical member raw part
    have whole := continues_of_mem_rawParts member raw part
    refine ⟨isWhole_of_continues whole, fun meaning => ?_, fun before after escape short => ?_⟩
    · rw [← unescapeWith_ok_nil]
      exact unescapeWith_of_continues whole meaning _
    · cases read : parse document with
      | error error => exact ⟨error, rfl⟩
      | ok entries =>
        -- Each escape of a document that is read takes four characters.
        have each := exists_readEntry_iff_rawParts.mp (exists_parse_iff.mp ⟨entries, read⟩ logical member)
        exact absurd (exists_unescape_iff_takes.mp (each raw part) before after escape) (not_takes_of_tooFew short)
  · intro entries read
    have each := (List.forall₂_and_left _ _).mpr ⟨fun _ member => member, readEntries_eq_ok.mp read⟩
    refine each.imp fun logical entry own => ?_
    have isOf := isOf_of_readEntry own.1 own.2
    exact ⟨spells_of_standsFor isOf.key, spells_of_standsFor isOf.value⟩

-- At the end of a document the last of three backslashes continues the line and is gone, so that the others make one.
example : parse "a=\\u0041\\\\\\" = .ok [⟨1, "a", "A\\"⟩] := by rfl

end MessageCatalogue.Properties
