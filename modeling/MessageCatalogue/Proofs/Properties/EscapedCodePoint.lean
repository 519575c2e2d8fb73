import MessageCatalogue.Proofs.Properties.Hexadecimal

/-! The four characters behind an escape for a code point decide which character it is, or that it is malformed. -/

namespace MessageCatalogue.Properties

/-- The raw key and the raw value of a logical line. -/
def LogicalLine.rawParts (logical : LogicalLine) : List (List Char) :=
  [(splitEntry logical.text).1, (splitEntry logical.text).2]

/-- A raw part has an escape for a code point between some characters and others, as its backslash is not escaped. -/
structure HasEscape (raw before after : List Char) : Prop where
  split : raw = before ++ '\\' :: 'u' :: after
  unescaped : continues before = false

/-- Four characters behind an escape write a code point that is no surrogate, and others follow them. -/
def Takes (after : List Char) (point : Nat) (rest : List Char) : Prop :=
  ∃ digits, after = digits ++ rest ∧ WritesNumber digits point ∧ isSurrogate point = false

/-- Every escape for a code point in a raw part adds that character to the text between what surrounds it. -/
def Contributes (raw text : List Char) : Prop :=
  ∀ before after, HasEscape raw before after → ∃ point rest front back, Takes after point rest ∧
    unescape before = .ok front ∧ unescape rest = .ok back ∧ text = front ++ Char.ofNat point :: back

variable {raw text : List Char}

/-- There are as many characters in a number as an escape takes. -/
theorem WritesNumber.length_eq {digits : List Char} {number : Nat} (writes : WritesNumber digits number) :
    digits.length = 4 := by
  cases writes with
  | digits four _ => exact four
  | signed three _ => simp [three]

/-- An escape whose four characters are read as a character takes them. -/
theorem takes_of_codePoint? {a b c d point : Char} {rest : List Char}
    (found : codePoint? [a, b, c, d] = some point) :
    ∃ number, Takes (a :: b :: c :: d :: rest) number rest ∧ Char.ofNat number = point := by
  obtain ⟨number, read, proper, same⟩ := (codePoint?_eq_some_iff rfl).mp found
  exact ⟨number, ⟨[a, b, c, d], rfl, (hexNumber?_eq_some_iff rfl).mp read, proper⟩, same⟩

/-- Four characters that write no character are not taken. -/
theorem not_takes_of_codePoint? {a b c d : Char} {rest : List Char} (none : codePoint? [a, b, c, d] = none) :
    ¬ ∃ point rest', Takes (a :: b :: c :: d :: rest) point rest' := by
  rintro ⟨point, rest', digits, split, writes, proper⟩
  -- The four characters at the front are the ones in question.
  have same : [a, b, c, d] = digits := by
    have front := congrArg (List.take 4) split
    rwa [List.take_left' writes.length_eq] at front
  have number := (hexNumber?_eq_some_iff writes.length_eq).mpr writes
  have found := (codePoint?_eq_some_iff writes.length_eq).mpr ⟨point, number, proper, rfl⟩
  rw [← same, none] at found
  cases found

/-- Fewer than four characters are not taken either. -/
theorem not_takes_of_tooFew {few : List Char} (tooFew : few.length < 4) :
    ¬ ∃ point rest, Takes few point rest := by
  rintro ⟨point, rest, digits, rfl, writes, _⟩
  rw [List.length_append, writes.length_eq] at tooFew
  omega

/-- A character other than a backslash stands in front of every escape behind it. -/
theorem hasEscape_cons_iff {c : Char} {rest before after : List Char} (unmarked : c ≠ '\\') :
    HasEscape (c :: rest) before after ↔ ∃ inner, before = c :: inner ∧ HasEscape rest inner after := by
  -- An escape begins with a backslash, so it does not begin at the first character.
  constructor
  · rintro ⟨split, unescaped⟩
    cases before with
    | nil => exact absurd (List.cons.inj split).1 unmarked
    | cons first inner =>
      obtain ⟨rfl, onward⟩ := List.cons.inj split
      exact ⟨inner, rfl, onward, (continues_cons unmarked inner).symm.trans unescaped⟩
  · rintro ⟨inner, rfl, rfl, unescaped⟩
    exact ⟨rfl, (continues_cons unmarked inner).trans unescaped⟩

/-- So do characters among which there is no backslash. -/
theorem hasEscape_append_iff {digits rest before after : List Char} (unmarked : '\\' ∉ digits) :
    HasEscape (digits ++ rest) before after ↔ ∃ inner, before = digits ++ inner ∧ HasEscape rest inner after := by
  -- The characters are put in front of the rest one by one.
  induction digits generalizing before with
  | nil => simp
  | cons c digits ih =>
    rw [List.mem_cons, not_or] at unmarked
    rw [List.cons_append, hasEscape_cons_iff (Ne.symm unmarked.1)]
    simp only [ih unmarked.2]
    constructor
    · rintro ⟨_, rfl, inner, rfl, escape⟩
      exact ⟨inner, rfl, escape⟩
    · rintro ⟨inner, rfl, escape⟩
      exact ⟨_, rfl, inner, rfl, escape⟩

/-- A backslash with the character that it escapes is an escape for a code point or stands in front of one. -/
theorem hasEscape_marked_iff {c : Char} {rest before after : List Char} :
    HasEscape ('\\' :: c :: rest) before after ↔
      (before = [] ∧ c = 'u' ∧ after = rest) ∨ ∃ inner, before = '\\' :: c :: inner ∧ HasEscape rest inner after := by
  constructor
  · rintro ⟨split, unescaped⟩
    -- An escape cannot start with the second of the two characters, as it is escaped itself.
    obtain _ | ⟨first, _ | ⟨second, inner⟩⟩ := before
    · obtain ⟨rfl, rfl⟩ := by simpa using split
      exact .inl ⟨rfl, rfl, rfl⟩
    · obtain ⟨rfl, _⟩ := List.cons.inj split
      cases unescaped
    · obtain ⟨rfl, rfl, onward⟩ := by simpa using split
      exact .inr ⟨inner, rfl, onward, (continues_cons_cons c inner).symm.trans unescaped⟩
  · rintro (⟨rfl, rfl, rfl⟩ | ⟨inner, rfl, rfl, unescaped⟩)
    · exact ⟨rfl, rfl⟩
    · exact ⟨rfl, (continues_cons_cons c inner).trans unescaped⟩

/-- A character is no backslash when neither an escape nor the end of the raw part begins with it. -/
theorem unmarked_of_plain {c : Char} {rest : List Char}
    (noLetter : ∀ letter more, c = '\\' → rest = letter :: more → False) (noEnd : c = '\\' → rest = [] → False) :
    c ≠ '\\' := by
  intro same
  cases rest with
  | nil => exact noEnd same rfl
  | cons letter more => exact noLetter letter more same rfl

/-- A raw part that has a text gets a character of it from each of its escapes for code points. -/
theorem contributes_of_unescape (read : unescape raw = .ok text) : Contributes raw text := by
  intro before after escape
  -- What is read in front of an escape is in front of its character, so both grow together.
  fun_induction unescape raw generalizing before text with
  | case1 =>
    have none := escape.split
    simp at none
  | case2 a b c d rest point found ih =>
    obtain ⟨own, later, rfl⟩ := map_ok_iff.mp read
    rcases hasEscape_marked_iff.mp escape with ⟨rfl, _, rfl⟩ | ⟨inner, rfl, behind⟩
    · obtain ⟨number, takes, rfl⟩ := takes_of_codePoint? found
      exact ⟨number, rest, [], own, takes, rfl, later, rfl⟩
    · -- The four characters of this escape are no part of another one.
      obtain ⟨inner, rfl, further⟩ :=
        (hasEscape_append_iff (backslash_notMem_of_codePoint? found)).mp behind
      obtain ⟨number, rest, front, back, takes, readFront, readBack, rfl⟩ := ih later inner further
      refine ⟨number, rest, point :: front, back, takes, ?_, readBack, rfl⟩
      show unescape ('\\' :: 'u' :: a :: b :: c :: d :: inner) = _
      rw [unescape, found, readFront]
      rfl
  | case3 => cases read
  | case4 => cases read
  | case5 c rest noDigits noCodePoint ih =>
    obtain ⟨own, later, rfl⟩ := map_ok_iff.mp read
    rcases hasEscape_marked_iff.mp escape with ⟨_, same, _⟩ | ⟨inner, rfl, behind⟩
    · exact absurd same noCodePoint
    · obtain ⟨number, rest, front, back, takes, readFront, readBack, rfl⟩ := ih later inner behind
      refine ⟨number, rest, escapedChar c :: front, back, takes, ?_, readBack, rfl⟩
      rw [unescape_marked noCodePoint, readFront]
      rfl
  | case6 =>
    have short := congrArg List.length escape.split
    simp only [List.length_append, List.length_cons, List.length_nil] at short
    omega
  | case7 c rest noDigits noCodePoint noLetter noEnd ih =>
    obtain ⟨own, later, rfl⟩ := map_ok_iff.mp read
    have unmarked := unmarked_of_plain noLetter noEnd
    obtain ⟨inner, rfl, behind⟩ := (hasEscape_cons_iff unmarked).mp escape
    obtain ⟨number, rest, front, back, takes, readFront, readBack, rfl⟩ := ih later inner behind
    refine ⟨number, rest, c :: front, back, takes, ?_, readBack, rfl⟩
    rw [unescape_cons unmarked, readFront]
    rfl

/-- A raw part without a text has an escape for a code point behind which nothing can be taken. -/
theorem exists_escape_of_unescape_error {malformed : MalformedEscape} (failed : unescape raw = .error malformed) :
    ∃ before after, HasEscape raw before after ∧ ¬ ∃ point rest, Takes after point rest := by
  -- An escape further on stands behind everything that was read before it.
  fun_induction unescape raw with
  | case1 => cases failed
  | case2 a b c d rest point found ih =>
    obtain ⟨before, after, escape, refused⟩ := ih (map_error_iff.mp failed)
    have behind := (hasEscape_append_iff (backslash_notMem_of_codePoint? found)).mpr ⟨before, rfl, escape⟩
    exact ⟨_, after, hasEscape_marked_iff.mpr (.inr ⟨_, rfl, behind⟩), refused⟩
  | case3 a b c d rest found =>
    exact ⟨[], _, hasEscape_marked_iff.mpr (.inl ⟨rfl, rfl, rfl⟩), not_takes_of_codePoint? found⟩
  | case4 few tooFew =>
    exact ⟨[], few, hasEscape_marked_iff.mpr (.inl ⟨rfl, rfl, rfl⟩), not_takes_of_tooFew (length_lt_of_tooFew tooFew)⟩
  | case5 c rest noDigits noCodePoint ih =>
    obtain ⟨before, after, escape, refused⟩ := ih (map_error_iff.mp failed)
    exact ⟨_, after, hasEscape_marked_iff.mpr (.inr ⟨before, rfl, escape⟩), refused⟩
  | case6 => cases failed
  | case7 c rest noDigits noCodePoint noLetter noEnd ih =>
    obtain ⟨before, after, escape, refused⟩ := ih (map_error_iff.mp failed)
    exact ⟨_, after, (hasEscape_cons_iff (unmarked_of_plain noLetter noEnd)).mpr ⟨before, rfl, escape⟩, refused⟩

/-- A raw part has a text exactly when each of its escapes for code points can take four characters. -/
theorem exists_unescape_iff_takes :
    (∃ text, unescape raw = .ok text) ↔
      ∀ before after, HasEscape raw before after → ∃ point rest, Takes after point rest := by
  -- The escapes of a text were all taken, and where there is no text one of them was not.
  constructor
  · rintro ⟨text, read⟩ before after escape
    obtain ⟨point, rest, _, _, takes, _⟩ := contributes_of_unescape read before after escape
    exact ⟨point, rest, takes⟩
  · intro each
    cases read : unescape raw with
    | ok text => exact ⟨text, rfl⟩
    | error malformed =>
      obtain ⟨before, after, escape, refused⟩ := exists_escape_of_unescape_error read
      exact absurd (each before after escape) refused

/-- A logical line gives an entry exactly when both of its raw parts have a text. -/
theorem exists_readEntry_iff_rawParts {logical : LogicalLine} :
    (∃ entry, readEntry logical.line logical.text = .ok entry) ↔
      ∀ raw ∈ logical.rawParts, ∃ text, unescape raw = .ok text := by
  -- The entry is made of the texts of the two parts.
  simp only [LogicalLine.rawParts, List.forall_mem_cons, List.not_mem_nil, false_imp_iff, implies_true, and_true]
  constructor
  · rintro ⟨entry, read⟩
    obtain ⟨key, value, _⟩ := readEntry_eq_ok.mp read
    exact ⟨⟨_, key⟩, ⟨_, value⟩⟩
  · rintro ⟨⟨key, readKey⟩, ⟨value, readValue⟩⟩
    refine ⟨⟨logical.line, String.ofList key, String.ofList value⟩, readEntry_eq_ok.mpr ?_⟩
    exact ⟨by rwa [String.toList_ofList], by rwa [String.toList_ofList], rfl⟩

/-- A document is read exactly when each of its logical lines gives an entry. -/
theorem exists_parse_iff {text : String} :
    (∃ entries, parse text = .ok entries) ↔
      ∀ logical ∈ logicalLines text.toList, ∃ entry, readEntry logical.line logical.text = .ok entry := by
  -- The document fails with the first line that gives no entry.
  constructor
  · rintro ⟨entries, read⟩ logical member
    have each := readEntries_eq_ok.mp read
    obtain ⟨index, bound, rfl⟩ := List.mem_iff_getElem.mp member
    exact ⟨_, each.get bound (each.length_eq ▸ bound)⟩
  · intro each
    cases read : parse text with
    | ok entries => exact ⟨entries, rfl⟩
    | error error =>
      obtain ⟨earlier, failing, later, split, _, fails⟩ := readEntries_eq_error.mp read
      obtain ⟨entry, own⟩ := each failing (by simp [split])
      cases own.symm.trans fails

/--
A document is read exactly when every escape for a code point in its raw keys and values is followed there by four
characters that write one, and each escape then adds the character with that code point.

Four characters write a code point when they are hexadecimal digits, or a plus sign with three of them, and the number
is that of no surrogate. A backslash that is escaped itself begins no escape.
-/
theorem escapes_take_four_characters (text : String) :
    ((∃ entries, parse text = .ok entries) ↔
      ∀ logical ∈ logicalLines text.toList, ∀ raw ∈ logical.rawParts, ∀ before after,
        HasEscape raw before after → ∃ point rest, Takes after point rest) ∧
    ∀ entries, parse text = .ok entries →
      List.Forall₂ (fun logical entry => Contributes (splitEntry logical.text).1 entry.key.toList ∧
        Contributes (splitEntry logical.text).2 entry.value.toList) (logicalLines text.toList) entries := by
  -- The condition is carried from escapes to raw parts, from these to lines and from lines to the document.
  constructor
  · simp only [exists_parse_iff, exists_readEntry_iff_rawParts, exists_unescape_iff_takes]
  · intro entries read
    refine (readEntries_eq_ok.mp read).imp fun logical entry own => ?_
    obtain ⟨key, value, _⟩ := readEntry_eq_ok.mp own
    exact ⟨contributes_of_unescape key, contributes_of_unescape value⟩

/-- A plus sign is taken for the first of four digits, so that three hexadecimal digits write a character. -/
theorem plus_sign_passes_for_digit :
    ¬ ∀ text entries, parse text = .ok entries → ∀ logical ∈ logicalLines text.toList, ∀ raw ∈ logical.rawParts,
      ∀ before after, HasEscape raw before after →
        ∃ digits rest, after = digits ++ rest ∧ digits.length = 4 ∧ ∀ c ∈ digits, isHexadecimal c := by
  intro every
  have read : parse "a=\\u+041" = .ok [⟨1, "a", "A"⟩] := by cbv
  have escape : HasEscape ['\\', 'u', '+', '0', '4', '1'] [] ['+', '0', '4', '1'] := ⟨rfl, rfl⟩
  have parts : (⟨1, "a=\\u+041".toList⟩ : LogicalLine).rawParts = [['a'], ['\\', 'u', '+', '0', '4', '1']] := by cbv
  have line : logicalLines "a=\\u+041".toList = [⟨1, "a=\\u+041".toList⟩] := by cbv
  obtain ⟨digits, rest, split, four, each⟩ :=
    every _ _ read _ (by rw [line]; exact List.mem_singleton_self _) _ (by rw [parts]; simp) _ _ escape
  -- The sign is the first of the four characters, and it is no digit.
  obtain _ | ⟨first, digits⟩ := digits
  · cases four
  · obtain ⟨rfl, _⟩ := List.cons.inj split
    have impossible : isHexadecimal '+' = true := each '+' List.mem_cons_self
    cases impossible

end MessageCatalogue.Properties
