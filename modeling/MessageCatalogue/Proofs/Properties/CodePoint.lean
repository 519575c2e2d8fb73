import Mathlib.Tactic.Ring
import MessageCatalogue.Proofs.Outcome
import MessageCatalogue.Proofs.Properties.Intact

/-! A raw part stands for a text unless one of its escapes for code points takes characters that denote none. -/

namespace MessageCatalogue.Properties

/-- The characters that the escapes for code points take in a raw part, at most four for each of them. -/
def codePointDigits : List Char → List (List Char)
  -- What an escape takes is not read again, so a backslash among it begins no other escape.
  | [] => []
  | '\\' :: 'u' :: a :: b :: c :: d :: rest => [a, b, c, d] :: codePointDigits rest
  | '\\' :: 'u' :: digits => [digits]
  | '\\' :: _ :: rest => codePointDigits rest
  | _ :: rest => codePointDigits rest

/-- Whether a number is set aside for one half of a character beyond the first plane. -/
def isSurrogate (point : Nat) : Bool := 0xD800 ≤ point && point ≤ 0xDFFF

/-- Whether characters behind an escape are too few, write no number or write the number of a surrogate. -/
def isMalformed (digits : List Char) : Bool :=
  digits.length < 4 || (hexNumber? digits).all isSurrogate

/-- A raw part stands for a text when each of its characters and complete escapes stands for a character of it. -/
inductive StandsFor : List Char → List Char → Prop where
  | nil : StandsFor [] []
  | plain {c : Char} {raw text : List Char} (unmarked : c ≠ '\\') (rest : StandsFor raw text) :
      StandsFor (c :: raw) (c :: text)
  | letter {c : Char} {raw text : List Char} (noCodePoint : c ≠ 'u') (rest : StandsFor raw text) :
      StandsFor ('\\' :: c :: raw) (escapedChar c :: text)
  | codePoint {digits raw text : List Char} {point : Nat} (four : digits.length = 4)
      (number : hexNumber? digits = some point) (proper : isSurrogate point = false) (rest : StandsFor raw text) :
      StandsFor ('\\' :: 'u' :: (digits ++ raw)) (Char.ofNat point :: text)

/-- A digit is smaller than its base. -/
theorem digit?_lt {base digit : Nat} {c : Char} (read : Text.digit? base c = some digit) : digit < base := by
  have small := (Option.filter_eq_some_iff.mp read).2
  simpa using small

/-- A number with some digits is smaller than the power of the base for one digit more. -/
theorem numberFrom?_lt {base number : Nat} {digits : List Char} {begun : Nat}
    (read : Text.numberFrom? base begun digits = some number) : number < (begun + 1) * base ^ digits.length := by
  -- Each digit makes what was read before it the base times as large.
  induction digits generalizing begun with
  | nil =>
    obtain rfl := Option.some.inj read
    simp
  | cons c rest ih =>
    rw [Text.numberFrom?] at read
    cases first : Text.digit? base c with
    | none => simp [first] at read
    | some digit =>
      rw [first] at read
      have small := digit?_lt first
      calc number
        _ < (base * begun + digit + 1) * base ^ rest.length := ih read
        _ ≤ (base * begun + base) * base ^ rest.length := Nat.mul_le_mul_right _ (by omega)
        _ = (begun + 1) * base ^ (c :: rest).length := by
          rw [List.length_cons]
          ring

/-- Four characters write a number of at most sixteen bits. -/
theorem hexNumber?_lt {digits : List Char} {number : Nat} (four : digits.length = 4)
    (read : hexNumber? digits = some number) : number < 0x10000 := by
  -- A plus sign in front leaves room for fewer digits still.
  unfold hexNumber? at read
  split at read
  · cases read
  · cases read
  · have bound := numberFrom?_lt read
    simp only [List.length_cons] at four
    rw [Nat.succ.inj four] at bound
    omega
  · have bound := numberFrom?_lt read
    rw [four] at bound
    omega

/-- A number of at most sixteen bits is that of a character unless it is set aside. -/
theorem charOf?_of_lt {point : Nat} (small : point < 0x10000) :
    Text.charOf? point = if isSurrogate point then none else some (Char.ofNat point) := by
  -- Surrogates are the only gap among these numbers.
  have valid : point.isValidChar ↔ isSurrogate point = false := by
    simp only [Nat.isValidChar, isSurrogate, Bool.and_eq_false_iff, decide_eq_false_iff_not]
    omega
  unfold Text.charOf?
  cases aside : isSurrogate point <;> simp [valid, aside]

/-- Four characters denote no character when they are malformed. -/
theorem codePoint?_eq_none_iff {digits : List Char} (four : digits.length = 4) :
    codePoint? digits = none ↔ isMalformed digits := by
  rw [codePoint?, isMalformed, four]
  cases number : hexNumber? digits with
  | none => simp
  | some point => simp [charOf?_of_lt (hexNumber?_lt four number)]

/-- Four characters denote the character whose number they write. -/
theorem codePoint?_eq_some_iff {digits : List Char} (four : digits.length = 4) {c : Char} :
    codePoint? digits = some c ↔
      ∃ point, hexNumber? digits = some point ∧ isSurrogate point = false ∧ Char.ofNat point = c := by
  rw [codePoint?]
  cases number : hexNumber? digits with
  | none => simp
  | some point => simp [charOf?_of_lt (hexNumber?_lt four number)]

/-- Characters among which no four can be taken are fewer than four. -/
theorem length_lt_of_tooFew {few : List Char} (tooFew : ∀ a b c d rest, few = a :: b :: c :: d :: rest → False) :
    few.length < 4 := by
  match few, tooFew with
  | [], _ | [_], _ | [_, _], _ | [_, _, _], _ => simp
  | a :: b :: c :: d :: rest, tooFew => exact absurd rfl (tooFew a b c d rest)

variable {raw text : List Char}

/-- A raw part fails with the first of its escapes for code points that is malformed. -/
theorem unescape_eq_error {malformed : MalformedEscape} :
    unescape raw = .error malformed ↔ (codePointDigits raw).find? isMalformed = some malformed.digits := by
  -- Both readers take the same characters off the raw part, case by case.
  obtain ⟨digits⟩ := malformed
  fun_induction unescape raw with
  | case1 => simp [codePointDigits]
  | case2 a b c d rest point found ih =>
    -- Digits of a character are no reason to stop, so the first malformed escape is among the rest.
    have proper : ¬ isMalformed [a, b, c, d] := fun broken => by
      simp [(codePoint?_eq_none_iff rfl).mpr broken] at found
    rw [map_error_iff, ih, codePointDigits, List.find?_cons_of_neg proper]
  | case3 a b c d rest found =>
    rw [codePointDigits, List.find?_cons_of_pos ((codePoint?_eq_none_iff rfl).mp found)]
    simp
  | case4 few tooFew =>
    -- The raw part ends before the escape has its four characters.
    rw [codePointDigits, List.find?_cons_of_pos (by simp [isMalformed, length_lt_of_tooFew tooFew])]
    · simp
    · exact tooFew
  | case5 c rest noDigits noCodePoint ih => rw [map_error_iff, ih, codePointDigits] <;> assumption
  | case6 => simp [codePointDigits]
  | case7 c rest noDigits noCodePoint noLetter noEnd ih =>
    rw [map_error_iff, ih, codePointDigits] <;> assumption

/-- An escape for a code point takes four characters at most. -/
theorem length_of_mem_codePointDigits {digits : List Char} (member : digits ∈ codePointDigits raw) :
    digits.length ≤ 4 := by
  -- Only at the end of the raw part are there fewer than four to take.
  fun_induction codePointDigits raw with
  | case1 => simp at member
  | case2 a b c d rest ih =>
    rcases List.mem_cons.mp member with rfl | later
    · simp
    · exact ih later
  | case3 few tooFew =>
    obtain rfl := List.mem_singleton.mp member
    exact Nat.le_of_lt (length_lt_of_tooFew tooFew)
  | case4 c rest _ _ ih => exact ih member
  | case5 c rest _ _ _ ih => exact ih member

/-- A digit is no backslash. -/
theorem backslash_notMem_of_numberFrom? {digits : List Char} {begun number : Nat}
    (read : Text.numberFrom? 16 begun digits = some number) : '\\' ∉ digits := by
  -- Every character has a value as a digit, which a backslash does not have.
  induction digits generalizing begun with
  | nil => simp
  | cons c rest ih =>
    rw [Text.numberFrom?] at read
    cases first : Text.digit? 16 c with
    | none => simp [first] at read
    | some digit =>
      rw [first] at read
      have other : '\\' ≠ c := by
        rintro rfl
        have none : Text.digit? 16 '\\' = none := by decide
        simp [none] at first
      exact List.not_mem_cons_of_ne_of_not_mem other (ih read)

/-- Characters that write a number hold no backslash. -/
theorem backslash_notMem_of_hexNumber? {digits : List Char} {number : Nat} (read : hexNumber? digits = some number) :
    '\\' ∉ digits := by
  unfold hexNumber? at read
  split at read
  · cases read
  · cases read
  · exact List.not_mem_cons_of_ne_of_not_mem (by decide) (backslash_notMem_of_numberFrom? read)
  · exact backslash_notMem_of_numberFrom? read

/-- The characters that are read as a character hold no backslash. -/
theorem backslash_notMem_of_codePoint? {a b c d point : Char} (found : codePoint? [a, b, c, d] = some point) :
    '\\' ∉ [a, b, c, d] := by
  obtain ⟨number, read, _⟩ := (codePoint?_eq_some_iff rfl).mp found
  exact backslash_notMem_of_hexNumber? read

/-- The characters of a code point do not matter to whether what stands behind them is continued. -/
theorem continues_codePoint {a b c d point : Char} (found : codePoint? [a, b, c, d] = some point)
    (rest : List Char) : continues ('\\' :: 'u' :: a :: b :: c :: d :: rest) = continues rest := by
  rw [continues_cons_cons]
  exact continues_append (continues_of_notMem (backslash_notMem_of_codePoint? found)) rest

/-- A raw part that ends in no unescaped backslash stands for the text that is read from it. -/
theorem standsFor_of_unescape (whole : continues raw = false) (read : unescape raw = .ok text) :
    StandsFor raw text := by
  -- What is left of the raw part behind each escape ends in no unescaped backslash either.
  fun_induction unescape raw generalizing text with
  | case1 =>
    obtain rfl := Except.ok.inj read
    exact .nil
  | case2 a b c d rest point found ih =>
    obtain ⟨own, later, rfl⟩ := map_ok_iff.mp read
    obtain ⟨number, written, proper, rfl⟩ := (codePoint?_eq_some_iff rfl).mp found
    rw [continues_codePoint found] at whole
    exact @StandsFor.codePoint [a, b, c, d] rest own number rfl written proper (ih whole later)
  | case3 => cases read
  | case4 => cases read
  | case5 c rest _ noCodePoint ih =>
    obtain ⟨own, later, rfl⟩ := map_ok_iff.mp read
    exact .letter noCodePoint (ih (continues_cons_cons c rest ▸ whole) later)
  | case6 => cases whole
  | case7 c rest _ _ noLetter _ ih =>
    obtain ⟨own, later, rfl⟩ := map_ok_iff.mp read
    have unmarked := unmarked_of_continues noLetter whole
    exact .plain unmarked (ih (continues_cons unmarked rest ▸ whole) later)

end MessageCatalogue.Properties
