import Mathlib.Data.Nat.Digits.Defs
import MessageCatalogue.Proofs.Properties.Malformed
import MessageCatalogue.Proofs.Text.Ascii

/-! An escape for a code point takes four hexadecimal digits, where a plus sign may stand in place of the first one. -/

namespace MessageCatalogue.Properties

/-- The hexadecimal digits in the order of their values, with small letters. -/
def figures : List Char :=
  ['0', '1', '2', '3', '4', '5', '6', '7', '8', '9', 'a', 'b', 'c', 'd', 'e', 'f']

/-- Whether a character is an ASCII hexadecimal digit, in either case. -/
def isHexadecimal (c : Char) : Bool := figures.contains c.toLower

/-- The number that hexadecimal digits write, the most significant of them first. -/
def hexadecimal (digits : List Char) : Nat :=
  Nat.ofDigits 16 (digits.reverse.map fun c => figures.idxOf c.toLower)

/-- Four characters write a number with hexadecimal digits alone, or with three of them behind a plus sign. -/
inductive WritesNumber : List Char → Nat → Prop where
  | digits {digits : List Char} (four : digits.length = 4) (each : ∀ c ∈ digits, isHexadecimal c) :
      WritesNumber digits (hexadecimal digits)
  | signed {digits : List Char} (three : digits.length = 3) (each : ∀ c ∈ digits, isHexadecimal c) :
      WritesNumber ('+' :: digits) (hexadecimal digits)

/-- Only ASCII characters are hexadecimal digits. -/
theorem toNat_lt_of_isHexadecimal {c : Char} (hex : isHexadecimal c) : c.toNat < 128 := by
  -- The sixteen digits are alphanumeric, and so is what they are spelled small from.
  have alphanumeric : figures.all Char.isAlphanum := by rfl
  have own : c.isAlphanum := by
    simpa using List.all_eq_true.mp alphanumeric c.toLower (List.contains_iff_mem.mp hex)
  have range := Text.toNat_of_isAlphanum own
  omega

/-- Only ASCII characters have a value as a digit. -/
theorem toNat_lt_of_digit? {base digit : Nat} {c : Char} (read : Text.digit? base c = some digit) :
    c.toNat < 128 := by
  -- Each of the three ranges ends at an ASCII character.
  have bounded : ∀ last : Char, c ≤ last → c.toNat ≤ last.toNat := fun last below => below
  obtain ⟨found, _⟩ := Option.filter_eq_some_iff.mp read
  split at found
  · rename_i range
    exact Nat.lt_of_le_of_lt (bounded '9' range.2) (by decide)
  · split at found
    · rename_i range
      exact Nat.lt_of_le_of_lt (bounded 'z' range.2) (by decide)
    · split at found
      · rename_i range
        exact Nat.lt_of_le_of_lt (bounded 'Z' range.2) (by decide)
      · cases found

/-- A hexadecimal digit has its place among all of them as its value. -/
theorem digit?_hexadecimal (c : Char) :
    Text.digit? 16 c = if isHexadecimal c then some (figures.idxOf c.toLower) else none := by
  -- Below the end of ASCII there are few enough characters to look at each of them.
  have ascii : ∀ point < 128, Text.digit? 16 (Char.ofNat point) =
      if isHexadecimal (Char.ofNat point) then some (figures.idxOf (Char.ofNat point).toLower) else none := by
    decide
  by_cases small : c.toNat < 128
  · simpa only [Char.ofNat_toNat] using ascii c.toNat small
  · have noDigit : isHexadecimal c = false :=
      Bool.eq_false_iff.mpr fun hex => small (toNat_lt_of_isHexadecimal hex)
    have noValue : Text.digit? 16 c = none :=
      Option.eq_none_iff_forall_ne_some.mpr fun digit read => small (toNat_lt_of_digit? read)
    simp [noDigit, noValue]

/-- A digit in front of others counts as often as they have numbers to write. -/
theorem hexadecimal_cons (c : Char) (rest : List Char) :
    hexadecimal (c :: rest) = figures.idxOf c.toLower * 16 ^ rest.length + hexadecimal rest := by
  simp only [hexadecimal, List.reverse_cons, List.map_append, List.map_cons, List.map_nil, Nat.ofDigits_append,
    Nat.ofDigits_singleton, List.length_map, List.length_reverse]
  ring

/-- Digits go on with a number that was begun when all of them are hexadecimal. -/
theorem numberFrom?_eq_some_iff {digits : List Char} {begun number : Nat} :
    Text.numberFrom? 16 begun digits = some number ↔
      (∀ c ∈ digits, isHexadecimal c) ∧ number = begun * 16 ^ digits.length + hexadecimal digits := by
  -- The first digit is added to what was begun, which therefore stays quantified over.
  induction digits generalizing begun with
  | nil =>
    have empty : hexadecimal [] = 0 := rfl
    simp [Text.numberFrom?, empty, eq_comm (a := begun)]
  | cons c rest ih =>
    rw [Text.numberFrom?, digit?_hexadecimal]
    cases hex : isHexadecimal c with
    | false => simp [hex]
    | true =>
      have moved : (16 * begun + figures.idxOf c.toLower) * 16 ^ rest.length + hexadecimal rest =
          begun * 16 ^ (c :: rest).length + hexadecimal (c :: rest) := by
        rw [hexadecimal_cons, List.length_cons]
        ring
      simp [hex, ih, moved]

/-- Four characters write a number exactly when they are read as one. -/
theorem hexNumber?_eq_some_iff {digits : List Char} {number : Nat} (four : digits.length = 4) :
    hexNumber? digits = some number ↔ WritesNumber digits number := by
  -- A plus sign is no digit, so it can only be the sign.
  have sign : isHexadecimal '+' = false := by decide
  constructor
  · intro read
    unfold hexNumber? at read
    split at read
    · cases read
    · cases read
    · obtain ⟨each, rfl⟩ := numberFrom?_eq_some_iff.mp read
      simpa using WritesNumber.signed (by simpa using four) each
    · obtain ⟨each, rfl⟩ := numberFrom?_eq_some_iff.mp read
      simpa using WritesNumber.digits four each
  · intro writes
    cases writes with
    | digits _ each =>
      have first : ∀ rest, digits ≠ '+' :: rest := by
        rintro rest rfl
        simp [sign] at each
      have some : digits ≠ [] := by
        rintro rfl
        cases four
      rw [hexNumber?]
      · exact numberFrom?_eq_some_iff.mpr ⟨each, by simp⟩
      · exact some
      · exact first []
      · exact first
    | @signed rest three each =>
      have some : rest ≠ [] := by
        rintro rfl
        cases three
      rw [hexNumber?]
      · exact numberFrom?_eq_some_iff.mpr ⟨each, by simp⟩
      · exact some

end MessageCatalogue.Properties
