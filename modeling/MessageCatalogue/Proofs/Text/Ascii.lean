import Mathlib

/-! Small spelling changes letters only, so what a text holds besides letters does not depend on its case. -/

namespace MessageCatalogue.Text

variable {c d : Char}

/-- The code point of a letter lies in the range of the capital or of the small ones. -/
theorem toNat_of_isAlpha (letter : c.isAlpha) :
    (65 ≤ c.toNat ∧ c.toNat ≤ 90) ∨ (97 ≤ c.toNat ∧ c.toNat ≤ 122) := by
  simp only [Char.isAlpha, Char.isUpper, Char.isLower, Bool.or_eq_true, Bool.and_eq_true, decide_eq_true_eq,
    ge_iff_le, UInt32.le_iff_toNat_le] at letter
  exact letter

/-- The code point of a digit lies in the range of the ten figures. -/
theorem toNat_of_isDigit (digit : c.isDigit) : 48 ≤ c.toNat ∧ c.toNat ≤ 57 := by
  simp only [Char.isDigit, Bool.and_eq_true, decide_eq_true_eq, ge_iff_le, UInt32.le_iff_toNat_le] at digit
  exact digit

/-- The code point of an alphanumeric character lies between those of the first figure and the last letter. -/
theorem toNat_of_isAlphanum (alphanumeric : c.isAlphanum) : 48 ≤ c.toNat ∧ c.toNat ≤ 122 := by
  rcases Bool.or_eq_true_iff.mp alphanumeric with letter | digit
  · have range := toNat_of_isAlpha letter
    omega
  · have range := toNat_of_isDigit digit
    omega

/-- No letter is a digit. -/
theorem isDigit_of_isAlpha (letter : c.isAlpha) : c.isDigit = false := by
  refine Bool.eq_false_iff.mpr fun digit => ?_
  have range := toNat_of_isAlpha letter
  have figures := toNat_of_isDigit digit
  omega

/-- What is no letter is spelled in one way only. -/
theorem toLower_of_not_isAlpha (other : c.isAlpha = false) : c.toLower = c := by
  have small : ¬ c.isUpper := fun capital => by simp [Char.isAlpha, capital] at other
  exact Char.toLower_eq_of_not_isUpper small

@[simp] theorem isDigit_toLower (c : Char) : c.toLower.isDigit = c.isDigit := by
  -- A letter stays a letter, and anything else stays itself.
  cases letter : c.isAlpha with
  | true => rw [isDigit_of_isAlpha letter, isDigit_of_isAlpha (by simpa using letter)]
  | false => rw [toLower_of_not_isAlpha letter]

@[simp] theorem isAlphanum_toLower (c : Char) : c.toLower.isAlphanum = c.isAlphanum := by
  simp [Char.isAlphanum]

/-- A digit is spelled in one way only. -/
theorem toLower_of_isDigit (digit : c.isDigit) : c.toLower = c := by
  refine toLower_of_not_isAlpha (Bool.eq_false_iff.mpr fun letter => ?_)
  simp [isDigit_of_isAlpha letter] at digit

/-- A test that does not see case gives the same result for a text in small spelling. -/
theorem all_map_toLower {test : Char → Bool} (blind : ∀ c : Char, test c.toLower = test c) (text : List Char) :
    (text.map Char.toLower).all test = text.all test := by
  rw [List.all_map, Function.comp_def]
  simp only [blind]

/-- Digits are spelled in one way only. -/
theorem map_toLower_of_digits {text : List Char} (digits : text.all Char.isDigit) : text.map Char.toLower = text := by
  have same : ∀ c ∈ text, c.toLower = id c := fun c member => toLower_of_isDigit (List.all_eq_true.mp digits c member)
  rw [List.map_congr_left same, List.map_id]

theorem map_toUpper_of_digits {text : List Char} (digits : text.all Char.isDigit) : text.map Char.toUpper = text := by
  have same : ∀ c ∈ text, c.toUpper = id c := by
    intro c member
    -- A digit is no small letter.
    refine Char.toUpper_eq_of_not_isLower fun small => ?_
    have letter : c.isAlpha := by simp [Char.isAlpha, small]
    simpa [isDigit_of_isAlpha letter] using List.all_eq_true.mp digits c member
  rw [List.map_congr_left same, List.map_id]

/-- Small spelling neither adds nor removes what is no letter. -/
theorem mem_map_toLower_iff (other : c.isAlpha = false) {text : List Char} : c ∈ text.map Char.toLower ↔ c ∈ text := by
  rw [List.mem_map]
  constructor
  · rintro ⟨d, member, same⟩
    -- Only the character itself becomes the character, for letters become letters.
    have plain : d.isAlpha = false := by rw [← Char.isAlpha_toLower_eq_isAlpha, same, other]
    rw [toLower_of_not_isAlpha plain] at same
    exact same ▸ member
  · intro member
    exact ⟨c, member, toLower_of_not_isAlpha other⟩

end MessageCatalogue.Text
