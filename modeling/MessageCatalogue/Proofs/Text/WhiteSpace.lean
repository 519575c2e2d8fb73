import Mathlib.Data.List.TakeWhile
import MessageCatalogue.Proofs.Text.Ascii
import MessageCatalogue.Text.WhiteSpace

/-! Trimming takes the white space off both ends of a text and nothing else. -/

namespace MessageCatalogue.Text

variable {text : List Char}

/-- White space is found up to the blank of ASCII and beyond ASCII only. -/
theorem toNat_of_isWhiteSpace {c : Char} (white : isWhiteSpace c) : c.toNat ≤ 32 ∨ 133 ≤ c.toNat := by
  -- Each range or single character of white space lies on one side.
  simp only [isWhiteSpace, Bool.or_eq_true, Bool.and_eq_true, decide_eq_true_eq, beq_iff_eq, Char.le_def,
    UInt32.le_iff_toNat_le] at white
  change ((((((((((9 ≤ c.toNat ∧ c.toNat ≤ 13) ∨ _) ∨ _) ∨ _) ∨ _) ∨
    (8192 ≤ c.toNat ∧ c.toNat ≤ 8202)) ∨ _) ∨ _) ∨ _) ∨ _) ∨ _ at white
  rcases white with ((((((((((⟨_, small⟩ | rfl) | rfl) | rfl) | rfl) | ⟨large, _⟩) | rfl) | rfl) | rfl) | rfl) | rfl)
  · omega
  · decide
  · decide
  · decide
  · decide
  · omega
  all_goals decide

/-- Letters and digits are no white space. -/
theorem isWhiteSpace_of_isAlphanum {c : Char} (alphanumeric : c.isAlphanum) : isWhiteSpace c = false := by
  -- The code points of the two classes lie in ranges that do not meet.
  refine Bool.eq_false_iff.mpr fun white => ?_
  have bounds := toNat_of_isAlphanum alphanumeric
  have apart := toNat_of_isWhiteSpace white
  omega

/-- What passes a test is no longer found at the start of a text when it is dropped from there. -/
theorem refused_of_head?_dropWhile (test : Char → Bool) (text : List Char) :
    ∀ c ∈ (text.dropWhile test).head?, test c = false := by
  intro c found
  have first := List.head?_dropWhile_not test text
  rw [Option.mem_def.mp found] at first
  simpa using first

/-- Small spelling neither adds nor removes white space. -/
@[simp] theorem isWhiteSpace_toLower (c : Char) : isWhiteSpace c.toLower = isWhiteSpace c := by
  -- A letter stays a letter, and anything else stays itself.
  cases letter : c.isAlpha with
  | true =>
    have alphanumeric : ∀ d : Char, d.isAlpha → isWhiteSpace d = false := fun d own =>
      isWhiteSpace_of_isAlphanum (by simp [Char.isAlphanum, own])
    rw [alphanumeric c letter, alphanumeric c.toLower (by simpa using letter)]
  | false => rw [toLower_of_not_isAlpha letter]

/-- A text that does not begin with white space has none to trim from its start. -/
theorem trimStart_of_head? (begun : ∀ c ∈ text.head?, isWhiteSpace c = false) : trimStart text = text := by
  cases text with
  | nil => rfl
  | cons c rest => exact List.dropWhile_cons_of_neg (by simp [begun c rfl])

/-- White space in front of a text is trimmed. -/
theorem trimStart_append {front : List Char} (white : ∀ c ∈ front, isWhiteSpace c) (text : List Char) :
    trimStart (front ++ text) = trimStart text :=
  List.dropWhile_append_of_pos white

/-- Trimming a text from its end is trimming it from its start as it is read backwards. -/
theorem trimEnd_eq (text : List Char) : trimEnd text = (trimStart text.reverse).reverse := rfl

/-- A text that does not end in white space has none to trim from its end. -/
theorem trimEnd_of_getLast? (ended : ∀ c ∈ text.getLast?, isWhiteSpace c = false) : trimEnd text = text := by
  rw [trimEnd_eq, trimStart_of_head? (by rwa [List.head?_reverse]), List.reverse_reverse]

/-- White space behind a text is trimmed. -/
theorem trim_append {back : List Char} (white : ∀ c ∈ back, isWhiteSpace c) (text : List Char) :
    trim (text ++ back) = trim text := by
  have backwards : ∀ front, trimEnd (front ++ back) = trimEnd front := by
    intro front
    rw [trimEnd_eq, List.reverse_append, trimStart_append (by simpa using white), trimEnd_eq]
  -- If nothing else stands in front of it, all of the text is white space.
  by_cases empty : trimStart text = []
  · have blank : ∀ c ∈ text, isWhiteSpace c := List.dropWhile_eq_nil_iff.mp empty
    rw [trim, trim, trimStart_append blank, empty, trimStart, List.dropWhile_eq_nil_iff.mpr white]
  · have kept : trimStart (text ++ back) = trimStart text ++ back :=
      List.dropWhile_append.trans (if_neg (mt List.isEmpty_iff.mp empty))
    rw [trim, kept, backwards, trim]

/-- A text without white space at its ends is what is left when any around it is trimmed. -/
theorem trim_surround {front back : List Char} (white : ∀ c ∈ front, isWhiteSpace c)
    (white' : ∀ c ∈ back, isWhiteSpace c) (begun : ∀ c ∈ text.head?, isWhiteSpace c = false)
    (ended : ∀ c ∈ text.getLast?, isWhiteSpace c = false) : trim (front ++ text ++ back) = text := by
  rw [trim_append white', trim, trimStart_append white, trimStart_of_head? begun, trimEnd_of_getLast? ended]

/-- A text is what is left of it when it is trimmed, with white space around it. -/
theorem exists_trim (text : List Char) :
    ∃ front back, (∀ c ∈ front, isWhiteSpace c) ∧ (∀ c ∈ back, isWhiteSpace c) ∧ text = front ++ trim text ++ back := by
  -- What is dropped from the end is found by reading backwards.
  have start := List.takeWhile_append_dropWhile (p := isWhiteSpace) (l := text)
  have finish := List.takeWhile_append_dropWhile (p := isWhiteSpace) (l := (trimStart text).reverse)
  refine ⟨text.takeWhile isWhiteSpace, ((trimStart text).reverse.takeWhile isWhiteSpace).reverse,
    fun _ => List.mem_takeWhile_imp, fun _ member => List.mem_takeWhile_imp (List.mem_reverse.mp member), ?_⟩
  have backwards := congrArg List.reverse finish
  rw [List.reverse_append, List.reverse_reverse] at backwards
  rw [List.append_assoc, trim, trimEnd_eq, trimStart, backwards]
  exact start.symm

/-- A text is trimmed to nothing exactly when it is white space. -/
theorem trim_eq_nil_iff : trim text = [] ↔ ∀ c ∈ text, isWhiteSpace c := by
  constructor
  · intro empty
    obtain ⟨front, back, white, white', split⟩ := exists_trim text
    rw [split, empty, List.append_nil]
    exact fun c member => (List.mem_append.mp member).elim (white c) (white' c)
  · intro white
    exact trim_append white []

/-- Trimming adds no characters. -/
theorem mem_of_mem_trim {c : Char} (member : c ∈ trim text) : c ∈ text := by
  obtain ⟨front, back, _, _, split⟩ := exists_trim text
  rw [split]
  simp [member]

/-- White space is trimmed on both sides of a text. -/
theorem trim_append_append {front back : List Char} (white : ∀ c ∈ front, isWhiteSpace c)
    (white' : ∀ c ∈ back, isWhiteSpace c) (text : List Char) : trim (front ++ text ++ back) = trim text := by
  rw [trim_append white', trim, trimStart_append white, trim]

/-- A trimmed text has nothing left to trim. -/
theorem trim_trim (text : List Char) : trim (trim text) = trim text := by
  obtain ⟨front, back, white, white', split⟩ := exists_trim text
  rw [← trim_append_append white white' (trim text), ← split]

/-- A text in small spelling is trimmed as the text itself is. -/
theorem trim_map_toLower (text : List Char) : trim (text.map Char.toLower) = (trim text).map Char.toLower := by
  have blind : isWhiteSpace ∘ Char.toLower = isWhiteSpace := funext isWhiteSpace_toLower
  rw [trim, trim, trimEnd, trimEnd, trimStart, trimStart, List.dropWhile_map, blind, ← List.map_reverse,
    List.dropWhile_map, blind, ← List.map_reverse]

/-- No text becomes longer by trimming. -/
theorem length_trim_le (text : List Char) : (trim text).length ≤ text.length := by
  rw [trim, trimEnd_eq, List.length_reverse]
  refine (List.length_dropWhile_le _ _).trans ?_
  rw [List.length_reverse]
  exact List.length_dropWhile_le _ _

/-- A text that ends in white space becomes shorter by trimming. -/
theorem length_trim_lt {c : Char} (ended : c ∈ text.getLast?) (white : isWhiteSpace c) :
    (trim text).length < text.length := by
  obtain ⟨front, rfl⟩ := List.getLast?_eq_some_iff.mp ended
  rw [trim_append (by simpa using white), List.length_append, List.length_singleton]
  exact Nat.lt_succ_of_le (length_trim_le front)

end MessageCatalogue.Text
