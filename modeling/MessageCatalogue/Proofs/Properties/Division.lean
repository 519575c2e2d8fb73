import MessageCatalogue.Proofs.Properties.Hexadecimal

/-! A logical line is divided at its first separator or blank that is not escaped, and nothing of it is lost. -/

namespace MessageCatalogue.Properties

/-- Whether a character ends a key that it is not escaped in. -/
def endsKey (c : Char) : Bool := isSeparator c || isBlank c

/-- A text in which every separator and every blank stands behind a backslash that is not escaped itself. -/
def IsShielded (text : List Char) : Prop :=
  ∀ before c after, text = before ++ c :: after → endsKey c → continues before = true

/-- A backslash with the letter behind it, and with the four characters of a number when that letter is u. -/
inductive IsEscape : List Char → Prop where
  | letter (c : Char) : IsEscape ['\\', c]
  | codePoint {digits : List Char} {number : Nat} (writes : WritesNumber digits number) :
      IsEscape ('\\' :: 'u' :: digits)

/-- No escape of a line reaches over the border between a front and a back of it. -/
def IsBorder (front back : List Char) : Prop :=
  ∀ before escape after, front ++ back = before ++ escape ++ after → IsEscape escape → continues before = false →
    before.length + escape.length ≤ front.length ∨ front.length ≤ before.length

/--
What stands between a key and a value: blanks, a separator and more blanks, or blanks alone.

There is no separator only where none is the first character behind the key that is no blank.
-/
inductive IsGap : List Char → List Char → Prop where
  | separated {front back value : List Char} {mark : Char} (blank : ∀ c ∈ front, isBlank c)
      (separator : isSeparator mark) (blank' : ∀ c ∈ back, isBlank c) : IsGap (front ++ mark :: back) value
  | unseparated {gap value : List Char} (blank : ∀ c ∈ gap, isBlank c)
      (none : ∀ c, (gap ++ value).find? (fun c => !isBlank c) = some c → isSeparator c = false) : IsGap gap value

/-- A line is divided into a key, a gap and a value. -/
structure IsDivision (line key gap value : List Char) : Prop where
  joined : line = key ++ gap ++ value
  shielded : IsShielded key
  longest : ∀ front, front <+: line → IsShielded front → front <+: key
  between : IsGap gap value
  solid : ∀ c ∈ value.head?, isBlank c = false
  keyBorder : IsBorder key (gap ++ value)
  valueBorder : IsBorder (key ++ gap) value

variable {line key gap value front back rest : List Char}

/-- The raw key and what follows it are the whole line. -/
theorem splitKey_append (line : List Char) : (splitKey line).1 ++ (splitKey line).2 = line := by
  fun_induction splitKey line with
  | case1 => rfl
  | case2 c rest key after split ih => simpa [split] using ih
  | case3 => rfl
  | case4 c rest noEscape stays key after split ih => simpa [split] using ih

/-- What follows the raw key begins with a character that ends it. -/
theorem endsKey_of_head?_splitKey (line : List Char) : ∀ c ∈ (splitKey line).2.head?, endsKey c := by
  fun_induction splitKey line with
  | case1 => simp
  | case2 c rest key after split ih => simpa [split] using ih
  | case3 c rest noEscape ends => simpa [endsKey] using ends
  | case4 c rest noEscape stays key after split ih => simpa [split] using ih

/-- A character that neither ends a key nor escapes anything leaves what stands behind it shielded. -/
theorem IsShielded.cons (shielded : IsShielded rest) {c : Char} (stays : endsKey c = false) (unmarked : c ≠ '\\') :
    IsShielded (c :: rest) := by
  -- A place that ends a key keeps its position behind the character that is added in front.
  intro before d after split ends
  cases before with
  | nil =>
    obtain ⟨rfl, _⟩ := List.cons.inj split
    simp [stays] at ends
  | cons first before =>
    obtain ⟨rfl, onward⟩ := List.cons.inj split
    rw [continues_cons unmarked]
    exact shielded before d after onward ends

/-- A backslash shields the character behind it and no other one. -/
theorem IsShielded.cons_cons (shielded : IsShielded rest) (c : Char) : IsShielded ('\\' :: c :: rest) := by
  -- The first two places are looked at by themselves, and the others keep their positions.
  intro before d after split ends
  obtain _ | ⟨first, _ | ⟨second, before⟩⟩ := before
  · -- The backslash itself ends no key.
    obtain ⟨rfl, _⟩ := List.cons.inj split
    simp [endsKey, isSeparator, isBlank] at ends
  · obtain ⟨rfl, _⟩ := List.cons.inj split
    rfl
  · obtain ⟨rfl, rfl, onward⟩ := by simpa using split
    rw [continues_cons_cons]
    exact shielded before d after onward ends

/-- The raw key of a line that ends in no unescaped backslash is shielded. -/
theorem isShielded_splitKey (whole : continues line = false) : IsShielded (splitKey line).1 := by
  -- The key goes on over plain characters and over backslashes with what they escape.
  fun_induction splitKey line with
  | case1 => simp [IsShielded]
  | case2 c rest key after split ih =>
    rw [continues_cons_cons] at whole
    have onward := ih whole
    rw [split] at onward
    exact onward.cons_cons c
  | case3 => simp [IsShielded]
  | case4 c rest noEscape stays key after split ih =>
    have unmarked := unmarked_of_continues noEscape whole
    rw [continues_cons unmarked] at whole
    have onward := ih whole
    rw [split] at onward
    exact onward.cons (by simpa [endsKey] using stays) unmarked

/-- Among the beginnings of a line, none that is shielded goes on behind a character that ends a key. -/
theorem prefix_of_isShielded (closed : continues key = false) (ends : ∀ c ∈ rest.head?, endsKey c)
    (begins : front <+: key ++ rest) (shielded : IsShielded front) : front <+: key := by
  rcases List.prefix_or_prefix_of_prefix begins (List.prefix_append key rest) with short | ⟨more, rfl⟩
  · exact short
  · cases more with
    | nil => simp
    | cons c more =>
      -- The first character behind the key would have to be escaped by the end of the key.
      have next : c :: more <+: rest := (List.prefix_append_right_inj key).mp begins
      obtain ⟨last, rfl⟩ := next
      have escaped := shielded key c more rfl (ends c rfl)
      simp [closed] at escaped

/-- A character that ends a key is no digit of a number. -/
theorem WritesNumber.not_endsKey {digits : List Char} {number : Nat} (writes : WritesNumber digits number) :
    ∀ c ∈ digits, endsKey c = false := by
  -- Neither digits nor letters end a key, and the sign does not either.
  have hex : ∀ c, isHexadecimal c → endsKey c = false := by
    intro c digit
    simp only [endsKey, isSeparator, isBlank, Bool.or_eq_false_iff, beq_eq_false_iff_ne]
    refine ⟨⟨?_, ?_⟩, ⟨?_, ?_⟩, ?_⟩ <;> exact ne_of_holds digit (by decide)
  intro c member
  cases writes with
  | digits _ each => exact hex c (each c member)
  | signed _ each =>
    rcases List.mem_cons.mp member with rfl | later
    · decide
    · exact hex c (each c later)

/-- An escape that is cut behind its backslash and its letter goes on with a character that ends no key. -/
theorem IsEscape.not_endsKey {head tail : List Char} {c : Char} (isEscape : IsEscape (head ++ c :: tail))
    (begun : head ≠ []) (closed : continues head = false) : endsKey c = false := by
  obtain ⟨first, head, rfl⟩ := List.exists_cons_of_ne_nil begun
  generalize shape : first :: head ++ c :: tail = escape at isEscape
  rw [List.cons_append] at shape
  cases isEscape with
  | letter letter =>
    -- Only the backslash could stand in front of the cut.
    obtain ⟨rfl, onward⟩ := List.cons.inj shape
    obtain rfl : head = [] := by
      have short := congrArg List.length onward
      simp only [List.length_append, List.length_cons, List.length_nil] at short
      exact List.length_eq_zero_iff.mp (by omega)
    cases closed
  | codePoint writes =>
    obtain ⟨rfl, onward⟩ := List.cons.inj shape
    cases head with
    | nil => cases closed
    | cons second head =>
      -- The character behind the cut is one of the number.
      obtain ⟨_, rfl⟩ := List.cons.inj onward
      exact writes.not_endsKey c (by simp)

/-- A part that ends in no unescaped backslash has a border in front of a character that ends a key. -/
theorem isBorder_of_endsKey (closed : continues front = false) (ends : ∀ c ∈ back.head?, endsKey c) :
    IsBorder front back := by
  intro before escape after split isEscape unescaped
  by_contra across
  rw [not_or, Nat.not_le, Nat.not_le] at across
  -- The escape would be cut into two parts, neither of them empty.
  obtain ⟨head, rfl⟩ : before <+: front :=
    List.prefix_of_prefix_length_le ⟨_, by rw [← List.append_assoc, ← split]⟩ (List.prefix_append front back)
      across.2.le
  rw [List.append_assoc, List.append_assoc, List.append_cancel_left_eq] at split
  rw [List.length_append] at across
  obtain ⟨tail, rfl⟩ : head <+: escape :=
    List.prefix_of_prefix_length_le ⟨back, split⟩ (List.prefix_append escape after) (by omega)
  rw [List.append_assoc, List.append_cancel_left_eq] at split
  rw [List.length_append] at across
  obtain ⟨c, tail, rfl⟩ := List.exists_cons_of_length_pos (l := tail) (by omega)
  have begun : head ≠ [] := List.ne_nil_of_length_pos (by omega)
  have stays := isEscape.not_endsKey begun ((continues_append unescaped head).symm.trans closed)
  simp [ends c (by rw [split]; rfl)] at stays

/-- Neither blanks nor separators hold a backslash. -/
theorem IsGap.backslash_notMem (isGap : IsGap gap value) : '\\' ∉ gap := by
  -- A gap is made of blanks and at most one separator.
  have noBlank : ∀ blanks : List Char, (∀ c ∈ blanks, isBlank c) → '\\' ∉ blanks := fun blanks blank member => by
    cases blank _ member
  cases isGap with
  | separated blank separator blank' =>
    rw [List.mem_append, List.mem_cons]
    rintro (member | rfl | member)
    · exact noBlank _ blank member
    · cases separator
    · exact noBlank _ blank' member
  | unseparated blank _ => exact noBlank _ blank

/-- A gap without backslashes moves a border to its other end. -/
theorem IsBorder.append (border : IsBorder key (gap ++ value)) (absent : '\\' ∉ gap) : IsBorder (key ++ gap) value := by
  -- An escape in the longer text is one of the old text, which lies on one side of the old border.
  intro before escape after split isEscape unescaped
  rw [List.length_append]
  rcases border before escape after (by rw [← split, List.append_assoc]) isEscape unescaped with inside | behind
  · exact .inl (by omega)
  · -- An escape behind the key does not begin in the gap, as it begins with a backslash.
    refine .inr (Nat.le_of_not_lt fun within => absent ?_)
    have mark : ∃ letters, escape = '\\' :: letters := by
      cases isEscape with
      | letter c => exact ⟨_, rfl⟩
      | codePoint _ => exact ⟨_, rfl⟩
    obtain ⟨letters, rfl⟩ := mark
    have here := congrArg (·[before.length]?) split
    simp only [List.append_assoc, List.cons_append] at here
    rw [List.getElem?_append_right behind, List.getElem?_append_left (by omega), List.getElem?_append_right le_rfl,
      Nat.sub_self] at here
    exact List.mem_of_getElem? here

/-- The first character that is no blank is what is left when blanks in front of it are dropped. -/
theorem find?_not_isBlank (text : List Char) :
    text.find? (fun c => !isBlank c) = (text.dropWhile isBlank).head? := by
  induction text with
  | nil => rfl
  | cons c rest ih => cases blank : isBlank c <;> simp [blank, ih]

/-- What follows a raw key is a gap and then the raw value. -/
theorem exists_isGap (after : List Char) : ∃ gap, after = gap ++ rawValue after ∧ IsGap gap (rawValue after) := by
  have split := List.takeWhile_append_dropWhile (p := isBlank) (l := after)
  have first := find?_not_isBlank after
  have blank : ∀ text : List Char, ∀ c ∈ text.takeWhile isBlank, isBlank c := fun _ _ => List.mem_takeWhile_imp
  rw [rawValue]
  cases shape : after.dropWhile isBlank with
  | nil =>
    rw [shape, List.append_nil] at split
    refine ⟨after, by simp [dropSeparator], .unseparated (split ▸ blank after) fun c found => ?_⟩
    simp [dropSeparator, first, shape] at found
  | cons c rest =>
    rw [shape] at split first
    rw [dropSeparator]
    split
    · rename_i separator
      refine ⟨after.takeWhile isBlank ++ c :: rest.takeWhile isBlank, ?_,
        .separated (blank after) separator (blank rest)⟩
      rw [List.append_assoc, List.cons_append, List.takeWhile_append_dropWhile, split]
    · rename_i noSeparator
      -- The character is no blank, so that nothing is dropped in front of it.
      have solid : isBlank c = false := Text.refused_of_head?_dropWhile isBlank after c (by rw [shape]; rfl)
      rw [List.dropWhile_cons_of_neg (by simp [solid])]
      refine ⟨after.takeWhile isBlank, split.symm, .unseparated (blank after) fun d found => ?_⟩
      rw [split, first] at found
      obtain rfl := Option.some.inj found
      simpa using noSeparator

/-- A value that does not begin with a blank is found behind its gap. -/
theorem rawValue_append (isGap : IsGap gap value) (solid : ∀ c ∈ value.head?, isBlank c = false) :
    rawValue (gap ++ value) = value := by
  have kept : value.dropWhile isBlank = value := by
    cases value with
    | nil => rfl
    | cons c rest => exact List.dropWhile_cons_of_neg (by simp [solid c rfl])
  cases isGap with
  | @separated front back _ mark blank separator blank' =>
    -- A separator is no blank, so the blanks in front of it are the ones that are dropped.
    have visible : isBlank mark = false := by
      simp only [isSeparator, Bool.or_eq_true, beq_iff_eq] at separator
      rcases separator with rfl | rfl <;> decide
    rw [rawValue, List.append_assoc, List.dropWhile_append_of_pos blank, List.cons_append,
      List.dropWhile_cons_of_neg (by simp [visible]), dropSeparator, if_pos separator,
      List.dropWhile_append_of_pos blank', kept]
  | unseparated blank none =>
    rw [rawValue, List.dropWhile_append_of_pos blank, kept]
    rw [find?_not_isBlank, List.dropWhile_append_of_pos blank, kept] at none
    cases value with
    | nil => rfl
    | cons c rest => rw [dropSeparator, if_neg (by simp [none c rfl]), kept]

/--
A line that ends in no unescaped backslash is divided into its raw key, a gap and its raw value, and in no other way.

The raw key is the longest beginning of the line in which every separator and every blank is escaped.
-/
theorem line_divides_at_first_separator (whole : continues line = false) :
    (∃ gap, IsDivision line (splitEntry line).1 gap (splitEntry line).2) ∧
      ∀ key gap value, IsDivision line key gap value → splitEntry line = (key, value) := by
  have joined := splitKey_append line
  have ends := endsKey_of_head?_splitKey line
  have closed := (continues_splitKey whole).1
  have longest : ∀ front, front <+: line → IsShielded front → front <+: (splitKey line).1 := fun front begins =>
    prefix_of_isShielded closed ends (joined.symm ▸ begins)
  constructor
  · obtain ⟨gap, rest, isGap⟩ := exists_isGap (splitKey line).2
    have border : IsBorder (splitKey line).1 (gap ++ rawValue (splitKey line).2) :=
      isBorder_of_endsKey closed (rest ▸ ends)
    refine ⟨gap, ?_, isShielded_splitKey whole, longest, isGap, Text.refused_of_head?_dropWhile isBlank _, border,
      border.append isGap.backslash_notMem⟩
    rw [List.append_assoc]
    exact (rest ▸ joined).symm
  · intro key gap value division
    -- Two longest beginnings are the same one, so that the same is left behind them.
    have begins : key <+: line := ⟨gap ++ value, by rw [division.joined, List.append_assoc]⟩
    have begins' : (splitKey line).1 <+: line := ⟨(splitKey line).2, joined⟩
    have same : key = (splitKey line).1 :=
      (longest key begins division.shielded).eq_of_length_le
        (division.longest _ begins' (isShielded_splitKey whole)).length_le
    have after : gap ++ value = (splitKey line).2 := by
      have both := division.joined.symm.trans joined.symm
      rwa [List.append_assoc, same, List.append_cancel_left_eq] at both
    change ((splitKey line).1, rawValue (splitKey line).2) = (key, value)
    rw [← same, ← after, rawValue_append division.between division.solid]

/-- Escaped separators and complete escapes stay in the key, and of several separators only the first is left out. -/
theorem escaped_separators_stay_in_key :
    let line := "\\=\\ \\u003d\\\\ \t:= b\\:\\\\".toList
    continues line = false ∧ splitEntry line = ("\\=\\ \\u003d\\\\".toList, "= b\\:\\\\".toList) ∧
      (∃ gap, IsDivision line (splitEntry line).1 gap (splitEntry line).2) ∧
        ∀ key gap value, IsDivision line key gap value → splitEntry line = (key, value) := by
  intro line
  have whole : continues line = false := by decide
  exact ⟨whole, by decide, line_divides_at_first_separator whole⟩

end MessageCatalogue.Properties
