import Mathlib.Data.List.Infix
import MessageCatalogue.Text.Pieces

/-! Counting, replacing and cutting at a mark are described by where the mark stands in a text. -/

namespace MessageCatalogue.Text

variable {mark value text : List Char}

/-- A text either is empty, begins with a mark or goes on after a character at which no mark begins. -/
@[elab_as_elim]
theorem induction_on_mark {motive : List Char → Prop} (proper : mark ≠ []) (nil : motive [])
    (occurrence : ∀ rest, motive rest → motive (mark ++ rest))
    (cons : ∀ c rest, ¬ mark <+: c :: rest → motive rest → motive (c :: rest)) (text : List Char) :
    motive text := by
  -- The rest of a text is shorter, also when a whole mark is taken off, since a mark is not empty.
  induction length : text.length using Nat.strong_induction_on generalizing text with
  | _ size ih =>
    cases text with
    | nil => exact nil
    | cons c rest =>
      by_cases begins : mark <+: c :: rest
      · -- A mark at the head is taken off as a whole.
        obtain ⟨after, same⟩ := begins
        have shorter : after.length < size := by
          have positive := List.length_pos_iff.mpr proper
          have total := congrArg List.length same
          rw [List.length_append, length] at total
          omega
        exact same ▸ occurrence after (ih after.length shorter after rfl)
      · -- Otherwise only the character at the head is taken off.
        have shorter : rest.length < size := by
          rw [← length, List.length_cons]
          omega
        exact cons c rest begins (ih rest.length shorter rest rfl)

/-- Passing over some characters means cutting what comes after them. -/
theorem piecesAfter_eq (mark text : List Char) (skipped : Nat) :
    piecesAfter mark skipped text = pieces mark (text.drop skipped) := by
  -- The characters are passed over one by one, until there are none left.
  induction text generalizing skipped with
  | nil => cases skipped <;> rfl
  | cons c rest ih =>
    cases skipped with
    | zero => rfl
    | succ skipped => exact ih skipped

/-- A mark at the beginning ends an empty piece. -/
theorem pieces_mark_append (proper : mark ≠ []) (rest : List Char) :
    pieces mark (mark ++ rest) = [] :: pieces mark rest := by
  -- The first character of the mark is read as the head, and the others are passed over.
  obtain ⟨c, tail, rfl⟩ := List.exists_cons_of_ne_nil proper
  have begins : (c :: tail).isPrefixOf (c :: (tail ++ rest)) = true :=
    List.isPrefixOf_iff_prefix.mpr (List.prefix_append (c :: tail) rest)
  have passed : (tail ++ rest).drop ((c :: tail).length - 1) = rest := by simp
  rw [pieces, List.cons_append, piecesAfter, if_pos begins, piecesAfter_eq, passed]

/-- There is always a first piece. -/
theorem pieces_ne_nil (mark text : List Char) : pieces mark text ≠ [] := by
  -- Every way of going on puts a piece in front, also when it is empty.
  unfold pieces
  cases text with
  | nil => simp [piecesAfter]
  | cons c rest =>
    unfold piecesAfter
    split
    · simp
    · split <;> simp

/-- A character at which no mark begins belongs to the first piece. -/
theorem pieces_cons {c : Char} {rest : List Char} (absent : ¬ mark <+: c :: rest) :
    ∃ piece more, pieces mark rest = piece :: more ∧ pieces mark (c :: rest) = (c :: piece) :: more := by
  -- The rest has a first piece, in front of which the character is put.
  obtain ⟨piece, more, found⟩ := List.exists_cons_of_ne_nil (pieces_ne_nil mark rest)
  refine ⟨piece, more, found, ?_⟩
  have still : ¬ mark.isPrefixOf (c :: rest) = true := mt List.isPrefixOf_iff_prefix.mp absent
  have later : piecesAfter mark 0 rest = piece :: more := found
  rw [pieces, piecesAfter, if_neg still, later]

/-- The pieces around one character are those of the list of characters split on it. -/
theorem pieces_singleton (c : Char) (text : List Char) : pieces [c] text = text.splitOn c := by
  -- A mark of one character is found at the head or not at all.
  induction text with
  | nil => rfl
  | cons d rest ih =>
    rw [List.splitOn_cons_eq_if_modifyHead, ← ih]
    by_cases same : d = c
    · subst same
      simpa using pieces_mark_append (List.cons_ne_nil d []) rest
    · -- No mark begins at another character.
      have absent : ¬ [c] <+: d :: rest := fun begins => same (List.cons_prefix_cons.mp begins).1.symm
      obtain ⟨piece, more, found, opened⟩ := pieces_cons absent
      rw [found, opened, if_neg (by simpa using same), List.modifyHead_cons]

/-- The pieces around a mark consist of characters of the text. -/
theorem subset_of_mem_pieces (proper : mark ≠ []) {piece : List Char} (member : piece ∈ pieces mark text) :
    piece ⊆ text := by
  -- The induction goes from mark to mark and over the characters between them.
  induction text using induction_on_mark proper generalizing piece with
  | nil =>
    obtain rfl := List.mem_singleton.mp member
    simp
  | occurrence rest ih =>
    rw [pieces_mark_append proper] at member
    rcases List.mem_cons.mp member with rfl | member
    · simp
    · exact List.Subset.trans (ih member) (List.subset_append_right mark rest)
  | cons d rest absent ih =>
    obtain ⟨first, more, found, opened⟩ := pieces_cons absent
    rw [opened] at member
    rcases List.mem_cons.mp member with rfl | member
    · exact List.cons_subset_cons d (ih (by simp [found]))
    · exact List.Subset.trans (ih (by simp [found, member])) (List.subset_cons_self d rest)

/-- A mark at the beginning gives way to the value. -/
theorem replace_mark_append (proper : mark ≠ []) (value rest : List Char) :
    replace mark value (mark ++ rest) = value ++ replace mark value rest := by
  -- The empty piece in front of the mark is joined to the next one by the value.
  obtain ⟨piece, more, found⟩ := List.exists_cons_of_ne_nil (pieces_ne_nil mark rest)
  rw [replace, replace, pieces_mark_append proper, found]
  simp [List.intercalate]

/-- A mark at the beginning counts. -/
theorem occurrences_mark_append (proper : mark ≠ []) (rest : List Char) :
    occurrences mark (mark ++ rest) = occurrences mark rest + 1 := by
  -- There is one more piece, and no count is cut off at zero since there is always a first one.
  have positive := List.length_pos_iff.mpr (pieces_ne_nil mark rest)
  rw [occurrences, occurrences, pieces_mark_append proper, List.length_cons]
  omega

/-- A character at which no mark begins stays. -/
theorem replace_cons {c : Char} {rest : List Char} (absent : ¬ mark <+: c :: rest) (value : List Char) :
    replace mark value (c :: rest) = c :: replace mark value rest := by
  obtain ⟨piece, more, found, opened⟩ := pieces_cons absent
  rw [replace, replace, opened, found]
  cases more <;> simp [List.intercalate]

/-- A character at which no mark begins does not count. -/
theorem occurrences_cons {c : Char} {rest : List Char} (absent : ¬ mark <+: c :: rest) :
    occurrences mark (c :: rest) = occurrences mark rest := by
  obtain ⟨piece, more, found, opened⟩ := pieces_cons absent
  rw [occurrences, occurrences, opened, found, List.length_cons, List.length_cons]

/-- Nothing is counted exactly when the mark stands nowhere in the text. -/
theorem occurrences_eq_zero_iff (proper : mark ≠ []) {text : List Char} :
    occurrences mark text = 0 ↔ ¬ mark <:+: text := by
  induction text using induction_on_mark proper with
  -- Neither is there anything in an empty text.
  | nil => exact iff_of_true rfl (by simpa using proper)
  | occurrence rest _ =>
    -- A mark at the head is counted, and it also stands there.
    have counted := occurrences_mark_append proper rest
    have stands : mark <:+: mark ++ rest := (List.prefix_append mark rest).isInfix
    constructor
    · intro none
      omega
    · intro absent
      exact absurd stands absent
  | cons c rest absent ih =>
    -- Without a mark at the head, both sides are about the rest.
    rw [occurrences_cons absent, ih, List.infix_cons_iff, not_or]
    exact (and_iff_right absent).symm

/-- A text without the mark stays as it is. -/
theorem replace_of_not_infix (proper : mark ≠ []) (value : List Char) {text : List Char}
    (absent : ¬ mark <:+: text) : replace mark value text = text := by
  induction text using induction_on_mark proper with
  | nil => rfl
  -- There is no mark at the head of any rest of the text.
  | occurrence rest _ => exact absurd (List.prefix_append mark rest).isInfix absent
  | cons c rest here ih =>
    have later : ¬ mark <:+: rest := fun stands => absent (List.infix_cons stands)
    rw [replace_cons here, ih later]

/-- Joined by the mark again, the pieces of a text are the text. -/
theorem intercalate_pieces (proper : mark ≠ []) (text : List Char) : mark.intercalate (pieces mark text) = text := by
  -- This is to replace every mark by itself.
  change replace mark mark text = text
  induction text using induction_on_mark proper with
  | nil => rfl
  | occurrence rest ih => rw [replace_mark_append proper, ih]
  | cons c rest absent ih => rw [replace_cons absent, ih]

/-- No piece holds the mark. -/
theorem not_infix_of_mem_pieces (proper : mark ≠ []) {piece : List Char} (member : piece ∈ pieces mark text) :
    ¬ mark <:+: piece := by
  -- Pieces are closed by a mark, and the first one grows by characters at which none begins.
  induction text using induction_on_mark proper generalizing piece with
  | nil =>
    obtain rfl := List.mem_singleton.mp member
    simpa using proper
  | occurrence rest ih =>
    rw [pieces_mark_append proper] at member
    rcases List.mem_cons.mp member with rfl | member
    · simpa using proper
    · exact ih member
  | cons c rest absent ih =>
    obtain ⟨first, more, found, opened⟩ := pieces_cons absent
    rw [opened] at member
    rcases List.mem_cons.mp member with rfl | member
    · -- The text begins with its first piece, so a mark at the head of the piece would also be one of the text.
      have begun : first <+: rest := by
        rw [← intercalate_pieces proper rest, found]
        cases more with
        | nil => simp
        | cons second others => exact ⟨_, by rw [List.intercalate_cons_cons, List.append_assoc]⟩
      rw [List.infix_cons_iff, not_or]
      exact ⟨fun here => absent (here.trans ((List.prefix_cons_inj c).mpr begun)), ih (by simp [found])⟩
    · exact ih (by simp [found, member])

/-- No piece around one character holds it. -/
theorem notMem_of_mem_pieces {c : Char} {text piece : List Char} (member : piece ∈ pieces [c] text) : c ∉ piece := by
  rw [← List.singleton_infix_iff]
  exact not_infix_of_mem_pieces (List.cons_ne_nil c []) member

/-- A text without the mark is its only piece. -/
theorem pieces_of_not_infix (absent : ¬ mark <:+: text) : pieces mark text = [text] := by
  -- No mark begins anywhere, so each character joins the one piece of the rest.
  induction text with
  | nil => rfl
  | cons c rest ih =>
    rw [List.infix_cons_iff, not_or] at absent
    obtain ⟨piece, more, found, opened⟩ := pieces_cons absent.1
    rw [ih absent.2] at found
    obtain ⟨rfl, rfl⟩ := List.cons.inj found
    exact opened

/-- A mark that begins before a character it cannot go on with also ends before it. -/
theorem prefix_of_prefix_append_cons {c d : Char} {front back : List Char} (foreign : c ∉ mark.tail)
    (begins : mark <+: (d :: front) ++ c :: back) : mark <+: d :: front := by
  -- Two beginnings of one text are beginnings of each other in one way or the other.
  rcases List.prefix_or_prefix_of_prefix begins (List.prefix_append (d :: front) (c :: back)) with ends | longer
  · exact ends
  · obtain ⟨more, rfl⟩ := longer
    cases more with
    | nil => simp
    | cons e more =>
      -- The mark would hold the character after its first one.
      have next : e :: more <+: c :: back := (List.prefix_append_right_inj (d :: front)).mp begins
      obtain ⟨same, _⟩ := List.cons_prefix_cons.mp next
      subst same
      exact absurd (by simp) foreign

/-- A cut at a mark at the beginning has nothing in front of it. -/
theorem cutFirst?_mark_append (proper : mark ≠ []) (rest : List Char) :
    cutFirst? mark (mark ++ rest) = some ([], rest) := by
  obtain ⟨c, tail, rfl⟩ := List.exists_cons_of_ne_nil proper
  have begins : (c :: tail).isPrefixOf? (c :: (tail ++ rest)) = some rest :=
    List.isPrefixOf?_eq_some_iff_append_eq.mpr rfl
  rw [List.cons_append, cutFirst?, begins]

/-- A character at which no mark begins stays in front of the cut. -/
theorem cutFirst?_cons {c : Char} {rest : List Char} (absent : ¬ mark <+: c :: rest) :
    cutFirst? mark (c :: rest) = (cutFirst? mark rest).map fun (front, back) => (c :: front, back) := by
  have still : mark.isPrefixOf? (c :: rest) = none := by
    rw [Option.eq_none_iff_forall_ne_some]
    intro after begins
    exact absent ⟨after, List.isPrefixOf?_eq_some_iff_append_eq.mp begins⟩
  rw [cutFirst?, still]

/-- Replacing can be done on both sides of a place that no mark reaches over. -/
theorem replace_append_cons (proper : mark ≠ []) {c : Char} (foreign : c ∉ mark.tail)
    (value front back : List Char) :
    replace mark value (front ++ c :: back) =
      replace mark value front ++ replace mark value (c :: back) := by
  -- The text in front is read mark by mark, and the place behind it adds none.
  induction front using induction_on_mark proper with
  | nil => rfl
  | occurrence rest ih =>
    rw [List.append_assoc, replace_mark_append proper, replace_mark_append proper, ih, List.append_assoc]
  | cons d rest absent ih =>
    have still : ¬ mark <+: d :: (rest ++ c :: back) := mt (prefix_of_prefix_append_cons foreign) absent
    rw [List.cons_append, replace_cons still, replace_cons absent, ih, List.cons_append]

/-- A character that is no part of a mark stays, and replacing can be done on both sides of it. -/
theorem replace_append_cons_of_notMem (proper : mark ≠ []) {c : Char} (foreign : c ∉ mark)
    (value front back : List Char) :
    replace mark value (front ++ c :: back) = replace mark value front ++ c :: replace mark value back := by
  obtain ⟨first, tail, rfl⟩ := List.exists_cons_of_ne_nil proper
  rw [List.mem_cons, not_or] at foreign
  have absent : ¬ first :: tail <+: c :: back := fun begins => foreign.1 (List.cons_prefix_cons.mp begins).1.symm
  rw [replace_append_cons proper foreign.2, replace_cons absent]

/-- Counting can be done on both sides of a place that no mark reaches over. -/
theorem occurrences_append_cons (proper : mark ≠ []) {c : Char} (foreign : c ∉ mark.tail)
    (front back : List Char) :
    occurrences mark (front ++ c :: back) = occurrences mark front + occurrences mark (c :: back) := by
  -- The text in front is read in the same way as for replacing.
  induction front using induction_on_mark proper with
  | nil => exact (Nat.zero_add _).symm
  | occurrence rest ih =>
    rw [List.append_assoc, occurrences_mark_append proper, occurrences_mark_append proper, ih]
    omega
  | cons d rest absent ih =>
    have still : ¬ mark <+: d :: (rest ++ c :: back) := mt (prefix_of_prefix_append_cons foreign) absent
    rw [List.cons_append, occurrences_cons still, occurrences_cons absent, ih]

/-- A text in front that does not hold the first character of a mark stays. -/
theorem replace_append_of_notMem {first : Char} {front : List Char} (free : first ∉ front)
    (tail value back : List Char) :
    replace (first :: tail) value (front ++ back) = front ++ replace (first :: tail) value back := by
  -- No mark begins at any of the characters in front.
  induction front with
  | nil => rfl
  | cons c rest ih =>
    rw [List.mem_cons, not_or] at free
    obtain ⟨different, later⟩ := free
    have absent : ¬ first :: tail <+: c :: (rest ++ back) := fun begins =>
      different (List.cons_prefix_cons.mp begins).1
    rw [List.cons_append, replace_cons absent, ih later, List.cons_append]

/-- A mark whose first character stands in it only once. -/
def IsSolid (mark : List Char) : Prop := ∃ first tail, mark = first :: tail ∧ first ∉ tail

namespace IsSolid

/-- Such a mark is not empty. -/
theorem ne_nil (solid : IsSolid mark) : mark ≠ [] := by
  obtain ⟨first, tail, rfl, _⟩ := solid
  simp

/-- Replacing can be done on both sides of the mark itself. -/
theorem replace_append (solid : IsSolid mark) (value front back : List Char) :
    replace mark value (front ++ mark ++ back) =
      replace mark value front ++ value ++ replace mark value back := by
  -- No other mark reaches over the place where this one begins.
  have proper := solid.ne_nil
  obtain ⟨first, tail, rfl, once⟩ := solid
  rw [List.append_assoc, List.cons_append, replace_append_cons proper once, ← List.cons_append,
    replace_mark_append proper, List.append_assoc]

/-- A mark that stands once in a text gives way to a value. -/
theorem replace_only (solid : IsSolid mark) {front back : List Char} (before : ¬ mark <:+: front)
    (behind : ¬ mark <:+: back) (value : List Char) :
    replace mark value (front ++ mark ++ back) = front ++ value ++ back := by
  rw [solid.replace_append, replace_of_not_infix solid.ne_nil _ before, replace_of_not_infix solid.ne_nil _ behind]

/-- The mark itself counts once more than what is on both sides of it. -/
theorem occurrences_append (solid : IsSolid mark) (front back : List Char) :
    occurrences mark (front ++ mark ++ back) = occurrences mark front + occurrences mark back + 1 := by
  have proper := solid.ne_nil
  obtain ⟨first, tail, rfl, once⟩ := solid
  rw [List.append_assoc, List.cons_append, occurrences_append_cons proper once, ← List.cons_append,
    occurrences_mark_append proper]
  omega

/-- A text is cut at a mark in front of which there is no other one. -/
theorem cutFirst?_append (solid : IsSolid mark) {front : List Char} (absent : ¬ mark <:+: front)
    (back : List Char) : cutFirst? mark (front ++ mark ++ back) = some (front, back) := by
  have proper := solid.ne_nil
  obtain ⟨first, tail, rfl, once⟩ := solid
  rw [List.append_assoc]
  induction front with
  | nil => exact cutFirst?_mark_append proper back
  | cons c rest ih =>
    rw [List.infix_cons_iff, not_or] at absent
    obtain ⟨here, later⟩ := absent
    -- The mark cannot begin before its own place and reach into it.
    have still : ¬ first :: tail <+: c :: (rest ++ first :: (tail ++ back)) :=
      mt (prefix_of_prefix_append_cons once) here
    have onward := ih later
    rw [List.cons_append] at onward ⊢
    rw [List.cons_append, cutFirst?_cons still, onward, Option.map_some]

/-- A text without the mark is the first piece when a mark follows it. -/
theorem pieces_append (solid : IsSolid mark) {front : List Char} (absent : ¬ mark <:+: front) (back : List Char) :
    pieces mark (front ++ mark ++ back) = front :: pieces mark back := by
  have proper := solid.ne_nil
  obtain ⟨first, tail, rfl, once⟩ := solid
  rw [List.append_assoc]
  induction front with
  | nil => exact pieces_mark_append proper back
  | cons c rest ih =>
    rw [List.infix_cons_iff, not_or] at absent
    obtain ⟨here, later⟩ := absent
    -- The mark cannot begin before its own place and reach into it.
    have still : ¬ first :: tail <+: c :: (rest ++ first :: (tail ++ back)) :=
      mt (prefix_of_prefix_append_cons once) here
    obtain ⟨piece, more, found, opened⟩ := pieces_cons still
    obtain ⟨rfl, rfl⟩ := List.cons.inj (found.symm.trans (ih later))
    exact opened

/-- Texts that the mark joins and that do not hold it are the pieces of what is joined. -/
theorem pieces_intercalate (solid : IsSolid mark) {parts : List (List Char)} (occupied : parts ≠ [])
    (free : ∀ part ∈ parts, ¬ mark <:+: part) : pieces mark (mark.intercalate parts) = parts := by
  -- The first part ends at the first mark, and the others are what is joined behind it.
  induction parts with
  | nil => exact absurd rfl occupied
  | cons first rest ih =>
    obtain ⟨own, others⟩ := List.forall_mem_cons.mp free
    cases rest with
    | nil => simpa using pieces_of_not_infix own
    | cons second more =>
      rw [List.intercalate_cons_cons, solid.pieces_append own, ih (List.cons_ne_nil second more) others]

/-- Behind a mark, another one can only begin in the text that follows. -/
theorem eq_nil_of_append (solid : IsSolid mark) {between back back' : List Char} (absent : ¬ mark <:+: back)
    (same : mark ++ back = between ++ (mark ++ back')) : between = [] := by
  obtain ⟨first, tail, rfl, once⟩ := solid
  cases between with
  | nil => rfl
  | cons c between =>
    exfalso
    have shifted : tail ++ back = between ++ first :: (tail ++ back') := (List.cons.inj same).2
    -- The second mark begins behind the first one, at its end or inside of it.
    rcases List.append_eq_append_iff.mp shifted with ⟨gap, _, rest⟩ | ⟨overlap, inside, rest⟩
    · exact absent ⟨gap, back', by rw [rest, List.append_assoc, List.cons_append]⟩
    · cases overlap with
      | nil => exact absent ⟨[], back', rest⟩
      | cons d overlap =>
        obtain ⟨rfl, _⟩ := List.cons.inj rest
        exact once (by simp [inside])

/-- A text shows where the last mark in it stands. -/
theorem append_inj (solid : IsSolid mark) {front front' back back' : List Char} (absent : ¬ mark <:+: back)
    (absent' : ¬ mark <:+: back') (same : front ++ mark ++ back = front' ++ mark ++ back') :
    front = front' ∧ back = back' := by
  rw [List.append_assoc, List.append_assoc] at same
  -- Of two marks at different places, the later one would stand in what follows the earlier one.
  have alike : front = front' := by
    rcases List.append_eq_append_iff.mp same with ⟨between, longer, rest⟩ | ⟨between, longer, rest⟩
    · rw [longer, solid.eq_nil_of_append absent rest, List.append_nil]
    · rw [longer, solid.eq_nil_of_append absent' rest, List.append_nil]
  subst alike
  have behind : mark ++ back = mark ++ back' := List.append_cancel_left same
  exact ⟨rfl, List.append_cancel_left behind⟩

end IsSolid

/-- A cut is made at the first mark of a text. -/
theorem cutFirst?_eq_some (proper : mark ≠ []) {text front back : List Char}
    (cut : cutFirst? mark text = some (front, back)) : text = front ++ mark ++ back ∧ ¬ mark <:+: front := by
  induction text using induction_on_mark proper generalizing front with
  | nil =>
    -- An empty text does not even begin with a mark.
    have none : cutFirst? mark [] = none := by
      obtain ⟨c, tail, rfl⟩ := List.exists_cons_of_ne_nil proper
      rfl
    rw [none] at cut
    cases cut
  | occurrence rest _ =>
    rw [cutFirst?_mark_append proper] at cut
    obtain ⟨rfl, rfl⟩ := Prod.mk.inj (Option.some.inj cut)
    exact ⟨rfl, by simpa using proper⟩
  | cons c rest absent ih =>
    rw [cutFirst?_cons absent] at cut
    obtain ⟨⟨before, after⟩, later, same⟩ := Option.map_eq_some_iff.mp cut
    obtain ⟨rfl, rfl⟩ := Prod.mk.inj same
    obtain ⟨rfl, free⟩ := ih later
    -- A mark at the head of the part in front would also be one at the head of the text.
    have here : ¬ mark <+: c :: before := fun begins => absent (begins.trans ⟨mark ++ after, by simp⟩)
    refine ⟨by simp, ?_⟩
    rw [List.infix_cons_iff, not_or]
    exact ⟨here, free⟩

/-- A cut at the last of some characters leaves out nothing but that character. -/
theorem cutLast?_eq_some {c : Char} {text front back : List Char}
    (cut : cutLast? c text = some (front, back)) : text = front ++ c :: back := by
  -- A later cut is preferred to one at the head.
  induction text generalizing front with
  | nil => cases cut
  | cons d rest ih =>
    unfold cutLast? at cut
    cases found : cutLast? c rest with
    | some parts =>
      obtain ⟨before, after⟩ := parts
      simp only [found, Option.some.injEq, Prod.mk.injEq] at cut
      obtain ⟨rfl, rfl⟩ := cut
      rw [ih found, List.cons_append]
    | none =>
      simp only [found] at cut
      split at cut
      · rename_i same
        obtain ⟨rfl, rfl⟩ := Prod.mk.inj (Option.some.inj cut)
        rw [same, List.nil_append]
      · cases cut

/-- A text without some character is not cut at it. -/
theorem cutLast?_eq_none {c : Char} {text : List Char} (absent : c ∉ text) : cutLast? c text = none := by
  induction text with
  | nil => rfl
  | cons d rest ih =>
    rw [List.mem_cons, not_or] at absent
    rw [cutLast?, ih absent.2]
    exact if_neg (Ne.symm absent.1)

/-- A text is cut at a character behind which there is no other one. -/
theorem cutLast?_append_cons {c : Char} (front : List Char) {back : List Char} (absent : c ∉ back) :
    cutLast? c (front ++ c :: back) = some (front, back) := by
  induction front with
  | nil =>
    rw [List.nil_append, cutLast?, cutLast?_eq_none absent]
    exact if_pos rfl
  | cons d rest ih => rw [List.cons_append, cutLast?, ih]

/-- Changing the characters of joined parts changes them in each part and in what joins them. -/
theorem map_intercalate (change : Char → Char) (separator : List Char) (parts : List (List Char)) :
    (List.intercalate separator parts).map change =
      List.intercalate (separator.map change) (parts.map (List.map change)) := by
  -- The separator stands in front of every part but the first.
  induction parts with
  | nil => rfl
  | cons first rest ih =>
    cases rest with
    | nil => simp
    | cons second more =>
      simp only [List.intercalate_cons_cons, List.map_append, ih, List.map_cons]

/-- A last part is joined to the others by what joins them. -/
theorem intercalate_concat (separator : List Char) {parts : List (List Char)} (occupied : parts ≠ [])
    (last : List Char) :
    separator.intercalate (parts ++ [last]) = separator.intercalate parts ++ separator ++ last := by
  -- The induction needs a part in front of the last one in every step.
  induction parts with
  | nil => exact absurd rfl occupied
  | cons first rest ih =>
    cases rest with
    | nil => simp
    | cons second more =>
      rw [List.cons_append, List.cons_append, List.intercalate_cons_cons, ← List.cons_append, ih (by simp),
        List.intercalate_cons_cons]
      simp only [List.append_assoc]

/-- A text that a separator is no part of stands on one side of it. -/
theorem infix_append_cons {separator : Char} (absent : separator ∉ mark) (proper : mark ≠ [])
    {front back : List Char} (stands : mark <:+: front ++ separator :: back) : mark <:+: front ∨ mark <:+: back := by
  -- Whatever begins with the separator is no part of the text.
  have none : ∀ part : List Char, part <:+: mark → part <+: separator :: back → part = [] := by
    intro part inside begins
    cases part with
    | nil => rfl
    | cons c rest =>
      obtain ⟨rfl, _⟩ := List.cons_prefix_cons.mp begins
      exact absurd (inside.subset List.mem_cons_self) absent
  -- The text lies in front of the separator, behind what is in front of it, or on both sides of that border.
  rcases List.infix_append_iff.mp stands with inFront | behind | ⟨left, right, rfl, ends, begins⟩
  · exact .inl inFront
  · rcases List.infix_cons_iff.mp behind with begins | inBack
    · exact absurd (none mark (List.infix_refl mark) begins) proper
    · exact .inr inBack
  · obtain rfl := none right (List.suffix_append left right).isInfix begins
    exact .inl (by simpa using ends.isInfix)

/-- A text that a separator is no part of stands in one of the parts that the separator joins. -/
theorem exists_of_infix_intercalate {separator : Char} (absent : separator ∉ mark) (proper : mark ≠ [])
    {parts : List (List Char)} (stands : mark <:+: List.intercalate [separator] parts) :
    ∃ part ∈ parts, mark <:+: part := by
  -- Each separator leaves the text in the first part or in the others.
  induction parts with
  | nil => exact absurd (List.infix_nil.mp stands) proper
  | cons first rest ih =>
    cases rest with
    | nil => exact ⟨first, List.mem_cons_self, by simpa [List.intercalate] using stands⟩
    | cons second more =>
      have joined : List.intercalate [separator] (first :: second :: more) =
          first ++ separator :: List.intercalate [separator] (second :: more) := by simp [List.intercalate]
      rw [joined] at stands
      rcases infix_append_cons absent proper stands with here | later
      · exact ⟨first, List.mem_cons_self, here⟩
      · obtain ⟨part, member, inside⟩ := ih later
        exact ⟨part, List.mem_cons_of_mem first member, inside⟩

end MessageCatalogue.Text
