import MessageCatalogue.Proofs.Properties.EscapedCodePoint
import MessageCatalogue.Proofs.Properties.Wrapping

/-! A logical line is empty only where lone backslashes join nothing to each other, and such a line makes an entry. -/

namespace MessageCatalogue.Properties

/-- Whether a physical line holds nothing but white space. -/
def IsWhite (line : List Char) : Prop := ∀ c ∈ line, isWhiteSpace c

/-- Whether a physical line holds nothing but a backslash behind white space, so that it continues and has no text. -/
def IsHollow (line : List Char) : Prop := ∃ margin, IsWhite margin ∧ line = margin ++ ['\\']

/-- Physical lines bring no text to a logical line that goes on with them. -/
inductive BringNothing : List (List Char) → Prop where
  | ended : BringNothing []
  | white {line : List Char} {rest : List (List Char)} (white : IsWhite line) : BringNothing (line :: rest)
  | hollow {line : List Char} {rest : List (List Char)} (hollow : IsHollow line) (onward : BringNothing rest) :
      BringNothing (line :: rest)

/-- Physical lines begin with those of a logical line without any text. -/
def JoinToNothing (lines : List (List Char)) : Prop :=
  ∃ line rest, lines = line :: rest ∧ IsHollow line ∧ BringNothing rest

variable {number : Nat} {unfinished : Option LogicalLine} {physical : List Char} {logical : LogicalLine}

/-- Nothing is left of a line at its first character that is no white space when there is none. -/
theorem trimStart_eq_nil_iff : Text.trimStart physical = [] ↔ IsWhite physical := List.dropWhile_eq_nil_iff

/-- Only a backslash is left of a line when the line is hollow. -/
theorem trimStart_eq_backslash_iff : Text.trimStart physical = ['\\'] ↔ IsHollow physical := by
  constructor
  · intro same
    refine ⟨physical.takeWhile isWhiteSpace, fun c member => List.mem_takeWhile_imp member, ?_⟩
    rw [← same]
    exact List.takeWhile_append_dropWhile.symm
  · rintro ⟨margin, white, rfl⟩
    rw [Text.trimStart_append white]
    rfl

/-- A text that is continued has no other character exactly when it is a single backslash. -/
theorem dropLast_eq_nil_iff {text : List Char} (odd : continues text = true) :
    text.dropLast = [] ↔ text = ['\\'] := by
  -- A text of two or more characters keeps the first of them.
  obtain _ | ⟨c, _ | ⟨d, rest⟩⟩ := text
  · cases odd
  · -- A single character continues a line only when it is a backslash.
    have mark : c = '\\' := by
      by_contra plain
      cases odd.symm.trans (continues_append_plain plain [])
    simp [mark]
  · simp

/-- A text that is not continued is no single backslash. -/
theorem append_eq_backslash_iff {text more : List Char} (closed : continues text = false) :
    text ++ more = ['\\'] ↔ text = [] ∧ more = ['\\'] := by
  rw [List.append_eq_singleton_iff]
  constructor
  · rintro (found | ⟨rfl, _⟩)
    · exact found
    · cases closed
  · exact .inl

/-- What a physical line finishes is the logical line that it begins or goes on with, and that is not continued. -/
theorem eq_joined_of_finishedBy (finished : finishedBy number unfinished physical = some logical) :
    logical = joined number unfinished physical := by
  unfold finishedBy at finished
  dsimp only at finished
  split at finished
  · cases finished
  · exact (Option.some.inj finished).symm

/-- What is unfinished behind a physical line is that logical line without its last character. -/
theorem eq_joined_of_unfinishedAfter (begun : unfinishedAfter number unfinished physical = some logical) :
    logical = ⟨(joined number unfinished physical).line, (joined number unfinished physical).text.dropLast⟩ := by
  unfold unfinishedAfter at begun
  dsimp only at begun
  split at begun
  · cases begun
  · split at begun
    · exact (Option.some.inj begun).symm
    · cases begun

/-- Lines bring nothing when the first one is white, or hollow with others behind it that bring nothing. -/
theorem bringNothing_cons_iff {rest : List (List Char)} :
    BringNothing (physical :: rest) ↔ IsWhite physical ∨ IsHollow physical ∧ BringNothing rest := by
  -- Each constructor is one of the two cases.
  constructor
  · intro nothing
    cases nothing with
    | white white => exact .inl white
    | hollow hollow onward => exact .inr ⟨hollow, onward⟩
  · rintro (white | ⟨hollow, onward⟩)
    · exact .white white
    · exact .hollow hollow onward

/-- Lines join to nothing when the first one is hollow with others behind it that bring nothing. -/
theorem joinToNothing_cons_iff {rest : List (List Char)} :
    JoinToNothing (physical :: rest) ↔ IsHollow physical ∧ BringNothing rest := by
  constructor
  · rintro ⟨line, others, same, hollow, onward⟩
    obtain ⟨rfl, rfl⟩ := List.cons.inj same
    exact ⟨hollow, onward⟩
  · rintro ⟨hollow, onward⟩
    exact ⟨physical, rest, rfl, hollow, onward⟩

/-- The logical line to come has no text, whether it was begun before some physical lines or begins with them. -/
def ComesToNothing : Option LogicalLine → List (List Char) → Prop
  | some begun, lines => begun.text = [] ∧ BringNothing lines
  | none, lines => JoinToNothing lines

/-- A logical line that a physical line finishes has no text when it was to come to nothing. -/
theorem text_finishedBy_eq_nil_iff (rest : List (List Char))
    (finished : finishedBy number unfinished physical = some logical) :
    logical.text = [] ↔ ComesToNothing unfinished (physical :: rest) := by
  unfold finishedBy at finished
  dsimp only at finished
  split at finished
  · cases finished
  · rename_i kept
    obtain rfl := Option.some.inj finished
    simp only [Bool.or_eq_true, not_or, Bool.not_eq_true] at kept
    obtain ⟨occupied, ended⟩ := kept
    -- A hollow line would be continued, so that it would not finish anything.
    have solid : (joined number unfinished physical).text ≠ ['\\'] := fun same => by
      rw [same] at ended
      cases ended
    cases unfinished with
    | none =>
      have some : Text.trimStart physical ≠ [] := fun none => by simp [isPassedOver, none, isSkipped] at occupied
      have notHollow : ¬ IsHollow physical := fun hollow => solid (trimStart_eq_backslash_iff.mpr hollow)
      simp [joined, ComesToNothing, joinToNothing_cons_iff, some, notHollow]
    | some begun =>
      rw [joined, ComesToNothing, List.append_eq_nil_iff, trimStart_eq_nil_iff, bringNothing_cons_iff]
      refine and_congr_right fun empty => (or_iff_left ?_).symm
      rintro ⟨hollow, _⟩
      exact solid (by rw [joined, empty, trimStart_eq_backslash_iff.mpr hollow]; rfl)

/-- A logical line that is unfinished behind a physical line is to come to nothing when it was so before it. -/
theorem comesToNothing_unfinishedAfter (closed : IsClosed unfinished) (rest : List (List Char))
    (begun : unfinishedAfter number unfinished physical = some logical) :
    ComesToNothing (some logical) rest ↔ ComesToNothing unfinished (physical :: rest) := by
  unfold unfinishedAfter at begun
  dsimp only at begun
  split at begun
  · cases begun
  · split at begun
    · rename_i odd
      obtain rfl := Option.some.inj begun
      rw [ComesToNothing, dropLast_eq_nil_iff odd]
      cases unfinished with
      | none => rw [joined, ComesToNothing, joinToNothing_cons_iff, trimStart_eq_backslash_iff]
      | some before =>
        rw [joined, ComesToNothing, append_eq_backslash_iff (closed before rfl), trimStart_eq_backslash_iff,
          bringNothing_cons_iff, and_assoc]
        -- A white line behind nothing would not be continued.
        refine and_congr_right fun empty => (or_iff_right fun white => ?_).symm
        rw [joined, empty, trimStart_eq_nil_iff.mpr white] at odd
        cases odd
    · cases begun

/-- Whether a logical line has any text is seen from the physical lines from its first one on. -/
theorem text_eq_nil_iff_of_mem_assemble (closed : IsClosed unfinished) (number : Nat) (lines : List (List Char)) :
    ∀ logical ∈ assemble number unfinished lines,
      (∃ begun ∈ unfinished, logical.line = begun.line ∧ (logical.text = [] ↔ ComesToNothing unfinished lines)) ∨
        number ≤ logical.line ∧ (logical.text = [] ↔ JoinToNothing (lines.drop (logical.line - number))) := by
  -- Each physical line finishes what was unfinished or hands it on, and otherwise it begins with itself.
  induction lines generalizing number unfinished with
  | nil =>
    intro logical member
    have begun := Option.mem_toList.mp member
    exact .inl ⟨logical, begun, rfl, by rw [Option.mem_def.mp begun]; simp [ComesToNothing, BringNothing.ended]⟩
  | cons physical rest ih =>
    have here : ∀ logical : LogicalLine, logical.line = (joined number unfinished physical).line →
        (logical.text = [] ↔ ComesToNothing unfinished (physical :: rest)) →
        (∃ begun ∈ unfinished, logical.line = begun.line ∧
          (logical.text = [] ↔ ComesToNothing unfinished (physical :: rest))) ∨
        number ≤ logical.line ∧
          (logical.text = [] ↔ JoinToNothing ((physical :: rest).drop (logical.line - number))) := by
      intro logical line text
      cases unfinished with
      | none =>
        have first : logical.line = number := line
        exact .inr ⟨by omega, by rwa [first, Nat.sub_self]⟩
      | some begun => exact .inl ⟨begun, rfl, line, text⟩
    intro logical member
    rw [assemble_cons] at member
    rcases List.mem_append.mp member with finished | member
    · have finished := Option.mem_toList.mp finished
      exact here logical (congrArg _ (eq_joined_of_finishedBy finished)) (text_finishedBy_eq_nil_iff rest finished)
    · rcases ih (isClosed_unfinishedAfter number unfinished physical) (number + 1) logical member with
        ⟨begun, found, line, text⟩ | ⟨beyond, text⟩
      · rw [Option.mem_def.mp found] at text
        have own : begun.line = (joined number unfinished physical).line := by rw [eq_joined_of_unfinishedAfter found]
        exact here logical (line.trans own) (text.trans (comesToNothing_unfinishedAfter closed rest found))
      · -- The lines behind the first one are numbered from one more on.
        have shifted : logical.line - number = logical.line - (number + 1) + 1 := by omega
        exact .inr ⟨by omega, by rwa [shifted, List.drop_succ_cons]⟩

/-- A text does not begin with white space. -/
def BeginsSolid (text : List Char) : Prop := ∀ c ∈ text.head?, isWhiteSpace c = false

/-- The beginning of a text that does not begin with white space does not do so either. -/
theorem BeginsSolid.of_prefix {front text : List Char} (solid : BeginsSolid text) (first : front <+: text) :
    BeginsSolid front := by
  obtain ⟨rest, rfl⟩ := first
  cases front with
  | nil => simp [BeginsSolid]
  | cons c front => exact solid

/-- A physical line that begins or joins a logical line brings no white space to the start of it. -/
theorem beginsSolid_joined (begun : ∀ before ∈ unfinished, BeginsSolid before.text) (number : Nat)
    (physical : List Char) : BeginsSolid (joined number unfinished physical).text := by
  cases unfinished with
  | none => exact not_isWhiteSpace_of_head?_trimStart
  | some before =>
    rw [joined]
    -- Behind nothing, the start is that of the physical line.
    cases empty : before.text with
    | nil => exact not_isWhiteSpace_of_head?_trimStart
    | cons c rest =>
      have solid := begun before rfl
      rwa [empty] at solid

/-- No logical line begins with white space. -/
theorem beginsSolid_of_mem_assemble (begun : ∀ before ∈ unfinished, BeginsSolid before.text) (number : Nat)
    (lines : List (List Char)) : ∀ logical ∈ assemble number unfinished lines, BeginsSolid logical.text := by
  -- What a logical line begins with is decided when it is begun, whatever is joined to it later.
  induction lines generalizing number unfinished with
  | nil =>
    intro logical member
    exact begun logical (Option.mem_toList.mp member)
  | cons physical rest ih =>
    have joined := beginsSolid_joined begun number physical
    intro logical member
    rw [assemble_cons] at member
    rcases List.mem_append.mp member with finished | later
    · rw [eq_joined_of_finishedBy (Option.mem_toList.mp finished)]
      exact joined
    · refine ih (fun before found => ?_) _ logical later
      rw [eq_joined_of_unfinishedAfter found]
      exact joined.of_prefix (List.dropLast_prefix _)

/-- There are no logical lines exactly when nothing was begun and every physical line is passed over. -/
theorem assemble_eq_nil_iff {lines : List (List Char)} :
    assemble number unfinished lines = [] ↔
      unfinished = none ∧ ∀ line ∈ lines, isSkipped (Text.trimStart line) = true := by
  induction lines generalizing number unfinished with
  | nil => cases unfinished <;> simp [assemble]
  | cons physical rest ih =>
    rw [assemble_cons, List.append_eq_nil_iff, ih, List.forall_mem_cons]
    -- A line that is not passed over finishes something or leaves it unfinished.
    cases unfinished with
    | none =>
      rw [finishedBy, unfinishedAfter, isPassedOver]
      cases isSkipped (Text.trimStart physical) <;>
        cases continues (joined number none physical).text <;> simp
    | some before =>
      rw [finishedBy, unfinishedAfter, isPassedOver]
      cases continues (joined number (some before) physical).text <;> simp

/-- A raw part without backslashes that are left over stands for the empty text only when it is empty. -/
theorem unescape_eq_nil_iff {raw : List Char} (whole : continues raw = false) : unescape raw = .ok [] ↔ raw = [] := by
  constructor
  · intro read
    cases standsFor_of_unescape whole read
    rfl
  · rintro rfl
    rw [unescape]

/-- A raw key is empty when the line is or begins with a separator, as it does not begin with a blank. -/
theorem splitKey_eq_nil_iff {text : List Char} (solid : BeginsSolid text) :
    (splitKey text).1 = [] ↔ text = [] ∨ ∃ c rest, text = c :: rest ∧ isSeparator c := by
  -- The cases are those of the search for the end of a key at the first character.
  have noBlank : ∀ c ∈ text.head?, isBlank c = false := fun c found =>
    not_isBlank_of_not_isWhiteSpace (solid c found)
  fun_cases splitKey text with
  | case1 => simp
  | case2 c rest => simp [isSeparator]
  | case3 c rest noEscape ends =>
    have plain := noBlank c rfl
    simpa [plain] using ends
  | case4 c rest noEscape stays =>
    simp only [Bool.or_eq_true, not_or, Bool.not_eq_true] at stays
    simp [stays.1]

/-- An entry has an empty key when its logical line has no text or begins with a separator. -/
theorem key_eq_empty_iff {text : String} {entry : Entry} (member : logical ∈ logicalLines text.toList)
    (read : readEntry logical.line logical.text = .ok entry) :
    entry.key = "" ↔ logical.text = [] ∨ ∃ c rest, logical.text = c :: rest ∧ isSeparator c := by
  have solid := beginsSolid_of_mem_assemble (by simp) 1 _ logical member
  have key : unescape (splitKey logical.text).1 = .ok entry.key.toList := (readEntry_eq_ok.mp read).1
  have whole : continues (splitKey logical.text).1 = false := (continues_splitEntry member).1
  -- No character of the raw key is lost when it is read.
  rw [← splitKey_eq_nil_iff solid, ← unescape_eq_nil_iff whole, key, Except.ok.injEq, String.toList_eq_nil_iff]

/-- A logical line of a document has no text when the physical lines from its first one on join to nothing. -/
theorem text_eq_nil_iff {text : String} (member : logical ∈ logicalLines text.toList) :
    logical.text = [] ↔ JoinToNothing ((physicalLines text).drop (logical.line - 1)) := by
  rcases text_eq_nil_iff_of_mem_assemble isClosed_none 1 _ logical member with ⟨_, impossible, _⟩ | ⟨_, same⟩
  · cases impossible
  · exact same

/-- Lines that are white or hollow bring nothing. -/
theorem bringNothing_of_forall {lines : List (List Char)} (each : ∀ line ∈ lines, IsWhite line ∨ IsHollow line) :
    BringNothing lines := by
  induction lines with
  | nil => exact .ended
  | cons line rest ih =>
    obtain ⟨own, others⟩ := List.forall_mem_cons.mp each
    rcases own with white | hollow
    · exact .white white
    · exact .hollow hollow (ih others)

/-- A white line is skipped where a logical line may begin, and a hollow line is not. -/
theorem isSkipped_iff_isWhite {line : List Char} (blank : IsWhite line ∨ IsHollow line) :
    isSkipped (Text.trimStart line) = true ↔ IsWhite line := by
  rw [← trimStart_eq_nil_iff]
  rcases blank with white | hollow
  · simp [trimStart_eq_nil_iff.mpr white, isSkipped]
  · simp [trimStart_eq_backslash_iff.mpr hollow, isSkipped]

/-- Every logical line of a document of white and hollow lines is empty. -/
theorem text_eq_nil_of_blank {text : String} (blank : ∀ line ∈ physicalLines text, IsWhite line ∨ IsHollow line)
    (member : logical ∈ logicalLines text.toList) : logical.text = [] := by
  -- The line that starts the logical line holds content, so it is hollow.
  obtain ⟨index, number, _, line, found, content⟩ :=
    ((lines_logicalLines text).2 logical.line).mp (List.mem_map_of_mem member)
  have rest : (physicalLines text).drop index = line :: (physicalLines text).drop (index + 1) := by
    obtain ⟨bound, same⟩ := List.getElem?_eq_some_iff.mp (Option.mem_def.mp found)
    rw [List.drop_eq_getElem_cons bound, same]
  have here := blank line (List.mem_of_getElem? (Option.mem_def.mp found))
  have hollow : IsHollow line := by
    refine here.resolve_left fun white => ?_
    rw [holdsContent_iff, (isSkipped_iff_isWhite here).mpr white] at content
    cases content
  rw [text_eq_nil_iff member, number, Nat.add_sub_cancel, rest, joinToNothing_cons_iff]
  exact ⟨hollow, bringNothing_of_forall fun other later => blank other (List.mem_of_mem_drop later)⟩

/-- A logical line without text is an entry without key and value. -/
theorem readEntry_nil (line : Nat) : readEntry line [] = .ok ⟨line, "", ""⟩ := by
  refine readEntry_eq_ok.mpr ⟨?_, ?_, rfl⟩ <;>
  · show unescape [] = .ok "".toList
    rw [unescape]
    rfl

/-- A document of white and hollow lines has an entry without key and value for each of its logical lines. -/
theorem parse_of_blank {text : String} (blank : ∀ line ∈ physicalLines text, IsWhite line ∨ IsHollow line) :
    parse text = .ok ((logicalLines text.toList).map fun logical => ⟨logical.line, "", ""⟩) := by
  refine readEntries_eq_ok.mpr ?_
  rw [List.forall₂_map_right_iff, List.forall₂_same]
  intro logical member
  rw [text_eq_nil_of_blank blank member, readEntry_nil]

/--
The logical line of an entry is empty exactly where a line with a lone backslash is followed by others of its kind up to
a line of white space or the end, and an entry has an empty key exactly when its logical line is empty or begins with a
separator.

So a document of such lines and lines of white space has only entries without key and value, and it has none of them
exactly when it has no line with a backslash.
-/
theorem blank_logical_lines (text : String) :
    (∀ entries, parse text = .ok entries → List.Forall₂ (fun logical entry => entry.line = logical.line ∧
      (logical.text = [] ↔ JoinToNothing ((physicalLines text).drop (logical.line - 1))) ∧
      (entry.key = "" ↔ logical.text = [] ∨ ∃ c rest, logical.text = c :: rest ∧ isSeparator c))
      (logicalLines text.toList) entries) ∧
    ((∀ line ∈ physicalLines text, IsWhite line ∨ IsHollow line) → ∃ entries, parse text = .ok entries ∧
      (∀ entry ∈ entries, entry.key = "" ∧ entry.value = "") ∧
      (entries = [] ↔ ∀ line ∈ physicalLines text, IsWhite line)) := by
  -- The first part looks at every entry by itself, and the second one at which lines are skipped.
  constructor
  · intro entries read
    have each := (List.forall₂_and_left _ _).mpr ⟨fun _ member => member, readEntries_eq_ok.mp read⟩
    refine each.imp fun logical entry own => ?_
    obtain ⟨member, own⟩ := own
    exact ⟨(readEntry_eq_ok.mp own).2.2, text_eq_nil_iff member, key_eq_empty_iff member own⟩
  · intro blank
    refine ⟨_, parse_of_blank blank, ?_, ?_⟩
    · simp
    · have skipped : logicalLines text.toList = [] ↔
          ∀ line ∈ physicalLines text, isSkipped (Text.trimStart line) = true := by
        rw [logicalLines, assemble_eq_nil_iff, physicalLines, and_iff_right rfl]
      rw [List.map_eq_nil_iff, skipped]
      exact forall₂_congr fun line member => isSkipped_iff_isWhite (blank line member)

/-- A lone backslash is read as an entry, although the line that it goes on with is blank. -/
theorem lone_backslash_makes_entry :
    let text := "\\\n \n"
    (∀ line ∈ physicalLines text, IsWhite line ∨ IsHollow line) ∧
      logicalLines text.toList = [⟨1, []⟩] ∧ parse text = .ok [⟨1, "", ""⟩] := by
  -- The two physical lines are of the kinds that the document may have, and the rest is evaluated.
  intro text
  have lines : physicalLines text = [['\\'], [' ']] := by cbv
  refine ⟨?_, by cbv, by cbv⟩
  rw [lines]
  simp only [List.forall_mem_cons, List.not_mem_nil, false_imp_iff, implies_true, and_true]
  exact ⟨.inr ⟨[], by simp [IsWhite], rfl⟩, .inl (by simp [IsWhite]; decide)⟩

end MessageCatalogue.Properties
