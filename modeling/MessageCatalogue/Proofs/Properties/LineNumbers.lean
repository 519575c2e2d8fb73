import MessageCatalogue.Proofs.Properties.Concatenation
import MessageCatalogue.Proofs.Properties.Reading

/-! An entry carries the number of the physical line that starts it, which the physical lines by themselves tell. -/

namespace MessageCatalogue.Properties

/-- A line holds content when its first character behind any white space is no comment mark. -/
def HoldsContent (line : List Char) : Prop := ∃ c, (Text.trimStart line).head? = some c ∧ c ≠ '#' ∧ c ≠ '!'

/--
A physical line goes on with an entry when the line before it belongs to one and is continued itself.

A line belongs to an entry when it goes on with one or, going on with none, holds content and so starts one.
-/
def IsContinuation (lines : List (List Char)) : Nat → Prop
  | 0 => False
  -- The first line follows none, and a later one depends on the line before it alone.
  | index + 1 =>
    (IsContinuation lines index ∨ ¬ IsContinuation lines index ∧ ∃ line ∈ lines[index]?, HoldsContent line) ∧
      ∃ line ∈ lines[index]?, continues line

/-- A physical line starts an entry when it goes on with none and holds content. -/
def StartsEntry (lines : List (List Char)) (index : Nat) : Prop :=
  ¬ IsContinuation lines index ∧ ∃ line ∈ lines[index]?, HoldsContent line

/-- The line of a document with a number starts an entry. -/
def EntryStartsOn (text : String) (number : Nat) : Prop :=
  -- Lines are numbered from one on.
  ∃ index, number = index + 1 ∧ StartsEntry (physicalLines text) index

variable {number : Nat} {unfinished : Option LogicalLine} {physical : List Char}

/-- A line holds content unless it is skipped where an entry may start. -/
theorem holdsContent_iff {line : List Char} : HoldsContent line ↔ isSkipped (Text.trimStart line) = false := by
  unfold HoldsContent
  cases Text.trimStart line with
  | nil => simp [isSkipped]
  | cons c rest => simp [isSkipped]

/-- Behind a line there is something unfinished when it belongs to an entry and is continued. -/
theorem isSome_unfinishedAfter (closed : IsClosed unfinished) (number : Nat) (physical : List Char) :
    (unfinishedAfter number unfinished physical).isSome ↔
      (unfinished.isSome ∨ HoldsContent physical) ∧ continues physical := by
  rw [unfinishedAfter, continues_joined closed, holdsContent_iff, isPassedOver]
  cases unfinished <;> cases isSkipped (Text.trimStart physical) <;> cases continues physical <;> simp

/-- A line goes on with an entry when something is unfinished behind the lines before it. -/
theorem isSome_unfinishedBehind (earlier later : List (List Char)) :
    (unfinishedBehind 1 none earlier).isSome ↔ IsContinuation (earlier ++ later) earlier.length := by
  -- The last of the lines before decides together with what is unfinished in front of it.
  induction earlier using List.reverseRecOn generalizing later with
  | nil => simp [unfinishedBehind, IsContinuation]
  | append_singleton front last ih =>
    have closed := isClosed_unfinishedBehind isClosed_none 1 front
    have found : (front ++ [last] ++ later)[front.length]? = some last := by simp
    rw [unfinishedBehind_append, unfinishedBehind, unfinishedBehind, isSome_unfinishedAfter closed,
      List.length_append, List.length_singleton, IsContinuation, found, ih ([last] ++ later), List.append_assoc]
    simp only [Option.mem_some_iff, exists_eq_left']
    tauto

/-- What a physical line finishes or leaves unfinished has the number of the line that started it. -/
theorem line_finished_or_unfinished (number : Nat) (unfinished : Option LogicalLine) (physical : List Char)
    (start : Nat) :
    ((∃ logical ∈ finishedBy number unfinished physical, logical.line = start) ∨
        ∃ logical ∈ unfinishedAfter number unfinished physical, logical.line = start) ↔
      (∃ logical ∈ unfinished, logical.line = start) ∨
        unfinished = none ∧ HoldsContent physical ∧ start = number := by
  -- A line that is not passed over does one of the two, depending on its end.
  rw [holdsContent_iff, finishedBy, unfinishedAfter, isPassedOver]
  cases unfinished with
  | none =>
    cases isSkipped (Text.trimStart physical) <;>
      cases continues (joined number none physical).text <;> simp [joined, eq_comm]
  | some begun => cases continues (joined number (some begun) physical).text <;> simp [joined]

/-- Logical lines have the numbers of what was unfinished before them and of the lines that start entries. -/
theorem mem_lines_assemble (earlier rest : List (List Char)) (start : Nat) :
    (∃ logical ∈ assemble (1 + earlier.length) (unfinishedBehind 1 none earlier) rest, logical.line = start) ↔
      (∃ logical ∈ unfinishedBehind 1 none earlier, logical.line = start) ∨
        ∃ index, earlier.length ≤ index ∧ start = index + 1 ∧ StartsEntry (earlier ++ rest) index := by
  -- The first of the remaining lines joins those before it, so these stay quantified over.
  induction rest generalizing earlier with
  | nil =>
    have none : ∀ index, earlier.length ≤ index → ¬ StartsEntry (earlier ++ []) index := by
      intro index beyond starts
      obtain ⟨line, found, _⟩ := starts.2
      have absent : (earlier ++ [])[index]? = Option.none := List.getElem?_eq_none (by simpa using beyond)
      rw [absent] at found
      cases found
    simp only [assemble, Option.mem_toList]
    constructor
    · exact .inl
    · rintro (left | ⟨index, beyond, _, starts⟩)
      · exact left
      · exact absurd starts (none index beyond)
  | cons physical more ih =>
    have behind : unfinishedBehind 1 none (earlier ++ [physical]) =
        unfinishedAfter (1 + earlier.length) (unfinishedBehind 1 none earlier) physical := by
      rw [unfinishedBehind_append, unfinishedBehind, unfinishedBehind]
    have onward := ih (earlier ++ [physical])
    rw [behind, List.length_append, List.length_singleton, ← Nat.add_assoc, List.append_assoc,
      List.singleton_append] at onward
    -- The line starts an entry when nothing is unfinished before it and it holds content.
    have here : StartsEntry (earlier ++ physical :: more) earlier.length ↔
        unfinishedBehind 1 none earlier = none ∧ HoldsContent physical := by
      have found : (earlier ++ physical :: more)[earlier.length]? = some physical := by simp
      rw [StartsEntry, ← isSome_unfinishedBehind, found]
      simp
    have step := line_finished_or_unfinished (1 + earlier.length) (unfinishedBehind 1 none earlier) physical start
    rw [assemble_cons]
    simp only [List.mem_append, Option.mem_toList, or_and_right, exists_or, ← Option.mem_def]
    rw [onward, ← or_assoc, step, or_assoc, ← and_assoc, ← here]
    apply or_congr_right
    constructor
    · rintro (⟨starts, same⟩ | ⟨index, beyond, same, starts⟩)
      · exact ⟨earlier.length, Nat.le_refl _, by omega, starts⟩
      · exact ⟨index, by omega, same, starts⟩
    · rintro ⟨index, beyond, same, starts⟩
      rcases Nat.eq_or_lt_of_le beyond with rfl | further
      · exact .inl ⟨starts, by omega⟩
      · exact .inr ⟨index, further, same, starts⟩

/-- A line that finishes something leaves nothing unfinished. -/
theorem unfinishedAfter_of_finishedBy {logical : LogicalLine}
    (finished : finishedBy number unfinished physical = some logical) :
    unfinishedAfter number unfinished physical = none := by
  -- Both ask whether the line is passed over or continued, and only one of them can go on.
  rw [finishedBy] at finished
  rw [unfinishedAfter]
  split at finished
  · cases finished
  · rename_i ended
    simp only [Bool.or_eq_true, not_or, Bool.not_eq_true] at ended
    simp [ended]

/-- Logical lines come in the order of their numbers, behind what was unfinished before them. -/
theorem pairwise_lines_assemble (before : ∀ logical ∈ unfinished, logical.line < number)
    (lines : List (List Char)) :
    (assemble number unfinished lines).Pairwise (fun one other => one.line < other.line) ∧
      ∀ logical ∈ assemble number unfinished lines,
        (∃ begun ∈ unfinished, begun.line = logical.line) ∨ number ≤ logical.line := by
  -- Each line only adds its own number, which is greater than all that were met before.
  induction lines generalizing number unfinished with
  | nil => cases unfinished <;> simp [assemble]
  | cons physical rest ih =>
    have step := line_finished_or_unfinished number unfinished physical
    have bounded : ∀ start, (∃ begun ∈ unfinished, begun.line = start) ∨
        unfinished = none ∧ HoldsContent physical ∧ start = number → start < number + 1 := by
      rintro start (⟨begun, member, rfl⟩ | ⟨_, _, rfl⟩)
      · exact Nat.lt_succ_of_lt (before begun member)
      · exact Nat.lt_succ_self start
    have after : ∀ logical ∈ unfinishedAfter number unfinished physical, logical.line < number + 1 :=
      fun logical member => bounded _ ((step _).mp (.inr ⟨logical, member, rfl⟩))
    obtain ⟨ordered, later⟩ := ih after
    rw [assemble_cons]
    constructor
    · refine List.pairwise_append.mpr ⟨by cases finishedBy number unfinished physical <;> simp, ordered, ?_⟩
      intro one finished other member
      have finished := Option.mem_toList.mp finished
      -- Nothing is left of this line for the others to go on with.
      have beyond := later other member
      rw [unfinishedAfter_of_finishedBy finished] at beyond
      have reached : number + 1 ≤ other.line := by simpa using beyond
      exact Nat.lt_of_lt_of_le (bounded _ ((step _).mp (.inl ⟨one, finished, rfl⟩))) reached
    · intro logical member
      have known : (∃ begun ∈ unfinished, begun.line = logical.line) ∨
          unfinished = none ∧ HoldsContent physical ∧ logical.line = number →
          (∃ begun ∈ unfinished, begun.line = logical.line) ∨ number ≤ logical.line := by
        rintro (begun | ⟨_, _, same⟩)
        · exact .inl begun
        · exact .inr (Nat.le_of_eq same.symm)
      rcases List.mem_append.mp member with finished | member
      · exact known ((step _).mp (.inl ⟨logical, Option.mem_toList.mp finished, rfl⟩))
      · rcases later logical member with begun | beyond
        · exact known ((step _).mp (.inr begun))
        · exact .inr (Nat.le_of_succ_le beyond)

/-- The logical lines of a document have the numbers of the lines that start entries, in their order. -/
theorem lines_logicalLines (text : String) :
    ((logicalLines text.toList).map (·.line)).Pairwise (· < ·) ∧
      ∀ number, number ∈ (logicalLines text.toList).map (·.line) ↔ EntryStartsOn text number := by
  -- The lines are those behind an empty beginning, which leaves nothing unfinished.
  constructor
  · have nothing : ∀ logical ∈ (none : Option LogicalLine), logical.line < 1 := by simp
    exact List.pairwise_map.mpr (pairwise_lines_assemble nothing (physicalLines text)).1
  · intro number
    have members := mem_lines_assemble [] (physicalLines text) number
    simp only [unfinishedBehind, Option.mem_def, reduceCtorEq, false_and, exists_false, false_or, List.length_nil,
      Nat.zero_le, true_and] at members
    rw [List.mem_map]
    exact members

/-- Entries have the numbers of the logical lines that they are read from. -/
theorem lines_of_readEntries {lines : List LogicalLine} {entries : List Entry}
    (read : readEntries lines = .ok entries) : entries.map (·.line) = lines.map (·.line) := by
  -- The induction is on the pairs of a logical line and its entry.
  have each := readEntries_eq_ok.mp read
  clear read
  induction each with
  | nil => rfl
  | cons own _ ih => rw [List.map_cons, List.map_cons, ih, (readEntry_eq_ok.mp own).2.2]

/--
The entries of a document have the numbers of the physical lines that start entries, each once and in their order.

Which lines these are is seen from each line with the one before it, however many of them are joined.
-/
theorem entries_account_for_lines {text : String} {entries : List Entry} (parsed : parse text = .ok entries) :
    (entries.map (·.line)).Pairwise (· < ·) ∧
      ∀ number, number ∈ entries.map (·.line) ↔ EntryStartsOn text number := by
  rw [lines_of_readEntries parsed]
  exact lines_logicalLines text

/-- Lines that hold only a backslash or nothing at all do not part an entry from the line that starts it. -/
theorem entries_account_for_joined_lines :
    let text := "\ufeff a=1\\\n\\\n  \\\\\\\n# b\n\n!c\\\nd"
    parse text = .ok [⟨1, "a", "1\\# b"⟩, ⟨7, "d", ""⟩] ∧ [1, 7].Pairwise (· < ·) ∧
      ∀ number, number ∈ [1, 7] ↔ EntryStartsOn text number := by
  intro text
  have parsed : parse text = .ok [⟨1, "a", "1\\# b"⟩, ⟨7, "d", ""⟩] := by decide
  exact ⟨parsed, entries_account_for_lines parsed⟩

end MessageCatalogue.Properties
