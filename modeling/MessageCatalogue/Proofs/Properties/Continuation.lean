import Mathlib.Data.List.TakeWhile
import MessageCatalogue.Properties.Document

/-! Physical lines are coupled by an unfinished logical line only, and their own ends tell whether there is one. -/

namespace MessageCatalogue.Properties

/-- The logical line that a physical line begins or goes on with. -/
def joined (number : Nat) (unfinished : Option LogicalLine) (physical : List Char) : LogicalLine :=
  -- A logical line has the number of its first physical line, however many it goes on over.
  match unfinished with
  | none => ⟨number, Text.trimStart physical⟩
  | some unfinished => ⟨unfinished.line, unfinished.text ++ Text.trimStart physical⟩

/-- Whether a physical line holds nothing, which is asked only where a logical line may begin. -/
def isPassedOver (unfinished : Option LogicalLine) (physical : List Char) : Bool :=
  unfinished.isNone && isSkipped (Text.trimStart physical)

/-- The unfinished logical line after a physical line. -/
def unfinishedAfter (number : Nat) (unfinished : Option LogicalLine) (physical : List Char) : Option LogicalLine :=
  let logical := joined number unfinished physical
  -- The last backslash only announces the next line and is left out.
  if isPassedOver unfinished physical then none
  else if continues logical.text then some ⟨logical.line, logical.text.dropLast⟩
  else none

/-- The logical line that a physical line finishes, if it finishes one. -/
def finishedBy (number : Nat) (unfinished : Option LogicalLine) (physical : List Char) : Option LogicalLine :=
  let logical := joined number unfinished physical
  if isPassedOver unfinished physical || continues logical.text then none else some logical

/-- The unfinished logical line after some physical lines. -/
def unfinishedBehind (number : Nat) : Option LogicalLine → List (List Char) → Option LogicalLine
  | unfinished, [] => unfinished
  | unfinished, physical :: rest =>
    unfinishedBehind (number + 1) (unfinishedAfter number unfinished physical) rest

/-- No backslash is left over at the end of an unfinished logical line. -/
def IsClosed (unfinished : Option LogicalLine) : Prop := ∀ logical ∈ unfinished, continues logical.text = false

variable {number : Nat} {unfinished : Option LogicalLine} {physical : List Char}

/-- A physical line may finish a logical line and leaves the rest to what is unfinished after it. -/
theorem assemble_cons (number : Nat) (unfinished : Option LogicalLine) (physical : List Char)
    (rest : List (List Char)) :
    assemble number unfinished (physical :: rest) = (finishedBy number unfinished physical).toList ++
      assemble (number + 1) (unfinishedAfter number unfinished physical) rest := by
  -- Only the beginning of a logical line may be passed over.
  cases unfinished with
  | none =>
    rw [assemble, finishedBy, unfinishedAfter, isPassedOver, joined]
    cases isSkipped (Text.trimStart physical) <;> cases continues (Text.trimStart physical) <;> rfl
  | some begun =>
    rw [assemble, finishedBy, unfinishedAfter, isPassedOver, joined]
    cases continues (begun.text ++ Text.trimStart physical) <;> rfl

/-- Physical lines after which nothing is unfinished do not take part in what follows them. -/
theorem assemble_append {front : List (List Char)} (finished : unfinishedBehind number unfinished front = none)
    (back : List (List Char)) :
    assemble number unfinished (front ++ back) =
      assemble number unfinished front ++ assemble (number + front.length) none back := by
  -- Each line is taken off the front with whatever it finishes.
  induction front generalizing number unfinished with
  | nil =>
    obtain rfl : unfinished = none := finished
    rfl
  | cons first rest ih =>
    rw [List.cons_append, assemble_cons, assemble_cons, ih finished, List.append_assoc, List.length_cons,
      Nat.add_right_comm, Nat.add_assoc]

/-- Of some physical lines, the last ones find what is unfinished behind the first ones. -/
theorem unfinishedBehind_append (number : Nat) (unfinished : Option LogicalLine) (front back : List (List Char)) :
    unfinishedBehind number unfinished (front ++ back) =
      unfinishedBehind (number + front.length) (unfinishedBehind number unfinished front) back := by
  induction front generalizing number unfinished with
  | nil => rfl
  | cons first rest ih =>
    rw [List.cons_append, unfinishedBehind, unfinishedBehind, ih, List.length_cons, Nat.add_right_comm, Nat.add_assoc]

/-- A line without backslashes is not continued. -/
theorem continues_of_notMem {line : List Char} (absent : '\\' ∉ line) : continues line = false := by
  have none : line.reverse.takeWhile (· == '\\') = [] := by
    refine List.takeWhile_eq_nil_iff.mpr fun inside mark => absent ?_
    rw [← beq_iff_eq.mp mark]
    exact List.mem_reverse.mp (List.getElem_mem inside)
  rw [continues, none]
  rfl

/-- Behind a line that is not continued, the end of what is added decides. -/
theorem continues_append {front : List Char} (closed : continues front = false) (back : List Char) :
    continues (front ++ back) = continues back := by
  -- A line is continued by an odd number of backslashes at its end.
  unfold continues at closed ⊢
  rw [List.reverse_append, List.takeWhile_append]
  split
  · -- Nothing but backslashes is added, so the two runs join, and the first one is even.
    rename_i whole
    rw [List.length_append, ← whole]
    grind
  · rfl

/-- A line that is continued is no longer so without its last backslash. -/
theorem continues_dropLast {line : List Char} (odd : continues line = true) : continues line.dropLast = false := by
  -- The run of backslashes at the end becomes shorter by one.
  unfold continues at odd ⊢
  rw [← List.tail_reverse]
  cases backwards : line.reverse with
  | nil => rfl
  | cons last rest =>
    rw [backwards] at odd
    by_cases mark : last = '\\'
    · simp only [mark, List.takeWhile_cons, beq_self_eq_true, if_true, List.length_cons] at odd
      grind
    · simp [mark] at odd

/-- Characters of a class without the backslash do not change at the start of a line whether it is continued. -/
theorem continues_dropWhile {test : Char → Bool} (refused : test '\\' = false) (line : List Char) :
    continues (line.dropWhile test) = continues line := by
  have margin : continues (line.takeWhile test) = false := by
    refine continues_of_notMem fun member => ?_
    simp [List.mem_takeWhile_imp member] at refused
  rw [← continues_append margin, List.takeWhile_append_dropWhile]

/-- White space at the start of a line does not change whether it is continued. -/
theorem continues_trimStart (line : List Char) : continues (Text.trimStart line) = continues line :=
  continues_dropWhile (by decide) line

/-- Where nothing is unfinished there is no backslash left over. -/
theorem isClosed_none : IsClosed none := by simp [IsClosed]

/-- Whether a logical line is continued is seen from its last physical line. -/
theorem continues_joined (closed : IsClosed unfinished) (number : Nat) (physical : List Char) :
    continues (joined number unfinished physical).text = continues physical := by
  -- What stands before the physical line ends in no backslash that would join those at its end.
  cases unfinished with
  | none => exact continues_trimStart physical
  | some logical => rw [joined, continues_append (closed logical rfl), continues_trimStart]

/-- A logical line that is unfinished after a physical one has lost its last backslash. -/
theorem isClosed_unfinishedAfter (number : Nat) (unfinished : Option LogicalLine) (physical : List Char) :
    IsClosed (unfinishedAfter number unfinished physical) := by
  -- Of the three cases, only a line that is continued leaves anything unfinished.
  intro logical member
  unfold unfinishedAfter at member
  dsimp only at member
  split at member
  · cases member
  · split at member
    · rename_i odd
      obtain rfl := Option.some.inj member
      exact continues_dropLast odd
    · cases member

/-- No backslash is ever left over at the end of an unfinished logical line. -/
theorem isClosed_unfinishedBehind (closed : IsClosed unfinished) (number : Nat) (lines : List (List Char)) :
    IsClosed (unfinishedBehind number unfinished lines) := by
  induction lines generalizing number unfinished with
  | nil => exact closed
  | cons first rest ih => exact ih (isClosed_unfinishedAfter number unfinished first) _

/-- After a physical line nothing is unfinished unless the line itself is continued. -/
theorem unfinishedAfter_eq_none (closed : IsClosed unfinished) (ended : continues physical = false) (number : Nat) :
    unfinishedAfter number unfinished physical = none := by
  rw [unfinishedAfter, continues_joined closed, ended]
  simp

end MessageCatalogue.Properties
