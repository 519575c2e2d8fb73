import Mathlib.Data.List.Basic
import MessageCatalogue.Text.Lines

/-! A text is cut after each line feed, and a carriage return before it is no part of the line. -/

namespace MessageCatalogue.Text

/-- A line without the carriage return at its end. -/
def dropReturn : List Char → List Char
  | [] => []
  | ['\r'] => []
  | c :: rest => c :: dropReturn rest

/-- Only a carriage return at the end is dropped, so a head with something behind it stays. -/
theorem dropReturn_cons {c : Char} {rest : List Char} (kept : c ≠ '\r' ∨ rest ≠ []) :
    dropReturn (c :: rest) = c :: dropReturn rest := by
  rw [dropReturn]
  rintro rfl rfl
  simp at kept

/-- Dropping a carriage return adds no character. -/
theorem mem_of_mem_dropReturn {c : Char} {line : List Char} (member : c ∈ dropReturn line) : c ∈ line := by
  -- Every character but the last carriage return is kept in its place.
  fun_induction dropReturn line with
  | case1 => exact member
  | case2 => simp at member
  | case3 first rest _ ih =>
    rcases List.mem_cons.mp member with rfl | later
    · exact List.mem_cons_self
    · exact List.mem_cons_of_mem _ (ih later)

/-- A line without carriage returns has none to drop. -/
theorem dropReturn_of_notMem {line : List Char} (none : '\r' ∉ line) : dropReturn line = line := by
  induction line with
  | nil => rfl
  | cons c rest ih =>
    obtain ⟨different, others⟩ := List.ne_and_not_mem_of_not_mem_cons none
    rw [dropReturn_cons (.inl (Ne.symm different)), ih others]

/-- Up to a character that is no carriage return nothing is dropped. -/
theorem dropReturn_append_cons {c : Char} (kept : c ≠ '\r') (front rest : List Char) :
    dropReturn (front ++ c :: rest) = front ++ c :: dropReturn rest := by
  -- With that character behind it, no part of the front is at the end.
  induction front with
  | nil => exact dropReturn_cons (.inl kept)
  | cons first more ih =>
    rw [List.cons_append, dropReturn_cons (.inr (by simp)), ih, List.cons_append]

/-- A carriage return at the end of a line is the one that is dropped. -/
theorem dropReturn_append_return (line : List Char) : dropReturn (line ++ ['\r']) = line := by
  induction line with
  | nil => rfl
  | cons c rest ih => rw [List.cons_append, dropReturn_cons (.inr (by simp)), ih]

/-- A character that starts no ending joins the first line of the rest. -/
theorem lines_cons {c : Char} {rest : List Char} (notFeed : c ≠ '\n') (notReturn : c = '\r' → rest.head? ≠ some '\n') :
    lines (c :: rest) = (c :: (lines rest).headD []) :: (lines rest).tail := by
  rw [lines]
  · cases lines rest <;> rfl
  · exact notFeed
  · rintro after same rfl
    exact notReturn same rfl

/-- The line that ends at the first line feed is read without a carriage return before it. -/
theorem lines_append_lineFeed {line : List Char} (unbroken : '\n' ∉ line) (rest : List Char) :
    lines (line ++ '\n' :: rest) = dropReturn line :: lines rest := by
  -- The line is read in the cases in which its carriage return is dropped.
  fun_induction dropReturn line with
  | case1 => rw [List.nil_append, lines]
  | case2 => simp only [List.cons_append, List.nil_append, lines]
  | case3 first more last ih =>
    obtain ⟨different, others⟩ := List.ne_and_not_mem_of_not_mem_cons unbroken
    -- A line feed behind a carriage return would be the one that ends the line.
    have notReturn : first = '\r' → (more ++ '\n' :: rest).head? ≠ some '\n' := by
      intro same next
      cases more with
      | nil => exact last same rfl
      | cons second _ => exact others (by simp_all)
    rw [List.cons_append, lines_cons (Ne.symm different) notReturn, ih others, List.headD_cons, List.tail_cons]

/-- A text without a line feed is a line as it is, unless it is empty. -/
theorem lines_of_unbroken {text : List Char} (unbroken : '\n' ∉ text) :
    lines text = if text = [] then [] else [text] := by
  -- Without a line feed each character joins the line of those behind it.
  induction text with
  | nil => rfl
  | cons first rest ih =>
    obtain ⟨different, others⟩ := List.ne_and_not_mem_of_not_mem_cons unbroken
    have notReturn : first = '\r' → rest.head? ≠ some '\n' := fun _ next => others (List.mem_of_mem_head? next)
    rw [lines_cons (Ne.symm different) notReturn, ih others]
    cases rest <;> rfl

/-- A text is a row of lines of which each is ended by a line feed. -/
inductive IsEnded : List Char → Prop where
  | nil : IsEnded []
  | line {line rest : List Char} (unbroken : '\n' ∉ line) (ended : IsEnded rest) : IsEnded (line ++ '\n' :: rest)

/-- A text whose last character is a line feed consists of ended lines. -/
theorem isEnded_of_getLast? {text : List Char} (last : text.getLast? = some '\n') : IsEnded text := by
  -- The first line feed ends a line, and what follows it is shorter.
  induction size : text.length using Nat.strongRecOn generalizing text with
  | ind _ ih =>
    obtain ⟨line, rest, rfl, unbroken⟩ := List.eq_append_cons_of_mem (List.mem_of_getLast? last)
    refine .line unbroken ?_
    cases rest with
    | nil => exact .nil
    | cons c more =>
      have shorter : (c :: more).length < (line ++ '\n' :: c :: more).length := by
        simp only [List.length_append, List.length_cons]
        omega
      exact ih _ (size ▸ shorter) (by simpa using last) rfl

/-- Ended lines are read apart from what follows them. -/
theorem IsEnded.lines_append {text : List Char} (ended : IsEnded text) (rest : List Char) :
    lines (text ++ rest) = lines text ++ lines rest := by
  induction ended with
  | nil => rfl
  | line unbroken _ ih =>
    rw [List.append_assoc, List.cons_append, lines_append_lineFeed unbroken, lines_append_lineFeed unbroken, ih,
      List.cons_append]

/-- There are as many ended lines as line feeds. -/
theorem IsEnded.length_lines {text : List Char} (ended : IsEnded text) :
    (lines text).length = text.count '\n' := by
  induction ended with
  | nil => rfl
  | line unbroken _ ih =>
    rw [lines_append_lineFeed unbroken, List.length_cons, ih, List.count_append, List.count_cons_self,
      List.count_eq_zero.mpr unbroken, Nat.zero_add]

end MessageCatalogue.Text
