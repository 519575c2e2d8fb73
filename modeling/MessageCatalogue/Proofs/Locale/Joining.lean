import MessageCatalogue.Locale.Grammar
import MessageCatalogue.Proofs.Text.Pieces

/-! A text is joined from its subtags by hyphens and underscores, and from no other subtags without them. -/

namespace MessageCatalogue.Locale

/-- Subtags stand in a text with a hyphen or an underscore between each two of them. -/
inductive Joins : List (List Char) → List Char → Prop where
  | last (subtag : List Char) : Joins [subtag] subtag
  | next (subtag : List Char) {separator : Char} {rest : List (List Char)} {text : List Char}
      (separates : separator = '-' ∨ separator = '_') (joins : Joins rest text) :
      Joins (subtag :: rest) (subtag ++ separator :: text)

namespace Joins

variable {subtags : List (List Char)} {text : List Char}

/-- There are no joined texts without subtags. -/
theorem ne_nil (joins : Joins subtags text) : subtags ≠ [] := by
  cases joins <;> simp

/-- Subtags can be joined by the same separator everywhere. -/
theorem intercalate {separator : Char} (separates : separator = '-' ∨ separator = '_') (occupied : subtags ≠ []) :
    Joins subtags ([separator].intercalate subtags) := by
  -- The separator stands in front of every subtag but the first.
  induction subtags with
  | nil => exact absurd rfl occupied
  | cons first rest ih =>
    cases rest with
    | nil => simpa using Joins.last first
    | cons second more =>
      rw [List.intercalate_cons_cons, List.append_assoc, List.singleton_append]
      exact .next first separates (ih (by simp))

/-- A joined text begins like its first subtag. -/
theorem head?_eq {first : List Char} {rest : List (List Char)} (joins : Joins (first :: rest) text)
    (named : first ≠ []) : text.head? = first.head? := by
  cases joins with
  | last _ => rfl
  | next _ _ _ => exact List.head?_append_of_ne_nil _ named

/-- A joined text ends like its last subtag. -/
theorem getLast?_eq {last : List Char} (joins : Joins subtags text) (closes : subtags.getLast? = some last)
    (named : last ≠ []) : text.getLast? = last.getLast? := by
  induction joins with
  | last subtag =>
    rw [List.getLast?_singleton] at closes
    rw [Option.some.inj closes]
  | @next subtag separator rest text separates joins ih =>
    rw [List.getLast?_cons_of_ne_nil joins.ne_nil] at closes
    have onward := ih closes
    -- What follows the separator is not empty, for it ends like the last subtag.
    have occupied : text ≠ [] := by
      rintro rfl
      exact named (List.getLast?_eq_none_iff.mp onward.symm)
    rw [List.getLast?_append_of_ne_nil _ (List.cons_ne_nil separator text), List.getLast?_cons_of_ne_nil occupied,
      onward]

/-- Joined subtags that hold no separators themselves are the subtags of the text. -/
theorem splitSubtags_eq (joins : Joins subtags text) (free : ∀ subtag ∈ subtags, '-' ∉ subtag ∧ '_' ∉ subtag) :
    splitSubtags text = subtags := by
  -- Each separator is read as a hyphen, and no other character becomes one or stops being one.
  have joined : text.map (fun c => if c = '_' then '-' else c) = ['-'].intercalate subtags := by
    have kept : ∀ subtag : List Char, '_' ∉ subtag → subtag.map (fun c => if c = '_' then '-' else c) = subtag := by
      intro subtag absent
      have same : ∀ c ∈ subtag, (if c = '_' then '-' else c) = id c := by
        intro c member
        have other : c ≠ '_' := fun underscore => absent (underscore ▸ member)
        exact if_neg other
      rw [List.map_congr_left same, List.map_id]
    induction joins with
    | last subtag => simpa using kept subtag (free subtag (by simp)).2
    | @next subtag separator rest text separates joins ih =>
      obtain ⟨own, others⟩ := List.forall_mem_cons.mp free
      obtain ⟨second, more, rfl⟩ := List.exists_cons_of_ne_nil joins.ne_nil
      have hyphen : (if separator = '_' then '-' else separator) = '-' := by
        rcases separates with rfl | rfl <;> rfl
      rw [List.map_append, List.map_cons, kept subtag own.2, ih others, hyphen, List.intercalate_cons_cons,
        List.append_assoc, List.singleton_append]
  rw [splitSubtags, Text.pieces_singleton, joined]
  exact List.splitOn_intercalate '-' (fun subtag member => (free subtag member).1) joins.ne_nil

end Joins

/-- Every text is joined from its subtags. -/
theorem joins_splitSubtags (text : List Char) : Joins (splitSubtags text) text := by
  induction text with
  | nil => exact .last []
  | cons c rest ih =>
    rw [splitSubtags, Text.pieces_singleton, List.map_cons, List.splitOn_cons_eq_if_modifyHead,
      ← Text.pieces_singleton, ← splitSubtags]
    -- A separator closes an empty subtag, and another character belongs to the first one.
    by_cases separates : c = '-' ∨ c = '_'
    · have hyphen : (if c = '_' then '-' else c) = '-' := by
        rcases separates with rfl | rfl <;> rfl
      rw [hyphen, if_pos (by simp)]
      exact .next [] separates ih
    · obtain ⟨noHyphen, noUnderscore⟩ := not_or.mp separates
      rw [if_neg noUnderscore, if_neg (by simpa using noHyphen)]
      generalize splitSubtags rest = subtags at ih ⊢
      cases ih with
      | last _ => exact .last _
      | next first separates joins => exact .next (c :: first) separates joins

/-- The characters of some subtags, with one more for each of them. -/
def extent : List (List Char) → Nat
  | [] => 0
  | subtag :: rest => subtag.length + 1 + extent rest

@[simp] theorem extent_cons (subtag : List Char) (rest : List (List Char)) :
    extent (subtag :: rest) = subtag.length + 1 + extent rest := rfl

@[simp] theorem extent_append (front back : List (List Char)) :
    extent (front ++ back) = extent front + extent back := by
  induction front with
  | nil => exact (Nat.zero_add _).symm
  | cons subtag rest ih =>
    rw [List.cons_append, extent_cons, extent_cons, ih]
    omega

/-- Between subtags that are joined, there is one separator less than there are subtags. -/
theorem Joins.extent_eq {subtags : List (List Char)} {text : List Char} (joins : Joins subtags text) :
    extent subtags = text.length + 1 := by
  induction joins with
  | last subtag => rfl
  | next subtag separates joins ih =>
    rw [extent_cons, ih, List.length_append, List.length_cons]
    omega

end MessageCatalogue.Locale
