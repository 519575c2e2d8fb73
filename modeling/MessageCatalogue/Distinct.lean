/-! Lists that hold each element once keep either the order of first occurrence or increasing order. -/

namespace MessageCatalogue

/-- An element joins the end of a list that does not hold it yet. -/
def appendNew {α : Type} [DecidableEq α] (known : List α) (element : α) : List α :=
  if element ∈ known then known else known ++ [element]

/-- The elements of a list at their first occurrences. -/
def firstOccurrences {α : Type} [DecidableEq α] (elements : List α) : List α :=
  elements.foldl appendNew []

/-- An element takes its place in an increasing list that does not hold it yet. -/
def insertIncreasing (element : String) : List String → List String
  -- The order of strings is that of their code points, which is also that of their UTF-8 bytes.
  | [] => [element]
  | first :: rest =>
    if element < first then element :: first :: rest
    else if element = first then first :: rest
    else first :: insertIncreasing element rest

/-- The distinct elements of a list in increasing order. -/
def increasing (elements : List String) : List String := elements.foldr insertIncreasing []

/-- Every element of an insertion is the inserted one or was there before. -/
theorem mem_insertIncreasing {element other : String} {elements : List String} :
    other ∈ insertIncreasing element elements ↔ other = element ∨ other ∈ elements := by
  -- Each comparison either places the element or passes to the rest.
  induction elements with
  | nil => simp [insertIncreasing]
  | cons first rest ih =>
    unfold insertIncreasing
    split
    · simp
    · split
      · rename_i same
        subst same
        simp
      · simp only [List.mem_cons, ih]
        constructor
        · rintro (found | found | found) <;> simp [found]
        · rintro (found | found | found) <;> simp [found]

/-- Insertion keeps a list strictly increasing. -/
theorem pairwise_insertIncreasing (element : String) {elements : List String}
    (sorted : elements.Pairwise (· < ·)) : (insertIncreasing element elements).Pairwise (· < ·) := by
  -- An element that is neither smaller nor equal lies strictly above the head it passes.
  induction elements with
  | nil => simp [insertIncreasing]
  | cons first rest ih =>
    obtain ⟨above, tail⟩ := List.pairwise_cons.mp sorted
    unfold insertIncreasing
    split
    · rename_i smaller
      refine List.pairwise_cons.mpr ⟨fun other member => ?_, sorted⟩
      rcases List.mem_cons.mp member with rfl | member
      · exact smaller
      · exact String.lt_trans smaller (above other member)
    · split
      · exact sorted
      · rename_i notSmaller different
        refine List.pairwise_cons.mpr ⟨fun other member => ?_, ih tail⟩
        rcases mem_insertIncreasing.mp member with rfl | member
        · exact String.not_le.mp fun le => different (String.le_antisymm le (String.not_lt.mp notSmaller))
        · exact above other member

/-- The distinct elements in increasing order are strictly increasing. -/
theorem pairwise_increasing (elements : List String) : (increasing elements).Pairwise (· < ·) := by
  -- The list grows by insertion from an empty one.
  induction elements with
  | nil => simp [increasing]
  | cons first rest ih => exact pairwise_insertIncreasing first ih

/-- Putting elements in increasing order keeps exactly the elements there were. -/
theorem mem_increasing {element : String} {elements : List String} :
    element ∈ increasing elements ↔ element ∈ elements := by
  -- Each insertion adds one element.
  induction elements with
  | nil => simp [increasing]
  | cons first rest ih =>
    change element ∈ insertIncreasing first (increasing rest) ↔ _
    rw [mem_insertIncreasing, ih, List.mem_cons]

end MessageCatalogue
