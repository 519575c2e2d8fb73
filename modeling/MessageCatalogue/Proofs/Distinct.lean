import MessageCatalogue.Distinct

/-! Keeping first occurrences gives a list without repeats that holds the same elements in the same order. -/

namespace MessageCatalogue

variable {α : Type} [DecidableEq α]

/-- Elements join a list behind those known, each at its first occurrence and unless it is known. -/
theorem foldl_appendNew (known elements : List α) :
    elements.foldl appendNew known = known ++ (elements.filter (· ∉ known)).eraseDups := by
  -- A new element is known from then on, so later ones equal to it are left out.
  induction elements generalizing known with
  | nil => simp
  | cons first rest ih =>
    rw [List.foldl_cons, ih]
    by_cases member : first ∈ known
    · simp [appendNew, member]
    · have later : rest.filter (· ∉ known ++ [first]) =
          (rest.filter (· ∉ known)).filter fun other => !other == first := by
        rw [List.filter_filter]
        refine List.filter_congr ?_
        intro other _
        by_cases same : other = first <;> simp [same]
      have grown : appendNew known first = known ++ [first] := if_neg member
      have kept : (first :: rest).filter (· ∉ known) = first :: rest.filter (· ∉ known) :=
        List.filter_cons_of_pos (by simpa using member)
      rw [grown, later, kept, List.eraseDups_cons, List.append_assoc, List.singleton_append]

/-- Elements that are new and distinct all join a list. -/
theorem foldl_appendNew_of_nodup {known elements : List α} (distinct : (known ++ elements).Nodup) :
    elements.foldl appendNew known = known ++ elements := by
  induction elements generalizing known with
  | nil => simp
  | cons first rest ih =>
    have absent : first ∉ known := fun member =>
      (List.nodup_append.mp distinct).2.2 first member first List.mem_cons_self rfl
    rw [List.foldl_cons, appendNew, if_neg absent, ih (by simpa using distinct), List.append_assoc,
      List.singleton_append]

/-- The elements of a list at their first occurrences are the list without its later duplicates. -/
theorem firstOccurrences_eq_eraseDups (elements : List α) :
    firstOccurrences elements = elements.eraseDups := by
  -- Nothing is known at the start, so nothing is left out but duplicates.
  have new : elements.filter (· ∉ ([] : List α)) = elements := List.filter_eq_self.mpr (by simp)
  rw [firstOccurrences, foldl_appendNew, new, List.nil_append]

/-- Adding a new element keeps a list free of repeats. -/
theorem nodup_appendNew {known : List α} (element : α) (distinct : known.Nodup) :
    (appendNew known element).Nodup := by
  -- An element that is known already changes nothing, and a new one differs from all that are known.
  unfold appendNew
  split
  · exact distinct
  · rename_i absent
    rw [List.nodup_append]
    refine ⟨distinct, by simp, ?_⟩
    intro other member new same
    rintro rfl
    exact absent ((List.mem_singleton.mp same) ▸ member)

/-- Adding new elements one after the other keeps a list free of repeats. -/
theorem nodup_foldl_appendNew {known : List α} (elements : List α) (distinct : known.Nodup) :
    (elements.foldl appendNew known).Nodup := by
  induction elements generalizing known with
  | nil => exact distinct
  | cons first rest ih => exact ih (nodup_appendNew first distinct)

/-- No element has two first occurrences. -/
theorem nodup_firstOccurrences (elements : List α) : (firstOccurrences elements).Nodup :=
  -- The list starts empty and grows by new elements only.
  nodup_foldl_appendNew elements List.nodup_nil

/-- A list without repeats consists of first occurrences. -/
theorem firstOccurrences_of_nodup {elements : List α} (distinct : elements.Nodup) :
    firstOccurrences elements = elements := by
  -- Nothing behind the first element is equal to it, so nothing is dropped there.
  rw [firstOccurrences_eq_eraseDups]
  induction elements with
  | nil => rfl
  | cons first rest ih =>
    obtain ⟨absent, distinct⟩ := List.nodup_cons.mp distinct
    have others : rest.filter (fun other => !other == first) = rest := by
      refine List.filter_eq_self.mpr ?_
      intro other member
      have different : other ≠ first := fun same => absent (same ▸ member)
      simpa using different
    rw [List.eraseDups_cons, others, ih distinct]

/-- Among distinct elements, the first one is left out by leaving out whatever equals it. -/
theorem filter_ne_of_nodup {first : α} {rest : List α} (distinct : (first :: rest).Nodup) :
    (first :: rest).filter (· ≠ first) = rest := by
  rw [List.filter_cons_of_neg (by simp)]
  refine List.filter_eq_self.mpr fun other member => ?_
  have different : other ≠ first := fun same => (List.nodup_cons.mp distinct).1 (same ▸ member)
  simpa using different

/-- Lists with the same elements are alike once these are distinct and in increasing order. -/
theorem increasing_congr {one other : List String} (same : ∀ element, element ∈ one ↔ element ∈ other) :
    increasing one = increasing other := by
  have sorted := pairwise_increasing one
  have sorted' := pairwise_increasing other
  -- Increasing lists have no repeats, so they are permutations of each other.
  have distinct : ∀ elements : List String, elements.Pairwise (· < ·) → elements.Nodup := fun elements increases =>
    increases.imp fun smaller => String.ne_of_lt smaller
  have permuted : (increasing one).Perm (increasing other) := by
    refine (List.perm_ext_iff_of_nodup (distinct _ sorted) (distinct _ sorted')).mpr fun element => ?_
    rw [mem_increasing, mem_increasing, same]
  exact permuted.eq_of_pairwise (fun _ _ _ _ less greater => absurd less (String.lt_asymm greater)) sorted sorted'

/-- Elements that are distinct and in increasing order already stay as they are. -/
theorem increasing_of_pairwise {elements : List String} (sorted : elements.Pairwise (· < ·)) :
    increasing elements = elements := by
  -- Each element goes in front of those behind it, which are greater.
  induction elements with
  | nil => rfl
  | cons first rest ih =>
    obtain ⟨smaller, sorted⟩ := List.pairwise_cons.mp sorted
    change insertIncreasing first (increasing rest) = first :: rest
    rw [ih sorted]
    cases rest with
    | nil => rfl
    | cons second more => exact if_pos (smaller second List.mem_cons_self)

end MessageCatalogue
