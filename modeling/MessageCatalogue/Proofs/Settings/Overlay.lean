import MessageCatalogue.Settings.Value

/-! A table that is laid over another one hides the values under its own keys and leaves all others to be seen. -/

namespace MessageCatalogue

namespace Table

variable {α : Type} {key : String} {value : α} {table : Table α}

/-- The keys of a table increase, so that none stands in it twice. -/
def IsOrdered (table : Table α) : Prop := table.Pairwise fun one other => one.1 < other.1

/-- An insertion adds one entry and no other one. -/
theorem mem_of_mem_insert {entry : String × α} (member : entry ∈ table.insert key value) :
    entry = (key, value) ∨ entry ∈ table := by
  -- Entries in front of the place of the new one are passed over.
  induction table with
  | nil => exact .inl (List.mem_singleton.mp member)
  | cons first rest ih =>
    rw [insert] at member
    split at member
    · exact List.mem_cons.mp member
    · split at member
      · exact (List.mem_cons.mp member).imp_right (List.mem_cons_of_mem first)
      · rcases List.mem_cons.mp member with rfl | later
        · exact .inr List.mem_cons_self
        · exact (ih later).imp_right (List.mem_cons_of_mem first)

/-- An insertion keeps the keys in increasing order. -/
theorem IsOrdered.insert (ordered : table.IsOrdered) (key : String) (value : α) :
    (table.insert key value).IsOrdered := by
  induction table with
  | nil => exact List.pairwise_singleton _ _
  | cons first rest ih =>
    obtain ⟨above, sorted⟩ := List.pairwise_cons.mp ordered
    unfold Table.insert
    split
    · rename_i smaller
      refine List.pairwise_cons.mpr ⟨fun entry member => ?_, ordered⟩
      rcases List.mem_cons.mp member with rfl | later
      · exact smaller
      · exact String.lt_trans smaller (above entry later)
    · split
      · rename_i same
        exact List.pairwise_cons.mpr ⟨fun entry member => same ▸ above entry member, sorted⟩
      · rename_i notSmaller different
        -- A key that is neither smaller than another one nor the same is greater.
        refine List.pairwise_cons.mpr ⟨fun entry member => ?_, ih sorted⟩
        rcases mem_of_mem_insert member with rfl | later
        · exact String.not_le.mp fun below => different (String.le_antisymm below (String.not_lt.mp notSmaller))
        · exact above entry later

/-- There is no value under a key that is smaller than all others. -/
theorem find?_of_smaller (smaller : ∀ entry ∈ table, key < entry.1) : table.find? key = none := by
  induction table with
  | nil => rfl
  | cons first rest ih =>
    obtain ⟨own, others⟩ := List.forall_mem_cons.mp smaller
    have different : first.1 ≠ key := fun same => String.lt_irrefl key (same ▸ own)
    rw [Dictionary.find?, if_neg different, ih others]

end Table

namespace SettingValue

/-- Whether a value is no table, so that it hides whatever it is laid over. -/
def IsPlain : SettingValue → Prop
  | .table _ => False
  | _ => True

/-- A value that is no table replaces the one below it. -/
theorem IsPlain.laidOver {value : SettingValue} (plain : value.IsPlain) (below : SettingValue) :
    value.laidOver below = value := by
  cases value with
  | table => exact plain.elim
  | _ => cases below <;> rfl

/-- Under a key, the upper table has the say if it has a value there, and the lower one otherwise. -/
theorem find?_tableLaidOver {upper : Table SettingValue} (ordered : upper.IsOrdered)
    (plain : ∀ entry ∈ upper, entry.2.IsPlain) (lower : Table SettingValue) (key : String) :
    Dictionary.find? key (tableLaidOver upper lower) = (upper.find? key).or (lower.find? key) := by
  -- The entries of the upper table are inserted into the lower one after the other, and each has a key of its own.
  induction upper generalizing lower with
  | nil => rw [tableLaidOver, Dictionary.find?, Option.none_or]
  | cons first rest ih =>
    obtain ⟨above, sorted⟩ := List.pairwise_cons.mp ordered
    obtain ⟨own, others⟩ := List.forall_mem_cons.mp plain
    have laid : tableLaidOver (first :: rest) lower = tableLaidOver rest (lower.insert first.1 first.2) := by
      rw [tableLaidOver]
      cases lower.find? first.1 with
      | none => rfl
      | some covered => simp only [own.laidOver covered]
    rw [laid, ih sorted others, Dictionary.find?]
    split
    · rename_i same
      subst same
      rw [Table.find?_of_smaller above, Table.find?_insert_self]
      rfl
    · rename_i different
      rw [Table.find?_insert_of_ne (Ne.symm different)]

end SettingValue

end MessageCatalogue
