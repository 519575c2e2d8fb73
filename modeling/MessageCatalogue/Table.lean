import MessageCatalogue.Dictionary

/-! A table keeps values under distinct keys in increasing order. -/

namespace MessageCatalogue

/-- A dictionary with distinct keys, which stand in increasing order. -/
abbrev Table (α : Type) : Type := Dictionary String α

namespace Table

open Dictionary

variable {α : Type}

/-- A table with a value under a key, in place of any other. -/
def insert (key : String) (value : α) : Table α → Table α
  -- The keys stay in increasing order.
  | [] => [(key, value)]
  | entry :: rest =>
    if key < entry.1 then (key, value) :: entry :: rest
    else if key = entry.1 then (key, value) :: rest
    else entry :: insert key value rest

/-- An inserted value is found under its key. -/
@[simp] theorem find?_insert_self (key : String) (value : α) (table : Table α) :
    (insert key value table).find? key = some value := by
  -- The key is placed before the first greater one and is not found earlier.
  induction table with
  | nil => simp [insert, find?]
  | cons entry rest ih =>
    unfold insert
    split
    · simp [find?]
    · split
      · simp [find?]
      · rename_i different
        simp only [find?, if_neg (Ne.symm different), ih]

/-- Insertion leaves the values under other keys alone. -/
theorem find?_insert_of_ne {key other : String} (different : other ≠ key) (value : α)
    (table : Table α) : (insert key value table).find? other = table.find? other := by
  -- Only an entry of the inserted key is added or taken away.
  induction table with
  | nil => simp [insert, find?, Ne.symm different]
  | cons entry rest ih =>
    unfold insert
    split
    · simp [find?, Ne.symm different]
    · split
      · rename_i same
        simp [find?, same ▸ Ne.symm different, Ne.symm different]
      · simp only [find?, ih]

end Table

end MessageCatalogue
