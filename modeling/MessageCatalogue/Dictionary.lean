/-! A dictionary keeps values under keys, which stand in the order in which they were given their first values. -/

namespace MessageCatalogue

/-- Values under keys, where the first value of a key is the one that counts. -/
abbrev Dictionary (κ α : Type) : Type := List (κ × α)

namespace Dictionary

variable {κ α : Type}

/-- The keys of a dictionary in their order. -/
def keys (dictionary : Dictionary κ α) : List κ := dictionary.map (·.1)

/-- The values of a dictionary in the order of their keys. -/
def values (dictionary : Dictionary κ α) : List α := dictionary.map (·.2)

variable [DecidableEq κ]

/-- The value under a key. -/
def find? (key : κ) : Dictionary κ α → Option α
  | [] => none
  | entry :: rest => if entry.1 = key then some entry.2 else find? key rest

/-- A dictionary with a value under a key, in the old place of the key or else at the end. -/
def insert (key : κ) (value : α) : Dictionary κ α → Dictionary κ α
  | [] => [(key, value)]
  | entry :: rest => if entry.1 = key then (key, value) :: rest else entry :: insert key value rest

/-- A dictionary without a key. -/
def erase (key : κ) (dictionary : Dictionary κ α) : Dictionary κ α := dictionary.filter (·.1 ≠ key)

end Dictionary

end MessageCatalogue
