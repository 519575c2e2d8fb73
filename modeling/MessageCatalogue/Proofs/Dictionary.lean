import MessageCatalogue.Dictionary
import MessageCatalogue.Proofs.Distinct

/-! A dictionary is told by its keys in their order and by the values that are found under them. -/

namespace MessageCatalogue.Dictionary

variable {κ α β : Type}

@[simp] theorem keys_nil : keys ([] : Dictionary κ α) = [] := rfl

@[simp] theorem keys_cons (entry : κ × α) (rest : Dictionary κ α) : keys (entry :: rest) = entry.1 :: keys rest := rfl

@[simp] theorem keys_append (one other : Dictionary κ α) : keys (one ++ other) = keys one ++ keys other :=
  List.map_append

/-- A key belongs to an entry. -/
theorem mem_keys_iff {key : κ} {dictionary : Dictionary κ α} :
    key ∈ dictionary.keys ↔ ∃ value, (key, value) ∈ dictionary := by
  simp [keys]

/-- Values that are replaced under their keys leave the keys as they are. -/
@[simp] theorem keys_map (dictionary : Dictionary κ α) (value : κ × α → β) :
    keys (dictionary.map fun entry => (entry.1, value entry)) = dictionary.keys := by
  simp [keys]

variable [DecidableEq κ]

@[simp] theorem find?_nil (key : κ) : find? key ([] : Dictionary κ α) = none := rfl

@[simp] theorem find?_cons_self (entry : κ × α) (rest : Dictionary κ α) :
    find? entry.1 (entry :: rest) = some entry.2 := by
  simp [find?]

/-- An entry is passed over in the search for another key. -/
theorem find?_cons_of_ne {key : κ} {entry : κ × α} (different : entry.1 ≠ key) (rest : Dictionary κ α) :
    find? key (entry :: rest) = find? key rest := by
  simp [find?, different]

/-- Nothing is found under a key that is absent. -/
theorem find?_eq_none_iff {key : κ} {dictionary : Dictionary κ α} :
    dictionary.find? key = none ↔ key ∉ dictionary.keys := by
  -- The search goes through the entries as their keys are listed.
  induction dictionary with
  | nil =>
    rw [find?_nil, keys_nil]
    exact iff_of_true rfl List.not_mem_nil
  | cons entry rest ih =>
    by_cases same : entry.1 = key
    · subst same
      simp
    · rw [find?_cons_of_ne same, ih]
      simp [Ne.symm same]

/-- Something is found under a key that is present. -/
theorem isSome_find?_iff {key : κ} {dictionary : Dictionary κ α} :
    (dictionary.find? key).isSome ↔ key ∈ dictionary.keys := by
  cases found : dictionary.find? key with
  | none => simpa using find?_eq_none_iff.mp found
  | some value =>
    have present : key ∈ dictionary.keys := Decidable.not_not.mp fun absent => by
      simp [find?_eq_none_iff.mpr absent] at found
    simpa using present

/-- What is found under a key stands there. -/
theorem mem_of_find? {key : κ} {value : α} {dictionary : Dictionary κ α} (found : dictionary.find? key = some value) :
    (key, value) ∈ dictionary := by
  -- The search stops at an entry that has the key.
  induction dictionary with
  | nil => cases found
  | cons entry rest ih =>
    by_cases same : entry.1 = key
    · subst same
      rw [find?_cons_self] at found
      obtain rfl := Option.some.inj found
      exact List.mem_cons_self
    · rw [find?_cons_of_ne same] at found
      exact List.mem_cons_of_mem _ (ih found)

/-- What stands under a key that is not repeated is found there. -/
theorem find?_of_mem {key : κ} {value : α} {dictionary : Dictionary κ α} (distinct : dictionary.keys.Nodup)
    (member : (key, value) ∈ dictionary) : dictionary.find? key = some value := by
  -- The induction drops the first entry, whose key occurs nowhere behind it.
  induction dictionary with
  | nil => cases member
  | cons entry rest ih =>
    obtain ⟨absent, distinct⟩ := List.nodup_cons.mp (keys_cons entry rest ▸ distinct)
    rcases List.mem_cons.mp member with rfl | member
    · exact find?_cons_self ..
    · -- An entry in front with the same key would be a repeat.
      have different : entry.1 ≠ key := fun same => absent (same.symm ▸ mem_keys_iff.mpr ⟨value, member⟩)
      rw [find?_cons_of_ne different, ih distinct member]

/-- The entries in front decide what is found, as far as they have the key. -/
theorem find?_append (one other : Dictionary κ α) (key : κ) :
    find? key (one ++ other) = (one.find? key).or (other.find? key) := by
  induction one with
  | nil => rfl
  | cons entry rest ih =>
    by_cases same : entry.1 = key
    · subst same
      simp
    · rw [List.cons_append, find?_cons_of_ne same, find?_cons_of_ne same, ih]

/-- A new key joins the others at the end. -/
theorem insert_of_notMem {key : κ} {dictionary : Dictionary κ α} (absent : key ∉ dictionary.keys) (value : α) :
    dictionary.insert key value = dictionary ++ [(key, value)] := by
  induction dictionary with
  | nil => rfl
  | cons entry rest ih =>
    rw [keys_cons, List.mem_cons, not_or] at absent
    rw [insert, if_neg (Ne.symm absent.1), ih absent.2, List.cons_append]

/-- A key that is present keeps its place. -/
theorem insert_of_split {key : κ} {earlier : Dictionary κ α} (first : key ∉ earlier.keys) (old value : α)
    (later : Dictionary κ α) :
    insert key value (earlier ++ (key, old) :: later) = earlier ++ (key, value) :: later := by
  induction earlier with
  | nil => simp [insert]
  | cons entry rest ih =>
    rw [keys_cons, List.mem_cons, not_or] at first
    rw [List.cons_append, insert, if_neg (Ne.symm first.1), ih first.2, List.cons_append]

/-- The keys grow by the inserted one unless it is present. -/
theorem keys_insert (dictionary : Dictionary κ α) (key : κ) (value : α) :
    (dictionary.insert key value).keys = appendNew dictionary.keys key := by
  -- Either an entry takes the new value or the key passes all of them.
  induction dictionary with
  | nil => rfl
  | cons entry rest ih =>
    unfold insert
    by_cases same : entry.1 = key
    · simp [same, appendNew]
    · rw [if_neg same, keys_cons, keys_cons, ih]
      by_cases member : key ∈ keys rest <;> simp [appendNew, member, Ne.symm same]

/-- The inserted value is found under its key, and what was there before under every other key. -/
theorem find?_insert (dictionary : Dictionary κ α) (key other : κ) (value : α) :
    (dictionary.insert key value).find? other = if other = key then some value else dictionary.find? other := by
  -- Only the entry with the key differs, and a search for another key passes it either way.
  induction dictionary with
  | nil => simp [insert, find?, eq_comm]
  | cons entry rest ih =>
    unfold insert
    by_cases same : entry.1 = key
    · by_cases own : other = key <;> simp [find?, same, own, Ne.symm]
    · rw [if_neg same, find?, find?, ih]
      by_cases here : entry.1 = other
      · simp [here, here ▸ same]
      · simp [here]

/-- The keys lose the one that is erased. -/
theorem keys_erase (dictionary : Dictionary κ α) (key : κ) :
    (dictionary.erase key).keys = dictionary.keys.filter (· ≠ key) := by
  rw [erase, keys, keys, List.filter_map]
  rfl

/-- Nothing is found under an erased key, and what was there before under every other key. -/
theorem find?_erase (dictionary : Dictionary κ α) (key other : κ) :
    (dictionary.erase key).find? other = if other = key then none else dictionary.find? other := by
  -- Entries with the key are left out wherever they stand, and the others keep their order.
  unfold erase
  induction dictionary with
  | nil => simp
  | cons entry rest ih =>
    by_cases same : entry.1 = key
    · rw [List.filter_cons_of_neg (by simpa using same), ih]
      by_cases own : other = key
      · simp [own]
      · rw [if_neg own, if_neg own, find?_cons_of_ne (same ▸ Ne.symm own)]
    · rw [List.filter_cons_of_pos (by simpa using same), find?, find?, ih]
      by_cases here : entry.1 = other
      · simp [here, here ▸ same]
      · simp [here]

/-- A dictionary shrinks by the removal of a key exactly when it has the key. -/
theorem length_erase_ne_iff {dictionary : Dictionary κ α} {key : κ} :
    (dictionary.erase key).length ≠ dictionary.length ↔ key ∈ dictionary.keys := by
  rw [erase, ne_eq, List.length_filter_eq_length_iff, mem_keys_iff]
  simp

end MessageCatalogue.Dictionary
