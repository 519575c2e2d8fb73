import MessageCatalogue.Proofs.Dictionary
import MessageCatalogue.Resource.Memory

/-! Memory has an entry for a name exactly as long as it has copies of that, whatever is inserted and removed. -/

namespace MessageCatalogue.MemoryResources

open Dictionary

/-- No name has an entry without copies. -/
def IsFilled (memory : MemoryResources) : Prop := ∀ name, memory.entries.find? name ≠ some []

/-- Memory after some copies with their contents were inserted, one after the other. -/
def insertAll (memory : MemoryResources) (copies : List (ResourceId × ByteArray)) : MemoryResources :=
  copies.foldl (fun known (id, contents) => known.insert id contents) memory

variable {memory : MemoryResources} {id other : ResourceId} {contents : ByteArray} {name : String}

/-- The entry of a name after an insertion, which is made for the name of the copy alone. -/
theorem find?_entries_insert (memory : MemoryResources) (id : ResourceId) (contents : ByteArray) (name : String) :
    (memory.insert id contents).entries.find? name =
      if name = id.name then some ((memory.copies id.name).insert id.origin contents)
      else memory.entries.find? name := by
  -- The table has a new entry under the name of the copy and no other one.
  split
  · rename_i same
    subst same
    exact Table.find?_insert_self ..
  · rename_i different
    exact Table.find?_insert_of_ne different ..

/-- The entry of a name after a removal, which takes it away with the last copy. -/
theorem find?_entries_remove (memory : MemoryResources) (id : ResourceId) (name : String) :
    (memory.remove id).entries.find? name =
      if name = id.name ∧ (memory.copies name).erase id.origin = [] then none
      else if name = id.name then some ((memory.copies name).erase id.origin)
      else memory.entries.find? name := by
  unfold remove holdsThenRemove
  cases found : memory.entries.find? id.name with
  | none =>
    -- There is nothing to be removed, and no entry either.
    by_cases same : name = id.name
    · subst same
      simp [copies, found, erase]
    · simp [same]
  | some held =>
    have copies : memory.copies id.name = held := by rw [copies, found, Option.getD_some]
    by_cases same : name = id.name
    · subst same
      by_cases last : held.erase id.origin = []
      · simp [copies, last, find?_erase]
      · simp [copies, last]
    · by_cases last : held.erase id.origin = []
      · simp [same, last, find?_erase]
      · simp [same, last, Table.find?_insert_of_ne same]

/-- An insertion changes the copies of its own name only. -/
theorem copies_insert (memory : MemoryResources) (id : ResourceId) (contents : ByteArray) (name : String) :
    (memory.insert id contents).copies name =
      if name = id.name then (memory.copies name).insert id.origin contents else memory.copies name := by
  rw [copies, find?_entries_insert]
  split
  · rename_i same
    rw [same, Option.getD_some]
  · rfl

/-- A removal changes the copies of its own name only, whether or not their entry goes with it. -/
theorem copies_remove (memory : MemoryResources) (id : ResourceId) (name : String) :
    (memory.remove id).copies name =
      if name = id.name then (memory.copies name).erase id.origin else memory.copies name := by
  rw [copies, find?_entries_remove]
  by_cases same : name = id.name
  · by_cases last : (memory.copies name).erase id.origin = []
    · rw [if_pos ⟨same, last⟩, if_pos same, last, Option.getD_none]
    · rw [if_neg fun both => last both.2, if_pos same, if_pos same, Option.getD_some]
  · rw [if_neg fun both => same both.1, if_neg same, if_neg same, copies]

/-- An identifier is its origin together with its name. -/
theorem id_eq_iff : other = id ↔ other.name = id.name ∧ other.origin = id.origin := by
  obtain ⟨origin, name⟩ := id
  obtain ⟨origin', name'⟩ := other
  simp [and_comm]

/-- A copy that is inserted has its new contents, and the others have their old ones. -/
theorem contents?_insert (memory : MemoryResources) (id other : ResourceId) (contents : ByteArray) :
    (memory.insert id contents).contents? other = if other = id then some contents else memory.contents? other := by
  rw [contents?, copies_insert, contents?]
  by_cases same : other.name = id.name
  · rw [if_pos same, find?_insert]
    simp [id_eq_iff, same]
  · simp [id_eq_iff, same]

/-- A copy that is removed has no contents, and the others have their old ones. -/
theorem contents?_remove (memory : MemoryResources) (id other : ResourceId) :
    (memory.remove id).contents? other = if other = id then none else memory.contents? other := by
  rw [contents?, copies_remove, contents?]
  by_cases same : other.name = id.name
  · rw [if_pos same, find?_erase]
    simp [id_eq_iff, same]
  · simp [id_eq_iff, same]

/-- A removal tells whether its copy was there. -/
theorem fst_holdsThenRemove (memory : MemoryResources) (id : ResourceId) :
    (memory.holdsThenRemove id).1 = memory.holds id := by
  -- The copies of the name become fewer when the origin was among them.
  rw [Bool.eq_iff_iff, holds, contents?, isSome_find?_iff, copies]
  unfold holdsThenRemove
  cases memory.entries.find? id.name with
  | none => simp
  | some held => simpa using length_erase_ne_iff

/-- A name has the copies that memory has contents for. -/
theorem mem_named_iff : id ∈ memory.named name ↔ id.name = name ∧ (memory.contents? id).isSome = true := by
  rw [contents?, isSome_find?_iff, named, List.mem_map]
  constructor
  · rintro ⟨origin, member, rfl⟩
    exact ⟨rfl, member⟩
  · rintro ⟨rfl, member⟩
    exact ⟨id.origin, member, rfl⟩

/-- An inserted copy joins the end of those of its name, unless it is among them. -/
theorem named_insert (memory : MemoryResources) (id : ResourceId) (contents : ByteArray) (name : String) :
    (memory.insert id contents).named name =
      if name = id.name then appendNew (memory.named name) id else memory.named name := by
  rw [named, copies_insert]
  split
  · rename_i same
    subst same
    -- The origin is among those of the name exactly when the copy is among its copies.
    have member : id ∈ memory.named id.name ↔ id.origin ∈ (memory.copies id.name).keys := by
      simp [mem_named_iff, contents?, isSome_find?_iff]
    rw [keys_insert, appendNew, appendNew]
    by_cases known : id.origin ∈ (memory.copies id.name).keys
    · rw [if_pos known, if_pos (member.mpr known), named]
    · rw [if_neg known, if_neg (mt member.mp known), named, List.map_append]
      rfl
  · rfl

/-- A removed copy is left out of those of its name. -/
theorem named_remove (memory : MemoryResources) (id : ResourceId) (name : String) :
    (memory.remove id).named name = (memory.named name).filter (· ≠ id) := by
  -- The copies of a name differ in their origins.
  rw [named, copies_remove, named, List.filter_map]
  split
  · rename_i same
    subst same
    rw [keys_erase]
    refine congrArg _ (List.filter_congr fun origin _ => ?_)
    simp [id_eq_iff]
  · -- No copy of another name is the removed one.
    rename_i different
    have all : (memory.copies name).keys.filter ((fun copy : ResourceId => decide (copy ≠ id)) ∘
        fun origin => ⟨origin, name⟩) = (memory.copies name).keys :=
      List.filter_eq_self.mpr fun origin _ => by simp [id_eq_iff, different]
    rw [all]

/-- Memory without resources has no entry at all. -/
theorem isFilled_empty : empty.IsFilled := by
  intro name impossible
  cases impossible

/-- An insertion makes no entry without copies. -/
theorem IsFilled.insert (filled : memory.IsFilled) (id : ResourceId) (contents : ByteArray) :
    (memory.insert id contents).IsFilled := by
  intro name vacant
  rw [find?_entries_insert] at vacant
  split at vacant
  · -- The inserted copy is there.
    have none := congrArg (find? id.origin) (Option.some.inj vacant)
    simp [find?_insert] at none
  · exact filled name vacant

/-- A removal leaves no entry without copies. -/
theorem IsFilled.remove (filled : memory.IsFilled) (id : ResourceId) : (memory.remove id).IsFilled := by
  -- Only the entry of the removed copy could become empty.
  intro name vacant
  rw [find?_entries_remove] at vacant
  split at vacant
  · cases vacant
  · rename_i kept
    split at vacant
    · -- The entry of the last copy would have been taken away.
      rename_i same
      exact kept ⟨same, Option.some.inj vacant⟩
    · exact filled name vacant

/-- A name has an entry when it has copies. -/
theorem IsFilled.mem_keys_iff (filled : memory.IsFilled) : name ∈ memory.entries.keys ↔ memory.named name ≠ [] := by
  rw [← isSome_find?_iff, named, copies]
  cases found : memory.entries.find? name with
  | none => simp
  | some held =>
    have some : held ≠ [] := fun none => filled name (none ▸ found)
    simpa [keys] using some

/-- Insertions make no entry without copies. -/
theorem IsFilled.insertAll (filled : memory.IsFilled) (copies : List (ResourceId × ByteArray)) :
    (memory.insertAll copies).IsFilled := by
  induction copies generalizing memory with
  | nil => exact filled
  | cons first rest ih => exact ih (filled.insert first.1 first.2)

/-- Distinct copies have the contents with which they are inserted. -/
theorem contents?_insertAll {copies : List (ResourceId × ByteArray)} (distinct : (keys copies).Nodup)
    (id : ResourceId) : (memory.insertAll copies).contents? id = (find? id copies).or (memory.contents? id) := by
  -- The copy that is inserted first does not come again, so its contents stay.
  induction copies generalizing memory with
  | nil => rfl
  | cons first rest ih =>
    obtain ⟨absent, distinct⟩ := List.nodup_cons.mp (keys_cons first rest ▸ distinct)
    change ((memory.insert first.1 first.2).insertAll rest).contents? id = _
    rw [ih distinct, contents?_insert, find?]
    by_cases same : first.1 = id
    · subst same
      simp [find?_eq_none_iff.mpr absent]
    · simp [same, Ne.symm same]

/-- New and distinct copies of a name stand in the order in which they are inserted, behind the old ones. -/
theorem named_insertAll {copies : List (ResourceId × ByteArray)} (distinct : (keys copies).Nodup)
    (new : ∀ id ∈ keys copies, memory.contents? id = none) (name : String) :
    (memory.insertAll copies).named name = memory.named name ++ (keys copies).filter (·.name = name) := by
  -- Each new copy joins the end, since it was not there before.
  induction copies generalizing memory with
  | nil => simp [insertAll]
  | cons first rest ih =>
    obtain ⟨absent, distinct⟩ := List.nodup_cons.mp (keys_cons first rest ▸ distinct)
    obtain ⟨own, others⟩ := List.forall_mem_cons.mp (keys_cons first rest ▸ new)
    have further : ∀ id ∈ keys rest, (memory.insert first.1 first.2).contents? id = none := by
      intro id member
      have different : id ≠ first.1 := fun same => absent (same ▸ member)
      rw [contents?_insert, if_neg different, others id member]
    change ((memory.insert first.1 first.2).insertAll rest).named name = _
    rw [ih distinct further, named_insert, keys_cons, List.filter_cons]
    by_cases same : name = first.1.name
    · have missing : first.1 ∉ memory.named name := by simp [mem_named_iff, own]
      simp [same ▸ missing, appendNew, same]
    · simp [same, Ne.symm same]

end MessageCatalogue.MemoryResources
