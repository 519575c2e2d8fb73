import Mathlib.Data.List.DropRight
import MessageCatalogue.Proofs.Resource.Discovery

/-! Memory answers by the latest edit of each copy and keeps its copies in the order in which they were added. -/

namespace MessageCatalogue.MemoryResources

/-- An edit puts a text into a copy or takes the copy away. -/
inductive Edit where
  | insert (id : ResourceId) (text : String)
  | remove (id : ResourceId)
deriving DecidableEq, Repr

/-- The copy that an edit is about. -/
def Edit.id : Edit → ResourceId
  | .insert id _ => id
  | .remove id => id

/-- The text that an edit leaves in its copy, unless it takes the copy away. -/
def Edit.text? : Edit → Option String
  | .insert _ text => some text
  | .remove _ => none

/-- Memory after an edit. -/
def edit (memory : MemoryResources) : Edit → MemoryResources
  | .insert id text => memory.insert id text.toUTF8
  | .remove id => memory.remove id

/-- Memory that was empty at first, after some edits in a row. -/
def afterEdits (edits : List Edit) : MemoryResources := edits.foldl edit empty

/-- The text that the latest edit of a copy left in it, if there was one and it left any. -/
def textAfter? (edits : List Edit) (id : ResourceId) : Option String :=
  -- Edits of other copies have no say in it.
  ((edits.filter (·.id = id)).getLast?).bind (·.text?)

/-- The edit at a position put a text into a copy that was absent, and no later edit took the copy away. -/
structure AddedAt (edits : List Edit) (id : ResourceId) (position : Nat) : Prop where
  inserted : ∃ text, edits[position]? = some (.insert id text)
  absent : textAfter? (edits.take position) id = none
  kept : .remove id ∉ edits.drop (position + 1)

variable {memory : MemoryResources} {edits : List Edit} {id : ResourceId}

/-- After one more edit, its copy has what the edit left in it, and the others have what they had. -/
theorem textAfter?_concat (edits : List Edit) (last : Edit) (id : ResourceId) :
    textAfter? (edits ++ [last]) id = if last.id = id then last.text? else textAfter? edits id := by
  by_cases own : last.id = id <;> simp [textAfter?, own]

/-- The last edit is made to the memory that the others leave. -/
theorem afterEdits_concat (edits : List Edit) (last : Edit) :
    afterEdits (edits ++ [last]) = (afterEdits edits).edit last := by
  simp [afterEdits]

/-- Memory has the texts that the latest edits left. -/
theorem contents?_afterEdits (edits : List Edit) (id : ResourceId) :
    (afterEdits edits).contents? id = (textAfter? edits id).map String.toUTF8 := by
  -- The last edit decides about its own copy, and those before it about the others.
  induction edits using List.reverseRecOn with
  | nil => rfl
  | append_singleton edits last ih =>
    rw [afterEdits_concat, textAfter?_concat]
    cases last with
    | insert own text =>
      rw [edit, contents?_insert, ih]
      rcases eq_or_ne own id with rfl | different
      · simp [Edit.id, Edit.text?]
      · simp [Edit.id, different, different.symm]
    | remove own =>
      rw [edit, contents?_remove, ih]
      rcases eq_or_ne own id with rfl | different
      · simp [Edit.id, Edit.text?]
      · simp [Edit.id, different, different.symm]

/-- A name has the copies in which the latest edits left a text. -/
theorem mem_named_afterEdits {name : String} :
    id ∈ (afterEdits edits).named name ↔ id.name = name ∧ (textAfter? edits id).isSome = true := by
  rw [mem_named_iff, contents?_afterEdits, Option.isSome_map]

/-- A name has each of its copies once. -/
theorem nodup_named_afterEdits (edits : List Edit) (name : String) : ((afterEdits edits).named name).Nodup := by
  -- Only an insertion makes the list longer, and only by a copy that it lacks.
  induction edits using List.reverseRecOn with
  | nil => exact List.nodup_nil
  | append_singleton edits last ih =>
    rw [afterEdits_concat]
    cases last with
    | insert id text =>
      rw [edit, named_insert]
      split
      · exact nodup_appendNew id ih
      · exact ih
    | remove id =>
      rw [edit, named_remove]
      exact ih.filter _

/-- No edits lead to an entry without copies. -/
theorem isFilled_afterEdits (edits : List Edit) : (afterEdits edits).IsFilled := by
  -- An insertion fills the entry that it makes, and a removal takes an entry away with its last copy.
  induction edits using List.reverseRecOn with
  | nil => exact isFilled_empty
  | append_singleton edits last ih =>
    rw [afterEdits_concat]
    cases last with
    | insert id text => exact ih.insert id text.toUTF8
    | remove id => exact ih.remove id

/-- A copy was added by the last edit or earlier, and then the last edit did not take it away. -/
theorem addedAt_concat {last : Edit} {position : Nat} :
    AddedAt (edits ++ [last]) id position ↔
      AddedAt edits id position ∧ last ≠ .remove id ∨
        position = edits.length ∧ (∃ text, last = .insert id text) ∧ textAfter? edits id = none := by
  -- The position is that of an earlier edit, of the last one or of none.
  rcases Nat.lt_trichotomy position edits.length with before | rfl | behind
  · -- The edit at an earlier position is followed by the last one.
    have later : (edits ++ [last]).drop (position + 1) = edits.drop (position + 1) ++ [last] :=
      List.drop_append_of_le_length before
    have earlier : (edits ++ [last]).take position = edits.take position :=
      List.take_append_of_le_length before.le
    constructor
    · rintro ⟨inserted, absent, kept⟩
      rw [List.getElem?_append_left before] at inserted
      rw [later, List.mem_append, List.mem_singleton, not_or] at kept
      exact .inl ⟨⟨inserted, earlier ▸ absent, kept.1⟩, Ne.symm kept.2⟩
    · rintro (⟨⟨inserted, absent, kept⟩, different⟩ | ⟨rfl, _⟩)
      · refine ⟨by rwa [List.getElem?_append_left before], earlier.symm ▸ absent, ?_⟩
        rw [later, List.mem_append, List.mem_singleton, not_or]
        exact ⟨kept, Ne.symm different⟩
      · exact absurd before (lt_irrefl _)
  · -- At its own position there is only the last edit.
    constructor
    · rintro ⟨inserted, absent, _⟩
      exact .inr ⟨rfl, by simpa using inserted, by simpa using absent⟩
    · rintro (⟨⟨⟨_, beyond⟩, _, _⟩, _⟩ | ⟨_, ⟨text, rfl⟩, absent⟩)
      · simp at beyond
      · exact ⟨⟨text, by simp⟩, by simpa using absent, by simp⟩
  · -- There is no edit behind the last one.
    constructor
    · rintro ⟨⟨_, beyond⟩, _, _⟩
      rw [List.getElem?_eq_none (by rwa [List.length_append])] at beyond
      cases beyond
    · rintro (⟨⟨⟨_, beyond⟩, _, _⟩, _⟩ | ⟨rfl, _⟩)
      · rw [List.getElem?_eq_none behind.le] at beyond
        cases beyond
      · exact absurd behind (lt_irrefl _)

/-- A position at which a copy was added is that of an edit. -/
theorem AddedAt.lt_length {position : Nat} (added : AddedAt edits id position) : position < edits.length := by
  obtain ⟨text, found⟩ := added.inserted
  exact (List.getElem?_eq_some_iff.mp found).1

/-- The copies that were added at some position are those that the edits leave. -/
theorem exists_addedAt_iff : (∃ position, AddedAt edits id position) ↔ (textAfter? edits id).isSome = true := by
  induction edits using List.reverseRecOn with
  | nil =>
    -- Without edits there is no text, and no position either.
    simp only [textAfter?, List.filter_nil, List.getLast?_nil, Option.bind_none, Option.isSome_none,
      Bool.false_eq_true, iff_false, not_exists]
    exact fun position added => Nat.not_lt_zero _ added.lt_length
  | append_singleton edits last ih =>
    simp only [addedAt_concat, exists_or, exists_and_right, ih, exists_eq, true_and]
    rw [textAfter?_concat]
    -- Only an edit of the copy itself can make a difference, and an insertion leaves it there in any case.
    cases last with
    | insert own text =>
      by_cases same : own = id
      · subst same
        cases textAfter? edits own <;> simp [Edit.id, Edit.text?]
      · simp [Edit.id, same]
    | remove own =>
      by_cases same : own = id <;> simp [Edit.id, Edit.text?, same]

/-- A name has its copies in the order in which they were added. -/
theorem pairwise_named_afterEdits (edits : List Edit) (name : String) :
    ((afterEdits edits).named name).Pairwise fun one other =>
      ∀ i j, AddedAt edits one i → AddedAt edits other j → i < j := by
  -- An edit puts a copy behind all others or leaves one out, but it swaps none of those that stay.
  induction edits using List.reverseRecOn with
  | nil => exact .nil
  | append_singleton edits last ih =>
    rw [afterEdits_concat]
    -- Copies that were there before the last edit were added where they had been added.
    have earlier : ∀ {id position}, AddedAt (edits ++ [last]) id position →
        id ∈ (afterEdits edits).named name → AddedAt edits id position := by
      intro id position added member
      rcases addedAt_concat.mp added with ⟨before, _⟩ | ⟨_, _, absent⟩
      · exact before
      · rw [mem_named_afterEdits, absent] at member
        cases member.2
    have before : ((afterEdits edits).named name).Pairwise fun one other =>
        ∀ i j, AddedAt (edits ++ [last]) one i → AddedAt (edits ++ [last]) other j → i < j := by
      refine ih.imp_of_mem ?_
      intro one other inOne inOther less i j first second
      exact less i j (earlier first inOne) (earlier second inOther)
    cases last with
    | remove id =>
      rw [edit, named_remove]
      exact before.filter _
    | insert id text =>
      rw [edit, named_insert]
      by_cases new : name = id.name ∧ id ∉ (afterEdits edits).named name
      · -- A new copy is added by the last edit, behind all others.
        rw [if_pos new.1, appendNew, if_neg new.2, List.pairwise_append]
        refine ⟨before, List.pairwise_singleton _ _, ?_⟩
        intro one member other last i j first second
        obtain rfl := List.mem_singleton.mp last
        have left := (earlier first member).lt_length
        rcases addedAt_concat.mp second with ⟨added, _⟩ | ⟨rfl, _⟩
        · exact absurd (mem_named_afterEdits.mpr ⟨new.1.symm, exists_addedAt_iff.mp ⟨j, added⟩⟩) new.2
        · exact left
      · -- The copies of the name stay as they are.
        have same : (if name = id.name then appendNew ((afterEdits edits).named name) id
            else (afterEdits edits).named name) = (afterEdits edits).named name := by
          by_cases own : name = id.name
          · rw [if_pos own, appendNew, if_pos (not_not.mp fun absent => new ⟨own, absent⟩)]
          · exact if_neg own
        rwa [same]

/-- A copy is read with the text that its latest edit left, and not found if that left none. -/
theorem read_afterEdits (edits : List Edit) (id : ResourceId) :
    (afterEdits edits).enumerator.read id = match textAfter? edits id with
      | some text => .ok text.toUTF8
      | none => .error (.absentCopy id) := by
  simp only [enumerator, contents?_afterEdits]
  cases textAfter? edits id <;> rfl

/-- A removed copy is not found any more, and the others are read as before. -/
theorem read_remove (memory : MemoryResources) (id other : ResourceId) :
    (memory.remove id).enumerator.read other =
      if id = other then .error (.absentCopy other) else memory.enumerator.read other := by
  simp only [enumerator, contents?_remove]
  rcases eq_or_ne id other with rfl | different
  · simp
  · simp [different, different.symm]

/-- A removed copy is not listed any more, and the others keep their order. -/
theorem resources_remove (memory : MemoryResources) (id : ResourceId) (name : String) :
    (memory.remove id).enumerator.resources name =
      (memory.enumerator.resources name).map (·.filter (· ≠ id)) :=
  congrArg Except.ok (named_remove memory id name)

/-- A name has the copies of it that were added, in the order in which they were. -/
theorem resources_afterEdits (edits : List Edit) (name : String) :
    ∃ ids, (afterEdits edits).enumerator.resources name = .ok ids ∧ ids.Nodup ∧
      (∀ id, id ∈ ids ↔ id.name = name ∧ (textAfter? edits id).isSome = true) ∧
      ids.Pairwise fun one other => ∀ i j, AddedAt edits one i → AddedAt edits other j → i < j :=
  ⟨_, rfl, nodup_named_afterEdits edits name, fun _ => mem_named_afterEdits, pairwise_named_afterEdits edits name⟩

/-- A directory has the files whose names lie in it, in the order of their bytes. -/
theorem list_afterEdits (edits : List Edit) (directory : String) :
    ∃ files, (afterEdits edits).enumerator.list directory = .ok files ∧
      (files.Pairwise fun one other => Text.bytes one < Text.bytes other) ∧
      ∀ file, file ∈ files ↔ file ≠ "" ∧ '/' ∉ file.toList ∧
        ∃ id, (textAfter? edits id).isSome = true ∧ id.name.toList =
          if directory = "" then file.toList
          else directory.toList.rdropWhile (· == '/') ++ '/' :: file.toList := by
  refine ⟨_, rfl, (pairwise_increasing _).imp fun smaller => Text.lt_iff_bytes_lt.mp smaller, fun file => ?_⟩
  -- Slashes at the end of a directory are dropped, and one is put behind it unless it is the top.
  have start : directoryStart directory.toList ++ file.toList = if directory = "" then file.toList
      else directory.toList.rdropWhile (· == '/') ++ '/' :: file.toList := by
    by_cases top : directory = ""
    · simp [directoryStart, top]
    · simp [directoryStart, trimSlashes, List.rdropWhile, top]
  -- A name has a copy when the latest edit of some copy left a text under it.
  have held : ∀ name, (afterEdits edits).named name ≠ [] ↔
      ∃ id, (textAfter? edits id).isSome = true ∧ id.name = name := by
    intro name
    rw [ne_eq, List.eq_nil_iff_forall_not_mem, not_forall_not]
    simp only [mem_named_afterEdits, and_comm]
  rw [mem_fileNames (isFilled_afterEdits edits), start]
  simp only [held]
  constructor
  · rintro ⟨proper, flat, _, ⟨id, present, rfl⟩, placed⟩
    exact ⟨proper, flat, id, present, placed⟩
  · rintro ⟨proper, flat, id, present, placed⟩
    exact ⟨proper, flat, id.name, ⟨id, present, rfl⟩, placed⟩

/--
After any edits, each copy has the text that its latest edit left, and no text means that the copy is not found.

A removal tells whether there was such a text, and it leaves all other copies as they were and in their order.

The copies of a name stand in the order of the edits that added them, and the files of a directory in that of bytes.
-/
theorem answers_follow_edits (edits : List Edit) :
    (∀ id, (afterEdits edits).enumerator.read id = match textAfter? edits id with
      | some text => .ok text.toUTF8
      | none => .error (.absentCopy id)) ∧
    (∀ id, (ResourceFault.absentCopy id).kind = .notFound) ∧
    (∀ id held after, (afterEdits edits).holdsThenRemove id = (held, after) →
      held = (textAfter? edits id).isSome ∧ after = afterEdits (edits ++ [.remove id]) ∧
      (∀ other, after.enumerator.read other =
        if id = other then .error (.absentCopy other) else (afterEdits edits).enumerator.read other) ∧
      ∀ name, after.enumerator.resources name =
        ((afterEdits edits).enumerator.resources name).map (·.filter (· ≠ id))) ∧
    (∀ id, (textAfter? edits id).isSome = true ↔ ∃ position, AddedAt edits id position) ∧
    (∀ name, ∃ ids, (afterEdits edits).enumerator.resources name = .ok ids ∧ ids.Nodup ∧
      (∀ id, id ∈ ids ↔ id.name = name ∧ (textAfter? edits id).isSome = true) ∧
      ids.Pairwise fun one other => ∀ i j, AddedAt edits one i → AddedAt edits other j → i < j) ∧
    ∀ directory, ∃ files, (afterEdits edits).enumerator.list directory = .ok files ∧
      (files.Pairwise fun one other => Text.bytes one < Text.bytes other) ∧
      ∀ file, file ∈ files ↔ file ≠ "" ∧ '/' ∉ file.toList ∧
        ∃ id, (textAfter? edits id).isSome = true ∧ id.name.toList =
          if directory = "" then file.toList
          else directory.toList.rdropWhile (· == '/') ++ '/' :: file.toList := by
  refine ⟨read_afterEdits edits, fun _ => rfl, ?_, fun id => exists_addedAt_iff.symm, resources_afterEdits edits,
    list_afterEdits edits⟩
  intro id held after removal
  -- What a removal leaves is the memory after one more edit.
  have told : ((afterEdits edits).holdsThenRemove id).1 = held := congrArg Prod.fst removal
  obtain rfl : (afterEdits edits).remove id = after := congrArg Prod.snd removal
  rw [← told, fst_holdsThenRemove, holds, contents?_afterEdits, Option.isSome_map]
  exact ⟨rfl, (afterEdits_concat edits (.remove id)).symm, read_remove _ id, resources_remove _ id⟩

/-- A copy that is replaced keeps its place, and one that is removed and added again comes last. -/
example :
    let copies := fun edits => (afterEdits edits).named "en"
    let edits := [Edit.insert ⟨"a", "en"⟩ "1", .insert ⟨"b", "en"⟩ "2", .insert ⟨"a", "en"⟩ "3"]
    copies edits = [⟨"a", "en"⟩, ⟨"b", "en"⟩] ∧
      copies (edits ++ [.remove ⟨"a", "en"⟩, .insert ⟨"a", "en"⟩ "4"]) = [⟨"b", "en"⟩, ⟨"a", "en"⟩] := by
  cbv

end MessageCatalogue.MemoryResources
