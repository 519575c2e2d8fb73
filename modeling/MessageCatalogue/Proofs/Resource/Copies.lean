import MessageCatalogue.Proofs.Resource.Loader
import MessageCatalogue.Proofs.Resource.Storage

/-! What a loader finds for a locale depends on nothing but the copies of one logical name. -/

namespace MessageCatalogue

namespace Enumerator

/-- Every copy found under a logical name carries that name. -/
def KeepsNames (enumerator : Enumerator) : Prop :=
  ∀ name ids, enumerator.resources name = .ok ids → ∀ id ∈ ids, id.name = name

/-- The copies of a logical name in the order in which they are found, each as its origin and its bytes. -/
def copies (enumerator : Enumerator) (name : String) :
    Except ResourceFault (List (String × Except ResourceFault ByteArray)) :=
  (enumerator.resources name).map fun ids => ids.map fun id => (id.origin, enumerator.read id)

/-- Equal copies under one name come from the same identifiers, which are read alike. -/
theorem ids_eq_of_copies_eq {before after : Enumerator} {name : String} {old new : List ResourceId}
    (oldNames : ∀ id ∈ old, id.name = name) (newNames : ∀ id ∈ new, id.name = name)
    (same : old.map (fun id => (id.origin, before.read id)) =
      new.map fun id => (id.origin, after.read id)) :
    old = new ∧ ∀ id ∈ old, before.read id = after.read id := by
  -- An identifier is its origin together with the name that all of them carry.
  induction old generalizing new with
  | nil =>
    have none : new = [] := by simpa using same.symm
    exact ⟨none.symm, by simp⟩
  | cons first rest ih =>
    cases new with
    | nil => simp at same
    | cons first' rest' =>
      simp only [List.map_cons, List.cons.injEq, Prod.mk.injEq] at same
      obtain ⟨⟨origin, bytes⟩, others⟩ := same
      obtain ⟨rfl, reads⟩ := ih (fun id member => oldNames id (List.mem_cons_of_mem _ member))
        (fun id member => newNames id (List.mem_cons_of_mem _ member)) others
      have name := (oldNames first List.mem_cons_self).trans (newNames first' List.mem_cons_self).symm
      obtain rfl : first = first' := by
        cases first
        cases first'
        simp_all
      refine ⟨rfl, ?_⟩
      intro id member
      rcases List.mem_cons.mp member with rfl | member
      · exact bytes
      · exact reads id member

/-- Enumerators with equal copies of a name find the same identifiers under it and read them alike. -/
theorem resources_eq_of_copies_eq {before after : Enumerator} (oldNames : before.KeepsNames)
    (newNames : after.KeepsNames) {name : String} (same : before.copies name = after.copies name) :
    before.resources name = after.resources name ∧
      ∀ ids, before.resources name = .ok ids → ∀ id ∈ ids, before.read id = after.read id := by
  -- Copies that are equal are found or not found together.
  unfold copies at same
  cases old : before.resources name with
  | error fault =>
    cases new : after.resources name with
    | error fault' =>
      rw [old, new] at same
      cases same
      exact ⟨rfl, by simp⟩
    | ok ids' => simp [old, new, Except.map] at same
  | ok ids =>
    cases new : after.resources name with
    | error fault' => simp [old, new, Except.map] at same
    | ok ids' =>
      simp only [old, new, Except.map, Except.ok.injEq] at same
      obtain ⟨rfl, reads⟩ :=
        ids_eq_of_copies_eq (oldNames name ids old) (newNames name ids' new) same
      refine ⟨rfl, ?_⟩
      rintro _ ⟨⟩
      exact reads

/-- Every copy that memory has for a logical name carries it. -/
theorem keepsNames_memory (memory : MemoryResources) : memory.enumerator.KeepsNames := by
  -- Memory finds copies by looking for the name.
  rintro name _ ⟨⟩ id member
  exact (MemoryResources.mem_named_iff.mp member).1

end Enumerator

namespace Loader

open Loading

/-- A loader that looks for resources in another collection. -/
def searching (loader : Loader) (collection : Collection) : Loader := { loader with collection := collection }

/-- Collections with equal copies of the logical name of a locale give the same messages for it. -/
theorem outcome_loadMerged_searching {before after : Holdings} {loader : Loader} {one other : Collection}
    (oldNames : (before one).KeepsNames) (newNames : (after other).KeepsNames) {source : String} {locale : Locale}
    (same : (before one).copies (loader.resourceName source locale) =
      (after other).copies (loader.resourceName source locale)) :
    outcome before ((loader.searching one).loadMerged source locale) =
      outcome after ((loader.searching other).loadMerged source locale) := by
  -- The same identifiers are found, and each of them is read and interpreted alike.
  obtain ⟨found, reads⟩ := Enumerator.resources_eq_of_copies_eq oldNames newNames same
  have named : ∀ collection,
      (loader.searching collection).resourceName source locale = loader.resourceName source locale := fun _ => rfl
  have read : ∀ collection, (loader.searching collection).interpret source locale = loader.interpret source locale :=
    fun _ => rfl
  have asked : ∀ collection, (loader.searching collection).collection = collection := fun _ => rfl
  simp only [outcome_loadMerged, outcome_loadAll, named, asked, ← found]
  cases listed : (before one).resources (loader.resourceName source locale) with
  | error fault => rfl
  | ok ids =>
    have each : outcome before (ids.mapM ((loader.searching one).loadOne source locale)) =
        outcome after (ids.mapM ((loader.searching other).loadOne source locale)) := by
      refine outcome_mapM_congr ?_
      intro id member
      rw [outcome_loadOne, outcome_loadOne, asked, asked, read, read, reads ids listed id member]
    simp only [Except.mapError, Except.bind, each]

/-- Holdings with equal copies of the logical name of a locale load the same messages for it. -/
theorem outcome_loadMerged_congr {before after : Holdings} {loader : Loader}
    (oldNames : (before loader.collection).KeepsNames) (newNames : (after loader.collection).KeepsNames)
    {source : String} {locale : Locale}
    (same : (before loader.collection).copies (loader.resourceName source locale) =
      (after loader.collection).copies (loader.resourceName source locale)) :
    outcome before (loader.loadMerged source locale) = outcome after (loader.loadMerged source locale) :=
  -- A loader looks for resources in its own collection.
  outcome_loadMerged_searching oldNames newNames same

end Loader

end MessageCatalogue
