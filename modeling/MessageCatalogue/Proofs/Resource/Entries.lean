import MessageCatalogue.Proofs.Outcome
import MessageCatalogue.Proofs.Resource.Loader

/-! The messages of a locale are the last values that its resources give to their keys. -/

namespace MessageCatalogue

/-- The value of the last entry with a key. -/
def lastValue? (key : String) (entries : List Properties.Entry) : Option String :=
  ((entries.filter (·.key = key)).getLast?).map (·.value)

/-- The first entry decides the value of its key only when no later one does. -/
theorem lastValue?_cons (key : String) (entry : Properties.Entry) (rest : List Properties.Entry) :
    lastValue? key (entry :: rest) =
      (lastValue? key rest).or (if entry.key = key then some entry.value else none) := by
  -- An entry counts only when it has the key, and then only behind later ones.
  unfold lastValue?
  by_cases same : entry.key = key
  · rw [if_pos same, List.filter_cons_of_pos (by simpa using same), List.getLast?_cons]
    cases (rest.filter (·.key = key)).getLast? <;> rfl
  · rw [if_neg same, List.filter_cons_of_neg (by simpa using same), Option.or_none]

/-- Entries give their keys their last values and leave other keys alone. -/
theorem getElem?_addEntries (messages : Messages) (entries : List Properties.Entry) (key : String) :
    (addEntries messages entries)[key]? = (lastValue? key entries).or messages[key]? := by
  -- The first entry is overwritten by later ones of its key, as the messages there were are by it.
  induction entries generalizing messages with
  | nil => rfl
  | cons entry rest ih =>
    have first : (messages.insert entry.key entry.value)[key]? =
        (if entry.key = key then some entry.value else none).or messages[key]? := by
      rw [Std.TreeMap.getElem?_insert]
      by_cases same : entry.key = key <;> simp [same]
    rw [lastValue?_cons, Option.or_assoc, ← first]
    exact ih (messages.insert entry.key entry.value)

namespace Loader

open Loading

/-- A copy holds a document with some entries, in the encoding of a loader. -/
def Reads (loader : Loader) (enumerator : Enumerator) (id : ResourceId) (entries : List Properties.Entry) :
    Prop :=
  ∃ bytes text, enumerator.read id = .ok bytes ∧ loader.encoding.decode bytes = .ok text ∧
    Properties.parse text = .ok entries

/-- The resources of a locale hold some entries together, copy by copy as they are found. -/
def Declares (loader : Loader) (enumerator : Enumerator) (source : String) (locale : Locale)
    (entries : List Properties.Entry) : Prop :=
  ∃ ids documents, enumerator.resources (loader.resourceName source locale) = .ok ids ∧
    List.Forall₂ (loader.Reads enumerator) ids documents ∧ entries = documents.flatten

variable {loader : Loader} {source : String} {locale : Locale} {holdings : Holdings}

/-- A resource that can be interpreted holds a document with its entries. -/
theorem interpret_ok {id : ResourceId} {bytes : ByteArray} {resource : LoadedResource}
    (interpreted : loader.interpret source locale id bytes = .ok resource) :
    resource.id = id ∧
      ∃ text, loader.encoding.decode bytes = .ok text ∧ Properties.parse text = .ok resource.entries := by
  -- Decoding, parsing and checking follow each other, and none of them may fail.
  simp only [interpret, bind_ok_iff, mapError_ok_iff] at interpreted
  obtain ⟨text, decoded, entries, parsed, _, _, made⟩ := interpreted
  obtain rfl := Except.ok.inj made
  exact ⟨rfl, text, decoded, parsed⟩

/-- A resource that is loaded was read, decoded and parsed. -/
theorem reads_of_loadOne {id : ResourceId} {resource : LoadedResource}
    (loaded : outcome holdings (loader.loadOne source locale id) = .ok resource) :
    loader.Reads (holdings loader.collection) id resource.entries := by
  -- A resource that cannot be read is not interpreted.
  rw [outcome_loadOne] at loaded
  obtain ⟨bytes, read, interpreted⟩ := bind_ok_iff.mp loaded
  obtain ⟨_, text, decoded, parsed⟩ := interpret_ok interpreted
  exact ⟨bytes, text, mapError_ok_iff.mp read, decoded, parsed⟩

/-- The resources that are loaded for a locale hold their entries together. -/
theorem declares_of_loadAll {resources : List LoadedResource}
    (loaded : outcome holdings (loader.loadAll source locale) = .ok resources) :
    loader.Declares (holdings loader.collection) source locale (resources.flatMap (·.entries)) := by
  -- The copies are loaded in the order in which they are found.
  rw [outcome_loadAll] at loaded
  obtain ⟨ids, found, loadedEach⟩ := bind_ok_iff.mp loaded
  have each := outcome_mapM_ok.mp loadedEach
  refine ⟨ids, resources.map (·.entries), mapError_ok_iff.mp found, ?_, rfl⟩
  exact List.forall₂_map_right_iff.mpr (each.imp fun _ _ own => reads_of_loadOne own)

/-- The messages that are loaded for a locale are the last values of the entries that its resources hold. -/
theorem declares_of_loadMerged {merged : Option MergedResources}
    (loaded : outcome holdings (loader.loadMerged source locale) = .ok merged) :
    ∃ entries, loader.Declares (holdings loader.collection) source locale entries ∧
      ∀ code, merged.bind (·.messages[code]?) = lastValue? code entries := by
  -- Without a copy there are no messages and no entries either.
  rw [outcome_loadMerged] at loaded
  cases all : outcome holdings (loader.loadAll source locale) with
  | error error => simp [all, Except.map] at loaded
  | ok resources =>
    simp only [all, Except.map, Except.ok.injEq] at loaded
    refine ⟨_, declares_of_loadAll all, ?_⟩
    intro code
    rw [← loaded, mergeResources?]
    cases resources with
    | nil => rfl
    | cons first rest => simp [getElem?_addEntries]

end Loader

end MessageCatalogue
