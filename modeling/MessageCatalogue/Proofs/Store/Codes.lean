import MessageCatalogue.Proofs.Resource.Codes
import MessageCatalogue.Proofs.Store.Reachable

/-! A store serves texts for usable codes only, because every document was checked before its messages are published. -/

namespace MessageCatalogue

open Fetch Loading

/-- A catalogue has texts for usable codes only. -/
def Catalogue.HasUsableCodes (catalogue : Catalogue) : Prop :=
  ∀ code ∈ catalogue.messages, codeDefect? code = none

/-- A text that a snapshot holds is one for a usable code when all of its catalogues are for such codes. -/
theorem Snapshot.IsLaid.usable_of_text? {setup : Setup} {snapshot : Snapshot}
    (laid : snapshot.IsLaid setup fun _ => Catalogue.HasUsableCodes) {code text : String} {locale : Locale}
    (held : snapshot.text? code locale = some text) : codeDefect? code = none := by
  obtain ⟨catalogue, found, own⟩ := Option.bind_eq_some_iff.mp held
  refine laid.of_mem (Dictionary.mem_of_find? found) code ?_
  rw [Std.TreeMap.mem_iff_isSome_getElem?, own, Option.isSome_some]

/-- Entries add texts for their keys only. -/
theorem mem_addEntries {messages : Messages} {entries : List Properties.Entry} {code : String} :
    code ∈ addEntries messages entries ↔ (∃ entry ∈ entries, entry.key = code) ∨ code ∈ messages := by
  unfold addEntries
  induction entries generalizing messages with
  | nil => simp
  | cons first rest ih =>
    rw [List.foldl_cons, ih, Std.TreeMap.mem_insert, Std.LawfulEqCmp.compare_eq_iff_eq, List.exists_mem_cons_iff,
      or_left_comm, or_assoc]

variable {met : Exchange → Prop}

namespace Setup

variable (setup : Setup)

/-- The messages of a locale of its own have usable codes. -/
theorem yields_loadOwn_usable (locale : Locale) :
    Yields met (fun own => ∀ catalogue, own = some catalogue → catalogue.HasUsableCodes) (setup.loadOwn locale) := by
  have resources : Yields met (fun resources => ∀ resource ∈ resources, HasUsableCodes resource.entries)
      (setup.loader.loadAll setup.source locale) := by
    intro exchanges resources transcript _ resource member
    obtain ⟨bytes, interpreted⟩ := (Loader.interpreted_of_loadAll transcript).1 resources rfl resource member
    exact Loader.usable_of_interpret interpreted
  have merged : Yields met (fun merged => ∀ own, merged = some own → ∀ code ∈ own.messages, codeDefect? code = none)
      (setup.loader.loadMerged setup.source locale) := by
    -- Messages that were merged have no codes but those of the entries.
    refine yields_bind resources fun loaded usable => yields_pure ?_
    intro own merged code member
    unfold mergeResources? at merged
    split at merged
    · cases merged
    · obtain rfl := Option.some.inj merged
      rcases mem_addEntries.mp member with ⟨entry, listed, rfl⟩ | impossible
      · obtain ⟨resource, among, declared⟩ := List.mem_flatMap.mp listed
        exact usable resource among entry declared
      · exact absurd impossible Std.TreeMap.not_mem_emptyc
  refine yields_bind merged fun found usable => yields_pure ?_
  intro catalogue own
  obtain ⟨resources, same, rfl⟩ := Option.map_eq_some_iff.mp own
  exact usable resources same

/-- Every catalogue is loaded with usable codes, for those of an overlay are its own and those of the base. -/
theorem provides_usable_codes : setup.Provides met fun _ => Catalogue.HasUsableCodes := by
  refine provides_of_loadOwn setup.yields_loadOwn_usable ?_ fun _ _ below => below
  intro base own locale below usable code member
  rcases Std.TreeMap.mem_union_iff.mp member with inherited | declared
  · exact below code inherited
  · exact usable code declared

end Setup

/-- Every store that can be reached serves texts for usable codes only, whatever it is answered. -/
theorem Store.Reachable.hasUsableCodes {setup : Setup} {store : Store} (reachable : Reachable met setup store) :
    store.IsLaid setup fun _ => Catalogue.HasUsableCodes :=
  reachable.isLaid setup.provides_usable_codes

end MessageCatalogue
