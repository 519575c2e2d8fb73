import MessageCatalogue.Proofs.Resource.Id
import MessageCatalogue.Proofs.Store.Laid

/-! What a snapshot owns is decided by the logical names of its locales, for its resources carry no other names. -/

namespace MessageCatalogue

open Dictionary Loading

/-- A catalogue has the logical name of a locale, which its resources carry. -/
structure Catalogue.IsNamed (setup : Setup) (locale : Locale) (catalogue : Catalogue) : Prop where
  name : catalogue.name = setup.loader.resourceName setup.source locale
  carried : ∀ id ∈ catalogue.resources, id.name = catalogue.name

/-- Layers of distinct locales have the logical names of these. -/
abbrev Layers.AreNamed (setup : Setup) (layers : Layers) : Prop := layers.AreAll setup (Catalogue.IsNamed setup)

/-- A snapshot is laid in layers with the logical names of their locales. -/
abbrev Snapshot.IsNamed (setup : Setup) (snapshot : Snapshot) : Prop := snapshot.IsLaid setup (Catalogue.IsNamed setup)

variable {setup : Setup}

/-- A catalogue owns the identifiers that hold its logical name, whatever origins they hold. -/
theorem Catalogue.IsNamed.owns_iff {locale : Locale} {catalogue : Catalogue} (named : catalogue.IsNamed setup locale)
    {identifier : String} :
    catalogue.owns identifier = true ↔ logicalName identifier = setup.loader.resourceName setup.source locale := by
  -- The name of the catalogue is the logical name of its locale.
  rw [← named.name, owns, Bool.or_eq_true, decide_eq_true_eq, List.any_eq_true]
  constructor
  · -- An identifier of one of the resources holds the name of the catalogue too.
    intro owned
    rcases owned with own | ⟨id, member, refers⟩
    · exact own
    · rw [ResourceId.logicalName_of_isNamedBy refers, named.carried id member]
  · exact .inl

/-- A snapshot owns the identifiers that hold the logical name of one of its locales. -/
theorem Snapshot.IsLaid.owns_iff {snapshot : Snapshot} (named : snapshot.IsNamed setup) {identifier : String} :
    snapshot.owns identifier = true ↔ ∃ locale ∈ snapshot.locales,
      logicalName identifier = setup.loader.resourceName setup.source locale := by
  -- A snapshot owns what one of its catalogues owns, and these are those of its locales.
  rw [owns, values, List.any_map, List.any_eq_true]
  constructor
  · rintro ⟨⟨locale, catalogue⟩, member, own⟩
    exact ⟨locale, named.isKeyed.mem_locales_iff.mpr (mem_keys_iff.mpr ⟨catalogue, member⟩),
      (named.of_mem member).owns_iff.mp own⟩
  · rintro ⟨locale, supported, own⟩
    obtain ⟨catalogue, member⟩ := mem_keys_iff.mp (named.isKeyed.mem_locales_iff.mp supported)
    exact ⟨(locale, catalogue), member, (named.of_mem member).owns_iff.mpr own⟩

namespace Setup

variable (setup)

/-- The messages of a locale of its own carry the logical name of that locale. -/
theorem yields_loadOwn (locale : Locale) : Yields Exchange.KeepsNames
    (fun own => ∀ catalogue, own = some catalogue → catalogue.IsNamed setup locale) (setup.loadOwn locale) := by
  refine yields_bind (Loader.yields_loadMerged setup.loader setup.source locale) fun merged carried => yields_pure ?_
  -- A catalogue is put together from what was loaded for the locale.
  intro catalogue own
  obtain ⟨resources, found, rfl⟩ := Option.map_eq_some_iff.mp own
  exact ⟨rfl, carried resources found⟩

/-- Every catalogue is loaded with the logical name of its locale, also when it shares the messages of the base. -/
theorem provides_names : setup.Provides Exchange.KeepsNames (Catalogue.IsNamed setup) :=
  -- The messages of an overlay are not its own alone, but its name and its resources, if it has any, are.
  provides_of_loadOwn (yields_loadOwn setup) (fun _ _ _ _ own => ⟨own.name, own.carried⟩)
    fun _ _ _ => ⟨rfl, by simp⟩

end Setup

end MessageCatalogue
