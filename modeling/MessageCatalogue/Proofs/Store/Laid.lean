import MessageCatalogue.Proofs.Resource.Naming
import MessageCatalogue.Proofs.Store.Assembly

/-! Whatever every load gives to the catalogue of a locale is had by all catalogues of a snapshot that is laid. -/

namespace MessageCatalogue

open Dictionary Loading

/-- Layers lie in distinct locales, and each of them has some property in its locale. -/
structure Layers.AreAll (setup : Setup) (property : Locale → Catalogue → Prop) (layers : Layers) : Prop where
  distinct : (setup.defaultLocale :: layers.overlays.keys).Nodup
  base : property setup.defaultLocale layers.base
  overlays : ∀ entry ∈ layers.overlays, property entry.1 entry.2

/-- A snapshot is laid in layers that all have some property. -/
def Snapshot.IsLaid (setup : Setup) (property : Locale → Catalogue → Prop) (snapshot : Snapshot) : Prop :=
  ∃ layers : Layers, snapshot = setup.snapshot layers ∧ layers.AreAll setup property

/-- Whatever a setup loads for a locale has some property there, as long as its exchanges are of some kind. -/
structure Setup.Provides (met : Exchange → Prop) (property : Locale → Catalogue → Prop) (setup : Setup) : Prop where
  base : Yields met (property setup.defaultLocale) setup.loadBase
  overlay : ∀ base locale, property setup.defaultLocale base →
    Yields met (property locale) (setup.loadOverlay base locale)

namespace Snapshot.IsLaid

variable {setup : Setup} {property : Locale → Catalogue → Prop} {snapshot : Snapshot}

/-- A snapshot that is laid has a catalogue for each of its locales and for no others. -/
theorem isKeyed (laid : snapshot.IsLaid setup property) : snapshot.IsKeyed setup := by
  obtain ⟨layers, rfl, all⟩ := laid
  exact Setup.isKeyed_snapshot all.distinct

/-- Every catalogue of a snapshot that is laid has the property in its locale. -/
theorem of_mem (laid : snapshot.IsLaid setup property) {entry : Locale × Catalogue}
    (member : entry ∈ snapshot.catalogues) : property entry.1 entry.2 := by
  obtain ⟨layers, rfl, all⟩ := laid
  -- The base is filed behind the overlays.
  rcases List.mem_append.mp member with overlay | base
  · exact all.overlays entry overlay
  · obtain rfl := List.mem_singleton.mp base
    exact all.base

end Snapshot.IsLaid

/-- The snapshot of some layers is laid with a property when these have it. -/
theorem Setup.isLaid_snapshot_iff {setup : Setup} {property : Locale → Catalogue → Prop} {layers : Layers} :
    (setup.snapshot layers).IsLaid setup property ↔ layers.AreAll setup property := by
  constructor
  · rintro ⟨own, same, all⟩
    exact Setup.snapshot_inj.mp same ▸ all
  · exact fun all => ⟨layers, rfl, all⟩

namespace Setup

variable {met : Exchange → Prop} {property : Locale → Catalogue → Prop} {setup : Setup}

/-- Nothing in particular is provided by every load. -/
theorem provides_true (setup : Setup) (met : Exchange → Prop) : setup.Provides met fun _ _ => True :=
  ⟨fun _ _ _ _ => trivial, fun _ _ _ _ _ _ _ => trivial⟩

/-- What the own messages of each locale have is provided when laying them over a base, or none at all, keeps it. -/
theorem provides_of_loadOwn
    (own : ∀ locale, Yields met (fun own => ∀ catalogue, own = some catalogue → property locale catalogue)
      (setup.loadOwn locale))
    (laid : ∀ base own locale, property setup.defaultLocale base → property locale own →
      property locale { own with messages := base.messages ∪ own.messages })
    (alone : ∀ base locale, property setup.defaultLocale base →
      property locale ⟨setup.loader.resourceName setup.source locale, [], base.messages⟩) :
    setup.Provides met property where
  base := by
    refine yields_bind (own setup.defaultLocale) fun found loaded => ?_
    cases found with
    -- Without messages in the default locale there is no base at all.
    | none => exact yields_throw _
    | some base => exact yields_pure (loaded base rfl)
  overlay := by
    intro base locale below
    refine yields_bind (own locale) fun found loaded => ?_
    cases found with
    -- A locale without messages of its own shares those of the base.
    | none => exact yields_pure (alone base locale below)
    | some overlay => exact yields_pure (laid base overlay locale below (loaded overlay rfl))

/-- An entry that is loaded stands under its locale and has the property there. -/
theorem Provides.yields_loadOverlayEntry (provides : setup.Provides met property) {base : Catalogue}
    (own : property setup.defaultLocale base) (locale : Locale) :
    Yields met (fun entry => entry.1 = locale ∧ property entry.1 entry.2) (setup.loadOverlayEntry base locale) :=
  yields_bind (provides.overlay base locale own) fun _ overlay => yields_pure ⟨rfl, overlay⟩

/-- Entries that each have the locale and the property they should have make up overlays of these locales. -/
theorem keys_of_forall₂ (property : Locale → Catalogue → Prop) {locales : List Locale}
    {entries : Dictionary Locale Catalogue}
    (each : List.Forall₂ (fun locale entry => entry.1 = locale ∧ property entry.1 entry.2) locales entries) :
    entries.keys = locales ∧ ∀ entry ∈ entries, property entry.1 entry.2 := by
  -- The overlays stand in the order of their locales.
  induction each with
  | nil => exact ⟨rfl, by simp⟩
  | cons first _ ih => exact ⟨by rw [keys_cons, first.1, ih.1], List.forall_mem_cons.mpr ⟨first.2, ih.2⟩⟩

/-- Layers of distinct locales are loaded with the property that every load provides. -/
theorem Provides.yields_loadLayers (provides : setup.Provides met property) {others : List Locale}
    (distinct : (setup.defaultLocale :: others).Nodup) :
    Yields met (fun layers => layers.AreAll setup property ∧ layers.overlays.keys = others)
      (setup.loadLayers others) := by
  -- The base comes first, and the overlays follow one by one.
  refine yields_bind provides.base fun base own => ?_
  refine yields_bind (yields_mapM fun locale _ => provides.yields_loadOverlayEntry own locale) fun overlays each => ?_
  obtain ⟨order, others⟩ := keys_of_forall₂ property each
  exact yields_pure ⟨⟨order ▸ distinct, own, others⟩, order⟩

/-- Layers are refreshed with the property that every load provides. -/
theorem Provides.yields_refreshLayers (provides : setup.Provides met property) {current : Layers}
    (all : current.AreAll setup property) (event : ChangeEvent) :
    Yields met (fun next => next.AreAll setup property ∧ next.overlays.keys = current.overlays.keys)
      (setup.refreshLayers current event) := by
  -- Either everything is loaded again or the base and the order of the overlays stay.
  unfold refreshLayers
  split
  · exact provides.yields_loadLayers all.distinct
  · -- The base stays, and each overlay either stays or makes way for one of its locale.
    have overlay : ∀ entry ∈ current.overlays, Yields met
        (fun next => next.1 = entry.1 ∧ property next.1 next.2)
        (if entry.2.isTouchedBy event then setup.loadOverlayEntry current.base entry.1 else pure entry) := by
      intro entry member
      split
      · exact provides.yields_loadOverlayEntry all.base entry.1
      · exact yields_pure ⟨rfl, all.overlays entry member⟩
    refine yields_bind (yields_mapM overlay) fun overlays each => ?_
    obtain ⟨order, others⟩ := keys_of_forall₂ property (List.forall₂_map_left_iff.mpr each)
    exact yields_pure ⟨⟨order ▸ all.distinct, all.base, others⟩, order⟩

/-- A snapshot of every locale to support is laid with the property that every load provides. -/
theorem Provides.yields_load (provides : setup.Provides met property) :
    Yields met (·.IsLaid setup property) setup.load := by
  -- Whichever locales are found, a snapshot is loaded for them.
  have looking : Yields met (fun _ => True) setup.candidateLocales := fun _ _ _ _ => trivial
  rw [load_eq]
  refine yields_bind looking fun candidates _ => ?_
  exact yields_bind (provides.yields_loadLayers (setup.nodup_supported candidates)) fun layers loaded =>
    yields_pure ⟨layers, rfl, loaded.1⟩

/-- A snapshot that is laid is refreshed to one with the same locales and the property that every load provides. -/
theorem Provides.yields_refreshSnapshot (provides : setup.Provides met property) {current : Snapshot}
    (laid : current.IsLaid setup property) (event : ChangeEvent) :
    Yields met (fun next => next.IsLaid setup property ∧ next.locales = current.locales)
      (setup.refreshSnapshot current (setup.affectedLocales current event)) := by
  obtain ⟨layers, rfl, all⟩ := laid
  rw [refreshSnapshot_eq all.distinct]
  refine yields_bind (provides.yields_refreshLayers all event) fun renewed refreshed => ?_
  exact yields_pure ⟨⟨renewed, rfl, refreshed.1⟩, congrArg (setup.defaultLocale :: ·) refreshed.2⟩

end Setup

end MessageCatalogue
