import MessageCatalogue.Proofs.Dictionary
import MessageCatalogue.Proofs.Distinct
import MessageCatalogue.Store.Setup

/-! A snapshot is laid in layers: the catalogues of other locales lie over the one of the default locale. -/

namespace MessageCatalogue

open Dictionary

/-- The catalogue of the default locale and those of other locales, each of them under its locale. -/
structure Layers where
  base : Catalogue
  overlays : Dictionary Locale Catalogue

/-- A snapshot supports the default locale and some others and has a catalogue for each of them and for no others. -/
structure Snapshot.IsKeyed (setup : Setup) (snapshot : Snapshot) : Prop where
  defaultFirst : snapshot.locales.head? = some setup.defaultLocale
  distinct : snapshot.locales.Nodup
  keys : snapshot.catalogues.keys = snapshot.locales.tail ++ [setup.defaultLocale]

/-- An event that names nothing that a snapshot owns affects none of its locales. -/
theorem Snapshot.affectedLocales_of_unowned {setup : Setup} {snapshot : Snapshot} {event : ChangeEvent}
    (unowned : ∀ identifier ∈ event.changed, snapshot.owns identifier = false) :
    setup.affectedLocales snapshot event = [] := by
  have untouched : snapshot.locales.filter (fun locale =>
      (snapshot.catalogue? locale).any (·.isTouchedBy event)) = [] := by
    refine List.filter_eq_nil_iff.mpr fun locale _ => ?_
    cases found : snapshot.catalogue? locale with
    | none => simp
    | some catalogue =>
      -- Whatever is found for a locale is among the catalogues that are asked.
      have member : catalogue ∈ snapshot.catalogues.values := List.mem_map_of_mem (mem_of_find? found)
      have foreign : ∀ identifier ∈ event.changed, catalogue.owns identifier = false := fun identifier named => by
        simpa using List.any_eq_false.mp (unowned identifier named) catalogue member
      simpa [Catalogue.isTouchedBy] using foreign
  unfold Setup.affectedLocales
  rw [untouched]
  simp

namespace Snapshot.IsKeyed

variable {setup : Setup} {snapshot : Snapshot} (keyed : snapshot.IsKeyed setup)

include keyed

/-- The locales of a keyed snapshot are those that have a catalogue. -/
theorem mem_locales_iff {locale : Locale} : locale ∈ snapshot.locales ↔ locale ∈ snapshot.catalogues.keys := by
  rw [keyed.keys]
  have first := keyed.defaultFirst
  cases locales : snapshot.locales with
  | nil => simp [locales] at first
  | cons default others =>
    obtain rfl : default = setup.defaultLocale := by simpa [locales] using first
    simp [or_comm]

/-- No locale of a keyed snapshot has two catalogues. -/
theorem nodup_keys : snapshot.catalogues.keys.Nodup := by
  -- The keys are the supported locales with the default one at the end.
  have first := keyed.defaultFirst
  have distinct := keyed.distinct
  rw [keyed.keys]
  cases locales : snapshot.locales with
  | nil => simp
  | cons default others =>
    obtain rfl : default = setup.defaultLocale := by simpa [locales] using first
    rw [locales] at distinct
    exact (List.perm_append_singleton _ _).nodup_iff.mpr distinct

/-- The locales of a keyed snapshot are those for which a catalogue is found. -/
theorem isSome_catalogue?_iff {locale : Locale} :
    (snapshot.catalogue? locale).isSome ↔ locale ∈ snapshot.locales := by
  rw [keyed.mem_locales_iff]
  exact isSome_find?_iff

/-- A locale whose catalogue an event touches is affected by it. -/
theorem mem_affectedLocales {event : ChangeEvent} {locale : Locale} {catalogue : Catalogue}
    (member : (locale, catalogue) ∈ snapshot.catalogues) (touched : catalogue.isTouchedBy event = true) :
    locale ∈ setup.affectedLocales snapshot event := by
  -- The locale is supported, and its catalogue is the one that is found for it.
  have supported := keyed.mem_locales_iff.mpr (mem_keys_iff.mpr ⟨catalogue, member⟩)
  have found : snapshot.catalogue? locale = some catalogue := find?_of_mem keyed.nodup_keys member
  have listed : locale ∈ snapshot.locales.filter fun locale =>
      (snapshot.catalogue? locale).any (·.isTouchedBy event) :=
    List.mem_filter.mpr ⟨supported, by rw [found, Option.any_some, touched]⟩
  unfold Setup.affectedLocales
  dsimp only
  split
  · exact supported
  · exact listed

/-- An event affects a locale of a keyed snapshot when it names something that the snapshot owns. -/
theorem affectedLocales_eq_nil_iff {event : ChangeEvent} :
    setup.affectedLocales snapshot event = [] ↔ ∀ identifier ∈ event.changed, snapshot.owns identifier = false := by
  -- A locale that is touched is affected by itself, whatever else is affected.
  constructor
  · -- What a catalogue owns touches the catalogue, and that has a locale.
    intro nothing identifier named
    refine Bool.eq_false_iff.mpr fun owned => ?_
    obtain ⟨catalogue, member, own⟩ := List.any_eq_true.mp owned
    obtain ⟨⟨locale, _⟩, listed, rfl⟩ := List.mem_map.mp member
    have touched := keyed.mem_affectedLocales listed (List.any_eq_true.mpr ⟨identifier, named, own⟩)
    rw [nothing] at touched
    cases touched
  · exact Snapshot.affectedLocales_of_unowned

end Snapshot.IsKeyed

namespace Setup

variable (setup : Setup)

/-- The snapshot of some layers, in which the base is filed behind the overlays. -/
def snapshot (layers : Layers) : Snapshot :=
  ⟨setup.defaultLocale :: layers.overlays.keys, layers.overlays ++ [(setup.defaultLocale, layers.base)]⟩

/-- The catalogue of one locale over a base, under the locale. -/
def loadOverlayEntry (base : Catalogue) (locale : Locale) : Loading (Locale × Catalogue) := do
  let overlay ← setup.loadOverlay base locale
  return (locale, overlay)

/-- The layers of the default locale and some others, which are loaded one after the other. -/
def loadLayers (others : List Locale) : Loading Layers := do
  let base ← setup.loadBase
  let overlays ← others.mapM (setup.loadOverlayEntry base)
  return ⟨base, overlays⟩

/-- Layers of which those are loaded again that an event touches, or all of them if it touches the base. -/
def refreshLayers (layers : Layers) (event : ChangeEvent) : Loading Layers :=
  -- Overlays keep their places, whether or not they are loaded again.
  if layers.base.isTouchedBy event then setup.loadLayers layers.overlays.keys
  else do
    let overlays ← layers.overlays.mapM fun entry =>
      if entry.2.isTouchedBy event then setup.loadOverlayEntry layers.base entry.1 else pure entry
    return ⟨layers.base, overlays⟩

variable {setup} {layers : Layers}

/-- Different layers make different snapshots. -/
theorem snapshot_inj {other : Layers} : setup.snapshot layers = setup.snapshot other ↔ layers = other := by
  constructor
  · intro same
    -- The base is the last catalogue of either.
    obtain ⟨overlays, base⟩ := List.append_inj' (Snapshot.mk.inj same).2 rfl
    obtain ⟨base, own⟩ := layers
    simp_all
  · exact congrArg _

/-- A keyed snapshot is one of layers. -/
theorem exists_layers {current : Snapshot} (keyed : current.IsKeyed setup) :
    ∃ layers, current = setup.snapshot layers ∧ (setup.defaultLocale :: layers.overlays.keys).Nodup := by
  obtain ⟨locales, catalogues⟩ := current
  obtain ⟨first, distinct, keys⟩ := keyed
  obtain ⟨others, rfl⟩ : ∃ others, locales = setup.defaultLocale :: others := by
    cases locales with
    | nil => cases first
    | cons default others => exact ⟨others, by rw [Option.some.inj first]⟩
  -- The last of the catalogues is the one of the default locale.
  obtain ⟨overlays, last, rfl, rfl, own⟩ := List.map_eq_append_iff.mp keys
  obtain ⟨⟨default, base⟩, rfl, rfl⟩ := List.map_eq_singleton_iff.mp own
  exact ⟨⟨base, overlays⟩, rfl, distinct⟩

section

variable (distinct : (setup.defaultLocale :: layers.overlays.keys).Nodup)

include distinct

/-- The snapshot of layers of distinct locales is keyed. -/
theorem isKeyed_snapshot : (setup.snapshot layers).IsKeyed setup := ⟨rfl, distinct, keys_append ..⟩

/-- The default locale is served from the base. -/
theorem catalogue?_snapshot_default : (setup.snapshot layers).catalogue? setup.defaultLocale = some layers.base := by
  have absent : layers.overlays.find? setup.defaultLocale = none :=
    find?_eq_none_iff.mpr (List.nodup_cons.mp distinct).1
  rw [Snapshot.catalogue?, snapshot, find?_append, absent]
  exact find?_cons_self ..

/-- A locale with an overlay is served from that. -/
theorem catalogue?_snapshot_of_mem {locale : Locale} {overlay : Catalogue}
    (member : (locale, overlay) ∈ layers.overlays) : (setup.snapshot layers).catalogue? locale = some overlay := by
  rw [Snapshot.catalogue?, snapshot, find?_append, find?_of_mem (List.nodup_cons.mp distinct).2 member]
  rfl

/-- The texts of the default locale are those of the base. -/
theorem text?_snapshot_default (code : String) :
    (setup.snapshot layers).text? code setup.defaultLocale = layers.base.messages[code]? := by
  rw [Snapshot.text?, catalogue?_snapshot_default distinct, Option.bind_some]

/-- The texts of a locale with an overlay are those of the overlay. -/
theorem text?_snapshot_of_mem {locale : Locale} {overlay : Catalogue} (member : (locale, overlay) ∈ layers.overlays)
    (code : String) : (setup.snapshot layers).text? code locale = overlay.messages[code]? := by
  rw [Snapshot.text?, catalogue?_snapshot_of_mem distinct member, Option.bind_some]

/-- An event affects every locale when it touches the base, and otherwise those whose overlays it touches. -/
theorem affectedLocales_snapshot (event : ChangeEvent) :
    setup.affectedLocales (setup.snapshot layers) event = if layers.base.isTouchedBy event then
        setup.defaultLocale :: layers.overlays.keys
      else keys (layers.overlays.filter (·.2.isTouchedBy event)) := by
  have default : ((setup.snapshot layers).catalogue? setup.defaultLocale).any (·.isTouchedBy event) =
      layers.base.isTouchedBy event := by rw [catalogue?_snapshot_default distinct, Option.any_some]
  -- The locales of touched overlays are those overlays' keys.
  have others : layers.overlays.keys.filter (fun locale =>
        ((setup.snapshot layers).catalogue? locale).any (·.isTouchedBy event)) =
      keys (layers.overlays.filter (·.2.isTouchedBy event)) := by
    rw [keys, List.filter_map, keys]
    refine congrArg _ (List.filter_congr fun entry member => ?_)
    rw [Function.comp_apply, catalogue?_snapshot_of_mem distinct member, Option.any_some]
  have absent : setup.defaultLocale ∉ keys (layers.overlays.filter (·.2.isTouchedBy event)) := by
    intro member
    obtain ⟨overlay, member⟩ := mem_keys_iff.mp member
    exact (List.nodup_cons.mp distinct).1 (mem_keys_iff.mpr ⟨overlay, (List.mem_filter.mp member).1⟩)
  have locales : (setup.snapshot layers).locales = setup.defaultLocale :: layers.overlays.keys := rfl
  unfold affectedLocales
  rw [locales, List.filter_cons, default, others]
  cases layers.base.isTouchedBy event with
  | true => simp
  | false => simp [absent]

end

section

variable {α β : Type}

/-- What follows some loading can only be given an entry under a known locale. -/
def LoadsUnder (locale : Locale) (loading : Loading (Locale × Catalogue)) : Prop :=
  ∀ {β : Type} {one other : Locale × Catalogue → Loading β},
    (∀ catalogue, one (locale, catalogue) = other (locale, catalogue)) → loading >>= one = loading >>= other

/-- What follows the loading of an overlay is given the overlay under its locale. -/
theorem loadOverlayEntry_bind (base : Catalogue) (locale : Locale) (onward : Locale × Catalogue → Loading β) :
    setup.loadOverlayEntry base locale >>= onward =
      setup.loadOverlay base locale >>= fun overlay => onward (locale, overlay) := by
  rw [loadOverlayEntry, bind_assoc]
  rfl

/-- The catalogue of a locale is loaded under that locale. -/
theorem loadsUnder_loadOverlayEntry (base : Catalogue) (locale : Locale) :
    LoadsUnder locale (setup.loadOverlayEntry base locale) := by
  intro β one other same
  simp only [loadOverlayEntry_bind, same]

/-- What follows the loading of several entries can only be given these under the known locales. -/
theorem mapM_bind_congr (key : α → Locale) {step : α → Loading (Locale × Catalogue)} {elements : List α}
    (under : ∀ element ∈ elements, LoadsUnder (key element) (step element))
    {one other : Dictionary Locale Catalogue → Loading β}
    (same : ∀ entries : Dictionary Locale Catalogue, entries.keys = elements.map key → one entries = other entries) :
    elements.mapM step >>= one = elements.mapM step >>= other := by
  -- The first entry is passed on to what follows, and the rest is loaded behind it.
  induction elements generalizing one other with
  | nil => simpa using same [] rfl
  | cons first rest ih =>
    obtain ⟨own, others⟩ := List.forall_mem_cons.mp under
    simp only [List.mapM_cons, bind_assoc, pure_bind]
    refine own fun catalogue => ih others fun entries keys => same _ ?_
    rw [keys_cons, keys, List.map_cons]

end

/-- Overlays of new locales join the others in the order in which they are loaded. -/
theorem loadOverlays_of_new {base : Catalogue} {others : List Locale} {known : Dictionary Locale Catalogue}
    (distinct : (known.keys ++ others).Nodup) :
    setup.loadOverlays base others known = others.mapM (setup.loadOverlayEntry base) >>= fun overlays =>
      pure (known ++ overlays) := by
  -- Each overlay is filed behind those that are known by then.
  induction others generalizing known with
  | nil => simp [loadOverlays]
  | cons locale rest ih =>
    have absent : locale ∉ known.keys := fun member =>
      (List.nodup_append.mp distinct).2.2 locale member locale List.mem_cons_self rfl
    have further : ∀ overlay, (keys (known ++ [(locale, overlay)]) ++ rest).Nodup := fun overlay => by
      simpa using distinct
    simp only [loadOverlays, loadOverlayEntry_bind, List.mapM_cons, bind_assoc, pure_bind, insert_of_notMem absent,
      ih (further _), List.append_assoc, List.singleton_append]

/-- Overlays that are loaded again take the places of the old ones. -/
theorem loadOverlays_of_known {base : Catalogue} (event : ChangeEvent)
    {earlier overlays : Dictionary Locale Catalogue} (later : Dictionary Locale Catalogue)
    (distinct : (keys (earlier ++ overlays)).Nodup) :
    setup.loadOverlays base (keys (overlays.filter (·.2.isTouchedBy event))) (earlier ++ overlays ++ later) =
      (overlays.mapM fun entry =>
        if entry.2.isTouchedBy event then setup.loadOverlayEntry base entry.1 else pure entry) >>= fun renewed =>
          pure (earlier ++ renewed ++ later) := by
  -- The overlays in front of the current one have been dealt with.
  induction overlays generalizing earlier with
  | nil => simp [loadOverlays]
  | cons first rest ih =>
    have behind : ∀ overlay, (keys (earlier ++ [(first.1, overlay)] ++ rest)).Nodup := fun overlay => by
      simpa using distinct
    have absent : first.1 ∉ earlier.keys := fun member => by
      rw [keys_append] at distinct
      exact (List.nodup_append.mp distinct).2.2 first.1 member first.1 List.mem_cons_self rfl
    simp only [List.mapM_cons, List.filter_cons, bind_assoc, pure_bind]
    cases touched : first.2.isTouchedBy event with
    | true =>
      have placed : ∀ overlay, insert first.1 overlay (earlier ++ first :: rest ++ later) =
          earlier ++ [(first.1, overlay)] ++ rest ++ later := fun overlay => by
        rw [List.append_assoc, List.cons_append, insert_of_split absent first.2 overlay]
        simp
      rw [if_pos rfl, if_pos rfl, keys_cons, loadOverlays, loadOverlayEntry_bind]
      refine bind_congr fun overlay => ?_
      rw [placed, ih (behind overlay)]
      simp
    | false =>
      have same : earlier ++ first :: rest ++ later = earlier ++ [first] ++ rest ++ later := by simp
      rw [if_neg Bool.false_ne_true, if_neg Bool.false_ne_true, pure_bind, same, ih (behind first.2)]
      simp

/-- A snapshot of distinct locales is loaded in layers. -/
theorem loadSnapshot_eq {others : List Locale} (distinct : (setup.defaultLocale :: others).Nodup) :
    setup.loadSnapshot (setup.defaultLocale :: others) = setup.loadLayers others >>= fun layers =>
      pure (setup.snapshot layers) := by
  obtain ⟨absent, further⟩ := List.nodup_cons.mp distinct
  have new : (keys ([] : Dictionary Locale Catalogue) ++ others).Nodup := further
  simp only [loadSnapshot, loadLayers, filter_ne_of_nodup distinct, loadOverlays_of_new new, bind_assoc, pure_bind]
  -- The default locale is none of those that have overlays, so its catalogue is filed behind these.
  refine bind_congr fun base => mapM_bind_congr id (fun locale _ => loadsUnder_loadOverlayEntry base locale)
    fun overlays keys => ?_
  rw [List.map_id] at keys
  rw [List.nil_append, insert_of_notMem (keys ▸ absent), snapshot, keys]

/-- A snapshot of layers is refreshed in layers. -/
theorem refreshSnapshot_eq (distinct : (setup.defaultLocale :: layers.overlays.keys).Nodup) (event : ChangeEvent) :
    setup.refreshSnapshot (setup.snapshot layers) (setup.affectedLocales (setup.snapshot layers) event) =
      setup.refreshLayers layers event >>= fun renewed => pure (setup.snapshot renewed) := by
  obtain ⟨absent, further⟩ := List.nodup_cons.mp distinct
  rw [affectedLocales_snapshot distinct]
  unfold refreshSnapshot refreshLayers
  cases touched : layers.base.isTouchedBy event with
  | true =>
    simp only [if_true, List.mem_cons, true_or]
    exact loadSnapshot_eq distinct
  | false =>
    -- The default locale is not among those whose overlays are touched.
    have untouched : setup.defaultLocale ∉ keys (layers.overlays.filter (·.2.isTouchedBy event)) := by
      intro member
      obtain ⟨overlay, member⟩ := mem_keys_iff.mp member
      exact absent (mem_keys_iff.mpr ⟨overlay, (List.mem_filter.mp member).1⟩)
    have renewed : setup.loadOverlays layers.base (keys (layers.overlays.filter (·.2.isTouchedBy event)))
        (setup.snapshot layers).catalogues = _ :=
      loadOverlays_of_known event [(setup.defaultLocale, layers.base)] (List.nil_append layers.overlays ▸ further)
    rw [if_neg Bool.false_ne_true, if_neg Bool.false_ne_true, if_neg untouched,
      catalogue?_snapshot_default distinct]
    simp only [renewed, bind_assoc, pure_bind, List.nil_append]
    -- Each overlay stays under its locale, so the locales stay as they are.
    refine mapM_bind_congr (·.1) (fun entry _ => ?_) fun overlays keys => by rw [snapshot, snapshot, keys]; rfl
    split
    · exact loadsUnder_loadOverlayEntry layers.base entry.1
    · intro β one other same
      simpa using same entry.2

end Setup

end MessageCatalogue
