import MessageCatalogue.Proofs.Store.Naming
import MessageCatalogue.Proofs.Store.Provenance
import MessageCatalogue.Proofs.Store.Publication

/-! While the resources stay as they are, what some events name can be loaded again in one go or in any order. -/

namespace MessageCatalogue

open Dictionary Loading

/-- The event that names whatever one of two events names. -/
def ChangeEvent.union (first second : ChangeEvent) : ChangeEvent := .ofList (first.changed ++ second.changed)

/-- An identifier is named by one of two events if it is named by the event of both. -/
theorem ChangeEvent.mem_union {first second : ChangeEvent} {identifier : String} :
    identifier ∈ (first.union second).changed ↔ identifier ∈ first.changed ∨ identifier ∈ second.changed :=
  mem_increasing.trans List.mem_append

namespace Setup

/-- Whether some events name the resources of a locale, whatever the origins of these are. -/
def touches (setup : Setup) (events : List ChangeEvent) (locale : Locale) : Bool :=
  events.any fun event => event.changed.any fun identifier =>
    logicalName identifier = setup.loader.resourceName setup.source locale

/-- What a locale has of its own in some holdings, where one that cannot be loaded has nothing. -/
def ownIn (setup : Setup) (holdings : Holdings) (locale : Locale) : Option MergedResources :=
  match outcome holdings (setup.loader.loadMerged setup.source locale) with
  | .ok own => own
  | .error _ => none

/-- The catalogue of the default locale after everything that some events name is loaded again. -/
def renewedBase (setup : Setup) (holdings : Holdings) (events : List ChangeEvent) (base : Catalogue) : Catalogue :=
  if setup.touches events setup.defaultLocale then
    (setup.ownIn holdings setup.defaultLocale).elim base setup.baseOf
  else base

/-- The catalogue of another locale after everything that some events name is loaded again. -/
def renewedOverlay (setup : Setup) (holdings : Holdings) (events : List ChangeEvent) (base : Catalogue)
    (entry : Locale × Catalogue) : Catalogue :=
  -- A new base takes every overlay with it.
  if setup.touches events setup.defaultLocale || setup.touches events entry.1 then
    setup.overlayOf base entry.1 (setup.ownIn holdings entry.1)
  else entry.2

/-- The layers after everything that some events name is loaded again. -/
def renewed (setup : Setup) (holdings : Holdings) (events : List ChangeEvent) (current : Layers) : Layers :=
  let base := setup.renewedBase holdings events current.base
  ⟨base, current.overlays.map fun entry => (entry.1, setup.renewedOverlay holdings events base entry)⟩

/-- Everything that some events make load again can be loaded. -/
structure Renewable (setup : Setup) (holdings : Holdings) (current : Layers) (events : List ChangeEvent) : Prop where
  base : setup.touches events setup.defaultLocale = true →
    ∃ own, setup.Owned holdings setup.defaultLocale (some own)
  overlays : ∀ locale ∈ current.overlays.keys,
    setup.touches events setup.defaultLocale = true ∨ setup.touches events locale = true →
      ∃ own, setup.Owned holdings locale own

variable {setup : Setup} {holdings : Holdings} {current next : Layers} {events others : List ChangeEvent}

/-- What a locale owns is what it has of its own. -/
theorem Owned.ownIn_eq {locale : Locale} {own : Option MergedResources} (owned : setup.Owned holdings locale own) :
    setup.ownIn holdings locale = own := by
  rw [ownIn, owned]

@[simp] theorem touches_append (locale : Locale) :
    setup.touches (events ++ others) locale = (setup.touches events locale || setup.touches others locale) :=
  List.any_append

/-- Events touch a locale when one of them names it. -/
theorem touches_eq_true_iff {locale : Locale} : setup.touches events locale = true ↔
    ∃ event ∈ events, ∃ identifier ∈ event.changed,
      logicalName identifier = setup.loader.resourceName setup.source locale := by
  simp [touches]

/-- In which order and how often events come makes no difference to what they touch. -/
theorem touches_congr (same : ∀ event, event ∈ events ↔ event ∈ others) :
    setup.touches events = setup.touches others := by
  funext locale
  rw [Bool.eq_iff_iff, touches_eq_true_iff, touches_eq_true_iff]
  simp only [same]

/-- The event of two events touches what these touch. -/
theorem touches_union (first second : ChangeEvent) :
    setup.touches [first.union second] = setup.touches [first, second] := by
  funext locale
  rw [Bool.eq_iff_iff, touches_eq_true_iff, touches_eq_true_iff]
  simp [ChangeEvent.mem_union, or_and_right, exists_or]

/-- A catalogue with the logical name of a locale is touched by the events that touch the locale. -/
theorem isTouchedBy_eq {locale : Locale} {catalogue : Catalogue} (named : catalogue.IsNamed setup locale)
    (event : ChangeEvent) : catalogue.isTouchedBy event = setup.touches [event] locale := by
  rw [Bool.eq_iff_iff, Catalogue.isTouchedBy, List.any_eq_true, touches_eq_true_iff]
  simp [named.owns_iff]

/-- Events that touch the default locale make everything load again. -/
theorem renewed_of_touched {own : MergedResources} (touched : setup.touches events setup.defaultLocale = true)
    (owned : setup.Owned holdings setup.defaultLocale (some own)) :
    setup.renewed holdings events current = ⟨setup.baseOf own, current.overlays.map fun entry =>
      (entry.1, setup.overlayOf (setup.baseOf own) entry.1 (setup.ownIn holdings entry.1))⟩ := by
  have base : setup.renewedBase holdings events current.base = setup.baseOf own := by
    rw [renewedBase, if_pos touched, Owned.ownIn_eq owned, Option.elim_some]
  rw [renewed, base]
  simp only [Layers.mk.injEq, true_and]
  exact List.map_congr_left fun entry _ => by simp [renewedOverlay, touched]

/-- Events that do not touch the default locale leave the base as it is. -/
theorem renewed_of_untouched (untouched : setup.touches events setup.defaultLocale = false) :
    setup.renewed holdings events current = ⟨current.base, current.overlays.map fun entry =>
      (entry.1, setup.renewedOverlay holdings events current.base entry)⟩ := by
  have base : setup.renewedBase holdings events current.base = current.base := by
    rw [renewedBase, untouched, if_neg Bool.false_ne_true]
  rw [renewed, base]

/-- Layers lie in the locales in which they lay before anything was loaded again. -/
@[simp] theorem keys_renewed :
    (setup.renewed holdings events current).overlays.keys = current.overlays.keys := by
  simp only [renewed, keys_map]

/-- Lists are related element by element when each element is able to be and the others are made of them. -/
theorem forall₂_iff_eq_map {α β : Type} {relation : α → β → Prop} {able : α → Prop} {value : α → β}
    {elements : List α} {results : List β}
    (alike : ∀ element ∈ elements, ∀ result, relation element result ↔ able element ∧ result = value element) :
    List.Forall₂ relation elements results ↔ (∀ element ∈ elements, able element) ∧ results = elements.map value := by
  -- Every element can be dealt with by itself.
  induction elements generalizing results with
  | nil => simp
  | cons first rest ih =>
    cases results with
    | nil => simp
    | cons result later =>
      obtain ⟨here, others⟩ := List.forall_mem_cons.mp alike
      rw [List.forall₂_cons, ih others, here]
      simp only [List.forall_mem_cons, List.map_cons, List.cons.injEq]
      tauto

/-- An overlay is loaded when its locale can be loaded. -/
theorem outcome_loadOverlay_eq_ok {base overlay : Catalogue} {locale : Locale} :
    outcome holdings (setup.loadOverlay base locale) = .ok overlay ↔
      (∃ own, setup.Owned holdings locale own) ∧
        overlay = setup.overlayOf base locale (setup.ownIn holdings locale) := by
  -- What a locale owns is unique, so it can be named.
  rw [outcome_loadOverlay_ok]
  constructor
  · rintro ⟨own, owned, rfl⟩
    exact ⟨⟨own, owned⟩, by rw [Owned.ownIn_eq owned]⟩
  · rintro ⟨⟨own, owned⟩, rfl⟩
    exact ⟨own, owned, by rw [Owned.ownIn_eq owned]⟩

/-- An entry stands for a locale when it is made of what that has of its own, over some base. -/
theorem outcome_loadOverlay_entry_ok {base : Catalogue} {locale : Locale} {entry : Locale × Catalogue} :
    entry.1 = locale ∧ outcome holdings (setup.loadOverlay base locale) = .ok entry.2 ↔
      (∃ own, setup.Owned holdings locale own) ∧
        entry = (locale, setup.overlayOf base locale (setup.ownIn holdings locale)) := by
  rw [outcome_loadOverlay_eq_ok, Prod.ext_iff]
  exact and_left_comm

/-- Layers are refreshed when everything that an event names can be loaded again, and by just that. -/
theorem outcome_refreshLayers_eq_ok (named : current.AreNamed setup) (event : ChangeEvent) :
    outcome holdings (setup.refreshLayers current event) = .ok next ↔
      setup.Renewable holdings current [event] ∧ next = setup.renewed holdings [event] current := by
  have base : current.base.isTouchedBy event = setup.touches [event] setup.defaultLocale :=
    isTouchedBy_eq named.base event
  obtain ⟨nextBase, nextOverlays⟩ := next
  cases touched : setup.touches [event] setup.defaultLocale with
  | true =>
    -- Everything is loaded, the base first.
    have each : ∀ entry ∈ current.overlays, ∀ result : Locale × Catalogue,
        result.1 = entry.1 ∧ outcome holdings (setup.loadOverlay nextBase entry.1) = .ok result.2 ↔
          (∃ own, setup.Owned holdings entry.1 own) ∧
            result = (entry.1, setup.overlayOf nextBase entry.1 (setup.ownIn holdings entry.1)) :=
      fun entry _ result => outcome_loadOverlay_entry_ok
    rw [refreshLayers_of_touched (base.trans touched), outcome_loadLayers_ok, keys, List.forall₂_map_left_iff,
      outcome_loadBase_ok, forall₂_iff_eq_map each]
    constructor
    · rintro ⟨⟨own, owned, rfl⟩, able, rfl⟩
      refine ⟨⟨fun _ => ⟨own, owned⟩, fun locale member _ => ?_⟩, ?_⟩
      · obtain ⟨entry, listed, rfl⟩ := List.mem_map.mp member
        exact able entry listed
      · rw [renewed_of_touched touched owned]
    · rintro ⟨able, same⟩
      obtain ⟨own, owned⟩ := able.base touched
      rw [renewed_of_touched touched owned] at same
      obtain ⟨rfl, rfl⟩ := Layers.mk.inj same
      exact ⟨⟨own, owned, rfl⟩,
        fun entry member => able.overlays entry.1 (List.mem_map_of_mem member) (.inl touched), rfl⟩
  | false =>
    -- The base stays, and so do the overlays that are not touched.
    have each : ∀ entry ∈ current.overlays, ∀ result : Locale × Catalogue,
        (if entry.2.isTouchedBy event then
            result.1 = entry.1 ∧ outcome holdings (setup.loadOverlay current.base entry.1) = .ok result.2
          else result = entry) ↔
        (setup.touches [event] entry.1 = true → ∃ own, setup.Owned holdings entry.1 own) ∧
          result = (entry.1, setup.renewedOverlay holdings [event] current.base entry) := by
      intro entry member result
      rw [isTouchedBy_eq (named.overlays entry member), renewedOverlay, touched, outcome_loadOverlay_entry_ok]
      cases setup.touches [event] entry.1 <;> simp
    rw [outcome_refreshLayers_ok (base.trans touched), forall₂_iff_eq_map each]
    constructor
    · rintro ⟨rfl, able, rfl⟩
      refine ⟨⟨fun impossible => by simp [touched] at impossible, ?_⟩, by rw [renewed_of_untouched touched]⟩
      intro locale member named
      obtain ⟨entry, listed, rfl⟩ := List.mem_map.mp member
      exact able entry listed (by simpa [touched] using named)
    · rintro ⟨able, same⟩
      rw [renewed_of_untouched touched] at same
      obtain ⟨rfl, rfl⟩ := Layers.mk.inj same
      exact ⟨rfl, fun entry member named => able.overlays entry.1 (List.mem_map_of_mem member) (.inr named), rfl⟩

/-- A snapshot is refreshed when everything that its event names can be loaded again, and by just that. -/
theorem outcome_refreshSnapshot_eq_ok (named : current.AreNamed setup) (event : ChangeEvent) {snapshot : Snapshot} :
    outcome holdings (setup.refreshSnapshot (setup.snapshot current)
        (setup.affectedLocales (setup.snapshot current) event)) = .ok snapshot ↔
      setup.Renewable holdings current [event] ∧
        snapshot = setup.snapshot (setup.renewed holdings [event] current) := by
  -- The snapshot stands for its layers, on which the refreshing is known.
  rw [outcome_refreshSnapshot_ok named.distinct]
  simp only [outcome_refreshLayers_eq_ok named]
  constructor
  · rintro ⟨_, ⟨able, rfl⟩, rfl⟩
    exact ⟨able, rfl⟩
  · rintro ⟨able, rfl⟩
    exact ⟨_, ⟨able, rfl⟩, rfl⟩

/-- Everything that events name can be loaded when this is so for those before and those after some point. -/
theorem renewable_append : setup.Renewable holdings current (events ++ others) ↔
    setup.Renewable holdings current events ∧ setup.Renewable holdings current others := by
  -- What touches a locale among all events is among those before or behind the point.
  constructor
  · rintro ⟨base, overlays⟩
    refine ⟨⟨fun touched => base (by simp [touched]), ?_⟩, ⟨fun touched => base (by simp [touched]), ?_⟩⟩
    · intro locale member touched
      exact overlays locale member (by rcases touched with touched | touched <;> simp [touched])
    · intro locale member touched
      exact overlays locale member (by rcases touched with touched | touched <;> simp [touched])
  · rintro ⟨⟨base, overlays⟩, ⟨otherBase, otherOverlays⟩⟩
    constructor
    · intro touched
      rw [touches_append, Bool.or_eq_true] at touched
      exact touched.elim base otherBase
    · intro locale member touched
      simp only [touches_append, Bool.or_eq_true] at touched
      rcases touched with (touched | touched) | (touched | touched)
      · exact overlays locale member (.inl touched)
      · exact otherOverlays locale member (.inl touched)
      · exact overlays locale member (.inr touched)
      · exact otherOverlays locale member (.inr touched)

/-- What can be loaded again does not depend on what was loaded before. -/
theorem renewable_renewed : setup.Renewable holdings (setup.renewed holdings others current) events ↔
    setup.Renewable holdings current events := by
  -- Only the locales count, and these are the same.
  constructor
  · rintro ⟨base, overlays⟩
    rw [keys_renewed] at overlays
    exact ⟨base, overlays⟩
  · rintro ⟨base, overlays⟩
    refine ⟨base, ?_⟩
    rwa [keys_renewed]

/-- A base that is loaded again twice is the one that is loaded again for the events of both times. -/
theorem renewedBase_renewedBase (base : Catalogue) :
    setup.renewedBase holdings others (setup.renewedBase holdings events base) =
      setup.renewedBase holdings (events ++ others) base := by
  unfold renewedBase
  rw [touches_append]
  cases setup.touches events setup.defaultLocale <;> cases setup.touches others setup.defaultLocale <;>
    cases setup.ownIn holdings setup.defaultLocale <;> simp

/-- An overlay that is loaded again twice, at last on a new base, is loaded on that for the events of both times. -/
theorem renewedOverlay_renewedOverlay (base : Catalogue) (entry : Locale × Catalogue) :
    setup.renewedOverlay holdings others (setup.renewedBase holdings others base)
        (entry.1, setup.renewedOverlay holdings events base entry) =
      setup.renewedOverlay holdings (events ++ others) (setup.renewedBase holdings others base) entry := by
  cases default : setup.touches others setup.defaultLocale with
  | true => simp [renewedOverlay, default]
  | false =>
    cases own : setup.touches others entry.1 with
    | true => simp [renewedOverlay, own]
    | false =>
      -- The overlay was new before, if it is new at all, and so was the base.
      simp [renewedBase, renewedOverlay, default, own]

/-- Loading again what some events name and then what others name is loading again what all of them name. -/
theorem renewed_renewed : setup.renewed holdings others (setup.renewed holdings events current) =
    setup.renewed holdings (events ++ others) current := by
  simp only [renewed, ← renewedBase_renewedBase, List.map_map, Layers.mk.injEq, true_and]
  exact List.map_congr_left fun entry _ => congrArg (entry.1, ·) (renewedOverlay_renewedOverlay _ entry)

/-- What is loaded again is decided by what the events touch. -/
theorem renewed_congr (same : setup.touches events = setup.touches others) :
    setup.renewed holdings events = setup.renewed holdings others := by
  funext current
  have overlay : setup.renewedOverlay holdings events = setup.renewedOverlay holdings others := by
    funext base entry
    rw [renewedOverlay, renewedOverlay, same]
  simp only [renewed, renewedBase, overlay, same]

/-- What can be loaded again is decided by what the events touch. -/
theorem renewable_congr (same : setup.touches events = setup.touches others) :
    setup.Renewable holdings current events ↔ setup.Renewable holdings current others := by
  constructor <;> rintro ⟨base, overlays⟩
  · exact ⟨same ▸ base, same ▸ overlays⟩
  · exact ⟨same ▸ base, same ▸ overlays⟩

/-- Events that touch no locale of some layers make nothing load again. -/
theorem renewed_eq_self
    (untouched : ∀ locale ∈ setup.defaultLocale :: current.overlays.keys, setup.touches events locale = false) :
    setup.Renewable holdings current events ∧ setup.renewed holdings events current = current := by
  -- Neither the base nor any overlay is touched, so every layer stays.
  obtain ⟨default, others⟩ := List.forall_mem_cons.mp untouched
  refine ⟨⟨by simp [default], fun locale member => by simp [default, others locale member]⟩, ?_⟩
  have same : (current.overlays.map fun entry => (entry.1, setup.renewedOverlay holdings events current.base entry)) =
      current.overlays := by
    refine (List.map_congr_left fun entry member => ?_).trans (List.map_id _)
    simp [renewedOverlay, default, others entry.1 (List.mem_map_of_mem member)]
  rw [renewed_of_untouched default, same]

/-- An event affects no locale of a snapshot when it touches none. -/
theorem affectedLocales_eq_nil_iff_touches (named : current.AreNamed setup) {event : ChangeEvent} :
    setup.affectedLocales (setup.snapshot current) event = [] ↔
      ∀ locale ∈ setup.defaultLocale :: current.overlays.keys, setup.touches [event] locale = false := by
  -- A named snapshot owns an identifier through the logical name of one of its locales.
  have laid : (setup.snapshot current).IsNamed setup := isLaid_snapshot_iff.mpr named
  rw [laid.isKeyed.affectedLocales_eq_nil_iff]
  simp only [← Bool.not_eq_true, laid.owns_iff, touches_eq_true_iff, List.mem_singleton, exists_eq_left]
  constructor
  · rintro unowned locale member ⟨identifier, listed, same⟩
    exact unowned identifier listed ⟨locale, member, same⟩
  · rintro untouched identifier listed ⟨locale, member, same⟩
    exact untouched locale member ⟨identifier, listed, same⟩

end Setup

end MessageCatalogue
