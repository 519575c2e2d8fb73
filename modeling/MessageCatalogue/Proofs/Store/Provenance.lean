import MessageCatalogue.Proofs.Store.Agreement
import MessageCatalogue.Proofs.Store.Laid

/-! Every catalogue of a snapshot can be traced back to messages that its locale had of its own. -/

namespace MessageCatalogue

open Dictionary Loading

/-- A locale has some messages of its own, or none, in some holdings. -/
def Setup.Owned (setup : Setup) (holdings : Holdings) (locale : Locale) (own : Option MergedResources) : Prop :=
  outcome holdings (setup.loader.loadMerged setup.source locale) = .ok own

/-- Layers of distinct locales are made of messages that these owned, by some account of that. -/
structure Layers.MadeOf (setup : Setup) (owned : Locale → Option MergedResources → Prop) (layers : Layers) :
    Prop where
  distinct : (setup.defaultLocale :: layers.overlays.keys).Nodup
  base : ∃ own, owned setup.defaultLocale (some own) ∧ layers.base.Agrees (setup.baseOf own)
  overlays : ∀ entry ∈ layers.overlays, ∃ own, owned entry.1 own ∧
    entry.2.Agrees (setup.overlayOf layers.base entry.1 own)

/-- Every catalogue of a snapshot is made of messages that its locale owned, by some account of that. -/
def Snapshot.MadeOf (setup : Setup) (owned : Locale → Option MergedResources → Prop) (snapshot : Snapshot) : Prop :=
  ∃ layers : Layers, snapshot = setup.snapshot layers ∧ layers.MadeOf setup owned

namespace Snapshot

variable {setup : Setup} {owned : Locale → Option MergedResources → Prop} {snapshot : Snapshot}

/-- A snapshot is also made of what another account says was owned, if that covers its locales. -/
theorem MadeOf.mono {after : Locale → Option MergedResources → Prop} (made : snapshot.MadeOf setup owned)
    (kept : ∀ locale ∈ snapshot.locales, ∀ own, owned locale own → after locale own) :
    snapshot.MadeOf setup after := by
  obtain ⟨layers, rfl, distinct, base, overlays⟩ := made
  -- The default locale and each other one is supported, so the new account has what it owned.
  refine ⟨layers, rfl, distinct, ?_, ?_⟩
  · obtain ⟨own, owns, agree⟩ := base
    exact ⟨own, kept _ List.mem_cons_self _ owns, agree⟩
  · intro entry member
    obtain ⟨own, owns, agree⟩ := overlays entry member
    exact ⟨own, kept _ (List.mem_cons_of_mem _ (List.mem_map_of_mem member)) _ owns, agree⟩

/-- Each entry has its like among entries that agree. -/
theorem exists_agreeing {one other : Dictionary Locale Catalogue} (agree : List.Forall₂ EntriesAgree one other)
    {entry : Locale × Catalogue} (member : entry ∈ one) : ∃ like ∈ other, EntriesAgree entry like := by
  -- The entries agree one by one, so the place tells which of them it is.
  induction agree with
  | nil => cases member
  | cons own _ ih =>
    rcases List.mem_cons.mp member with rfl | member
    · exact ⟨_, List.mem_cons_self, own⟩
    · obtain ⟨like, found, same⟩ := ih member
      exact ⟨like, List.mem_cons_of_mem _ found, same⟩

/-- A snapshot that agrees with one of layers is laid in layers that agree with these. -/
theorem Agrees.exists_layers {layers : Layers} (agree : snapshot.Agrees (setup.snapshot layers)) :
    ∃ own : Layers, snapshot = setup.snapshot own ∧ own.base.Agrees layers.base ∧
      List.Forall₂ EntriesAgree own.overlays layers.overlays := by
  obtain ⟨locales, catalogues⟩ := snapshot
  obtain ⟨rfl, each⟩ := agree
  -- The base is the last catalogue on both sides.
  have overlays := List.forall₂_take_append _ _ _ each
  have last := List.forall₂_drop_append _ _ _ each
  obtain ⟨⟨default, base⟩, rest, own, none, behind⟩ := List.forall₂_cons_right_iff.mp last
  obtain rfl := List.forall₂_nil_right_iff.mp none
  obtain rfl : default = setup.defaultLocale := own.1
  refine ⟨⟨base, catalogues.take layers.overlays.length⟩, ?_, own.2, overlays⟩
  have whole : catalogues = catalogues.take layers.overlays.length ++ [(setup.defaultLocale, base)] :=
    (List.take_append_drop _ _).symm.trans (congrArg _ behind)
  exact congrArg₂ Snapshot.mk (congrArg (setup.defaultLocale :: ·) (keys_eq_of_agrees overlays).symm) whole

/-- A snapshot is made of the same messages as any other one that it agrees with. -/
theorem MadeOf.of_agrees {other : Snapshot} (agree : snapshot.Agrees other) (made : other.MadeOf setup owned) :
    snapshot.MadeOf setup owned := by
  -- Only the places of the layers matter, at which both snapshots hold the same messages.
  obtain ⟨layers, rfl, distinct, base, overlays⟩ := made
  obtain ⟨own, rfl, alike, each⟩ := agree.exists_layers
  refine ⟨own, rfl, keys_eq_of_agrees each ▸ distinct, ?_, ?_⟩
  · obtain ⟨merged, owns, same⟩ := base
    exact ⟨merged, owns, alike.trans same⟩
  · -- The overlay at the same place in the other snapshot lies over the same messages.
    intro entry member
    obtain ⟨like, found, locale, same⟩ := exists_agreeing each member
    obtain ⟨merged, owns, laid⟩ := overlays like found
    rw [locale]
    exact ⟨merged, owns, same.trans (laid.trans (setup.overlayOf_agrees alike.symm _ merged))⟩

/-- A snapshot that is made of something has a catalogue for each of its locales and for no others. -/
theorem MadeOf.isKeyed (made : snapshot.MadeOf setup owned) : snapshot.IsKeyed setup := by
  obtain ⟨layers, rfl, made⟩ := made
  exact Setup.isKeyed_snapshot made.distinct

/-- Every catalogue carries the logical name of its locale. -/
theorem MadeOf.named (made : snapshot.MadeOf setup owned) {locale : Locale} {catalogue : Catalogue}
    (member : (locale, catalogue) ∈ snapshot.catalogues) :
    catalogue.name = setup.loader.resourceName setup.source locale := by
  obtain ⟨layers, rfl, made⟩ := made
  -- Both the base and the overlays take their names from the locale.
  rcases List.mem_append.mp member with overlay | base
  · obtain ⟨own, _, agree⟩ := made.overlays _ overlay
    rw [agree.name, Setup.name_overlayOf]
  · obtain ⟨rfl, rfl⟩ := Prod.mk.inj (List.mem_singleton.mp base)
    obtain ⟨own, _, agree⟩ := made.base
    exact agree.name

/-- The default locale serves its own messages and no others. -/
theorem MadeOf.default_texts (made : snapshot.MadeOf setup owned) :
    ∃ own, owned setup.defaultLocale (some own) ∧
      ∀ code, snapshot.text? code setup.defaultLocale = own.messages[code]? := by
  obtain ⟨layers, rfl, made⟩ := made
  -- Nothing is laid over the messages of the default locale.
  obtain ⟨own, owns, agree⟩ := made.base
  refine ⟨own, owns, fun code => ?_⟩
  rw [Setup.text?_snapshot_default made.distinct, agree.messages.getElem?_eq]
  rfl

/-- A supported locale serves its own messages and, for other codes, those of the default locale. -/
theorem MadeOf.texts (made : snapshot.MadeOf setup owned) {locale : Locale} (supported : locale ∈ snapshot.locales) :
    ∃ own, owned locale own ∧ ∀ code, snapshot.text? code locale =
      (own.bind (·.messages[code]?)).or (snapshot.text? code setup.defaultLocale) := by
  -- A locale is served from the base or from its overlay, which holds the messages of both.
  have default := made.default_texts
  obtain ⟨layers, rfl, made⟩ := made
  rcases List.mem_cons.mp supported with rfl | other
  · -- The default locale has nothing of another locale to fall back on.
    obtain ⟨own, owns, texts⟩ := default
    refine ⟨some own, owns, fun code => ?_⟩
    rw [texts, Option.bind_some, Option.or_self]
  · obtain ⟨overlay, member⟩ := mem_keys_iff.mp other
    obtain ⟨own, owns, agree⟩ := made.overlays _ member
    refine ⟨own, owns, fun code => ?_⟩
    rw [Setup.text?_snapshot_of_mem made.distinct member, Setup.text?_snapshot_default made.distinct,
      agree.messages.getElem?_eq, Setup.getElem?_overlayOf]

end Snapshot

namespace Setup

open Snapshot

variable {setup : Setup} {holdings : Holdings}

/-- Overlays that were loaded for some locales stand in their order, each with what its locale owns. -/
theorem loaded_overlays {base : Catalogue} {others : List Locale} {overlays : Dictionary Locale Catalogue}
    (each : List.Forall₂ (fun locale entry =>
      entry.1 = locale ∧ outcome holdings (setup.loadOverlay base locale) = .ok entry.2) others overlays) :
    overlays.keys = others ∧ ∀ entry ∈ overlays, ∃ own,
      setup.Owned holdings entry.1 own ∧ entry.2 = setup.overlayOf base entry.1 own := by
  -- Each overlay is loaded for one of the locales, in their order.
  let property : Locale → Catalogue → Prop := fun locale overlay => ∃ own,
    setup.Owned holdings locale own ∧ overlay = setup.overlayOf base locale own
  refine keys_of_forall₂ property (each.imp fun locale entry loaded => ⟨loaded.1, ?_⟩)
  exact loaded.1 ▸ outcome_loadOverlay_ok.mp loaded.2

/-- Layers that were loaded as a whole lie in the locales that were asked for. -/
theorem keys_of_loadLayers {others : List Locale} {layers : Layers}
    (loaded : outcome holdings (setup.loadLayers others) = .ok layers) : layers.overlays.keys = others :=
  (loaded_overlays (outcome_loadLayers_ok.mp loaded).2).1

/-- Layers that were loaded as a whole are made of what was loaded for each locale. -/
theorem madeOf_loadLayers {owned : Locale → Option MergedResources → Prop} {others : List Locale}
    {layers : Layers} (distinct : (setup.defaultLocale :: others).Nodup)
    (loaded : outcome holdings (setup.loadLayers others) = .ok layers)
    (owns : ∀ locale ∈ setup.defaultLocale :: others, ∀ own, setup.Owned holdings locale own → owned locale own) :
    layers.MadeOf setup owned := by
  -- Every catalogue comes from what has just been found for its locale.
  obtain ⟨built, each⟩ := outcome_loadLayers_ok.mp loaded
  obtain ⟨keys, overlays⟩ := loaded_overlays each
  obtain ⟨own, found, base⟩ := outcome_loadBase_ok.mp built
  refine ⟨keys ▸ distinct, ⟨own, owns _ List.mem_cons_self _ found, base ▸ .refl _⟩, ?_⟩
  intro entry member
  obtain ⟨own, found, same⟩ := overlays entry member
  have supported : entry.1 ∈ others := keys ▸ List.mem_map_of_mem member
  exact ⟨own, owns _ (List.mem_cons_of_mem _ supported) _ found, by rw [same]⟩

/-- A snapshot of every locale to support is made of what these own, the default one first. -/
theorem madeOf_load {snapshot : Snapshot} (loaded : outcome holdings setup.load = .ok snapshot) :
    ∃ candidates, outcome holdings setup.candidateLocales = .ok candidates ∧
      snapshot.locales = setup.defaultLocale :: setup.otherLocales candidates ∧
      snapshot.MadeOf setup (setup.Owned holdings) := by
  -- Whatever the candidates are, the locales that are loaded are distinct.
  obtain ⟨candidates, layers, found, built, rfl⟩ := outcome_load_ok.mp loaded
  exact ⟨candidates, found, congrArg (setup.defaultLocale :: ·) (keys_of_loadLayers built), layers, rfl,
    madeOf_loadLayers (setup.nodup_supported candidates) built fun _ _ _ owned => owned⟩

/-- Overlays that were refreshed stand in their order, each with what its locale owned before or owns now. -/
theorem refreshed_overlays (owned : Locale → Option MergedResources → Prop) {base : Catalogue}
    {event : ChangeEvent} {old new : Dictionary Locale Catalogue}
    (each : List.Forall₂ (fun old new =>
      if old.2.isTouchedBy event then new.1 = old.1 ∧ outcome holdings (setup.loadOverlay base old.1) = .ok new.2
      else new = old) old new)
    (kept : ∀ entry ∈ old, entry.2.isTouchedBy event = false → ∃ own, owned entry.1 own ∧
      entry.2.Agrees (setup.overlayOf base entry.1 own))
    (renewed : ∀ entry ∈ old, entry.2.isTouchedBy event = true → ∀ own,
      setup.Owned holdings entry.1 own → owned entry.1 own) :
    new.keys = old.keys ∧ ∀ entry ∈ new, ∃ own, owned entry.1 own ∧
      entry.2.Agrees (setup.overlayOf base entry.1 own) := by
  -- Each overlay either stays in its place or makes way for one of the same locale.
  induction each with
  | nil => exact ⟨rfl, by simp⟩
  | @cons first first' rest rest' step _ ih =>
    obtain ⟨order, origins⟩ := ih (fun entry member => kept entry (List.mem_cons_of_mem _ member))
      (fun entry member => renewed entry (List.mem_cons_of_mem _ member))
    have own : first'.1 = first.1 ∧ ∃ own, owned first.1 own ∧
        first'.2.Agrees (setup.overlayOf base first.1 own) := by
      cases touched : first.2.isTouchedBy event with
      | true =>
        rw [touched, if_pos rfl] at step
        obtain ⟨own, found, same⟩ := outcome_loadOverlay_ok.mp step.2
        exact ⟨step.1, own, renewed first List.mem_cons_self touched own found, by rw [same]⟩
      | false =>
        rw [touched, if_neg Bool.false_ne_true] at step
        subst step
        exact ⟨rfl, kept _ List.mem_cons_self touched⟩
    refine ⟨by rw [keys_cons, keys_cons, own.1, order], ?_⟩
    intro entry member
    rcases List.mem_cons.mp member with rfl | member
    · exact own.1 ▸ own.2
    · exact origins entry member

/-- A refreshed snapshot is made of what its unaffected locales owned before and what the others own now. -/
theorem madeOf_refreshSnapshot {before after : Locale → Option MergedResources → Prop}
    {current next : Snapshot} {event : ChangeEvent} (made : current.MadeOf setup before)
    (refreshed : outcome holdings
      (setup.refreshSnapshot current (setup.affectedLocales current event)) = .ok next)
    (kept : ∀ locale ∈ current.locales, locale ∉ setup.affectedLocales current event →
      ∀ own, before locale own → after locale own)
    (renewed : ∀ locale ∈ setup.affectedLocales current event, ∀ own,
      setup.Owned holdings locale own → after locale own) :
    next.MadeOf setup after ∧ next.locales = current.locales := by
  obtain ⟨layers, rfl, made⟩ := made
  obtain ⟨renewal, loaded, rfl⟩ := (outcome_refreshSnapshot_ok made.distinct event).mp refreshed
  rw [affectedLocales_snapshot made.distinct] at kept renewed
  cases touched : layers.base.isTouchedBy event with
  | true =>
    -- The whole snapshot is loaded, so all of its locales are affected.
    rw [touched, if_pos rfl] at renewed
    rw [refreshLayers_of_touched touched] at loaded
    exact ⟨⟨renewal, rfl, madeOf_loadLayers made.distinct loaded renewed⟩,
      congrArg (setup.defaultLocale :: ·) (keys_of_loadLayers loaded)⟩
  | false =>
    -- The base stays, and each overlay either stays or is laid over it anew.
    rw [touched, if_neg Bool.false_ne_true] at kept renewed
    obtain ⟨same, each⟩ := (outcome_refreshLayers_ok touched).mp loaded
    obtain ⟨absent, distinct⟩ := List.nodup_cons.mp made.distinct
    have affected : ∀ locale, locale ∈ keys (layers.overlays.filter (·.2.isTouchedBy event)) ↔
        ∃ overlay, (locale, overlay) ∈ layers.overlays ∧ overlay.isTouchedBy event = true := by
      simp [mem_keys_iff]
    obtain ⟨order, origins⟩ := refreshed_overlays after each
      (fun entry member untouched => by
        obtain ⟨own, owned, agree⟩ := made.overlays entry member
        refine ⟨own, kept _ (List.mem_cons_of_mem _ (List.mem_map_of_mem member)) ?_ own owned, agree⟩
        -- A touched overlay of the same locale would be another catalogue of it.
        rw [affected]
        rintro ⟨overlay, found, touched⟩
        obtain rfl := Option.some.inj ((find?_of_mem distinct found).symm.trans (find?_of_mem distinct member))
        cases untouched.symm.trans touched)
      (fun entry member touched => renewed _ ((affected _).mpr ⟨entry.2, member, touched⟩))
    refine ⟨⟨renewal, rfl, order ▸ made.distinct, ?_, same ▸ origins⟩,
      congrArg (setup.defaultLocale :: ·) order⟩
    obtain ⟨own, owned, agree⟩ := made.base
    refine ⟨own, kept _ List.mem_cons_self ?_ _ owned, same ▸ agree⟩
    rw [affected]
    exact fun ⟨overlay, found, _⟩ => absent (mem_keys_iff.mpr ⟨overlay, found⟩)

end Setup

end MessageCatalogue
