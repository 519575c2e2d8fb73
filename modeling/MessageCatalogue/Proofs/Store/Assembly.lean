import MessageCatalogue.Proofs.Distinct
import MessageCatalogue.Proofs.Resource.Loading
import MessageCatalogue.Proofs.Resource.Storage
import MessageCatalogue.Proofs.Store.Layers
import MessageCatalogue.Store.Basic

/-! A snapshot is put together from what each of its locales has of its own. -/

namespace MessageCatalogue.Setup

open Loading

/-- The catalogue of the default locale, which has its own messages only. -/
def baseOf (setup : Setup) (own : MergedResources) : Catalogue :=
  ⟨setup.loader.resourceName setup.source setup.defaultLocale, own.resources, own.messages⟩

/-- The catalogue of a locale whose own messages, if it has any, stand before those of the default locale. -/
def overlayOf (setup : Setup) (base : Catalogue) (locale : Locale) : Option MergedResources → Catalogue
  | some own => ⟨setup.loader.resourceName setup.source locale, own.resources, base.messages ∪ own.messages⟩
  | none => ⟨setup.loader.resourceName setup.source locale, [], base.messages⟩

/-- The locales to support besides the default one, each at its first occurrence among some candidates. -/
def otherLocales (setup : Setup) (candidates : List Locale) : List Locale :=
  (candidates.filter (· ≠ setup.defaultLocale)).eraseDups

/-- The default locale is supported in front of the others. -/
theorem supportedAmong_eq (setup : Setup) (candidates : List Locale) :
    setup.supportedAmong candidates = setup.defaultLocale :: setup.otherLocales candidates := by
  simp [supportedAmong, foldl_appendNew, otherLocales]

/-- The default locale and the others to support are distinct. -/
theorem nodup_supported (setup : Setup) (candidates : List Locale) :
    (setup.defaultLocale :: setup.otherLocales candidates).Nodup := by
  -- The default locale is known at first, and only new locales join it.
  rw [← supportedAmong_eq]
  exact nodup_foldl_appendNew candidates (by simp)

/-- A snapshot of every locale to support is loaded in layers. -/
theorem load_eq (setup : Setup) :
    setup.load = setup.candidateLocales >>= fun candidates => setup.loadLayers (setup.otherLocales candidates) >>=
      fun layers => pure (setup.snapshot layers) := by
  refine bind_congr fun candidates => ?_
  rw [supportedAmong_eq, loadSnapshot_eq (setup.nodup_supported candidates)]

@[simp] theorem name_overlayOf (setup : Setup) (base : Catalogue) (locale : Locale)
    (own : Option MergedResources) :
    (setup.overlayOf base locale own).name = setup.loader.resourceName setup.source locale := by
  cases own <;> rfl

/-- An overlay has its own text of a code, or else the one of the default locale. -/
theorem getElem?_overlayOf (setup : Setup) (base : Catalogue) (locale : Locale)
    (own : Option MergedResources) (code : String) :
    (setup.overlayOf base locale own).messages[code]? =
      (own.bind (·.messages[code]?)).or base.messages[code]? := by
  -- The messages of an overlay are a union in which its own ones win.
  cases own with
  | none => rfl
  | some own => exact Std.TreeMap.getElem?_union

/-- The default locale must have resources, and its messages are theirs. -/
theorem outcome_loadBase_ok {holdings : Holdings} {setup : Setup} {base : Catalogue} :
    outcome holdings setup.loadBase = .ok base ↔
      ∃ own, outcome holdings (setup.loader.loadMerged setup.source setup.defaultLocale) = .ok (some own) ∧
        base = setup.baseOf own := by
  -- A default locale without resources is the only further reason to fail.
  simp only [loadBase, loadOwn, outcome_bind_ok, outcome_pure, Except.ok.injEq]
  constructor
  · rintro ⟨_, ⟨merged, loaded, rfl⟩, built⟩
    cases merged with
    | none => simp at built
    | some own =>
      simp only [Option.map_some, outcome_pure, Except.ok.injEq] at built
      exact ⟨own, loaded, built.symm⟩
  · rintro ⟨own, loaded, rfl⟩
    exact ⟨_, ⟨some own, loaded, rfl⟩, rfl⟩

/-- A locale is loaded and then laid over the default one. -/
theorem outcome_loadOverlay (holdings : Holdings) (setup : Setup) (base : Catalogue) (locale : Locale) :
    outcome holdings (setup.loadOverlay base locale) =
      (outcome holdings (setup.loader.loadMerged setup.source locale)).map (setup.overlayOf base locale) := by
  -- Laying messages over others cannot fail.
  simp only [loadOverlay, loadOwn, outcome_bind]
  cases outcome holdings (setup.loader.loadMerged setup.source locale) with
  | error error => rfl
  | ok merged => cases merged <;> rfl

/-- An overlay is what the messages of its own locale make of the base. -/
theorem outcome_loadOverlay_ok {holdings : Holdings} {setup : Setup} {base overlay : Catalogue}
    {locale : Locale} :
    outcome holdings (setup.loadOverlay base locale) = .ok overlay ↔
      ∃ own, outcome holdings (setup.loader.loadMerged setup.source locale) = .ok own ∧
        overlay = setup.overlayOf base locale own := by
  -- Loading succeeds or fails with the messages of the locale.
  rw [outcome_loadOverlay]
  cases outcome holdings (setup.loader.loadMerged setup.source locale) with
  | error error => simp [Except.map]
  | ok own => simp [Except.map, eq_comm]

/-- An overlay is loaded under its locale. -/
theorem outcome_loadOverlayEntry_ok {holdings : Holdings} {setup : Setup} {base : Catalogue} {locale : Locale}
    {entry : Locale × Catalogue} :
    outcome holdings (setup.loadOverlayEntry base locale) = .ok entry ↔
      entry.1 = locale ∧ outcome holdings (setup.loadOverlay base locale) = .ok entry.2 := by
  -- The entry is the overlay together with its locale.
  obtain ⟨own, overlay⟩ := entry
  simp only [loadOverlayEntry, outcome_bind_ok, outcome_pure, Except.ok.injEq, Prod.mk.injEq]
  constructor
  · rintro ⟨_, loaded, rfl, rfl⟩
    exact ⟨rfl, loaded⟩
  · rintro ⟨rfl, loaded⟩
    exact ⟨overlay, loaded, rfl, rfl⟩

/-- Layers are loaded by loading the base and every overlay on it. -/
theorem outcome_loadLayers_ok {holdings : Holdings} {setup : Setup} {others : List Locale} {layers : Layers} :
    outcome holdings (setup.loadLayers others) = .ok layers ↔
      outcome holdings setup.loadBase = .ok layers.base ∧
        List.Forall₂ (fun locale entry =>
          entry.1 = locale ∧ outcome holdings (setup.loadOverlay layers.base locale) = .ok entry.2)
          others layers.overlays := by
  -- The base is loaded before the overlays that are laid over it.
  simp only [loadLayers, outcome_bind_ok, outcome_mapM_ok, outcome_loadOverlayEntry_ok, outcome_pure,
    Except.ok.injEq]
  constructor
  · rintro ⟨base, built, overlays, each, rfl⟩
    exact ⟨built, each⟩
  · rintro ⟨built, each⟩
    exact ⟨_, built, _, each, rfl⟩

/-- A snapshot is loaded by finding the candidates for support and loading its layers. -/
theorem outcome_load_ok {holdings : Holdings} {setup : Setup} {snapshot : Snapshot} :
    outcome holdings setup.load = .ok snapshot ↔
      ∃ candidates layers, outcome holdings setup.candidateLocales = .ok candidates ∧
        outcome holdings (setup.loadLayers (setup.otherLocales candidates)) = .ok layers ∧
        snapshot = setup.snapshot layers := by
  simp only [load_eq, outcome_bind_ok, outcome_pure, Except.ok.injEq, exists_and_left, @eq_comm _ snapshot]

/-- Layers whose base an event does not touch keep it, and only those overlays are loaded that are touched. -/
theorem outcome_refreshLayers_ok {holdings : Holdings} {setup : Setup} {current next : Layers}
    {event : ChangeEvent} (untouched : current.base.isTouchedBy event = false) :
    outcome holdings (setup.refreshLayers current event) = .ok next ↔
      next.base = current.base ∧
        List.Forall₂ (fun old new =>
          if old.2.isTouchedBy event then
            new.1 = old.1 ∧ outcome holdings (setup.loadOverlay current.base old.1) = .ok new.2
          else new = old) current.overlays next.overlays := by
  -- The test on an overlay can be made before or after it is loaded.
  have step : ∀ old new : Locale × Catalogue,
      outcome holdings (if old.2.isTouchedBy event then setup.loadOverlayEntry current.base old.1 else pure old)
          = .ok new ↔
        if old.2.isTouchedBy event then
          new.1 = old.1 ∧ outcome holdings (setup.loadOverlay current.base old.1) = .ok new.2
        else new = old := by
    intro old new
    by_cases touched : old.2.isTouchedBy event = true
    · simp only [touched, if_true, outcome_loadOverlayEntry_ok]
    · simp [touched, eq_comm]
  simp only [refreshLayers, untouched, Bool.false_eq_true, if_false, outcome_bind_ok, outcome_mapM_ok, outcome_pure,
    Except.ok.injEq, step]
  constructor
  · rintro ⟨overlays, each, rfl⟩
    exact ⟨rfl, each⟩
  · rintro ⟨same, each⟩
    refine ⟨_, each, ?_⟩
    rw [← same]

/-- Layers whose base an event touches are loaded anew as a whole. -/
theorem refreshLayers_of_touched {setup : Setup} {current : Layers} {event : ChangeEvent}
    (touched : current.base.isTouchedBy event = true) :
    setup.refreshLayers current event = setup.loadLayers current.overlays.keys :=
  if_pos touched

/-- A snapshot of layers is refreshed to one of the refreshed layers. -/
theorem outcome_refreshSnapshot_ok {holdings : Holdings} {setup : Setup} {current : Layers} {next : Snapshot}
    (distinct : (setup.defaultLocale :: current.overlays.keys).Nodup) (event : ChangeEvent) :
    outcome holdings (setup.refreshSnapshot (setup.snapshot current)
        (setup.affectedLocales (setup.snapshot current) event)) = .ok next ↔
      ∃ layers, outcome holdings (setup.refreshLayers current event) = .ok layers ∧ next = setup.snapshot layers := by
  rw [refreshSnapshot_eq distinct, outcome_bind_ok]
  simp only [outcome_pure, Except.ok.injEq, eq_comm]

/-- Holdings in memory where resources of some locales of a setup have an origin and a text each. -/
def holding (setup : Setup) (resources : List (String × Locale × String)) : Holdings := fun _ =>
  MemoryResources.enumerator <| MemoryResources.empty.insertAll <| resources.map fun (origin, locale, text) =>
    (⟨origin, setup.loader.resourceName setup.source locale⟩, text.toUTF8)

/-- French without script, region or variants. -/
def french : Locale := ⟨"fr", none, none, []⟩

/-- A setup of English messages with French ones laid over them, whose resources are named by locale only. -/
def bilingual : Setup :=
  ⟨"user", ⟨.shared, ⟨"\x7blocale\x7d"⟩, .utf8⟩, .english, some [.english, french]⟩

end MessageCatalogue.Setup
