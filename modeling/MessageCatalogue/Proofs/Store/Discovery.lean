import MessageCatalogue.Proofs.Resource.Discovery
import MessageCatalogue.Proofs.Resource.Standard
import MessageCatalogue.Proofs.Store.Meaning

/-! A store that discovers its locales serves the configured ones whose files are there, from the same files. -/

namespace MessageCatalogue

open Loading

namespace Setup

variable {setup : Setup} {holdings : Holdings} {snapshot : Snapshot} {locale : Locale}

/-- A snapshot of loaded layers serves a locale from the base or from what the locale owns over the base. -/
theorem catalogue?_of_loadLayers {others : List Locale} {layers : Layers}
    (distinct : (setup.defaultLocale :: others).Nodup)
    (loaded : outcome holdings (setup.loadLayers others) = .ok layers)
    (supported : locale ∈ (setup.snapshot layers).locales) :
    (locale = setup.defaultLocale ∧ (setup.snapshot layers).catalogue? locale = some layers.base) ∨
      locale ≠ setup.defaultLocale ∧ ∃ own, setup.Owned holdings locale own ∧
        (setup.snapshot layers).catalogue? locale = some (setup.overlayOf layers.base locale own) := by
  -- The overlays that were loaded are those of the other locales.
  obtain rfl := keys_of_loadLayers loaded
  rcases List.mem_cons.mp supported with rfl | other
  · exact .inl ⟨rfl, catalogue?_snapshot_default distinct⟩
  · -- The default locale has no overlay, for it would be supported twice.
    have different : locale ≠ setup.defaultLocale := fun same => (List.nodup_cons.mp distinct).1 (same ▸ other)
    obtain ⟨overlay, member⟩ := Dictionary.mem_keys_iff.mp other
    obtain ⟨own, owned, same⟩ := (loaded_overlays (outcome_loadLayers_ok.mp loaded).2).2 _ member
    exact .inr ⟨different, own, owned, (catalogue?_snapshot_of_mem distinct member).trans (congrArg some same)⟩

/-- Which locales are configured makes no difference to what a locale is served from. -/
theorem catalogue?_eq_of_load {other : Snapshot} (configured : Option (List Locale))
    (loaded : outcome holdings setup.load = .ok snapshot)
    (loaded' : outcome holdings (load { setup with configured := configured }) = .ok other)
    (supported : locale ∈ snapshot.locales) (supported' : locale ∈ other.locales) :
    snapshot.catalogue? locale = other.catalogue? locale := by
  obtain ⟨candidates, layers, _, built, rfl⟩ := outcome_load_ok.mp loaded
  obtain ⟨candidates', layers', _, built', rfl⟩ := outcome_load_ok.mp loaded'
  -- Both lie over the same base.
  have base : layers.base = layers'.base :=
    Except.ok.inj ((outcome_loadLayers_ok.mp built).1.symm.trans (outcome_loadLayers_ok.mp built').1)
  rcases catalogue?_of_loadLayers (nodup_supported _ _) built supported with
      ⟨default, found⟩ | ⟨different, own, owned, found⟩ <;>
    rcases catalogue?_of_loadLayers (nodup_supported _ _) built' supported' with
      ⟨default', found'⟩ | ⟨different', own', owned', found'⟩
  · rw [found, found', base]
  · exact absurd default different'
  · exact absurd default' different
  · -- What a locale owns is found by its name, which is the same.
    have same : own = own' := Except.ok.inj (owned.symm.trans owned')
    rw [found, found', base, same]
    rfl

/-- A loaded snapshot supports the default locale and the candidates. -/
theorem mem_locales_of_load (loaded : outcome holdings setup.load = .ok snapshot) :
    ∃ candidates, setup.Candidates holdings candidates ∧
      ∀ locale, locale ∈ snapshot.locales ↔ locale = setup.defaultLocale ∨ locale ∈ candidates := by
  obtain ⟨candidates, found, locales, _⟩ := madeOf_load loaded
  refine ⟨candidates, candidates_of_outcome found, fun locale => ?_⟩
  rw [locales, List.mem_cons, otherLocales, List.mem_eraseDups, List.mem_filter, decide_eq_true_eq]
  tauto

end Setup

namespace Store

/-- The catalogue from which a store serves a locale. -/
def catalogue? (store : Store) (locale : Locale) : Option Catalogue := store.snapshot?.bind (·.catalogue? locale)

/--
The standard file of a locale reveals the locale exactly when the locale is legible.

So a store that discovers its locales supports a configured one when its file is listed and the locale is legible.
It then serves the locale from the same resources as a store with configured locales does.
-/
theorem standard_file_reveals_locale {text source : String} {locale : Locale} (parsed : Locale.parse text = .ok locale)
    (short : locale.languageName.length ≤ 3) (plain : ¬ ResourcePattern.localeSlot <:+: source.toList) :
    ∃ file, ResourcePattern.standard.resourceName source locale =
        ResourcePattern.standard.directory source ++ "/" ++ file ∧
      (ResourcePattern.standard.localeOfFile? source file = some locale ↔ locale.IsLegible) ∧
      ∀ (setup : Setup) (holdings : Holdings) (locales : List Locale) (configured discovering : Store),
        setup.source = source → setup.loader.pattern = .standard → locale ∈ locales →
        (ofSetup { setup with configured := some locales }).init.run holdings = (.ok (), configured) →
        (ofSetup { setup with configured := none }).init.run holdings = (.ok (), discovering) →
        ∃ files, (holdings setup.loader.collection).list (ResourcePattern.standard.directory source) = .ok files ∧
          (locale ∈ discovering.supportedLocales ↔
            locale = setup.defaultLocale ∨ file ∈ files ∧ locale.IsLegible) ∧
          locale ∈ configured.supportedLocales ∧
          (locale ∈ discovering.supportedLocales → discovering.catalogue? locale = configured.catalogue? locale) := by
  have reveals := fun source => ResourcePattern.localeOfFile?_standardFile parsed short source
  refine ⟨ResourcePattern.standardFile locale, ResourcePattern.resourceName_standard plain locale, reveals source, ?_⟩
  rintro setup holdings locales configured discovering rfl standard member ran ran'
  obtain ⟨snapshot, loaded, serving⟩ := loaded_of_init rfl ran
  obtain ⟨other, loaded', serving'⟩ := loaded_of_init rfl ran'
  have supported : configured.supportedLocales = snapshot.locales := by rw [supportedLocales, serving]
  have supported' : discovering.supportedLocales = other.locales := by rw [supportedLocales, serving']
  obtain ⟨candidates, found, each⟩ := Setup.mem_locales_of_load loaded
  obtain ⟨candidates', found', each'⟩ := Setup.mem_locales_of_load loaded'
  -- The candidates are the configured locales in one store and what the listing reveals in the other.
  obtain rfl : candidates = locales := found
  obtain ⟨files, listed, rfl⟩ : ∃ files, (holdings setup.loader.collection).list
      (setup.loader.pattern.directory setup.source) = .ok files ∧
        candidates' = setup.loader.localesOfFiles setup.source files := found'
  have revealed : locale ∈ setup.loader.localesOfFiles setup.source files ↔
      ResourcePattern.standardFile locale ∈ files ∧ locale.IsLegible := by
    rw [Loader.mem_localesOfFiles_iff, standard]
    constructor
    · rintro ⟨file, member, reveals'⟩
      obtain rfl := (ResourcePattern.localeOfFile?_standard.mp reveals').1
      exact ⟨member, (reveals _).mp reveals'⟩
    · rintro ⟨member, legible⟩
      exact ⟨_, member, (reveals _).mpr legible⟩
  have here : locale ∈ snapshot.locales := (each locale).mpr (.inr member)
  rw [supported, supported']
  refine ⟨files, standard ▸ listed, (each' locale).trans (or_congr_right revealed), here, fun there => ?_⟩
  rw [catalogue?, catalogue?, serving, serving']
  exact (Setup.catalogue?_eq_of_load none loaded loaded' here there).symm

/-- A setup of English messages under the standard pattern. -/
def standardSetup (configured : Option (List Locale)) : Setup := ⟨"user", .standard, .english, configured⟩

/-- A dialect of Slovenian with its script, its region and two variants. -/
def resian : Locale := ⟨"sl", some "Latn", some "IT", ["nedis", "rozaj"]⟩

/-- Holdings with an English file and one in that dialect. -/
def standardHoldings : Holdings :=
  (standardSetup none).holding [("memory", .english, "a=1"), ("memory", resian, "a=2")]

/-- A file in a dialect is found by a store that looks for its locales, which serves it as if it had been told of it. -/
theorem dialect_is_discovered :
    let discovering := ((ofSetup (standardSetup none)).init.run standardHoldings).2
    let configured := ((ofSetup (standardSetup (some [resian]))).init.run standardHoldings).2
    Locale.parse "SL_latn-it_rozaj_nedis" = .ok resian ∧ resian.IsLegible ∧
      resian ∈ discovering.supportedLocales ∧ discovering.catalogue? resian = configured.catalogue? resian ∧
      ∃ file, ResourcePattern.standard.localeOfFile? "user" file = some resian := by
  -- The stores can be evaluated, but for what the name of the file reveals.
  intro discovering configured
  have parsed : Locale.parse "SL_latn-it_rozaj_nedis" = .ok resian := Locale.parse_eq_ok_iff.mpr rfl
  have closed : resian.tag.toList.getLast? = some 'j' := by decide
  have legible : resian.IsLegible := by
    refine ⟨by decide, fun last ended => ?_⟩
    obtain rfl : 'j' = last := Option.some.inj (closed.symm.trans ended)
    decide
  have done : ∀ {result : Except MessageError Unit}, result.isOk → result = .ok () := by
    rintro (_ | _) ok
    · cases ok
    · rfl
  have ran : (ofSetup (standardSetup none)).init.run standardHoldings = (.ok (), discovering) :=
    Prod.ext (done (by decide +kernel)) rfl
  have ran' : (ofSetup (standardSetup (some [resian]))).init.run standardHoldings = (.ok (), configured) :=
    Prod.ext (done (by decide +kernel)) rfl
  have supported : resian ∈ discovering.supportedLocales := by decide +kernel
  have plain : ¬ ResourcePattern.localeSlot <:+: "user".toList := by decide
  obtain ⟨file, _, reveals, stores⟩ := standard_file_reveals_locale parsed (by decide) plain
  obtain ⟨_, _, _, _, same⟩ := stores (standardSetup none) standardHoldings [resian] configured discovering
    rfl rfl List.mem_cons_self ran' ran
  exact ⟨parsed, legible, supported, same supported, file, reveals.mpr legible⟩

/-- English with a first variant of four letters. -/
def lettered : Locale := ⟨"en", none, none, ["abcd", "zzzzz"]⟩

/-- In the standard file of a locale, a first variant of four letters is taken for a script, and so none is revealed. -/
theorem lettered_variant_hides_locale :
    Locale.parse "en-zzzzz-abcd" = .ok lettered ∧ lettered.languageName.length ≤ 3 ∧
      ¬ ResourcePattern.localeSlot <:+: "user".toList ∧
      ResourcePattern.standard.resourceName "user" lettered =
        ResourcePattern.standard.directory "user" ++ "/" ++ "i18n_messages_en_abcd_zzzzz.properties" ∧
      ResourcePattern.standard.localeOfFile? "user" "i18n_messages_en_abcd_zzzzz.properties" = none :=
  ⟨Locale.parse_eq_ok_iff.mpr rfl, by decide, by decide, by decide +kernel, by decide +kernel⟩

end Store

end MessageCatalogue
