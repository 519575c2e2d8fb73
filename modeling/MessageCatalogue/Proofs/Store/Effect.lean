import Mathlib
import MessageCatalogue.Proofs.Store.Meaning
import MessageCatalogue.Proofs.Store.Ownership
import MessageCatalogue.Proofs.Store.Renewal

/-! A reload loads the locales that its event names and leaves every other one as it was. -/

namespace MessageCatalogue

open Dictionary Loading

variable {setup : Setup} {holdings : Holdings} {current : Layers} {locale : Locale}

namespace Setup

variable {events : List ChangeEvent}

/-- Layers lie in distinct locales also after they were loaded again. -/
theorem nodup_renewed (setup : Setup) (holdings : Holdings) (events : List ChangeEvent) {current : Layers}
    (named : current.AreNamed setup) :
    (setup.defaultLocale :: (setup.renewed holdings events current).overlays.keys).Nodup := by
  rw [keys_renewed]
  exact named.distinct

/-- A locale that no event touches has the texts it had, unless the default locale is touched. -/
theorem text?_renewed_of_untouched (named : current.AreNamed setup)
    (supported : locale ∈ (setup.snapshot current).locales)
    (default : setup.touches events setup.defaultLocale = false) (own : setup.touches events locale = false)
    (code : String) : (setup.snapshot (setup.renewed holdings events current)).text? code locale =
      (setup.snapshot current).text? code locale := by
  have distinct := setup.nodup_renewed holdings events named
  rw [renewed_of_untouched default] at distinct ⊢
  -- An untouched overlay lies over an untouched base, so nothing of it is loaded.
  rcases List.mem_cons.mp supported with rfl | other
  · rw [text?_snapshot_default distinct, text?_snapshot_default named.distinct]
  · obtain ⟨overlay, member⟩ := mem_keys_iff.mp other
    have kept : setup.renewedOverlay holdings events current.base (locale, overlay) = overlay := by
      simp [renewedOverlay, default, own]
    have still : (locale, overlay) ∈ current.overlays.map fun entry =>
        (entry.1, setup.renewedOverlay holdings events current.base entry) :=
      List.mem_map.mpr ⟨_, member, by rw [kept]⟩
    rw [text?_snapshot_of_mem distinct still, text?_snapshot_of_mem named.distinct member]

/-- The default locale has the texts that its resources declare when an event touches it. -/
theorem default_texts_renewed (named : current.AreNamed setup) (able : setup.Renewable holdings current events)
    (touched : setup.touches events setup.defaultLocale = true) :
    ∃ entries, setup.Declares holdings setup.defaultLocale entries ∧ ∀ code,
      (setup.snapshot (setup.renewed holdings events current)).text? code setup.defaultLocale =
        lastValue? code entries := by
  -- What was merged for the base has the last value that its resources declare for each code.
  obtain ⟨own, owned⟩ := able.base touched
  obtain ⟨entries, declared, values⟩ := Loader.declares_of_loadMerged owned
  refine ⟨entries, declared, fun code => ?_⟩
  rw [text?_snapshot_default (nodup_renewed _ _ _ named), renewed_of_touched touched owned]
  exact values code

/-- A locale that is loaded again has the texts that its resources declare before those of the default locale. -/
theorem texts_renewed (named : current.AreNamed setup) (able : setup.Renewable holdings current events)
    (touched : setup.touches events setup.defaultLocale = true ∨ setup.touches events locale = true)
    (supported : locale ∈ (setup.snapshot current).locales) :
    ∃ entries, setup.Declares holdings locale entries ∧ ∀ code,
      (setup.snapshot (setup.renewed holdings events current)).text? code locale = (lastValue? code entries).or
        ((setup.snapshot (setup.renewed holdings events current)).text? code setup.defaultLocale) := by
  rcases List.mem_cons.mp supported with rfl | other
  · -- The default locale has nothing of another locale to fall back on.
    obtain ⟨entries, declared, texts⟩ := default_texts_renewed named able (touched.elim id id)
    exact ⟨entries, declared, fun code => by rw [texts, Option.or_self]⟩
  · obtain ⟨overlay, member⟩ := mem_keys_iff.mp other
    obtain ⟨own, owned⟩ := able.overlays locale other touched
    obtain ⟨entries, declared, values⟩ := Loader.declares_of_loadMerged owned
    have anew : (setup.touches events setup.defaultLocale || setup.touches events locale) = true := by
      simpa using touched
    -- The overlay lies over the base that the default locale is served from.
    let base := (setup.renewed holdings events current).base
    have laid : (locale, setup.overlayOf base locale own) ∈ (setup.renewed holdings events current).overlays :=
      List.mem_map.mpr ⟨_, member, by rw [renewedOverlay, if_pos anew, Owned.ownIn_eq owned]; rfl⟩
    refine ⟨entries, declared, fun code => ?_⟩
    rw [text?_snapshot_of_mem (nodup_renewed _ _ _ named) laid, text?_snapshot_default (nodup_renewed _ _ _ named),
      getElem?_overlayOf, values]

/-- An event affects every locale when it touches the default one, and otherwise the locales that it touches. -/
theorem affectedLocales_eq (named : current.AreNamed setup) (event : ChangeEvent) :
    setup.affectedLocales (setup.snapshot current) event =
      if setup.touches [event] setup.defaultLocale then (setup.snapshot current).locales
      else (setup.snapshot current).locales.filter (setup.touches [event]) := by
  have overlays : keys (current.overlays.filter (·.2.isTouchedBy event)) =
      current.overlays.keys.filter (setup.touches [event]) := by
    rw [keys, keys, List.filter_map]
    exact congrArg _ (List.filter_congr fun entry member => isTouchedBy_eq (named.overlays entry member) event)
  rw [affectedLocales_snapshot named.distinct, isTouchedBy_eq named.base, overlays]
  cases touched : setup.touches [event] setup.defaultLocale with
  | true => rfl
  | false =>
    -- The default locale comes first and is left out.
    exact (List.filter_cons_of_neg (by simp [touched])).symm

/-- A locale is affected when it is supported and the event touches it or the default locale. -/
theorem mem_affectedLocales_iff (named : current.AreNamed setup) {event : ChangeEvent} :
    locale ∈ setup.affectedLocales (setup.snapshot current) event ↔ locale ∈ (setup.snapshot current).locales ∧
      (setup.touches [event] setup.defaultLocale = true ∨ setup.touches [event] locale = true) := by
  rw [affectedLocales_eq named]
  cases setup.touches [event] setup.defaultLocale with
  | true => simp
  | false => simp [List.mem_filter]

/-- A locale without a resource declares nothing. -/
theorem Declares.eq_nil {entries : List Properties.Entry} (declared : setup.Declares holdings locale entries)
    (vanished : (holdings setup.loader.collection).resources (setup.loader.resourceName setup.source locale) = .ok []) :
    entries = [] := by
  obtain ⟨ids, documents, found, each, rfl⟩ := declared
  obtain rfl : ids = [] := Except.ok.inj (found.symm.trans vanished)
  obtain rfl := List.forall₂_nil_left_iff.mp each
  rfl

end Setup

namespace Store

variable {store published : Store} {event : ChangeEvent} {notice : Notice}

/-- A publication with a notice puts a snapshot in place in which the locales that the event touches are new. -/
theorem renewed_of_publish (named : store.IsNamed setup)
    (told : (store.publish event).run holdings = (.ok (some notice), published)) :
    ∃ current : Layers, current.AreNamed setup ∧ store.lifecycle = .initialized (setup.snapshot current) ∧
      notice = setup.noticeOf (setup.snapshot current) event ∧ setup.Renewable holdings current [event] ∧
      published =
        { store with lifecycle := .initialized (setup.snapshot (setup.renewed holdings [event] current)) } := by
  obtain rfl := named.same
  -- Without a snapshot nothing is published, and a failure is no notice.
  cases serving : store.lifecycle with
  | uninitialized => simp [publish, serving] at told
  | destroyed => simp [publish, serving] at told
  | initialized current =>
    obtain ⟨layers, rfl, all⟩ := named.serving current serving
    rw [run_publish serving, Setup.outcome_refresh] at told
    by_cases unaffected : (store.setup.affectedLocales (store.setup.snapshot layers) event).isEmpty = true
    · simp [unaffected] at told
    · rw [if_neg unaffected] at told
      cases loaded : outcome holdings (store.setup.refreshSnapshot (store.setup.snapshot layers)
          (store.setup.affectedLocales (store.setup.snapshot layers) event)) with
      | error error =>
        rw [loaded] at told
        cases told
      | ok next =>
        rw [loaded] at told
        obtain ⟨able, rfl⟩ := (Setup.outcome_refreshSnapshot_eq_ok all event).mp loaded
        cases told
        exact ⟨layers, all, rfl, rfl, able, rfl⟩

/-- A reload with a notice has published with it, and listeners that only take note leave it at that. -/
theorem publish_of_reload (succeeded : ((store.reload event).run holdings).result = .ok ⟨[notice]⟩) :
    ∃ published, (store.publish event).run holdings = (.ok (some notice), published) ∧
      (published.IsPassive → ((store.reload event).run holdings).store = published) := by
  rw [reload, run_reloadWithin] at succeeded ⊢
  generalize (store.publish event).run holdings = ran at succeeded ⊢
  obtain ⟨result, published⟩ := ran
  cases result with
  | error error => cases succeeded
  | ok own =>
    cases own with
    | none => cases succeeded
    | some own =>
      cases succeeded
      refine ⟨published, rfl, fun passive => ?_⟩
      -- All that happens after the publication is that the listeners are called.
      simp only [notify_of_passive passive, Fetch.run_done]

/-- What a reload with a notice leads to: the locales of the notice are loaded again, and the others stay. -/
structure Renews (setup : Setup) (holdings : Holdings) (event : ChangeEvent) (notice : Notice)
    (store after : Store) : Prop where
  locales : notice.locales = if setup.touches [event] setup.defaultLocale then store.supportedLocales
    else store.supportedLocales.filter (setup.touches [event])
  resources : notice.resources.Pairwise (· < ·) ∧ ∀ identifier,
    identifier ∈ notice.resources ↔ identifier ∈ event.changed ∧ store.owns identifier = true
  supported : after.supportedLocales = store.supportedLocales
  others : ∀ locale ∉ notice.locales, ∀ code arguments,
    after.lookup code locale arguments = store.lookup code locale arguments
  defaults : setup.defaultLocale ∈ notice.locales → ∃ entries,
    setup.Declares holdings setup.defaultLocale entries ∧ ∀ code arguments,
      after.lookup code setup.defaultLocale arguments = (lastValue? code entries).map (formatMessage · arguments)
  loaded : ∀ locale ∈ notice.locales, ∃ entries, setup.Declares holdings locale entries ∧ ∀ code arguments,
    after.lookup code locale arguments = ((lastValue? code entries).map (formatMessage · arguments)).or
      (after.lookup code setup.defaultLocale arguments)
  vanished : ∀ locale ∈ notice.locales, (holdings setup.loader.collection).resources
      (setup.loader.resourceName setup.source locale) = .ok [] → ∀ code arguments,
    after.lookup code locale arguments = after.lookup code setup.defaultLocale arguments

/-- A store is renewed when the snapshot takes its place in which everything that an event names is loaded again. -/
theorem renews_of_renewed (named : current.AreNamed setup) (able : setup.Renewable holdings current [event])
    (serving : store.lifecycle = .initialized (setup.snapshot current)) :
    store.Renews setup holdings event (setup.noticeOf (setup.snapshot current) event)
      { store with lifecycle := .initialized (setup.snapshot (setup.renewed holdings [event] current)) } := by
  let next := setup.snapshot (setup.renewed holdings [event] current)
  -- Which locales are affected is asked of the old snapshot, but it is the event that tells.
  have locales : next.locales = (setup.snapshot current).locales :=
    congrArg (setup.defaultLocale :: ·) Setup.keys_renewed
  have supported : store.supportedLocales = (setup.snapshot current).locales := by
    rw [supportedLocales, snapshot?, serving]
  have affected_iff : ∀ locale, locale ∈ setup.affectedLocales (setup.snapshot current) event ↔
      locale ∈ (setup.snapshot current).locales ∧
        (setup.touches [event] setup.defaultLocale = true ∨ setup.touches [event] locale = true) :=
    fun locale => Setup.mem_affectedLocales_iff named
  refine ⟨?_, ⟨event.sorted.filter _, ?_⟩, ?_, ?_, ?_, ?_, ?_⟩
  · rw [supported]
    exact Setup.affectedLocales_eq named event
  · intro identifier
    rw [owns, snapshot?, serving]
    exact List.mem_filter
  · rw [supported]
    exact locales
  · intro locale unaffected code arguments
    have before : store.lookup code locale arguments =
        ((setup.snapshot current).text? code locale).map (formatMessage · arguments) := by
      rw [lookup, snapshot?, serving, Option.bind_some]
    rw [before]
    refine congrArg (Option.map (formatMessage · arguments)) ?_
    by_cases member : locale ∈ (setup.snapshot current).locales
    · -- A supported locale that is not affected is not touched, and neither is the default one.
      have untouched := mt (affected_iff locale).mpr unaffected
      simp only [member, true_and, not_or, Bool.not_eq_true] at untouched
      exact Setup.text?_renewed_of_untouched named member untouched.1 untouched.2 code
    · have absent : locale ∉ next.locales := locales ▸ member
      have keyed : next.IsKeyed setup := Setup.isKeyed_snapshot (setup.nodup_renewed holdings [event] named)
      exact (keyed.text?_of_notMem absent code).trans
        ((Setup.isKeyed_snapshot named.distinct).text?_of_notMem member code).symm
  · intro affected
    have touched := ((affected_iff _).mp affected).2.elim id id
    obtain ⟨entries, declared, texts⟩ := Setup.default_texts_renewed named able touched
    exact ⟨entries, declared, fun code arguments => congrArg (Option.map (formatMessage · arguments)) (texts code)⟩
  · intro locale affected
    obtain ⟨member, touched⟩ := (affected_iff locale).mp affected
    obtain ⟨entries, declared, texts⟩ := Setup.texts_renewed named able touched member
    refine ⟨entries, declared, fun code arguments => ?_⟩
    exact (congrArg (Option.map (formatMessage · arguments)) (texts code)).trans Option.map_or
  · intro locale affected vanished code arguments
    obtain ⟨member, touched⟩ := (affected_iff locale).mp affected
    obtain ⟨entries, declared, texts⟩ := Setup.texts_renewed named able touched member
    -- Nothing of its own stands before the texts of the default locale.
    obtain rfl := declared.eq_nil vanished
    exact congrArg (Option.map (formatMessage · arguments)) (texts code)

/--
A reload with a notice loads the locales of the notice again and leaves the others as they were.

This is the store that its listeners are called with, and the one they leave when they only take note.
-/
theorem reload_renews_affected_locales (reachable : Reachable Exchange.KeepsNames setup store)
    (succeeded : ((store.reload event).run holdings).result = .ok ⟨[notice]⟩) :
    ∃ published, (store.publish event).run holdings = (.ok (some notice), published) ∧
      store.Renews setup holdings event notice published ∧
      (store.IsPassive → ((store.reload event).run holdings).store = published) := by
  have named := reachable.isNamed
  -- All but the doings of the listeners is decided by the publication.
  obtain ⟨published, told, quiet⟩ := publish_of_reload succeeded
  obtain ⟨current, own, serving, rfl, able, rfl⟩ := renewed_of_publish named told
  exact ⟨_, told, renews_of_renewed own able serving, quiet⟩

/-- Holdings in which the English text has changed and there is a French one for the first time. -/
def withFrench : Holdings := Setup.bilingual.holding [("a", .english, "a=2"), ("b", Setup.french, "b=3")]

/-- A change that names French alone brings the first French text, over the English one of before. -/
theorem first_french_is_served_over_old_english :
    let reloaded := ((bilingualFrom "a").reload (.ofList ["fr"])).run withFrench
    reloaded.result = .ok ⟨[⟨"user", [Setup.french], ["fr"]⟩]⟩ ∧
      reloaded.store.lookup "b" Setup.french [] = some "3" ∧
      reloaded.store.lookup "a" .english [] = (bilingualFrom "a").lookup "a" .english [] ∧
      reloaded.store.supportedLocales = [.english, Setup.french] := by
  -- Nobody listens, so the store is the one that was published.
  intro reloaded
  have supported : (bilingualFrom "a").supportedLocales = [.english, Setup.french] := by cbv
  have nobody : (bilingualFrom "a").listeners = [] := by cbv
  have succeeded : (((bilingualFrom "a").reload (.ofList ["fr"])).run withFrench).result =
      .ok ⟨[⟨"user", [Setup.french], ["fr"]⟩]⟩ := by cbv
  have served : (((bilingualFrom "a").reload (.ofList ["fr"])).run withFrench).store.lookup "b" Setup.french [] =
      some "3" := by cbv
  obtain ⟨published, _, renews, quiet⟩ :=
    reload_renews_affected_locales (reachable_bilingualFrom "a") succeeded
  have same : reloaded.store = published := quiet (by simp [IsPassive, nobody])
  refine ⟨succeeded, served, ?_, ?_⟩
  · rw [same]
    exact renews.others .english (by decide) "a" []
  · rw [same, renews.supported, supported]

/-- A store with English messages whose only listener reacts in some way when it is called. -/
def reacting (reaction : Reaction) : Store := (bilingualFrom "a").subscribe ⟨"listener", reaction⟩

/-- What a change of French comes to for such a store. -/
def reloadedUnder (reaction : Reaction) : Reloaded := ((reacting reaction).reload (.ofList ["fr"])).run withFrench

/-- The notice of a change of French. -/
def frenchNotice : Notice := ⟨"user", [Setup.french], ["fr"]⟩

/-- A store that has another English text than before is not what a change of French alone leads to. -/
theorem not_renews_reacting {reaction : Reaction} {after : Store}
    (changed : after.lookup "a" .english [] ≠ some "1") :
    ¬ (reacting reaction).Renews .bilingual withFrench (.ofList ["fr"]) frenchNotice after := by
  intro renews
  have before : (reacting reaction).lookup "a" .english [] = some "1" :=
    show (bilingualFrom "a").lookup "a" .english [] = some "1" by cbv
  -- English is not in the notice, so it should be served as before.
  exact changed ((renews.others .english (by decide) "a" []).trans before)

/-- A listener that destroys the store or reloads English leaves English otherwise than it was. -/
theorem calling_back_spoils_renewal :
    let again := Reaction.reloadOnce (.ofList ["en"])
    (Reachable Exchange.KeepsNames .bilingual (reacting .destroy) ∧
      (reloadedUnder .destroy).result = .ok ⟨[frenchNotice]⟩ ∧ ¬ (reacting .destroy).Renews .bilingual withFrench
        (.ofList ["fr"]) frenchNotice (reloadedUnder .destroy).store) ∧
    (Reachable Exchange.KeepsNames .bilingual (reacting again) ∧
      (reloadedUnder again).result = .ok ⟨[frenchNotice]⟩ ∧ ¬ (reacting again).Renews .bilingual withFrench
        (.ofList ["fr"]) frenchNotice (reloadedUnder again).store) := by
  -- The listener has its way with the store after the French text has been published.
  intro again
  have gone : (reloadedUnder .destroy).store.lookup "a" .english [] = none := by cbv
  have revised : (reloadedUnder (.reloadOnce (.ofList ["en"]))).store.lookup "a" .english [] = some "2" := by cbv
  have told : (reloadedUnder .destroy).result = .ok ⟨[frenchNotice]⟩ := by cbv
  have toldAgain : (reloadedUnder (.reloadOnce (.ofList ["en"]))).result = .ok ⟨[frenchNotice]⟩ := by cbv
  refine ⟨⟨(reachable_bilingualFrom "a").subscribe _, told, ?_⟩,
    (reachable_bilingualFrom "a").subscribe _, toldAgain, ?_⟩
  · exact not_renews_reacting (by rw [gone]; decide)
  · exact not_renews_reacting (by rw [revised]; decide)

end Store

end MessageCatalogue
