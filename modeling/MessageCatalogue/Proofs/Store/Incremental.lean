import Mathlib
import MessageCatalogue.Proofs.Resource.Copies
import MessageCatalogue.Proofs.Store.Freshness

/-! Loading what has changed once more leaves a store that answers like a fresh one. -/

namespace MessageCatalogue.Store

open Loading

variable {before after : Holdings} {store : Store}

/-- A store of a setup serves, unless it is destroyed, some locales as they are in some holdings. -/
structure Follows (holdings : Holdings) (setup : Setup) (locales : List Locale) (store : Store) : Prop where
  same : store.setup = setup
  begun : store.lifecycle ≠ .uninitialized
  supported : ∀ snapshot, store.lifecycle = .initialized snapshot → snapshot.locales = locales
  made : ∀ snapshot, store.lifecycle = .initialized snapshot →
    snapshot.MadeOf setup (setup.Owned holdings)

variable {setup : Setup} {locales : List Locale}

/-- A snapshot that is published anew keeps following the holdings that all of it came from. -/
theorem Follows.publish (event : ChangeEvent) (follows : store.Follows after setup locales) :
    ((store.publish event).run after).2.Follows after setup locales := by
  -- The holdings are the same, whether or not a locale is loaded from them once more.
  rcases run_publish_cases after store event with
    ⟨unchanged, _⟩ | ⟨current, next, serving, refreshed, published, _⟩
  · rw [unchanged]
    exact follows
  · rw [follows.same] at refreshed
    obtain ⟨made, order⟩ := Setup.madeOf_refreshSnapshot (follows.made current serving) refreshed
      (fun _ _ _ _ owned => owned) fun _ _ _ owned => owned
    rw [published]
    refine ⟨follows.same, by simp, ?_, ?_⟩
    · rintro _ ⟨⟩
      exact order.trans (follows.supported current serving)
    · rintro _ ⟨⟩
      exact made

/-- Everything that a reload consists of keeps a store following the holdings of the moment. -/
theorem kept_follows (holdings : Holdings) (setup : Setup) (locales : List Locale) :
    Kept holdings fun _ store => store.Follows holdings setup locales where
  publish := fun _ _ event follows => follows.publish event
  spend := fun _ _ _ follows => ⟨follows.same, follows.begun, follows.supported, follows.made⟩
  destroy := fun _ _ follows =>
    ⟨follows.same, by simp [destroy], fun _ => (nomatch ·), fun _ => (nomatch ·)⟩

/-- An event names each of some locales whose copies are not the same in two enumerators. -/
def Announces (setup : Setup) (before after : Enumerator) (locales : List Locale) (event : ChangeEvent) :
    Prop :=
  -- The copies of a name are also different when only their order is.
  ∀ locale ∈ locales,
    before.copies (setup.loader.resourceName setup.source locale) ≠
        after.copies (setup.loader.resourceName setup.source locale) →
      ∃ identifier ∈ event.changed, logicalName identifier = setup.loader.resourceName setup.source locale

/-- A locale that an event does not affect has its old copies when the event names all that changed. -/
theorem Announces.copies_eq {before after : Enumerator} {current : Snapshot} {event : ChangeEvent}
    {owned : Locale → Option MergedResources → Prop} (made : current.MadeOf setup owned)
    (announced : Announces setup before after current.locales event) {locale : Locale}
    (supported : locale ∈ current.locales) (unaffected : locale ∉ setup.affectedLocales current event) :
    before.copies (setup.loader.resourceName setup.source locale) =
      after.copies (setup.loader.resourceName setup.source locale) := by
  -- A catalogue is touched by every identifier with its logical name.
  by_contra changed
  obtain ⟨identifier, member, named⟩ := announced locale supported changed
  obtain ⟨catalogue, found⟩ := Dictionary.mem_keys_iff.mp (made.isKeyed.mem_locales_iff.mp supported)
  rw [← made.named found] at named
  have touched : catalogue.isTouchedBy event = true :=
    List.any_eq_true.mpr ⟨identifier, member, by simp [Catalogue.owns, named]⟩
  exact unaffected (made.isKeyed.mem_affectedLocales found touched)

/-- A publication that succeeds follows a change of holdings that agree where nothing is loaded. -/
theorem follows_publish {current : Snapshot} {event : ChangeEvent} {notice : Option Notice}
    (serving : store.lifecycle = .initialized current)
    (made : current.MadeOf store.setup (store.setup.Owned before))
    (agree : ∀ locale ∈ current.locales, locale ∉ store.setup.affectedLocales current event →
      ∀ own, store.setup.Owned before locale own → store.setup.Owned after locale own)
    (succeeded : ((store.publish event).run after).1 = .ok notice) :
    ((store.publish event).run after).2.Follows after store.setup current.locales := by
  -- What is affected comes from the holdings after the change, and the rest agrees with them.
  rw [run_publish serving, Setup.outcome_refresh] at succeeded ⊢
  by_cases unaffected : (store.setup.affectedLocales current event).isEmpty = true
  · -- Nothing is loaded, so the holdings agree on every locale.
    rw [if_pos unaffected]
    have kept : current.MadeOf store.setup (store.setup.Owned after) := made.mono fun locale supported =>
      agree locale supported (by simp [List.isEmpty_iff.mp unaffected])
    refine ⟨rfl, by simp [serving], ?_, ?_⟩
    · intro snapshot published
      obtain rfl : current = snapshot := Lifecycle.initialized.inj (serving.symm.trans published)
      rfl
    · intro snapshot published
      obtain rfl : current = snapshot := Lifecycle.initialized.inj (serving.symm.trans published)
      exact kept
  · rw [if_neg unaffected] at succeeded ⊢
    cases refreshed : outcome after
        (store.setup.refreshSnapshot current (store.setup.affectedLocales current event)) with
    | error error =>
      rw [refreshed] at succeeded
      cases succeeded
    | ok next =>
      obtain ⟨renewed, order⟩ :=
        Setup.madeOf_refreshSnapshot made refreshed agree fun _ _ _ owned => owned
      refine ⟨rfl, by simp [Except.map], ?_, ?_⟩
      · rintro _ ⟨⟩
        exact order
      · rintro _ ⟨⟩
        exact renewed

/--
A reload that succeeds makes up for every change that its event names.

Unless a listener destroys the store, it answers like one initialized with its locales after the changes.
-/
theorem reload_answers_like_fresh_store {event : ChangeEvent} {outcome : ReloadOutcome}
    (oldNames : (before store.setup.loader.collection).KeepsNames)
    (newNames : (after store.setup.loader.collection).KeepsNames) (fresh : store.IsFresh before)
    (announced : Announces store.setup (before store.setup.loader.collection)
      (after store.setup.loader.collection) store.supportedLocales event)
    (succeeded : ((store.reload event).run after).result = .ok outcome)
    (survived : ((store.reload event).run after).store.lifecycle ≠ .destroyed) :
    ∃ started, startAnew after store.setup store.supportedLocales = (.ok (), started) ∧
      ((store.reload event).run after).store.SameAnswers started := by
  -- The catalogues of the store are made of what its locales owned before the change.
  obtain ⟨current, _, _, serving, _⟩ := id fresh
  have made := fresh.madeOf serving
  have supported : store.supportedLocales = current.locales := by rw [supportedLocales, snapshot?, serving]
  rw [supported] at announced ⊢
  -- Where the event leaves a locale alone, its copies are the same and so are its messages.
  have agree : ∀ locale ∈ current.locales, locale ∉ store.setup.affectedLocales current event →
      ∀ own, store.setup.Owned before locale own → store.setup.Owned after locale own :=
    fun locale member unaffected own owned => (Loader.outcome_loadMerged_congr oldNames newNames
      (announced.copies_eq made member unaffected)).symm.trans owned
  -- The listeners find the store up to date and keep it so.
  obtain ⟨notice, notified⟩ := publish_of_reload_ok succeeded
  have follows := (kept_follows after store.setup current.locales).reload_of_publish []
    (follows_publish serving made agree notified)
  cases ended : ((store.reload event).run after).store.lifecycle with
  | uninitialized => exact absurd ended follows.begun
  | destroyed => exact absurd ended survived
  | initialized final =>
    obtain ⟨built, loaded, same⟩ := Setup.exists_loaded_snapshot (follows.made final ended)
    rw [follows.supported final ended] at loaded
    exact ⟨_, startAnew_ok.mpr ⟨built, loaded, rfl⟩, sameAnswers_of_agrees ended rfl same⟩

/-- Holdings in which only the English text varies. -/
def withEnglish (text : String) : Holdings :=
  Setup.bilingual.holding [("memory", .english, text), ("memory", Setup.french, "b=2")]

/-- Whatever becomes of the English text, it is enough to name the English resource. -/
theorem announces_english (old new : String) (collection : Collection) :
    Announces .bilingual (withEnglish old collection) (withEnglish new collection) [.english, Setup.french]
      (ChangeEvent.ofList ["en"]) := by
  -- The French resource has the same copies whatever the English text is.
  intro locale member changed
  rcases List.mem_cons.mp member with rfl | member
  · exact ⟨"en", List.mem_singleton.mpr rfl, by cbv⟩
  · obtain rfl := List.mem_singleton.mp member
    exact absurd (by cbv) changed

/-- A store of two languages that was initialized with some English text. -/
def servingEnglish (text : String) : Store := ((ofSetup .bilingual).init.run (withEnglish text)).2

/-- Such a store is fresh as long as the English text stays. -/
theorem isFresh_servingEnglish : (servingEnglish "a=1").IsFresh (withEnglish "a=1") :=
  isFresh_of_init (by cbv)

/-- Such a store supports both languages of its setup. -/
theorem supportedLocales_servingEnglish :
    (servingEnglish "a=1").supportedLocales = [.english, Setup.french] := by
  cbv

/-- French takes over a change of the English text. -/
theorem bilingual_store_answers_like_fresh_store :
    let reloaded := (((servingEnglish "a=1").reload (ChangeEvent.ofList ["en"])).run (withEnglish "a=3")).store
    reloaded.lookup "a" Setup.french [] = some "3" ∧
      ∃ started, startAnew (withEnglish "a=3") .bilingual [.english, Setup.french] = (.ok (), started) ∧
        reloaded.SameAnswers started := by
  -- The change names the English copies, which are the only ones that differ.
  have same : (servingEnglish "a=1").setup = .bilingual := setup_init ..
  have supported := supportedLocales_servingEnglish
  have succeeded : (((servingEnglish "a=1").reload (ChangeEvent.ofList ["en"])).run (withEnglish "a=3")).result =
      .ok ⟨[⟨"user", [.english, Setup.french], ["en"]⟩]⟩ := by cbv
  have served : (((servingEnglish "a=1").reload (ChangeEvent.ofList ["en"])).run
      (withEnglish "a=3")).store.lookup "a" Setup.french [] = some "3" := by cbv
  have survived : (((servingEnglish "a=1").reload (ChangeEvent.ofList ["en"])).run
      (withEnglish "a=3")).store.lifecycle ≠ .destroyed := by
    intro destroyed
    rw [lookup_of_destroyed destroyed] at served
    cases served
  have answers := reload_answers_like_fresh_store (Enumerator.keepsNames_memory _)
    (Enumerator.keepsNames_memory _) isFresh_servingEnglish
    (by rw [supported, same]; exact announces_english "a=1" "a=3" _) succeeded survived
  rw [supported, same] at answers
  exact ⟨served, answers⟩

/-- A reload whose listener destroys the store succeeds, but leaves nothing to answer with. -/
theorem destroying_listener_leaves_no_answers :
    ¬ ∀ (before after : Holdings) (store : Store) (event : ChangeEvent) (outcome : ReloadOutcome),
      (before store.setup.loader.collection).KeepsNames → (after store.setup.loader.collection).KeepsNames →
      store.IsFresh before →
      Announces store.setup (before store.setup.loader.collection) (after store.setup.loader.collection)
        store.supportedLocales event →
      ((store.reload event).run after).result = .ok outcome →
      ∃ started, startAnew after store.setup store.supportedLocales = (.ok (), started) ∧
        ((store.reload event).run after).store.SameAnswers started := by
  -- The other conditions hold, so the store that starts anew would have to answer as the destroyed one does.
  intro every
  let store := (servingEnglish "a=1").subscribe ⟨"listener", .destroy⟩
  let event := ChangeEvent.ofList ["en"]
  have same : store.setup = .bilingual := setup_init (withEnglish "a=1") .bilingual
  have supported : store.supportedLocales = [.english, Setup.french] := supportedLocales_servingEnglish
  have succeeded : ((store.reload event).run (withEnglish "a=3")).result =
      .ok ⟨[⟨"user", [.english, Setup.french], ["en"]⟩]⟩ := by cbv
  have nothing : ((store.reload event).run (withEnglish "a=3")).store.lookup "a" .english [] = none := by cbv
  have served : (startAnew (withEnglish "a=3") .bilingual [.english, Setup.french]).2.lookup "a" .english [] =
      some "3" := by cbv
  have fresh : store.IsFresh (withEnglish "a=1") := isFresh_servingEnglish
  obtain ⟨started, start, answers⟩ := every (withEnglish "a=1") (withEnglish "a=3") store event _
    (Enumerator.keepsNames_memory _) (Enumerator.keepsNames_memory _) fresh
    (by rw [supported, same]; exact announces_english "a=1" "a=3" _) succeeded
  rw [supported, same] at start
  rw [start] at served
  have absurdity := answers.lookup "a" .english []
  rw [nothing, served] at absurdity
  cases absurdity

end MessageCatalogue.Store
