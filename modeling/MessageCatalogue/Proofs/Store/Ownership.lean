import Mathlib
import MessageCatalogue.Proofs.Store.Reachable

/-! A change reaches a store by logical names, and by printed identifiers whose origins do not hold the mark. -/

namespace MessageCatalogue.Store

open Fetch

variable {met : Exchange → Prop} {setup : Setup} {store after : Store}

/-- A store comes out of a reload whose exchanges are of some kind, whether or not the reload succeeds. -/
def ReloadsTo (met : Exchange → Prop) (store after : Store) : Prop :=
  ∃ event exchanges reloaded, Transcript (store.reload event) exchanges reloaded ∧
    (∀ exchange ∈ exchanges, met exchange) ∧ after = reloaded.store

/-- A store is reloaded from enumerators that keep names. -/
theorem reloadsTo_run {holdings : Holdings} (keep : ∀ collection, (holdings collection).KeepsNames)
    (store : Store) (event : ChangeEvent) :
    ReloadsTo Exchange.KeepsNames store ((store.reload event).run holdings).store :=
  ⟨event, _, _, transcript_recorded holdings (store.reload event), keepsNames_recorded keep _, rfl⟩

/-- Reloads in a row lead along a course. -/
theorem course_of_reloads (reloads : Relation.ReflTransGen (ReloadsTo met) store after) : Course met store after := by
  -- Each reload goes on where the one before it ended.
  induction reloads with
  | refl => exact .refl
  | tail _ last ih =>
    obtain ⟨event, exchanges, reloaded, transcript, each, rfl⟩ := last
    exact Relation.ReflTransGen.trans ih (course_of_reload transcript each)

/--
A store owns what holds the logical name of a locale it supports, whatever origin stands in front of it.

No reload changes that or the supported locales, unless a listener destroys the store.
-/
theorem ownership_follows_locales (reachable : Reachable Exchange.KeepsNames setup store) :
    (∀ identifier, store.owns identifier = true ↔ store.isInitialized = true ∧
      ∃ locale ∈ store.supportedLocales,
        logicalName identifier = setup.loader.resourceName setup.source locale) ∧
    ∀ after, Relation.ReflTransGen (ReloadsTo Exchange.KeepsNames) store after →
      (after.supportedLocales = store.supportedLocales ∧
        ∀ identifier, after.owns identifier = store.owns identifier) ∨ store.EndsDestroyed after := by
  -- The names of the catalogues are known for every reachable store, also for those that reloads lead to.
  have named := reachable.isNamed
  refine ⟨fun identifier => named.owns_iff, ?_⟩
  intro after reloads
  obtain ⟨own, kept⟩ := (course_of_reloads reloads).stays setup.provides_names named
  rcases kept with stays | ends
  · -- What is owned is decided by the supported locales, and these are the same.
    refine .inl ⟨stays.locales, fun identifier => ?_⟩
    rw [Bool.eq_iff_iff, own.owns_iff, named.owns_iff, stays.initialized, stays.locales]
  · exact .inr ends

/-- A store with English messages from some origin, which also supports French. -/
def bilingualFrom (origin : String) : Store :=
  ((ofSetup .bilingual).init.run (Setup.bilingual.holding [(origin, .english, "a=1")])).2

/-- Such a store is reached from memory. -/
theorem reachable_bilingualFrom (origin : String) :
    Reachable Exchange.KeepsNames .bilingual (bilingualFrom origin) :=
  Reachable.fresh.run_init fun _ => Enumerator.keepsNames_memory _

/-- French is owned without any French resource, also after a reload that failed because English was gone. -/
theorem french_stays_owned :
    let store := bilingualFrom "a"
    let reloaded := (store.reload (.ofList ["en"])).run (Setup.bilingual.holding [])
    (∃ error, reloaded.result = .error error) ∧ store.owns "b!/fr" = true ∧ reloaded.store.owns "b!/fr" = true ∧
      reloaded.store.supportedLocales = [.english, Setup.french] := by
  intro store reloaded
  -- What was loaded at first is the English messages alone.
  have supported : (bilingualFrom "a").supportedLocales = [.english, Setup.french] := by cbv
  have initialized : (bilingualFrom "a").isInitialized = true := by cbv
  have nobody : (bilingualFrom "a").listeners = [] := by cbv
  have failed : ∃ error, (((bilingualFrom "a").reload (.ofList ["en"])).run (Setup.bilingual.holding [])).result =
      .error error := ⟨.missingDefaultResource "user" .english "en", by cbv⟩
  obtain ⟨owned, kept⟩ := ownership_follows_locales (reachable_bilingualFrom "a")
  have french : (bilingualFrom "a").owns "b!/fr" = true := by
    refine (owned "b!/fr").mpr ⟨initialized, Setup.french, ?_, by cbv⟩
    rw [supported]
    decide
  have once : ReloadsTo Exchange.KeepsNames store reloaded.store :=
    reloadsTo_run (fun _ => Enumerator.keepsNames_memory _) store _
  rcases kept reloaded.store (.single once) with ⟨locales, same⟩ | ends
  · exact ⟨failed, french, (same "b!/fr").trans french, locales.trans supported⟩
  · -- There is no listener that could destroy the store.
    obtain ⟨listener, member, _⟩ := ends.destroyer
    rw [nobody] at member
    cases member

/-- A listener that destroys its store takes away what the store owned. -/
theorem destroying_listener_takes_ownership :
    ∃ store after, Reachable Exchange.KeepsNames .bilingual store ∧ ReloadsTo Exchange.KeepsNames store after ∧
      store.owns "en" = true ∧ after.owns "en" = false ∧
      store.supportedLocales = [.english, Setup.french] ∧ after.supportedLocales = [.english] := by
  let store := (bilingualFrom "a").subscribe ⟨"listener", .destroy⟩
  let holdings := Setup.bilingual.holding [("a", .english, "a=2")]
  refine ⟨store, ((store.reload (.ofList ["en"])).run holdings).store, ?_, ?_, ?_, ?_, ?_, ?_⟩
  -- The store is reached by a subscription and left by one reload from memory.
  · exact (reachable_bilingualFrom "a").subscribe _
  · exact reloadsTo_run (fun _ => Enumerator.keepsNames_memory _) store _
  · cbv
  · cbv
  · cbv
  · cbv

/-- A loaded copy is reached by its printed identifier unless its origin holds the mark that ends origins. -/
theorem printed_identifier_reaches_store (reachable : Reachable met setup store) {current : Snapshot}
    (serving : store.lifecycle = .initialized current) {catalogue : Catalogue}
    (member : catalogue ∈ current.catalogues.values) {id : ResourceId} (loaded : id ∈ catalogue.resources) :
    (id.isNamedBy id.text = true ↔ ¬ originMark <:+: id.origin.toList) ∧
      (¬ originMark <:+: id.origin.toList → store.owns id.text = true ∧
        ∀ event exchanges reloaded, id.text ∈ event.changed →
          Transcript (store.reload event) exchanges reloaded → reloaded.result ≠ .ok .unaffected) := by
  refine ⟨ResourceId.isNamedBy_text_iff, fun unmarked => ?_⟩
  have named := ResourceId.isNamedBy_text_iff.mpr unmarked
  -- The catalogue that the copy was loaded for owns the identifier, and so does the store.
  have owned : store.owns id.text = true := by
    have own : catalogue.owns id.text = true := by
      rw [Catalogue.owns, Bool.or_eq_true]
      exact .inr (List.any_eq_true.mpr ⟨id, loaded, named⟩)
    simp only [owns, snapshot?, serving]
    exact List.any_eq_true.mpr ⟨catalogue, member, own⟩
  refine ⟨owned, ?_⟩
  intro event exchanges reloaded changed transcript unaffected
  -- A reload without effect would mean that nothing of what changed is owned.
  have ignored := ((reachable.reload_unaffected_iff transcript).mp unaffected).2 id.text changed
  rw [owned] at ignored
  cases ignored

/-- A store that has loaded copies for a locale serves a catalogue with these. -/
theorem exists_catalogue {locale : Locale} {resources : List ResourceId}
    (found : (store.snapshot?.bind (·.catalogue? locale)).map (·.resources) = some resources) :
    ∃ current catalogue, store.lifecycle = .initialized current ∧ current.catalogue? locale = some catalogue ∧
      catalogue.resources = resources := by
  obtain ⟨catalogue, served, same⟩ := Option.map_eq_some_iff.mp found
  obtain ⟨current, published, own⟩ := Option.bind_eq_some_iff.mp served
  exact ⟨current, catalogue, snapshot?_eq_some_iff.mp published, own, same⟩

/-- English messages from an origin without the mark are reloaded when their printed identifier changes. -/
theorem plain_origin_reaches_store :
    let id : ResourceId := ⟨"a", "en"⟩
    ∃ current catalogue, (bilingualFrom "a").lifecycle = .initialized current ∧
      current.catalogue? .english = some catalogue ∧ id ∈ catalogue.resources ∧ id.text = "a!/en" ∧
      id.isNamedBy id.text = true ∧ (bilingualFrom "a").owns id.text = true ∧
      ∀ event exchanges reloaded, id.text ∈ event.changed →
        Transcript ((bilingualFrom "a").reload event) exchanges reloaded → reloaded.result ≠ .ok .unaffected := by
  intro id
  -- The first catalogue is found by its resources, of which one has the printed identifier.
  obtain ⟨current, catalogue, serving, served, resources⟩ := exists_catalogue (show
    ((bilingualFrom "a").snapshot?.bind (·.catalogue? .english)).map (·.resources) = some [⟨"a", "en"⟩] by cbv)
  have loaded : id ∈ catalogue.resources := resources ▸ List.mem_singleton_self id
  have member : catalogue ∈ current.catalogues.values := List.mem_map_of_mem (Dictionary.mem_of_find? served)
  have unmarked : ¬ originMark <:+: id.origin.toList := by decide
  obtain ⟨named, reached⟩ := printed_identifier_reaches_store (reachable_bilingualFrom "a") serving member loaded
  obtain ⟨owned, reloads⟩ := reached unmarked
  exact ⟨current, catalogue, serving, served, loaded, by decide, named.mpr unmarked, owned, reloads⟩

/-- English messages from an origin with the mark are not reloaded when their printed identifier changes. -/
theorem marked_origin_misses_store :
    let id : ResourceId := ⟨"a!/b", "en"⟩
    ∃ current catalogue, (bilingualFrom "a!/b").lifecycle = .initialized current ∧
      current.catalogue? .english = some catalogue ∧ id ∈ catalogue.resources ∧ id.text = "a!/b!/en" ∧
      id.isNamedBy id.text = false ∧ (bilingualFrom "a!/b").owns id.text = false ∧
      ∀ exchanges reloaded, Transcript ((bilingualFrom "a!/b").reload (.ofList [id.text])) exchanges reloaded →
        reloaded.result = .ok .unaffected := by
  intro id
  obtain ⟨current, catalogue, serving, served, resources⟩ := exists_catalogue (show
    ((bilingualFrom "a!/b").snapshot?.bind (·.catalogue? .english)).map (·.resources) = some [⟨"a!/b", "en"⟩] by cbv)
  have loaded : id ∈ catalogue.resources := resources ▸ List.mem_singleton_self id
  have printed : id.text = "a!/b!/en" := by decide
  have missed : (bilingualFrom "a!/b").owns "a!/b!/en" = false := by cbv
  refine ⟨current, catalogue, serving, served, loaded, printed, by decide, printed ▸ missed, ?_⟩
  intro exchanges reloaded transcript
  rw [printed] at transcript
  -- The only identifier of the change is one that the store does not own.
  refine ((reachable_bilingualFrom "a!/b").reload_unaffected_iff transcript).mpr ⟨by simp [serving], ?_⟩
  intro identifier changed
  obtain rfl := List.mem_singleton.mp changed
  exact missed

end MessageCatalogue.Store
