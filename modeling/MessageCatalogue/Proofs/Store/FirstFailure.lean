import MessageCatalogue.Proofs.Outcome
import MessageCatalogue.Proofs.Resource.Conversation
import MessageCatalogue.Proofs.Store.Meaning
import MessageCatalogue.Proofs.Store.Publication

/-! An initialization takes its steps in a fixed order and ends with the first one that fails. -/

namespace MessageCatalogue

open Fetch Loading

/-- The steps of loading, each of which can fail in its own way. -/
inductive LoadStep where
  | list
  | find (locale : Locale)
  | read (locale : Locale) (id : ResourceId)
  | decode (locale : Locale) (id : ResourceId) (bytes : ByteArray)
  | parse (locale : Locale) (id : ResourceId) (text : String)
  | check (id : ResourceId) (code : String)
  | require (ids : List ResourceId)

namespace Setup

/-- The steps for some candidates, of which the default locale is the first and the others are taken once in order. -/
def findSteps (setup : Setup) (candidates : List Locale) : List LoadStep :=
  .find setup.defaultLocale :: ((candidates.filter (· ≠ setup.defaultLocale)).eraseDups.map .find)

/-- The steps with which loading starts, where locales are looked for only when they are not configured. -/
def startSteps (setup : Setup) : List LoadStep :=
  match setup.configured with
  | some locales => setup.findSteps locales
  | none => [.list]

/-- What comes behind the resources of a locale, which the default one must have. -/
def demands (setup : Setup) (locale : Locale) (ids : List ResourceId) : List LoadStep :=
  if locale = setup.defaultLocale then [.require ids] else []

/--
A step ends after its exchange, if it has one, in an error or in the steps that it leads to.

An error names the source, and the locale and the resource where it has a place for them. The resource goes by its
logical name as long as no copy of it was found.
-/
inductive Ends (setup : Setup) : LoadStep → List Exchange → Except MessageError (List LoadStep) → Prop where
  | listed (files : List String) :
      setup.Ends .list [⟨setup.loader.collection, .list (setup.loader.pattern.directory setup.source), .ok files⟩]
        (.ok (setup.findSteps (setup.loader.localesOfFiles setup.source files)))
  | unlisted (fault : ResourceFault) :
      setup.Ends .list [⟨setup.loader.collection, .list (setup.loader.pattern.directory setup.source), .error fault⟩]
        (.error (.discovery setup.source (setup.loader.pattern.directory setup.source) fault))
  | found (locale : Locale) (ids : List ResourceId) :
      setup.Ends (.find locale)
        [⟨setup.loader.collection, .resources (setup.loader.resourceName setup.source locale), .ok ids⟩]
        (.ok (ids.map (.read locale) ++ setup.demands locale ids))
  | unfound (locale : Locale) (fault : ResourceFault) :
      setup.Ends (.find locale)
        [⟨setup.loader.collection, .resources (setup.loader.resourceName setup.source locale), .error fault⟩]
        (.error (.load setup.source locale (setup.loader.resourceName setup.source locale) fault))
  | read (locale : Locale) (id : ResourceId) (bytes : ByteArray) :
      setup.Ends (.read locale id) [⟨setup.loader.collection, .read id, .ok bytes⟩] (.ok [.decode locale id bytes])
  | unread (locale : Locale) (id : ResourceId) (fault : ResourceFault) :
      setup.Ends (.read locale id) [⟨setup.loader.collection, .read id, .error fault⟩]
        (.error (.load setup.source locale id.text fault))
  | decoded (locale : Locale) (id : ResourceId) {bytes : ByteArray} {text : String}
      (decoded : setup.loader.encoding.decode bytes = .ok text) :
      setup.Ends (.decode locale id bytes) [] (.ok [.parse locale id text])
  | undecoded (locale : Locale) (id : ResourceId) {bytes : ByteArray} {malformed : Utf8.Malformed}
      (undecoded : setup.loader.encoding.decode bytes = .error malformed) :
      setup.Ends (.decode locale id bytes) [] (.error (.load setup.source locale id.text (.malformedText malformed)))
  | parsed (locale : Locale) (id : ResourceId) {text : String} {entries : List Properties.Entry}
      (parsed : Properties.parse text = .ok entries) :
      setup.Ends (.parse locale id text) [] (.ok (entries.map fun entry => .check id entry.key))
  | unparsed (locale : Locale) (id : ResourceId) {text : String} {malformed : Properties.EntryError}
      (unparsed : Properties.parse text = .error malformed) :
      setup.Ends (.parse locale id text) []
        (.error (.parse setup.source locale id.text malformed.line malformed.detail))
  | usable (id : ResourceId) {code : String} (usable : codeDefect? code = none) :
      setup.Ends (.check id code) [] (.ok [])
  | unusable (id : ResourceId) {code : String} {defect : CodeDefect} (unusable : codeDefect? code = some defect) :
      setup.Ends (.check id code) [] (.error (.invalidCode setup.source code id.text defect))
  | present {ids : List ResourceId} (present : ids ≠ []) : setup.Ends (.require ids) [] (.ok [])
  | missing :
      setup.Ends (.require []) [] (.error (.missingDefaultResource setup.source setup.defaultLocale
        (setup.loader.resourceName setup.source setup.defaultLocale)))

/--
Steps are taken one after the other until one fails or none is left.

The steps that a step leads to come right behind it, and what is never taken has no exchange either.
-/
inductive Takes (setup : Setup) : List LoadStep → List Exchange → Option MessageError → Prop where
  | done : setup.Takes [] [] none
  | passes {step : LoadStep} {more rest : List LoadStep} {earlier later : List Exchange}
      {failure : Option MessageError} (ends : setup.Ends step earlier (.ok more))
      (onward : setup.Takes (more ++ rest) later failure) : setup.Takes (step :: rest) (earlier ++ later) failure
  | fails {step : LoadStep} {rest : List LoadStep} {exchanges : List Exchange} {error : MessageError}
      (ends : setup.Ends step exchanges (.error error)) : setup.Takes (step :: rest) exchanges (some error)

/-- A step has one exchange and one end under the same answers. -/
theorem Ends.unique {setup : Setup} {step : LoadStep} {earlier earlier' later later' : List Exchange}
    {result result' : Except MessageError (List LoadStep)} (one : setup.Ends step earlier result)
    (other : setup.Ends step earlier' result') (same : earlier ++ later = earlier' ++ later') :
    earlier = earlier' ∧ later = later' ∧ result = result' := by
  -- The answer to the request of a step, or what the step is about, decides between its ends.
  cases one <;> cases other <;> simp_all

namespace Takes

variable {setup : Setup} {steps more : List LoadStep} {exchanges earlier later : List Exchange}
  {failure failure' : Option MessageError}

/-- Steps come to one end under the same answers. -/
theorem unique (one : setup.Takes steps exchanges failure) (other : setup.Takes steps exchanges failure') :
    failure = failure' := by
  -- The first step has the same exchange both times, and so the same steps are left behind it.
  induction one generalizing failure' with
  | done =>
    cases other
    rfl
  | @passes step more rest earlier later failure ends onward ih =>
    generalize whole : earlier ++ later = exchanges at other
    cases other with
    | passes ends' onward' =>
      obtain ⟨_, rfl, same⟩ := ends.unique ends' whole
      cases same
      exact ih onward'
    | fails ends' =>
      obtain ⟨_, _, impossible⟩ := ends.unique ends' (whole.trans (List.append_nil exchanges).symm)
      cases impossible
  | @fails step rest exchanges error ends =>
    cases other with
    | passes ends' onward' =>
      obtain ⟨_, _, impossible⟩ := ends.unique ends' (List.append_nil _)
      cases impossible
    | fails ends' =>
      have same : exchanges ++ [] = exchanges ++ [] := rfl
      exact congrArg some (Except.error.inj (ends.unique ends' same).2.2)

/-- A step is taken with those that it leads to. -/
theorem single {step : LoadStep} (ends : setup.Ends step earlier (.ok more)) (onward : setup.Takes more later failure) :
    setup.Takes [step] (earlier ++ later) failure :=
  .passes ends ((List.append_nil more).symm ▸ onward)

/-- More steps are taken when none of those before them fails. -/
theorem append (one : setup.Takes steps earlier none) (other : setup.Takes more later failure) :
    setup.Takes (steps ++ more) (earlier ++ later) failure := by
  -- The steps that a step leads to come in front of everything else that is left.
  generalize passed : (none : Option MessageError) = ended at one
  induction one with
  | done => exact other
  | @passes step own rest start onward ended ends _ ih =>
    rw [List.append_assoc]
    exact .passes ends (List.append_assoc own rest more ▸ ih passed)
  | fails ends => cases passed

/-- No more steps are taken when one of those before them fails. -/
theorem append_of_failure {error : MessageError} (one : setup.Takes steps exchanges (some error))
    (more : List LoadStep) : setup.Takes (steps ++ more) exchanges (some error) := by
  generalize failed : some error = ended at one
  induction one with
  | done => cases failed
  | @passes step own rest start onward ended ends _ ih =>
    exact .passes ends (List.append_assoc own rest more ▸ ih failed)
  | fails ends => exact .fails ends

end Takes

end Setup

/-- The error that loading ends with, if it does. -/
def failure? {α : Type} : Except MessageError α → Option MessageError
  | .ok _ => none
  | .error error => some error

@[simp] theorem failure?_map {α β : Type} (result : Except MessageError α) (wrap : α → β) :
    failure? (result.map wrap) = failure? result := by
  cases result <;> rfl

/-- Loading takes some steps and ends with the error of the first one that fails, if any does. -/
def Setup.Follows {α : Type} (setup : Setup) (steps : List LoadStep) (loading : Loading α) : Prop :=
  ∀ exchanges result, Transcript loading.run exchanges result → setup.Takes steps exchanges (failure? result)

namespace Setup

variable {setup : Setup} {α β : Type} {steps more : List LoadStep}

/-- Nothing has to be done for a value. -/
theorem follows_pure (value : α) : setup.Follows [] (pure value) := by
  intro exchanges result transcript
  obtain ⟨rfl, rfl⟩ := transcript_done.mp transcript
  exact .done

/-- Loading in two parts takes the steps of the first part and then those of the second one. -/
theorem Follows.bind {first : Loading α} {continuation : α → Loading β} (one : setup.Follows steps first)
    (other : ∀ value, setup.Follows more (continuation value)) :
    setup.Follows (steps ++ more) (first >>= continuation) := by
  intro exchanges result transcript
  rcases transcript_bind_iff.mp transcript with ⟨error, failed, rfl⟩ | ⟨earlier, later, value, rfl, passed, onward⟩
  · exact (one _ _ failed).append_of_failure more
  · exact (one _ _ passed).append (other value _ _ onward)

/-- Loading whose value is only wrapped takes the same steps. -/
theorem Follows.map {first : Loading α} (one : setup.Follows steps first) (wrap : α → β) :
    setup.Follows steps (first >>= fun value => pure (wrap value)) := by
  intro exchanges result transcript
  obtain ⟨own, passed, rfl⟩ := transcript_bind_pure.mp transcript
  rw [failure?_map]
  exact one _ _ passed

/-- The codes of a document are checked in document order. -/
theorem takes_checkCodes (id : ResourceId) (entries : List Properties.Entry) :
    setup.Takes (entries.map fun entry => .check id entry.key) []
      (failure? (Loader.checkCodes setup.source id entries)) := by
  -- An entry whose code is usable leaves the check to those behind it.
  induction entries with
  | nil => exact .done
  | cons entry rest ih =>
    rw [Loader.checkCodes, List.map_cons]
    cases checked : codeDefect? entry.key with
    | some defect => exact .fails (.unusable id checked)
    | none => exact .passes (.usable id checked) ih

/-- A document is decoded, parsed and checked, with no request in between. -/
theorem takes_interpret (locale : Locale) (id : ResourceId) (bytes : ByteArray) :
    setup.Takes [.decode locale id bytes] [] (failure? (setup.loader.interpret setup.source locale id bytes)) := by
  -- Each part of the interpretation is a step that leads to the next one.
  cases decoded : setup.loader.encoding.decode bytes with
  | error malformed =>
    have failed : setup.loader.interpret setup.source locale id bytes =
        .error (.load setup.source locale id.text (.malformedText malformed)) := by
      simp [Loader.interpret, decoded, Except.mapError, Bind.bind, Except.bind]
    rw [failed]
    exact .fails (.undecoded locale id decoded)
  | ok text =>
    refine .single (.decoded locale id decoded) ?_
    cases parsed : Properties.parse text with
    | error malformed =>
      have failed : setup.loader.interpret setup.source locale id bytes =
          .error (.parse setup.source locale id.text malformed.line malformed.detail) := by
        simp [Loader.interpret, decoded, parsed, Except.mapError, Bind.bind, Except.bind]
      rw [failed]
      exact .fails (.unparsed locale id parsed)
    | ok entries =>
      rw [Loader.interpret_of_parse decoded parsed, failure?_map]
      exact .single (.parsed locale id parsed) (takes_checkCodes id entries)

/-- A resource is read before anything is made of its bytes. -/
theorem follows_loadOne (locale : Locale) (id : ResourceId) :
    setup.Follows [.read locale id] (setup.loader.loadOne setup.source locale id) := by
  intro exchanges result transcript
  rcases Loader.transcript_loadOne transcript with ⟨fault, rfl, rfl⟩ | ⟨bytes, rfl, rfl⟩
  · exact .fails (.unread locale id fault)
  · exact .single (.read locale id bytes) (takes_interpret locale id bytes)

/-- Resources are loaded one after the other. -/
theorem follows_loadEach (locale : Locale) (ids : List ResourceId) :
    setup.Follows (ids.map (.read locale)) (setup.loader.loadEach setup.source locale ids) := by
  induction ids with
  | nil => exact follows_pure []
  | cons id rest ih => exact (follows_loadOne locale id).bind fun resource => ih.map (resource :: ·)

/-- Loaded resources are merged into messages unless no copy was found. -/
theorem mergeResources?_eq_none_iff {locale : Locale} {ids : List ResourceId} {resources : List LoadedResource}
    {exchanges : List Exchange}
    (loaded : Transcript (setup.loader.loadEach setup.source locale ids).run exchanges (.ok resources)) :
    mergeResources? resources = none ↔ ids = [] := by
  cases ids with
  | nil =>
    obtain ⟨_, same⟩ := transcript_done.mp loaded
    simp [Except.ok.inj same, mergeResources?]
  | cons id rest =>
    -- A copy that was found is one of the resources.
    rcases Loader.transcript_loadEach_cons loaded with ⟨error, _, impossible⟩ | ⟨_, _, first, _, _, _, _, whole⟩
    · cases impossible
    · obtain ⟨others, rfl, rfl⟩ := map_ok_iff.mp whole.symm
      simp [mergeResources?]

/-- The messages of a locale either cannot be found or are what its resources make together. -/
theorem transcript_loadOwn {locale : Locale} {exchanges : List Exchange}
    {result : Except MessageError (Option Catalogue)}
    (transcript : Transcript (setup.loadOwn locale).run exchanges result) :
    (∃ error, setup.Ends (.find locale) exchanges (.error error) ∧ result = .error error) ∨
    ∃ ids earlier later, exchanges = earlier ++ later ∧
      setup.Ends (.find locale) earlier (.ok (ids.map (.read locale) ++ setup.demands locale ids)) ∧
      setup.Takes (ids.map (.read locale)) later (failure? result) ∧
      ∀ own, result = .ok own → (own = none ↔ ids = []) := by
  -- Merging resources and making a catalogue of them can neither fail nor ask for anything.
  obtain ⟨merged, merging, rfl⟩ := transcript_bind_pure.mp transcript
  obtain ⟨loaded, loading, rfl⟩ := transcript_bind_pure.mp merging
  rcases Loader.transcript_loadAll loading with ⟨fault, rfl, rfl⟩ | ⟨ids, later, rfl, each⟩
  · exact .inl ⟨_, .unfound locale fault, rfl⟩
  · refine .inr ⟨ids, _, later, rfl, .found locale ids, ?_, ?_⟩
    · rw [failure?_map, failure?_map]
      exact follows_loadEach locale ids _ _ each
    · intro own succeeded
      obtain ⟨merged, again, rfl⟩ := map_ok_iff.mp succeeded
      obtain ⟨resources, rfl, rfl⟩ := map_ok_iff.mp again
      rw [Option.map_eq_none_iff, mergeResources?_eq_none_iff each]

/-- The resources of a locale are loaded before anything is demanded or made of them. -/
theorem follows_loadOwn_bind {locale : Locale} {continuation : Option Catalogue → Loading α}
    (onward : ∀ ids own, (own = none ↔ ids = []) → setup.Follows (setup.demands locale ids) (continuation own)) :
    setup.Follows [.find locale] (setup.loadOwn locale >>= continuation) := by
  -- The exchanges are those of the resources, followed by those of what comes next unless a resource fails.
  intro exchanges result transcript
  rcases transcript_bind_iff.mp transcript with ⟨error, failed, rfl⟩ | ⟨start, after, own, rfl, passed, last⟩
  · rcases transcript_loadOwn failed with ⟨_, ends, ⟨rfl⟩⟩ | ⟨ids, earlier, later, rfl, ends, each, _⟩
    · exact .fails ends
    · exact .single ends (each.append_of_failure _)
  · rcases transcript_loadOwn passed with ⟨_, _, impossible⟩ | ⟨ids, earlier, later, rfl, ends, each, absent⟩
    · cases impossible
    · rw [List.append_assoc]
      exact .single ends (each.append (onward ids own (absent own rfl) _ _ last))

/-- The default locale must have a resource once its resources are loaded. -/
theorem follows_loadBase : setup.Follows [.find setup.defaultLocale] setup.loadBase := by
  -- There is a base exactly when some copy of its resource was found.
  refine follows_loadOwn_bind fun ids own absent => ?_
  rw [demands, if_pos rfl]
  intro exchanges result transcript
  cases own with
  | none =>
    obtain ⟨rfl, rfl⟩ := transcript_done.mp transcript
    obtain rfl := absent.mp rfl
    exact .fails .missing
  | some base =>
    obtain ⟨rfl, rfl⟩ := transcript_done.mp transcript
    exact .single (.present fun none => by simpa using absent.mpr none) .done

/-- Nothing is demanded of a locale besides the default one. -/
theorem follows_loadOverlay {locale : Locale} (other : locale ≠ setup.defaultLocale) (base : Catalogue) :
    setup.Follows [.find locale] (setup.loadOverlay base locale) := by
  refine follows_loadOwn_bind fun ids own _ => ?_
  rw [demands, if_neg other]
  cases own with
  | none => exact follows_pure _
  | some own => exact follows_pure _

/-- Locales besides the default one are loaded one after the other. -/
theorem follows_loadOverlays {others : List Locale} (other : ∀ locale ∈ others, locale ≠ setup.defaultLocale)
    (base : Catalogue) : setup.Follows (others.map .find) (others.mapM (setup.loadOverlayEntry base)) := by
  induction others with
  | nil => exact follows_pure []
  | cons locale rest ih =>
    obtain ⟨own, further⟩ := List.forall_mem_cons.mp other
    rw [List.mapM_cons]
    exact ((follows_loadOverlay own base).map (Prod.mk locale)).bind fun entry => (ih further).map (entry :: ·)

/-- The default locale is loaded before the others among some candidates. -/
theorem follows_loadSupported (candidates : List Locale) :
    setup.Follows (setup.findSteps candidates) (setup.loadSnapshot (setup.supportedAmong candidates)) := by
  have distinct := setup.nodup_supported candidates
  have other : ∀ locale ∈ setup.otherLocales candidates, locale ≠ setup.defaultLocale := fun locale member same =>
    (List.nodup_cons.mp distinct).1 (same ▸ member)
  rw [supportedAmong_eq, loadSnapshot_eq distinct]
  -- The layers are loaded from the base upwards.
  have layers : setup.Follows (setup.findSteps candidates) (setup.loadLayers (setup.otherLocales candidates)) :=
    follows_loadBase.bind fun base => (follows_loadOverlays other base).map (Layers.mk base)
  exact layers.map setup.snapshot

/-- The locales to support are known before any of them is loaded. -/
theorem follows_load : setup.Follows setup.startSteps setup.load := by
  -- Configured locales are there at once, and others are what the file names reveal.
  unfold startSteps load candidateLocales
  cases setup.configured with
  | some locales => exact follows_loadSupported locales
  | none =>
    intro exchanges result transcript
    rcases transcript_bind_iff.mp transcript with ⟨error, failed, rfl⟩ | ⟨start, later, candidates, rfl, passed, last⟩
    · rcases Loader.transcript_discoverLocales failed with ⟨fault, rfl, ⟨rfl⟩⟩ | ⟨files, _, impossible⟩
      · exact .fails (.unlisted fault)
      · cases impossible
    · rcases Loader.transcript_discoverLocales passed with ⟨fault, _, impossible⟩ | ⟨files, rfl, ⟨rfl⟩⟩
      · cases impossible
      · exact .single (.listed files) (follows_loadSupported _ _ _ last)

end Setup

namespace Store

variable {store : Store}

/--
An initialization succeeds or reports the error of the first step that fails, and asks for nothing after it.

The steps and their order are those of its setup, and they account for all of its exchanges, whatever it is answered.
-/
theorem init_reports_first_failure (uninitialized : store.lifecycle = .uninitialized) :
    (∀ responder earlier, ∃ exchanges ended, Transcript store.init exchanges ended ∧
      AnsweredBy responder earlier exchanges) ∧
    ∀ exchanges result after, Transcript store.init exchanges (result, after) →
      (result = .ok () ↔ store.setup.Takes store.setup.startSteps exchanges none) ∧
      ∀ error, result = .error error ↔ store.setup.Takes store.setup.startSteps exchanges (some error) := by
  refine ⟨fun responder earlier => exists_transcript responder store.init earlier, ?_⟩
  intro exchanges result after transcript
  have taken : store.setup.Takes store.setup.startSteps exchanges (failure? result) := by
    cases initialization_of_transcript transcript with
    | again serving => cases uninitialized.symm.trans serving
    | destroyed lifecycle => cases uninitialized.symm.trans lifecycle
    | failed lifecycle loading => exact Setup.follows_load _ _ loading
    | loaded lifecycle loading => exact Setup.follows_load _ _ loading
  -- The steps come to one end only.
  have ends : ∀ failure, failure? result = failure ↔ store.setup.Takes store.setup.startSteps exchanges failure :=
    fun failure => ⟨fun same => same ▸ taken, fun other => taken.unique other⟩
  constructor
  · rw [← ends]
    cases result <;> simp [failure?]
  · intro error
    rw [← ends]
    cases result <;> simp [failure?]

/-- A blank code in the second English copy is reported, and nothing is asked for the French one, which is malformed. -/
theorem blank_code_ends_initialization :
    let holdings := Setup.bilingual.holding
      [("one", .english, "a=1"), ("two", .english, "\\ =x"), ("one", Setup.french, "\\u")]
    let exchanges := ((ofSetup .bilingual).init.recorded.run holdings).2
    (ofSetup .bilingual).lifecycle = .uninitialized ∧
      Setup.bilingual.Takes Setup.bilingual.startSteps exchanges
        (some (.invalidCode "user" " " "two!/en" .blank)) ∧
      (ofSetup .bilingual).init.requests holdings = [(.shared, .resources "en"), (.shared, .read ⟨"one", "en"⟩),
        (.shared, .read ⟨"two", "en"⟩)] := by
  -- The theorem says which step failed, once the failure itself is evaluated.
  intro holdings exchanges
  have uninitialized : (ofSetup .bilingual).lifecycle = .uninitialized := rfl
  have failed : ((ofSetup .bilingual).init.run holdings).1 = .error (.invalidCode "user" " " "two!/en" .blank) := by
    cbv
  have transcript := transcript_recorded holdings (ofSetup .bilingual).init
  obtain ⟨_, ends⟩ := (init_reports_first_failure uninitialized).2 _ _ _ transcript
  exact ⟨uninitialized, (ends _).mp failed, by cbv⟩

end Store

end MessageCatalogue
