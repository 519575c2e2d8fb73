import Mathlib
import MessageCatalogue.Proofs.Store.Exchanges
import MessageCatalogue.Proofs.Store.Publication

/-! A store changes all at once or not at all, whatever answers its requests get. -/

namespace MessageCatalogue.Store

open Fetch

/-- Initialization either fails and leaves the store as it was or succeeds without a failed exchange. -/
theorem transcript_init {store after : Store} {exchanges : List Exchange} {result : Except MessageError Unit}
    (transcript : Transcript store.init exchanges (result, after)) :
    (∃ error, result = .error error) ∧ after = store ∨
      result = .ok () ∧ ∀ exchange ∈ exchanges, exchange.hasFailed = false := by
  -- What is loaded, if anything, is loaded without a failed exchange.
  cases initialization_of_transcript transcript with
  | again serving => exact .inr ⟨rfl, by simp⟩
  | destroyed lifecycle => exact .inl ⟨⟨_, rfl⟩, rfl⟩
  | failed lifecycle loading => exact .inl ⟨⟨_, rfl⟩, rfl⟩
  | loaded lifecycle loading => exact .inr ⟨rfl, Setup.only_load store.setup exchanges _ loading⟩

/-- A publication either fails and leaves the store as it was or succeeds without a failed exchange. -/
theorem transcript_publish {store after : Store} {event : ChangeEvent} {exchanges : List Exchange}
    {result : Except MessageError (Option Notice)}
    (transcript : Transcript (store.publish event) exchanges (result, after)) :
    (∃ error, result = .error error) ∧ after = store ∨
      (∃ notice, result = .ok notice) ∧ ∀ exchange ∈ exchanges, exchange.hasFailed = false := by
  -- Only an initialized store has a snapshot to refresh, and it does so by finding and reading resources.
  cases publication_of_transcript transcript with
  | uninitialized lifecycle => exact .inr ⟨⟨none, rfl⟩, by simp⟩
  | destroyed lifecycle => exact .inl ⟨⟨_, rfl⟩, rfl⟩
  | unaffected serving nothing => exact .inr ⟨⟨none, rfl⟩, by simp⟩
  | failed serving affected loading => exact .inl ⟨⟨_, rfl⟩, rfl⟩
  | published serving affected loading =>
    have loads := Setup.only_refreshSnapshot store.setup _ _ exchanges _ loading
    exact .inr ⟨⟨_, rfl⟩, fun exchange member => Exchange.hasFailed_of_isLoad (loads exchange member)⟩

/-- A reload at any depth that ends with an error leaves its store alone and calls nobody. -/
theorem transcript_reloadWithin_error {depth : Nat} {store : Store} {event : ChangeEvent}
    {exchanges : List Exchange} {reloaded : Reloaded} {error : MessageError}
    (transcript : Transcript (store.reloadWithin depth event) exchanges reloaded)
    (failed : reloaded.result = .error error) : reloaded.store = store ∧ reloaded.deliveries = [] := by
  -- Listeners are called only after a snapshot was published, and then the reload has succeeded.
  unfold reloadWithin at transcript
  obtain ⟨earlier, later, ⟨result, published⟩, rfl, before, last⟩ := transcript_bind.mp transcript
  cases result with
  | error error =>
    obtain ⟨_, rfl⟩ := transcript_done.mp last
    rcases transcript_publish before with ⟨_, rfl⟩ | ⟨⟨_, impossible⟩, _⟩
    · exact ⟨rfl, rfl⟩
    · cases impossible
  | ok notice =>
    cases notice with
    | none =>
      obtain ⟨_, rfl⟩ := transcript_done.mp last
      cases failed
    | some notice =>
      obtain ⟨called, _, ⟨finished, deliveries⟩, _, _, last⟩ := transcript_bind.mp last
      obtain ⟨_, rfl⟩ := transcript_done.mp last
      cases failed

/--
An operation that fails leaves the whole store as it was and calls no listener.

The answers to requests are arbitrary, and any of them that is a fault makes the operation fail.
-/
theorem failure_leaves_store_unchanged (store : Store) :
    (∀ exchanges result after, Transcript store.init exchanges (result, after) →
      ((∃ exchange ∈ exchanges, exchange.hasFailed = true) → ∃ error, result = .error error) ∧
      ∀ error, result = .error error → after = store) ∧
    (∀ event exchanges result after, Transcript (store.publish event) exchanges (result, after) →
      ((∃ exchange ∈ exchanges, exchange.hasFailed = true) → ∃ error, result = .error error) ∧
      ∀ error, result = .error error → after = store) ∧
    ∀ event exchanges reloaded, Transcript (store.reload event) exchanges reloaded →
      ∀ error, reloaded.result = .error error → reloaded.store = store ∧ reloaded.deliveries = [] := by
  -- A result tells which of the two ways a loading has gone, and neither of them leaves half a change.
  refine ⟨?_, ?_, ?_⟩
  · intro exchanges result after transcript
    rcases transcript_init transcript with ⟨failed, same⟩ | ⟨rfl, succeeded⟩
    · exact ⟨fun _ => failed, fun _ _ => same⟩
    · -- A success has no failed exchange behind it.
      refine ⟨?_, fun _ impossible => nomatch impossible⟩
      rintro ⟨exchange, member, failed⟩
      cases (succeeded exchange member).symm.trans failed
  · intro event exchanges result after transcript
    rcases transcript_publish transcript with ⟨failed, same⟩ | ⟨⟨notice, rfl⟩, succeeded⟩
    · exact ⟨fun _ => failed, fun _ _ => same⟩
    · refine ⟨?_, fun _ impossible => nomatch impossible⟩
      rintro ⟨exchange, member, failed⟩
      cases (succeeded exchange member).symm.trans failed
  -- A reload fails only before it publishes, so nobody has been called by then.
  · intro event exchanges reloaded transcript error failed
    exact transcript_reloadWithin_error transcript failed

/-- French resources that cannot be looked up stop each operation after the English ones were loaded. -/
theorem unavailable_french_leaves_store_unchanged :
    let holdings : Holdings := fun _ =>
      { list := fun _ => .ok []
        resources := fun name => if name = "en" then .ok [⟨"memory", "en"⟩] else .error (.other "unavailable")
        read := fun _ => .ok "a=1".toUTF8 }
    let error := MessageError.load "user" Setup.french "fr" (.other "unavailable")
    let served : Snapshot := ⟨[.english, Setup.french], [(Setup.french, ⟨"fr", [], ∅⟩), (.english, ⟨"en", [], ∅⟩)]⟩
    let serving : Store := ⟨.bilingual, .initialized served, [⟨"listener", .record⟩]⟩
    let event := ChangeEvent.ofList ["en"]
    (ofSetup .bilingual).init.run holdings = (.error error, ofSetup .bilingual) ∧
      (serving.publish event).run holdings = (.error error, serving) ∧
      ((serving.reload event).run holdings).store = serving ∧
      ((serving.reload event).run holdings).deliveries = [] := by
  intro holdings error served serving event
  obtain ⟨init, _, _⟩ := failure_leaves_store_unchanged (ofSetup .bilingual)
  obtain ⟨_, publish, reload⟩ := failure_leaves_store_unchanged serving
  have initFails : ((ofSetup .bilingual).init.run holdings).1 = .error error := by cbv
  have publishFails : ((serving.publish event).run holdings).1 = .error error := by cbv
  have reloadFails : ((serving.reload event).run holdings).result = .error error := by cbv
  -- Holdings that stay as they are have the transcript that is recorded.
  have initialized := transcript_recorded holdings (ofSetup .bilingual).init
  have published := transcript_recorded holdings (serving.publish event)
  have reloaded := transcript_recorded holdings (serving.reload event)
  rw [← Prod.eta ((ofSetup .bilingual).init.run holdings), initFails] at initialized
  rw [← Prod.eta ((serving.publish event).run holdings), publishFails] at published
  refine ⟨Prod.ext initFails ?_, Prod.ext publishFails ?_, ?_⟩
  · exact (init _ _ _ initialized).2 error rfl
  · exact (publish event _ _ _ published).2 error rfl
  · exact reload event _ _ reloaded error reloadFails

end MessageCatalogue.Store
