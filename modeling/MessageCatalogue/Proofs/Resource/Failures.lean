import MessageCatalogue.Proofs.Error
import MessageCatalogue.Proofs.Outcome
import MessageCatalogue.Proofs.Resource.Loader
import MessageCatalogue.Proofs.Resource.Transcript

/-! Loading that fails says so with one error, whatever it was that failed. -/

namespace MessageCatalogue

open Fetch

namespace Loading

variable {α β : Type} {allowed : MessageError → Prop}

/-- Loading fails only with errors of some kind, whatever the answers to its requests. -/
def FailsWith (allowed : MessageError → Prop) (loading : Loading α) : Prop :=
  ∀ exchanges error, Transcript loading.run exchanges (.error error) → allowed error

theorem failsWith_pure (value : α) : FailsWith allowed (pure value) := by
  intro exchanges error transcript
  obtain ⟨_, impossible⟩ := transcript_done.mp transcript
  cases impossible

theorem failsWith_ofExcept {result : Except MessageError α}
    (each : ∀ error, result = .error error → allowed error) : FailsWith allowed (ofExcept result) := by
  intro exchanges error transcript
  obtain ⟨_, same⟩ := transcript_done.mp transcript
  exact each error same.symm

theorem failsWith_throw {error : MessageError} (own : allowed error) :
    FailsWith allowed (throw error : Loading α) :=
  failsWith_ofExcept fun _ same => Except.error.inj same ▸ own

/-- A request fails with the error that stands for its fault. -/
theorem failsWith_ofRequest {toError : ResourceFault → MessageError} {asked : Fetch (Except ResourceFault α)}
    (each : ∀ fault, allowed (toError fault)) : FailsWith allowed (ofRequest toError asked) := by
  -- An answer without a fault ends in a value.
  intro exchanges error transcript
  obtain ⟨earlier, later, answer, rfl, before, after⟩ := transcript_bind.mp transcript
  obtain ⟨rfl, own⟩ := transcript_done.mp after
  cases answer with
  | error fault => exact Except.error.inj own ▸ each fault
  | ok found => cases own

/-- Two steps in a row fail with an error of either. -/
theorem failsWith_bind {first : Loading α} {continuation : α → Loading β} (one : FailsWith allowed first)
    (other : ∀ value, FailsWith allowed (continuation value)) : FailsWith allowed (first >>= continuation) := by
  -- The second step is only taken after the first one succeeded.
  intro exchanges error transcript
  rw [ExceptT.run_bind] at transcript
  obtain ⟨earlier, later, middle, rfl, before, after⟩ := transcript_bind.mp transcript
  cases middle with
  | error own =>
    obtain ⟨_, same⟩ := transcript_done.mp after
    exact Except.error.inj same ▸ one earlier own before
  | ok middle => exact other middle later error after

/-- A step for each element of a list fails with an error of one of these steps. -/
theorem failsWith_mapM {step : α → Loading β} (each : ∀ element, FailsWith allowed (step element))
    (elements : List α) : FailsWith allowed (elements.mapM step) := by
  -- The first step comes before the rest, as in any two steps in a row.
  induction elements with
  | nil => exact failsWith_pure []
  | cons element rest ih =>
    rw [List.mapM_cons]
    exact failsWith_bind (each element) fun _ => failsWith_bind ih fun _ => failsWith_pure _

end Loading

namespace Loader

open Loading

variable (loader : Loader) (source : String)

/-- Unusable codes are reported one at a time. -/
theorem single_of_checkCodes {id : ResourceId} {entries : List Properties.Entry} {error : MessageError}
    (invalid : checkCodes source id entries = .error error) : error.isAggregate = false := by
  -- The first unusable code ends the check.
  induction entries with
  | nil => cases invalid
  | cons entry rest ih =>
    unfold checkCodes at invalid
    split at invalid
    · cases invalid
      rfl
    · exact ih invalid

/-- A resource that cannot be interpreted fails for one reason. -/
theorem single_of_interpret {locale : Locale} {id : ResourceId} {bytes : ByteArray} {error : MessageError}
    (refused : loader.interpret source locale id bytes = .error error) : error.isAggregate = false := by
  -- Decoding, parsing and checking follow each other, and the first of them to fail is reported.
  simp only [interpret, bind_error_iff, mapError_error_iff] at refused
  rcases refused with
    ⟨malformed, _, rfl⟩ | ⟨text, _, ⟨malformed, _, rfl⟩ | ⟨entries, _, invalid | ⟨_, _, impossible⟩⟩⟩
  · rfl
  · rfl
  · exact single_of_checkCodes source invalid
  · cases impossible

/-- The resources of a locale fail to load for one reason. -/
theorem failsWith_loadMerged (locale : Locale) :
    FailsWith (·.isAggregate = false) (loader.loadMerged source locale) := by
  -- Finding, reading and interpreting all report what they fail with by itself.
  have one : ∀ id, FailsWith (·.isAggregate = false) (loader.loadOne source locale id) := fun id =>
    failsWith_bind (failsWith_ofRequest fun _ => rfl) fun bytes =>
      failsWith_ofExcept fun _ refused => single_of_interpret loader source refused
  refine failsWith_bind (failsWith_bind (failsWith_ofRequest fun _ => rfl) fun ids => ?_)
    fun _ => failsWith_pure _
  rw [loadEach_eq_mapM]
  exact failsWith_mapM one ids

/-- The locales of a source fail to be discovered for one reason. -/
theorem failsWith_discoverLocales : FailsWith (·.isAggregate = false) (loader.discoverLocales source) :=
  failsWith_bind (failsWith_ofRequest fun _ => rfl) fun _ => failsWith_pure _

end Loader

end MessageCatalogue
