import MessageCatalogue.Proofs.Resource.Loader
import MessageCatalogue.Proofs.Resource.Transcript

/-! Loading succeeds only through exchanges of the kinds that it needs, none of which has failed. -/

namespace MessageCatalogue

namespace Exchange

/-- Whether a request was answered by a fault. -/
def hasFailed : Exchange → Bool
  -- The fault stands in the answer to each kind of request.
  | ⟨_, .list _, .error _⟩ => true
  | ⟨_, .resources _, .error _⟩ => true
  | ⟨_, .read _, .error _⟩ => true
  | _ => false

/-- Whether a resource was found or read, which is all that the messages of a known locale take. -/
def isLoad : Exchange → Bool
  | ⟨_, .resources _, .ok _⟩ => true
  | ⟨_, .read _, .ok _⟩ => true
  | _ => false

/-- A resource that was found or read did not fail. -/
theorem hasFailed_of_isLoad {exchange : Exchange} (load : exchange.isLoad = true) :
    exchange.hasFailed = false := by
  -- A listing is no load, and a fault is none either.
  obtain ⟨collection, request, answer⟩ := exchange
  cases request <;> cases answer <;> first | rfl | cases load

end Exchange

namespace Loading

open Fetch

variable {α β : Type} {allowed : Exchange → Prop}

/-- Loading succeeds only after exchanges that are all allowed. -/
def Only (allowed : Exchange → Prop) (loading : Loading α) : Prop :=
  ∀ exchanges value, Transcript loading.run exchanges (.ok value) → ∀ exchange ∈ exchanges, allowed exchange

/-- Allowing more exchanges does no harm. -/
theorem Only.mono {more : Exchange → Prop} {loading : Loading α} (only : Only allowed loading)
    (weaker : ∀ exchange, allowed exchange → more exchange) : Only more loading := by
  intro exchanges value transcript exchange member
  exact weaker exchange (only exchanges value transcript exchange member)

/-- Loading that succeeds makes requests only for exchanges that are allowed. -/
theorem Only.requests {loading : Loading α} (only : Only allowed loading) {holdings : Holdings} {value : α}
    (succeeded : outcome holdings loading = .ok value) {asked : Collection × Request}
    (member : asked ∈ loading.run.requests holdings) :
    ∃ exchange, allowed exchange ∧ asked = (exchange.collection, exchange.request) := by
  -- The exchanges that were recorded are a transcript of the loading.
  rw [requests_eq_recorded] at member
  obtain ⟨exchange, recorded, rfl⟩ := List.mem_map.mp member
  have transcript := transcript_recorded holdings loading.run
  exact ⟨exchange, only _ value (succeeded ▸ transcript) exchange recorded, rfl⟩

theorem only_pure (value : α) : Only allowed (pure value) := by
  intro exchanges own transcript
  obtain ⟨rfl, _⟩ := transcript_done.mp transcript
  simp

theorem only_throw (error : MessageError) : Only allowed (throw error : Loading α) := by
  intro exchanges own transcript
  obtain ⟨_, impossible⟩ := transcript_done.mp transcript
  cases impossible

theorem only_ofExcept (result : Except MessageError α) : Only allowed (ofExcept result) := by
  intro exchanges own transcript
  obtain ⟨rfl, _⟩ := transcript_done.mp transcript
  simp

/-- Two steps in a row need no more than each of them does. -/
theorem only_bind {first : Loading α} {continuation : α → Loading β} (one : Only allowed first)
    (other : ∀ value, Only allowed (continuation value)) : Only allowed (first >>= continuation) := by
  -- The second step is only taken after the first one succeeded.
  intro exchanges value transcript exchange member
  rw [ExceptT.run_bind] at transcript
  obtain ⟨earlier, later, middle, rfl, before, after⟩ := transcript_bind.mp transcript
  cases middle with
  | error error =>
    obtain ⟨_, impossible⟩ := transcript_done.mp after
    cases impossible
  | ok middle =>
    rcases List.mem_append.mp member with member | member
    · exact one earlier middle before exchange member
    · exact other middle later value after exchange member

/-- Asking for something needs what a successful answer to it takes. -/
theorem only_ofRequest {toError : ResourceFault → MessageError} {asked : Fetch (Except ResourceFault α)}
    (answered : ∀ exchanges value, Transcript asked exchanges (.ok value) →
      ∀ exchange ∈ exchanges, allowed exchange) : Only allowed (ofRequest toError asked) := by
  -- A fault as the answer ends in an error.
  intro exchanges value transcript exchange member
  obtain ⟨earlier, later, answer, rfl, before, after⟩ := transcript_bind.mp transcript
  obtain ⟨rfl, own⟩ := transcript_done.mp after
  cases answer with
  | error fault => cases own
  | ok found => exact answered earlier found before exchange (by simpa using member)

/-- A step for each element of a list needs no more than each of these steps does. -/
theorem only_mapM {step : α → Loading β} (each : ∀ element, Only allowed (step element))
    (elements : List α) : Only allowed (elements.mapM step) := by
  -- The first step comes before the rest, as in any two steps in a row.
  induction elements with
  | nil => exact only_pure []
  | cons element rest ih =>
    rw [List.mapM_cons]
    exact only_bind (each element) fun _ => only_bind ih fun _ => only_pure _

end Loading

namespace Loader

open Loading

variable (loader : Loader) (source : String)

/-- A resource is loaded by reading it. -/
theorem only_loadOne (locale : Locale) (id : ResourceId) :
    Only (·.isLoad) (loader.loadOne source locale id) := by
  refine only_bind (only_ofRequest fun exchanges bytes transcript => ?_) fun _ => only_ofExcept _
  obtain rfl := Fetch.transcript_request.mp transcript
  simp [Exchange.isLoad]

/-- The resources of a locale are loaded by finding them and reading each of them. -/
theorem only_loadAll (locale : Locale) : Only (·.isLoad) (loader.loadAll source locale) := by
  refine only_bind (only_ofRequest fun exchanges ids transcript => ?_) fun ids => ?_
  · obtain rfl := Fetch.transcript_request.mp transcript
    simp [Exchange.isLoad]
  · rw [loadEach_eq_mapM]
    exact only_mapM (only_loadOne loader source locale) ids

theorem only_loadMerged (locale : Locale) : Only (·.isLoad) (loader.loadMerged source locale) :=
  only_bind (only_loadAll loader source locale) fun _ => only_pure _

/-- Locales are discovered only in a directory that can be listed. -/
theorem only_discoverLocales : Only (·.hasFailed = false) (loader.discoverLocales source) := by
  refine only_bind (only_ofRequest fun exchanges files transcript => ?_) fun _ => only_pure _
  obtain rfl := Fetch.transcript_request.mp transcript
  simp [Exchange.hasFailed]

end Loader

end MessageCatalogue
