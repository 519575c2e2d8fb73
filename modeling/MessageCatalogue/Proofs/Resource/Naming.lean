import MessageCatalogue.Proofs.Resource.Copies
import MessageCatalogue.Proofs.Resource.Entries
import MessageCatalogue.Proofs.Resource.Transcript
import MessageCatalogue.Resource.Directories

/-! Loading takes only copies that carry the logical name it asks for, when every answer has only such copies. -/

namespace MessageCatalogue

/-- Every copy found under a logical name, if the request was for one, carries that name. -/
def Exchange.KeepsNames : Exchange → Prop
  | ⟨_, .resources name, .ok ids⟩ => ∀ id ∈ ids, id.name = name
  | _ => True

namespace Enumerator

/-- Every copy below root directories carries the logical name under which it was found. -/
theorem keepsNames_directories (rootAt : Directories.Roots) (roots : List String) :
    (Directories.enumerator rootAt roots).KeepsNames := by
  intro name ids found
  have below : Directories.copiesBelow rootAt name roots = .ok ids := found
  -- Each root adds at most one copy, which is put together from the root and the name.
  induction roots generalizing ids with
  | nil =>
    cases below
    simp
  | cons root rest ih =>
    rw [Directories.copiesBelow] at below
    cases opened : Directories.openRoot rootAt root with
    | error fault => simp [opened, Bind.bind, Except.bind] at below
    | ok entry =>
      cases others : Directories.copiesBelow rootAt name rest with
      | error fault => simp [opened, others, Bind.bind, Except.bind] at below
      | ok copies =>
        have carried := ih copies others others
        cases entry with
        | none =>
          -- A missing root adds nothing.
          simp only [opened, others, Bind.bind, Except.bind, Pure.pure, Except.pure, Except.ok.injEq] at below
          exact below ▸ carried
        | some directory =>
          simp only [opened, others, Bind.bind, Except.bind, Pure.pure, Except.pure, Except.ok.injEq] at below
          -- A directory adds the copy it has, if any.
          subst below
          intro id member
          by_cases held : Directories.hasFile directory name = true
          · rw [if_pos held] at member
            rcases List.mem_cons.mp member with rfl | member
            · rfl
            · exact carried id member
          · rw [if_neg held] at member
            exact carried id member

end Enumerator

/-- Enumerators that keep names answer so that every exchange does. -/
theorem Exchange.IsFrom.keepsNames {holdings : Holdings} (keep : ∀ collection, (holdings collection).KeepsNames)
    {exchange : Exchange} (own : exchange.IsFrom holdings) : exchange.KeepsNames := by
  obtain ⟨collection, request, answer⟩ := exchange
  obtain rfl : answer = (holdings collection).answer request := own
  -- Only what is found under a name is of any concern.
  cases request with
  | list directory => trivial
  | read id => trivial
  | resources name =>
    show Exchange.KeepsNames ⟨collection, .resources name, (holdings collection).resources name⟩
    cases found : (holdings collection).resources name with
    | error fault => trivial
    | ok ids => exact keep collection name ids found

/-- Every exchange that is recorded with enumerators that keep names does. -/
theorem Fetch.keepsNames_recorded {holdings : Holdings} (keep : ∀ collection, (holdings collection).KeepsNames)
    {α : Type} (computation : Fetch α) :
    ∀ exchange ∈ (computation.recorded.run holdings).2, exchange.KeepsNames :=
  fun exchange member => (isFrom_recorded holdings computation exchange member).keepsNames keep

namespace Loading

open Fetch

variable {α β : Type} {met : Exchange → Prop}

/-- Loading succeeds only with values of some property, as long as its exchanges are of some kind. -/
def Yields (met : Exchange → Prop) (property : α → Prop) (loading : Loading α) : Prop :=
  ∀ exchanges value, Transcript loading.run exchanges (.ok value) → (∀ exchange ∈ exchanges, met exchange) →
    property value

variable {property : α → Prop}

theorem yields_pure {value : α} (own : property value) : Yields met property (pure value) := by
  -- Nothing is asked for, and the value is there already.
  intro exchanges other transcript _
  obtain ⟨_, same⟩ := transcript_done.mp transcript
  exact Except.ok.inj same ▸ own

theorem yields_throw (error : MessageError) : Yields met property (throw error : Loading α) := by
  -- An error is never a value.
  intro exchanges other transcript _
  obtain ⟨_, impossible⟩ := transcript_done.mp transcript
  cases impossible

theorem yields_ofExcept {result : Except MessageError α} (own : ∀ value, result = .ok value → property value) :
    Yields met property (ofExcept result) := by
  intro exchanges value transcript _
  obtain ⟨_, same⟩ := transcript_done.mp transcript
  exact own value same.symm

/-- A request yields what its answers of the kind give. -/
theorem yields_ofRequest {toError : ResourceFault → MessageError} {asked : Fetch (Except ResourceFault α)}
    (answered : ∀ exchanges value, Transcript asked exchanges (.ok value) →
      (∀ exchange ∈ exchanges, met exchange) → property value) :
    Yields met property (ofRequest toError asked) := by
  -- A fault as the answer ends in an error.
  intro exchanges value transcript each
  obtain ⟨earlier, later, answer, rfl, before, after⟩ := transcript_bind.mp transcript
  obtain ⟨rfl, own⟩ := transcript_done.mp after
  rw [List.append_nil] at each
  cases answer with
  | error fault => cases own
  | ok found => exact Except.ok.inj own ▸ answered earlier found before each

/-- Two steps in a row yield what the second one makes of the values of the first one. -/
theorem yields_bind {middle : α → Prop} {last : β → Prop} {first : Loading α} {continuation : α → Loading β}
    (one : Yields met middle first) (other : ∀ value, middle value → Yields met last (continuation value)) :
    Yields met last (first >>= continuation) := by
  -- The second step is only taken after the first one succeeded.
  intro exchanges value transcript each
  rw [ExceptT.run_bind] at transcript
  obtain ⟨earlier, later, between, rfl, before, after⟩ := transcript_bind.mp transcript
  obtain ⟨here, onward⟩ := List.forall_mem_append.mp each
  cases between with
  | error error =>
    obtain ⟨_, impossible⟩ := transcript_done.mp after
    cases impossible
  | ok own => exact other own (one earlier own before here) later value after onward

/-- A step for each element of a list yields a value of its property for each of them. -/
theorem yields_mapM {step : α → Loading β} {relation : α → β → Prop} {elements : List α}
    (each : ∀ element ∈ elements, Yields met (relation element) (step element)) :
    Yields met (List.Forall₂ relation elements) (elements.mapM step) := by
  -- The first step comes before the rest, as in any two steps in a row.
  induction elements with
  | nil => exact yields_pure .nil
  | cons element rest ih =>
    rw [List.mapM_cons]
    have others := ih fun other member => each other (List.mem_cons_of_mem element member)
    exact yields_bind (each element List.mem_cons_self) fun _ own =>
      yields_bind others fun _ all => yields_pure (.cons own all)

end Loading

namespace Loader

open Loading

variable {met : Exchange → Prop} (loader : Loader) (source : String) (locale : Locale)

/-- A loaded resource is the one that was asked for. -/
theorem yields_loadOne (id : ResourceId) : Yields met (·.id = id) (loader.loadOne source locale id) := by
  -- Whatever bytes are read, the resource is put together for the copy that they were read from.
  have reading : Yields met (fun _ => True) (ofRequest (.load source locale id.text)
      (Fetch.request loader.collection (.read id))) := yields_ofRequest fun _ _ _ _ => trivial
  exact yields_bind reading fun bytes _ => yields_ofExcept fun resource interpreted => (interpret_ok interpreted).1

/-- The resources of a locale carry its logical name when the copies do that are found under it. -/
theorem yields_loadAll : Yields Exchange.KeepsNames
    (fun resources => ∀ resource ∈ resources, resource.id.name = loader.resourceName source locale)
    (loader.loadAll source locale) := by
  have finding : Yields Exchange.KeepsNames (fun ids => ∀ id ∈ ids, id.name = loader.resourceName source locale)
      (ofRequest (.load source locale (loader.resourceName source locale))
        (Fetch.request loader.collection (.resources (loader.resourceName source locale)))) := by
    -- The only exchange of the request holds the copies as its answer.
    refine yields_ofRequest fun exchanges ids transcript each => ?_
    obtain rfl := Fetch.transcript_request.mp transcript
    exact each _ List.mem_cons_self
  refine yields_bind finding fun ids carried => ?_
  rw [loadEach_eq_mapM]
  -- Each resource is loaded for one of the copies that were found.
  have loading : Yields Exchange.KeepsNames (List.Forall₂ (fun id resource => resource.id = id) ids)
      (ids.mapM (loader.loadOne source locale)) := yields_mapM fun id _ => yields_loadOne loader source locale id
  intro exchanges resources transcript each
  have own := (List.forall₂_and_left ids resources).mpr ⟨carried, loading exchanges resources transcript each⟩
  have named := own.flip.imp fun resource id ⟨name, same⟩ =>
    show resource.id.name = loader.resourceName source locale ∧ True from ⟨same ▸ name, trivial⟩
  exact ((List.forall₂_and_left resources ids).mp named).1

/-- The messages of a locale come from resources of its logical name. -/
theorem yields_loadMerged : Yields Exchange.KeepsNames
    (fun merged => ∀ own, merged = some own → ∀ id ∈ own.resources, id.name = loader.resourceName source locale)
    (loader.loadMerged source locale) := by
  -- Merged messages list the resources that were loaded, in their order.
  refine yields_bind (yields_loadAll loader source locale) fun resources named => yields_pure ?_
  intro own merged id member
  unfold mergeResources? at merged
  split at merged
  · cases merged
  · obtain rfl := Option.some.inj merged
    obtain ⟨resource, loaded, rfl⟩ := List.mem_map.mp member
    exact named resource loaded

end Loader

end MessageCatalogue
