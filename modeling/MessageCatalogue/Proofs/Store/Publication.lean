import MessageCatalogue.Proofs.Resource.Exchanges
import MessageCatalogue.Proofs.Store.Layers
import MessageCatalogue.Store.Reload

/-! Initializations and publications end in one of a few ways, and listeners that take note add only their calls. -/

namespace MessageCatalogue

open Fetch

/-- Loading whose value is only wrapped has the same exchanges. -/
theorem Loading.transcript_bind_pure {α β : Type} {first : Loading α} {wrap : α → β}
    {exchanges : List Exchange} {answer : Except MessageError β} :
    Transcript (first >>= fun value => pure (wrap value)).run exchanges answer ↔
      ∃ own, Transcript first.run exchanges own ∧ answer = own.map wrap := by
  -- Nothing is asked for after the value is there, nor after an error.
  rw [ExceptT.run_bind]
  constructor
  · intro transcript
    obtain ⟨earlier, later, own, rfl, before, after⟩ := transcript_bind.mp transcript
    refine ⟨own, ?_⟩
    cases own <;>
    · obtain ⟨rfl, rfl⟩ := transcript_done.mp after
      exact ⟨by rwa [List.append_nil], rfl⟩
  · rintro ⟨own, before, rfl⟩
    refine transcript_bind.mpr ⟨exchanges, [], own, (List.append_nil _).symm, before, ?_⟩
    cases own <;> exact transcript_done.mpr ⟨rfl, rfl⟩

namespace Setup

/-- The notice that goes with a snapshot that takes the place of another one. -/
def noticeOf (setup : Setup) (current : Snapshot) (event : ChangeEvent) : Notice :=
  ⟨setup.source, setup.affectedLocales current event, event.changed.filter current.owns⟩

/-- A snapshot that an event affects is refreshed with the exchanges of the refreshing alone. -/
theorem transcript_refresh {setup : Setup} {current : Snapshot} {event : ChangeEvent}
    {exchanges : List Exchange} {answer : Except MessageError (Option Refreshed)} :
    Transcript (setup.refresh current event).run exchanges answer ↔
      if setup.affectedLocales current event = [] then exchanges = [] ∧ answer = .ok none
      else ∃ own, Transcript (setup.refreshSnapshot current (setup.affectedLocales current event)).run exchanges own ∧
        answer = own.map fun snapshot => some ⟨snapshot, setup.noticeOf current event⟩ := by
  -- The notice is put together without asking for anything.
  unfold refresh
  by_cases unaffected : setup.affectedLocales current event = []
  · simp only [unaffected, List.isEmpty_nil, if_true]
    exact transcript_done
  · have affected : (setup.affectedLocales current event).isEmpty = false := by simpa using unaffected
    simp only [affected, Bool.false_eq_true, if_false, if_neg unaffected]
    exact Loading.transcript_bind_pure

end Setup

namespace Store

/-- Only an initialized store has a snapshot. -/
theorem snapshot?_eq_some_iff {store : Store} {current : Snapshot} :
    store.snapshot? = some current ↔ store.lifecycle = .initialized current := by
  unfold snapshot?
  cases store.lifecycle <;> simp

/-- Only a store that serves something owns anything, and it owns what its snapshot owns. -/
theorem serving_of_owns {store : Store} {identifier : String} (owned : store.owns identifier = true) :
    ∃ current, store.lifecycle = .initialized current ∧ current.owns identifier = true := by
  -- Without a snapshot nothing is owned.
  unfold owns snapshot? at owned
  cases lifecycle : store.lifecycle with
  | uninitialized => simp [lifecycle] at owned
  | destroyed => simp [lifecycle] at owned
  | initialized current => exact ⟨current, rfl, by simpa [lifecycle] using owned⟩

/-- The ways in which an initialization ends, with its exchanges, its result and the store after it. -/
inductive Initialization (store : Store) : List Exchange → Except MessageError Unit → Store → Prop where
  | again {current : Snapshot} (serving : store.lifecycle = .initialized current) :
      Initialization store [] (.ok ()) store
  | destroyed (lifecycle : store.lifecycle = .destroyed) : Initialization store [] (.error store.destroyedError) store
  | failed {exchanges : List Exchange} {error : MessageError} (lifecycle : store.lifecycle = .uninitialized)
      (loading : Transcript store.setup.load.run exchanges (.error error)) :
      Initialization store exchanges (.error error) store
  | loaded {exchanges : List Exchange} {snapshot : Snapshot} (lifecycle : store.lifecycle = .uninitialized)
      (loading : Transcript store.setup.load.run exchanges (.ok snapshot)) :
      Initialization store exchanges (.ok ()) { store with lifecycle := .initialized snapshot }

/-- The ways in which a publication ends, with its exchanges, its result and the store after it. -/
inductive Publication (store : Store) (event : ChangeEvent) :
    List Exchange → Except MessageError (Option Notice) → Store → Prop where
  | uninitialized (lifecycle : store.lifecycle = .uninitialized) : Publication store event [] (.ok none) store
  | destroyed (lifecycle : store.lifecycle = .destroyed) :
      Publication store event [] (.error store.destroyedError) store
  | unaffected {current : Snapshot} (serving : store.lifecycle = .initialized current)
      (nothing : store.setup.affectedLocales current event = []) : Publication store event [] (.ok none) store
  | failed {current : Snapshot} {exchanges : List Exchange} {error : MessageError}
      (serving : store.lifecycle = .initialized current)
      (affected : store.setup.affectedLocales current event ≠ [])
      (loading : Transcript (store.setup.refreshSnapshot current
        (store.setup.affectedLocales current event)).run exchanges (.error error)) :
      Publication store event exchanges (.error error) store
  | published {current next : Snapshot} {exchanges : List Exchange}
      (serving : store.lifecycle = .initialized current)
      (affected : store.setup.affectedLocales current event ≠ [])
      (loading : Transcript
        (store.setup.refreshSnapshot current (store.setup.affectedLocales current event)).run exchanges (.ok next)) :
      Publication store event exchanges (.ok (some (store.setup.noticeOf current event)))
        { store with lifecycle := .initialized next }

variable {store after : Store} {event : ChangeEvent} {exchanges : List Exchange}

/-- Every initialization ends in one of these ways. -/
theorem initialization_of_transcript {result : Except MessageError Unit}
    (transcript : Transcript store.init exchanges (result, after)) : Initialization store exchanges result after := by
  -- Only a store that was never initialized loads anything, and what was loaded decides what it becomes.
  unfold init at transcript
  cases lifecycle : store.lifecycle with
  | initialized current =>
    rw [lifecycle] at transcript
    obtain ⟨rfl, rfl, rfl⟩ := transcript_done_mk.mp transcript
    exact .again lifecycle
  | destroyed =>
    rw [lifecycle] at transcript
    obtain ⟨rfl, rfl, rfl⟩ := transcript_done_mk.mp transcript
    exact .destroyed lifecycle
  | uninitialized =>
    rw [lifecycle] at transcript
    obtain ⟨earlier, later, loaded, rfl, before, last⟩ := transcript_bind.mp transcript
    cases loaded with
    | error error =>
      obtain ⟨rfl, rfl, rfl⟩ := transcript_done_mk.mp last
      exact (List.append_nil earlier).symm ▸ .failed lifecycle before
    | ok snapshot =>
      obtain ⟨rfl, rfl, rfl⟩ := transcript_done_mk.mp last
      exact (List.append_nil earlier).symm ▸ .loaded lifecycle before

/-- Every publication ends in one of these ways. -/
theorem publication_of_transcript {result : Except MessageError (Option Notice)}
    (transcript : Transcript (store.publish event) exchanges (result, after)) :
    Publication store event exchanges result after := by
  -- Only an initialized store refreshes its snapshot, and what comes of that decides what it becomes.
  unfold publish at transcript
  cases lifecycle : store.lifecycle with
  | uninitialized =>
    rw [lifecycle] at transcript
    obtain ⟨rfl, rfl, rfl⟩ := transcript_done_mk.mp transcript
    exact .uninitialized lifecycle
  | destroyed =>
    rw [lifecycle] at transcript
    obtain ⟨rfl, rfl, rfl⟩ := transcript_done_mk.mp transcript
    exact .destroyed lifecycle
  | initialized current =>
    rw [lifecycle] at transcript
    obtain ⟨earlier, later, loaded, rfl, before, last⟩ := transcript_bind.mp transcript
    by_cases unaffected : store.setup.affectedLocales current event = []
    · obtain ⟨rfl, rfl⟩ : earlier = [] ∧ loaded = .ok none := by
        simpa only [if_pos unaffected] using Setup.transcript_refresh.mp before
      obtain ⟨rfl, rfl, rfl⟩ := transcript_done_mk.mp last
      exact .unaffected lifecycle unaffected
    · obtain ⟨own, loading, rfl⟩ : ∃ own, Transcript
          (store.setup.refreshSnapshot current (store.setup.affectedLocales current event)).run earlier own ∧
          loaded = own.map fun snapshot => some ⟨snapshot, store.setup.noticeOf current event⟩ := by
        simpa only [if_neg unaffected] using Setup.transcript_refresh.mp before
      cases own with
      | error error =>
        obtain ⟨rfl, rfl, rfl⟩ := transcript_done_mk.mp last
        exact (List.append_nil earlier).symm ▸ .failed lifecycle unaffected loading
      | ok next =>
        obtain ⟨rfl, rfl, rfl⟩ := transcript_done_mk.mp last
        exact (List.append_nil earlier).symm ▸ .published lifecycle unaffected loading

/-- A reload starts with a publication, whose notice or error is that of the reload. -/
theorem publication_of_reloadWithin {depth : Nat} {reloaded : Reloaded}
    (transcript : Transcript (store.reloadWithin depth event) exchanges reloaded) :
    ∃ earlier later result published, exchanges = earlier ++ later ∧
      Publication store event earlier result published ∧
      reloaded.result = result.map fun notice => ⟨notice.toList⟩ := by
  -- Whatever listeners do, they cannot change the result.
  unfold reloadWithin at transcript
  obtain ⟨earlier, later, ⟨result, published⟩, rfl, before, last⟩ := transcript_bind.mp transcript
  refine ⟨earlier, later, result, published, rfl, publication_of_transcript before, ?_⟩
  cases result with
  | error error =>
    obtain ⟨_, rfl⟩ := transcript_done.mp last
    rfl
  | ok notice =>
    cases notice with
    | none =>
      obtain ⟨_, rfl⟩ := transcript_done.mp last
      rfl
    | some notice =>
      obtain ⟨_, _, _, _, _, last⟩ := transcript_bind.mp last
      obtain ⟨_, rfl⟩ := transcript_done.mp last
      rfl

/-- A store is passive when its listeners only take note of its reloads. -/
def IsPassive (store : Store) : Prop := ∀ listener ∈ store.listeners, listener.reaction = .record

instance (store : Store) : Decidable store.IsPassive :=
  inferInstanceAs (Decidable (∀ listener ∈ store.listeners, listener.reaction = .record))

/-- The calls of the listeners of a store with a notice. -/
def callsWith (store : Store) (notice : Notice) : List Delivery :=
  store.listeners.map fun listener => ⟨listener.tag, notice⟩

/-- The listeners of a passive store are called one after the other and leave it as it is. -/
theorem notify_of_passive (passive : store.IsPassive)
    (again : Store → ChangeEvent → Fetch (Store × List Delivery)) (notice : Notice)
    (listeners : List (Listener × Nat)) :
    notify again notice listeners store =
      .done (store, listeners.map fun listener => ⟨listener.1.tag, notice⟩) := by
  -- Whichever position is called, no listener there does anything.
  have still : ∀ position, store.react again position = .done (store, []) := by
    intro position
    unfold react
    cases found : store.listeners[position]? with
    | none => rfl
    | some listener =>
      have reaction := passive listener (List.mem_of_getElem? found)
      obtain ⟨tag, _⟩ := listener
      obtain rfl : _ = Reaction.record := reaction
      rfl
  induction listeners with
  | nil => rfl
  | cons first rest ih =>
    simp only [notify, still, ih, bind_eq, done_bind, pure_eq, List.nil_append, List.map_cons]

/-- A reload of a passive store is a publication with the calls of all listeners after it. -/
theorem transcript_reload_of_passive (passive : store.IsPassive) {reloaded : Reloaded}
    (transcript : Transcript (store.reload event) exchanges reloaded) :
    ∃ result, Publication store event exchanges result reloaded.store ∧
      reloaded.result = result.map (fun notice => ⟨notice.toList⟩) ∧
      reloaded.deliveries = match result with
        | .ok (some notice) => store.callsWith notice
        | _ => [] := by
  -- The published store has the listeners of the old one, and they are passive.
  unfold reload reloadWithin at transcript
  obtain ⟨earlier, later, ⟨result, published⟩, rfl, before, last⟩ := transcript_bind.mp transcript
  have publication := publication_of_transcript before
  refine ⟨result, ?_⟩
  cases publication with
  | uninitialized lifecycle =>
    obtain ⟨rfl, rfl⟩ := transcript_done.mp last
    exact ⟨.uninitialized lifecycle, rfl, rfl⟩
  | destroyed lifecycle =>
    obtain ⟨rfl, rfl⟩ := transcript_done.mp last
    exact ⟨.destroyed lifecycle, rfl, rfl⟩
  | unaffected serving nothing =>
    obtain ⟨rfl, rfl⟩ := transcript_done.mp last
    exact ⟨.unaffected serving nothing, rfl, rfl⟩
  | failed serving affected loading =>
    obtain ⟨rfl, rfl⟩ := transcript_done.mp last
    exact ⟨(List.append_nil earlier).symm ▸ .failed serving affected loading, rfl, rfl⟩
  | @published current next _ serving affected loading =>
    have still : IsPassive { store with lifecycle := .initialized next } := passive
    simp only [notify_of_passive still, bind_eq, done_bind] at last
    obtain ⟨rfl, rfl⟩ := transcript_done.mp last
    refine ⟨(List.append_nil earlier).symm ▸ .published serving affected loading, rfl, ?_⟩
    -- Positions play no part in what the listeners are told.
    let notice := store.setup.noticeOf current event
    calc store.listeners.zipIdx.map (fun listener => (⟨listener.1.tag, notice⟩ : Delivery))
      _ = (store.listeners.zipIdx.map Prod.fst).map fun listener => ⟨listener.tag, notice⟩ := by
        rw [List.map_map]; rfl
      _ = store.callsWith notice := by rw [List.zipIdx_map_fst, callsWith]

end Store

end MessageCatalogue
