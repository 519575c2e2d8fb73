import MessageCatalogue.Proofs.Store.Reachable

/-! How deep the reloads of listeners may nest makes no difference, for each of them uses up one that was pending. -/

namespace MessageCatalogue.Store

open Fetch

variable {store after : Store}

/-- Using up a position changes the listener there and no other one. -/
theorem listeners_spend {position : Nat} (within : position < store.listeners.length) :
    ∃ earlier listener later, store.listeners = earlier ++ listener :: later ∧ earlier.length = position ∧
      (store.spend position).listeners = earlier ++ { listener with reaction := .record } :: later :=
  List.exists_of_modify _ within

/-- A listener that uses up its reload was pending before and is not any more. -/
theorem pendingReloads_spend {position : Nat} {tag : String} {event : ChangeEvent}
    (found : store.listeners[position]? = some ⟨tag, .reloadOnce event⟩) :
    (store.spend position).pendingReloads + 1 = store.pendingReloads := by
  obtain ⟨within, _⟩ := List.getElem?_eq_some_iff.mp found
  obtain ⟨earlier, listener, later, split, length, spent⟩ := listeners_spend within
  obtain rfl : listener = ⟨tag, .reloadOnce event⟩ := by
    simpa [split, ← length] using found
  -- The listeners before and after the position count as they did.
  rw [pendingReloads, pendingReloads, spent, split]
  simp [List.countP_append, Reaction.isReload]
  omega

/-- A position that is used up leaves no more reloads pending than there were. -/
theorem pendingReloads_spend_le (store : Store) (position : Nat) :
    (store.spend position).pendingReloads ≤ store.pendingReloads := by
  by_cases within : position < store.listeners.length
  · obtain ⟨earlier, listener, later, split, _, spent⟩ := listeners_spend within
    rw [pendingReloads, pendingReloads, spent, split]
    simp [List.countP_cons, Reaction.isReload]
  · -- There is no listener at the position.
    rw [spend, List.modify_eq_self (Nat.le_of_not_lt within)]

/-- A publication changes neither the setup nor the listeners of a store. -/
theorem Publication.listeners_eq {event : ChangeEvent} {exchanges : List Exchange}
    {result : Except MessageError (Option Notice)} (publication : Publication store event exchanges result after) :
    after.listeners = store.listeners := by
  cases publication <;> rfl

/-- No step of a reload makes more reloads pending. -/
theorem Step.pendingReloads_le {met : Exchange → Prop} (step : Step met store after) :
    after.pendingReloads ≤ store.pendingReloads := by
  cases step with
  | publish publication each => rw [pendingReloads, publication.listeners_eq, pendingReloads]
  | spend position => exact pendingReloads_spend_le store position
  | destroy subscribed reaction => exact Nat.zero_le _

/-- No course makes more reloads pending. -/
theorem Course.pendingReloads_le {met : Exchange → Prop} (course : Course met store after) :
    after.pendingReloads ≤ store.pendingReloads := by
  induction course with
  | refl => exact Nat.le_refl _
  | tail _ step ih => exact Nat.le_trans step.pendingReloads_le ih

/-- Two ways to reload agree on every store with fewer reloads pending than a bound. -/
def AgreeBelow (bound : Nat) (one other : Store → ChangeEvent → Fetch (Store × List Delivery)) : Prop :=
  ∀ store event, store.pendingReloads < bound → one store event = other store event

/-- A listener does the same under ways to reload that agree on the stores it may reload. -/
theorem react_congr {bound : Nat} {one other : Store → ChangeEvent → Fetch (Store × List Delivery)}
    (agree : AgreeBelow bound one other) (pending : store.pendingReloads ≤ bound) (position : Nat) :
    store.react one position = store.react other position := by
  unfold react
  cases found : store.listeners[position]? with
  | none => rfl
  | some listener =>
    obtain ⟨tag, reaction⟩ := listener
    cases reaction with
    | record => rfl
    | destroy => rfl
    | reloadOnce event =>
      -- The reload that is about to be made is not pending any more.
      have spent := pendingReloads_spend found
      exact agree _ event (by omega)

/-- Listeners do the same under ways to reload that agree on the stores they may reload. -/
theorem notify_congr {bound : Nat} {one other : Store → ChangeEvent → Fetch (Store × List Delivery)}
    (along : LeadsAlong (fun _ => True) one) (agree : AgreeBelow bound one other) (notice : Notice)
    (listeners : List (Listener × Nat)) (pending : store.pendingReloads ≤ bound) :
    notify one notice listeners store = notify other notice listeners store := by
  -- The store that a listener leaves to the next one has no more reloads pending.
  induction listeners generalizing store with
  | nil => rfl
  | cons first rest ih =>
    simp only [notify, bind_eq, react_congr agree pending]
    refine bind_congr_of_transcript ?_
    rintro exchanges ⟨reacted, inner⟩ transcript
    rw [← react_congr agree pending] at transcript
    have fewer := (course_of_react along transcript (fun _ _ => trivial)).pendingReloads_le
    rw [ih (Nat.le_trans fewer pending)]

/-- A reload that lets its listeners reload the store in a given way. -/
def reloadBy (again : Store → ChangeEvent → Fetch (Store × List Delivery)) (store : Store)
    (event : ChangeEvent) : Fetch Reloaded :=
  -- How deep the reloads of listeners are nested is left to the given way.
  (store.publish event).bind fun (result, published) =>
    match result with
    | .error error => .done ⟨.error error, published, []⟩
    | .ok none => .done ⟨.ok .unaffected, published, []⟩
    | .ok (some notice) =>
      (notify again notice published.listeners.zipIdx published).bind fun (finished, deliveries) =>
        .done ⟨.ok ⟨[notice]⟩, finished, deliveries⟩

/-- A reload of bounded depth lets its listeners reload the store one level less deep. -/
theorem reloadWithin_eq_reloadBy (depth : Nat) (store : Store) (event : ChangeEvent) :
    store.reloadWithin depth event = reloadBy (reenter depth) store event := by
  -- What follows a publication depends on its result alone.
  cases depth <;>
  · rw [reloadWithin, reloadBy, bind_eq]
    refine bind_congr_of_transcript ?_
    rintro exchanges ⟨result, published⟩ -
    rcases result with error | notice
    · rfl
    · cases notice <;> rfl

/-- Ways to reload that agree on what listeners may reload make no difference to a reload. -/
theorem reloadBy_congr {bound : Nat} {one other : Store → ChangeEvent → Fetch (Store × List Delivery)}
    (along : LeadsAlong (fun _ => True) one) (agree : AgreeBelow bound one other)
    (pending : store.pendingReloads ≤ bound) (event : ChangeEvent) :
    reloadBy one store event = reloadBy other store event := by
  -- The published store has the listeners of the old one.
  refine bind_congr_of_transcript ?_
  rintro exchanges ⟨result, published⟩ transcript
  have listeners := (publication_of_transcript transcript).listeners_eq
  have fewer : published.pendingReloads ≤ bound := by rwa [pendingReloads, listeners, ← pendingReloads]
  cases result with
  | error error => rfl
  | ok notice =>
    cases notice with
    | none => rfl
    | some notice => simp only [notify_congr along agree notice _ fewer]

/-- Reloads may nest to any depth that covers the pending ones. -/
theorem reloadWithin_congr {depth deeper : Nat} (shallow : store.pendingReloads ≤ depth)
    (deep : store.pendingReloads ≤ deeper) (event : ChangeEvent) :
    store.reloadWithin depth event = store.reloadWithin deeper event := by
  -- The reloads that are nested in one at a depth are nested less deep by one.
  induction depth generalizing store deeper event with
  | zero =>
    have nothing : AgreeBelow 0 (reenter 0) (reenter deeper) := fun _ _ impossible =>
      absurd impossible (Nat.not_lt_zero _)
    rw [reloadWithin_eq_reloadBy, reloadWithin_eq_reloadBy]
    exact reloadBy_congr (leadsAlong_reenter 0) nothing shallow event
  | succ depth ih =>
    have agree : AgreeBelow store.pendingReloads (reenter (depth + 1)) (reenter deeper) := by
      intro nested event fewer
      cases deeper with
      | zero => omega
      | succ deeper => simp only [reenter, ih (by omega) (by omega : nested.pendingReloads ≤ deeper)]
    rw [reloadWithin_eq_reloadBy, reloadWithin_eq_reloadBy]
    exact reloadBy_congr (leadsAlong_reenter _) agree (Nat.le_refl _) event

/-- The reload that a listener makes, of which its store only learns what it left and whom it called. -/
def reloadAgain (store : Store) (event : ChangeEvent) : Fetch (Store × List Delivery) :=
  (store.reload event).bind fun inner => .done (inner.store, inner.deliveries)

/-- A reload lets its listeners make reloads like itself, with no bound on how deep they nest. -/
theorem reload_eq (store : Store) (event : ChangeEvent) :
    store.reload event = reloadBy reloadAgain store event := by
  -- A listener only makes a reload that was pending, so fewer are left for those nested in it.
  have agree : AgreeBelow store.pendingReloads (reenter store.pendingReloads) reloadAgain := by
    intro nested event fewer
    cases pending : store.pendingReloads with
    | zero => omega
    | succ depth =>
      simp only [reenter, reloadAgain, reload]
      rw [reloadWithin_congr (Nat.le_refl _) (by omega : nested.pendingReloads ≤ depth)]
      rfl
  rw [reload, reloadWithin_eq_reloadBy]
  exact reloadBy_congr (leadsAlong_reenter _) agree (Nat.le_refl _) event

end MessageCatalogue.Store
