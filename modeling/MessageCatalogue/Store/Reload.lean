import MessageCatalogue.Store.Basic

/-! A reload calls every listener, and a listener may destroy the store or reload it once more. -/

namespace MessageCatalogue

/-- A call of the listener with a tag. -/
structure Delivery where
  tag : String
  notice : Notice
deriving DecidableEq, Repr

/-- What a reload returned, with the store after it and the calls of listeners that it led to. -/
structure Reloaded where
  result : Except MessageError ReloadOutcome
  store : Store
  deliveries : List Delivery

namespace Reaction

/-- Whether a listener will reload its store when it is called. -/
def isReload : Reaction → Bool
  | .reloadOnce _ => true
  | _ => false

end Reaction

namespace Store

/-- The number of listeners that will reload the store when they are called. -/
def pendingReloads (store : Store) : Nat := store.listeners.countP (·.reaction.isReload)

/-- A store in which a listener has used up its reload. -/
def spend (store : Store) (position : Nat) : Store :=
  { store with listeners := store.listeners.modify position fun listener => { listener with reaction := .record } }

/-- What the listener at a position does to the store, where further reloads run as given. -/
def react (again : Store → ChangeEvent → Fetch (Store × List Delivery)) (position : Nat)
    (store : Store) : Fetch (Store × List Delivery) :=
  -- A listener that is gone or has used up its reload leaves the store alone.
  match store.listeners[position]? with
  | some ⟨_, .destroy⟩ => return (store.destroy, [])
  | some ⟨_, .reloadOnce event⟩ => again (store.spend position) event
  | some ⟨_, .record⟩ => return (store, [])
  | none => return (store, [])

/-- The calls of some listeners with their positions, each followed by what it leads to. -/
def notify (again : Store → ChangeEvent → Fetch (Store × List Delivery)) (notice : Notice) :
    List (Listener × Nat) → Store → Fetch (Store × List Delivery)
  -- A listener may change the store, which the listeners after it then find changed.
  | [], store => return (store, [])
  | (listener, position) :: rest, store => do
    let (reacted, inner) ← store.react again position
    let (finished, later) ← notify again notice rest reacted
    return (finished, ⟨listener.tag, notice⟩ :: (inner ++ later))

/-- A reload in which listeners may reload the store again a bounded number of levels deep. -/
def reloadWithin (depth : Nat) (store : Store) (event : ChangeEvent) : Fetch Reloaded := do
  -- Listeners are called after the snapshot is published, and all that were subscribed at that moment.
  let (result, published) ← store.publish event
  match result with
  | .error error => return ⟨.error error, published, []⟩
  | .ok none => return ⟨.ok .unaffected, published, []⟩
  | .ok (some notice) =>
    let again : Store → ChangeEvent → Fetch (Store × List Delivery) :=
      match depth with
      | 0 => fun store _ => return (store, [])
      | depth + 1 => fun store event => do
        let inner ← reloadWithin depth store event
        return (inner.store, inner.deliveries)
    let (finished, deliveries) ← notify again notice published.listeners.zipIdx published
    return ⟨.ok ⟨[notice]⟩, finished, deliveries⟩

/-- A reload of whatever part of the source an event concerns. -/
def reload (store : Store) (event : ChangeEvent) : Fetch Reloaded :=
  -- Each listener reloads at most once, so reloads nest no deeper than there are such listeners.
  reloadWithin store.pendingReloads store event

end Store

end MessageCatalogue
