import MessageCatalogue.Store.Reload

/-! A registry keeps the stores that several sources may share, and the calls their listeners received. -/

namespace MessageCatalogue

/-- The number under which a registry keeps a store. -/
abbrev StoreKey : Type := Nat

/-- Stores under the numbers of their positions, with the calls of their listeners so far. -/
structure Registry where
  stores : List Store
  deliveries : List Delivery

/-- What stands for a store that no registry keeps, which serves nothing. -/
def Store.absent : Store := ⟨⟨"", .standard, .english, some []⟩, .destroyed, []⟩

namespace Registry

/-- A registry without stores. -/
def empty : Registry := ⟨[], []⟩

/-- The store under a number. -/
def store (registry : Registry) (key : StoreKey) : Store := (registry.stores[key]?).getD Store.absent

/-- The number that the next store receives. -/
def nextKey (registry : Registry) : StoreKey := registry.stores.length

/-- A registry with more stores, whose numbers follow those in use. -/
def add (registry : Registry) (stores : List Store) : Registry :=
  { registry with stores := registry.stores ++ stores }

/-- A registry with another store under a number. -/
def set (registry : Registry) (key : StoreKey) (store : Store) : Registry :=
  { registry with stores := registry.stores.set key store }

/-- A registry with a store changed in place. -/
def modify (registry : Registry) (key : StoreKey) (change : Store → Store) : Registry :=
  registry.set key (change (registry.store key))

/-- A registry in which the calls so far have been collected. -/
def clearDeliveries (registry : Registry) : Registry := { registry with deliveries := [] }

/-- The outcome of initializing a store in a registry. -/
def initStore (registry : Registry) (key : StoreKey) : Fetch (Except MessageError Unit × Registry) := do
  let (result, store) ← (registry.store key).init
  return (result, registry.set key store)

/-- The outcome of reloading a store in a registry, where the calls of listeners are kept. -/
def reloadStore (registry : Registry) (key : StoreKey) (event : ChangeEvent) :
    Fetch (Except MessageError ReloadOutcome × Registry) := do
  -- What the listeners of a store were told joins what others were told before.
  let reloaded ← (registry.store key).reload event
  let changed := registry.set key reloaded.store
  return (reloaded.result, { changed with deliveries := changed.deliveries ++ reloaded.deliveries })

end Registry

end MessageCatalogue
