import MessageCatalogue.Source.Basic

/-! A composite passes initialization, destruction and changes on to its members and gathers their errors. -/

namespace MessageCatalogue.Source

/-- An error, if there is one, in front of others. -/
def withError {α : Type} (result : Except MessageError α) (errors : List MessageError) :
    List MessageError :=
  -- The errors keep the order of the sources.
  match result with
  | .ok _ => errors
  | .error error => error :: errors

/-- A value, unless there were errors. -/
def unlessErrors {α : Type} (value : α) (errors : List MessageError) : Except MessageError α :=
  match MessageError.combined? errors with
  | none => .ok value
  | some error => .error error

mutual

/-- The outcome of initializing a source and the registry after it. -/
def init : Source → Registry → Fetch (Except MessageError Unit × Registry)
  -- A silent source has nothing to initialize.
  | .store key, registry => registry.initStore key
  | .silent _, registry => return (.ok (), registry)
  | .composite _ _ _ members, registry => do
    let (errors, initialized) ← initAll members registry
    return (unlessErrors () errors, initialized)

/-- The errors of initializing sources one after the other, where none of them stops the others. -/
def initAll : List Source → Registry → Fetch (List MessageError × Registry)
  -- The registry is handed on from each source to the next, errors or not.
  | [], registry => return ([], registry)
  | first :: rest, registry => do
    let (result, initialized) ← init first registry
    let (errors, finished) ← initAll rest initialized
    return (withError result errors, finished)

end

mutual

/-- The registry after every store of a source is destroyed. -/
def destroy : Source → Registry → Registry
  | .store key, registry => registry.modify key Store.destroy
  | .silent _, registry => registry
  | .composite _ _ _ members, registry => destroyAll members registry

/-- The registry after several sources are destroyed. -/
def destroyAll : List Source → Registry → Registry
  | [], registry => registry
  | first :: rest, registry => destroyAll rest (destroy first registry)

end

/-- Whether an event names a resource of a source. -/
def isTouchedBy (registry : Registry) (event : ChangeEvent) (source : Source) : Bool :=
  event.changed.any fun identifier => owns registry identifier source

mutual

/-- The outcome of a change for a source and the registry after it. -/
def reload (event : ChangeEvent) : Source → Registry →
    Fetch (Except MessageError ReloadOutcome × Registry)
  -- The stores of a composite are reached through its members, as far as these own the change.
  | .store key, registry => registry.reloadStore key event
  | .silent _, registry => return (.ok .unaffected, registry)
  | .composite _ _ _ members, registry => do
    let (outcome, errors, reloaded) ← reloadOwners event members registry
    return (unlessErrors outcome errors, reloaded)

/-- The notices and errors of a change for those sources that it concerns, one after the other. -/
def reloadOwners (event : ChangeEvent) : List Source → Registry →
    Fetch (ReloadOutcome × List MessageError × Registry)
  -- A member is passed over when the change does not concern it as it is after those before it.
  | [], registry => return (.unaffected, [], registry)
  | first :: rest, registry =>
    if isTouchedBy registry event first then do
      let (result, reloaded) ← reload event first registry
      let (outcome, errors, finished) ← reloadOwners event rest reloaded
      match result with
      | .ok own => return (own.merge outcome, errors, finished)
      | .error error => return (outcome, error :: errors, finished)
    else reloadOwners event rest registry

end

end MessageCatalogue.Source
