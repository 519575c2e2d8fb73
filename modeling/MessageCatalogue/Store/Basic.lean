import MessageCatalogue.Store.Setup

/-! A store publishes one snapshot after another between its initialization and its destruction. -/

namespace MessageCatalogue

/-- A store has nothing to serve before it is initialized and after it is destroyed. -/
inductive Lifecycle where
  | uninitialized
  | initialized (snapshot : Snapshot)
  | destroyed

/-- What a listener does when it is called, besides being told of the reload. -/
inductive Reaction where
  | record
  | destroy
  | reloadOnce (event : ChangeEvent)
deriving DecidableEq

/-- A listener with the tag that tells it from others. -/
structure Listener where
  tag : String
  reaction : Reaction
deriving DecidableEq

/-- The messages of one source with the listeners to call after each reload. -/
structure Store where
  setup : Setup
  lifecycle : Lifecycle
  listeners : List Listener

namespace Store

/-- A store that has not been initialized and has no listener. -/
def ofSetup (setup : Setup) : Store := ⟨setup, .uninitialized, []⟩

/-- The published snapshot. -/
def snapshot? (store : Store) : Option Snapshot :=
  match store.lifecycle with
  | .initialized snapshot => some snapshot
  | _ => none

/-- Whether a store has been initialized and not destroyed since. -/
def isInitialized (store : Store) : Bool := store.snapshot?.isSome

/-- The message of a code in a locale. -/
def lookup (store : Store) (code : String) (locale : Locale) (arguments : List Argument) :
    Option String :=
  (store.snapshot?.bind (·.text? code locale)).map (formatMessage · arguments)

/-- The supported locales, which are just the default one while nothing is published. -/
def supportedLocales (store : Store) : List Locale :=
  match store.snapshot? with
  | some snapshot => snapshot.locales
  | none => [store.setup.defaultLocale]

/-- The number of messages in each supported locale. -/
def messageCounts (store : Store) : List (Locale × Nat) :=
  match store.snapshot? with
  | some snapshot => snapshot.counts
  | none => []

/-- Whether an identifier of a change concerns a store. -/
def owns (store : Store) (identifier : String) : Bool :=
  match store.snapshot? with
  | some snapshot => snapshot.owns identifier
  | none => false

/-- A store with one more listener. -/
def subscribe (store : Store) (listener : Listener) : Store :=
  { store with listeners := store.listeners ++ [listener] }

/-- A store that serves nothing any more and calls nobody. -/
def destroy (store : Store) : Store := { store with lifecycle := .destroyed, listeners := [] }

/-- The error of a store that has been destroyed. -/
def destroyedError (store : Store) : MessageError := .destroyed store.setup.source

/-- The outcome of initialization, which loads only what has not been loaded, and the store after it. -/
def init (store : Store) : Fetch (Except MessageError Unit × Store) :=
  -- A failure leaves the store uninitialized, so that initialization can be tried again.
  match store.lifecycle with
  | .initialized _ => return (.ok (), store)
  | .destroyed => return (.error store.destroyedError, store)
  | .uninitialized => do
    match ← store.setup.load.run with
    | .ok snapshot => return (.ok (), { store with lifecycle := .initialized snapshot })
    | .error error => return (.error error, store)

/-- The notice of a reload, if an event leads to one, and the store with its snapshot published. -/
def publish (store : Store) (event : ChangeEvent) : Fetch (Except MessageError (Option Notice) × Store) :=
  -- A change to a store that serves nothing yet is no error, and there is nothing to load again.
  match store.lifecycle with
  | .uninitialized => return (.ok none, store)
  | .destroyed => return (.error store.destroyedError, store)
  | .initialized current => do
    match ← (store.setup.refresh current event).run with
    | .ok (some refreshed) =>
      return (.ok (some refreshed.notice), { store with lifecycle := .initialized refreshed.snapshot })
    | .ok none => return (.ok none, store)
    | .error error => return (.error error, store)

end Store

end MessageCatalogue
