import MessageCatalogue.CommandLine.LogEvent
import MessageCatalogue.Resource.Directories
import MessageCatalogue.Resource.Exchange
import MessageCatalogue.Source.Basic

/-! What there is to log about stores and their sources is read off what was asked, answered and found. -/

namespace MessageCatalogue

/-- The events of an exchange that loads a store of some setup. -/
def Exchange.events (setup : Setup) : Exchange → List LogEvent
  -- A listing is noted for the files that reveal no locale of the source.
  | ⟨_, .list _, .ok files⟩ =>
    (files.filter fun file => (setup.loader.pattern.localeOfFile? setup.source file).isNone).map
      fun _ => .fileIgnored
  -- The missing resource of the default locale is an error and not an event.
  | ⟨_, .resources name, .ok []⟩ =>
    if name = setup.loader.resourceName setup.source setup.defaultLocale then [] else [.defaultsServed]
  | ⟨_, .read id, .ok bytes⟩ =>
    -- A resource is noted once its text and its codes have proved usable.
    if (setup.loader.interpret setup.source setup.defaultLocale id bytes).toBool then [.resourceLoaded]
    else []
  | _ => []

/-- The initialization of a store with the events that it leads to. -/
def Store.initLogged (store : Store) : Fetch ((Except MessageError Unit × Store) × List LogEvent) := do
  -- What was asked for is noted in its order, before the outcome of the initialization.
  let ((result, initialized), exchanges) ← store.init.recorded
  let loading := exchanges.flatMap (·.events store.setup)
  let completion := if result.toBool then [LogEvent.storeInitialized] else []
  return ((result, initialized), loading ++ completion)

namespace Source

/-- The candidate for a code under which a source finds a message. -/
def foundCandidate? (source : Source) (registry : Registry) (locale : Locale) (code : String) :
    Option String :=
  (candidateCodes code source.common?).find? fun candidate =>
    source.members.any fun member => (member.lookup registry locale [] candidate).isSome

/-- The events of a lookup in a source. -/
def lookupEvents (source : Source) (registry : Registry) (locale : Locale) (code : String) :
    List LogEvent :=
  -- The code itself comes first among its candidates, so any other one is a fallback.
  match source.foundCandidate? registry locale code with
  | some candidate => if candidate = code then [] else [.fallbackUsed]
  | none => []

/-- The events of resolving a text that may refer to a message of a source. -/
def localizeEvents (source : Source) (registry : Registry) (locale : Locale) (text : String) :
    List LogEvent :=
  -- Arguments do not matter to the search, so none are filled in.
  match referencedCode? text with
  | none => []
  | some code =>
    match source.lookup registry locale [] code with
    | some _ => source.lookupEvents registry locale code
    | none => [.literalKept]

end Source

/-- The events of the missing roots that some requests pass over. -/
def Directories.skipEvents (rootAt : Roots) (requests : List (Collection × Request)) : List LogEvent :=
  -- Memory has no roots that could be missing.
  requests.flatMap fun (collection, request) =>
    match collection with
    | .shared => []
    | .directories roots => (skippedRoots rootAt roots request).map fun _ => .rootSkipped

end MessageCatalogue
