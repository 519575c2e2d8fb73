import MessageCatalogue.Properties.Document
import MessageCatalogue.Resource.Fetch
import MessageCatalogue.Resource.Encoding
import MessageCatalogue.Resource.Pattern
import Std.Data.TreeMap

/-! A loader turns the resources of a source in a locale into messages, one text for each code. -/

namespace MessageCatalogue

/-- The texts of message codes. -/
abbrev Messages : Type := Std.TreeMap String String

/-- A resource with its entries in document order. -/
structure LoadedResource where
  id : ResourceId
  entries : List Properties.Entry
deriving DecidableEq, Repr

/-- The messages of several resources together with the resources they came from. -/
structure MergedResources where
  messages : Messages
  resources : List ResourceId

/-- Where resources are found, how they are named and how they are decoded. -/
structure Loader where
  collection : Collection
  pattern : ResourcePattern
  encoding : Encoding
deriving DecidableEq, Repr

/-- What makes a code unusable, if anything does. -/
def codeDefect? (code : String) : Option CodeDefect :=
  -- A code in braces could not be told from a reference to another code.
  if (Text.trim code.toList).isEmpty then some .blank
  else if code.toList.head? = some '{' ∧ code.toList.getLast? = some '}' then some .braced
  else none

/-- The texts of codes after some entries, of which a later one replaces an earlier one of its code. -/
def addEntries (messages : Messages) (entries : List Properties.Entry) : Messages :=
  entries.foldl (fun known entry => known.insert entry.key entry.value) messages

/-- The messages of resources in order, or nothing when there is no resource. -/
def mergeResources? (resources : List LoadedResource) : Option MergedResources :=
  if resources.isEmpty then none
  else some ⟨addEntries ∅ (resources.flatMap (·.entries)), resources.map (·.id)⟩

namespace Loader

/-- The loader of shared resources under the standard pattern in UTF-8. -/
def standard : Loader := ⟨.shared, .standard, .utf8⟩

instance : Inhabited Loader := ⟨standard⟩

/-- The logical name of the resource of a source in a locale. -/
def resourceName (loader : Loader) (source : String) (locale : Locale) : String :=
  loader.pattern.resourceName source locale

/-- Nothing, unless an entry of a resource has an unusable code. -/
def checkCodes (source : String) (id : ResourceId) :
    List Properties.Entry → Except MessageError Unit
  -- Codes are checked in the order of the document, so the first unusable one is reported.
  | [] => .ok ()
  | entry :: rest =>
    match codeDefect? entry.key with
    | some defect => .error (.invalidCode source entry.key id.text defect)
    | none => checkCodes source id rest

/-- The resource that some bytes hold for a source in a locale. -/
def interpret (loader : Loader) (source : String) (locale : Locale) (id : ResourceId)
    (bytes : ByteArray) : Except MessageError LoadedResource := do
  -- Decoding, parsing and checking follow each other, and the first of them to fail is reported.
  let text ← (loader.encoding.decode bytes).mapError fun malformed =>
    .load source locale id.text (.malformedText malformed)
  let entries ← (Properties.parse text).mapError fun error =>
    .parse source locale id.text error.line error.detail
  checkCodes source id entries
  return ⟨id, entries⟩

/-- One resource of a source in a locale. -/
def loadOne (loader : Loader) (source : String) (locale : Locale) (id : ResourceId) :
    Loading LoadedResource := do
  -- The same context goes with the error, whether the reading or the contents are at fault.
  let bytes ← Loading.ofRequest (.load source locale id.text)
    (Fetch.request loader.collection (.read id))
  Loading.ofExcept (loader.interpret source locale id bytes)

/-- Some resources of a source in a locale, one after the other. -/
def loadEach (loader : Loader) (source : String) (locale : Locale) :
    List ResourceId → Loading (List LoadedResource)
  -- The first resource to fail leaves the others unread.
  | [] => return []
  | id :: rest => do
    let resource ← loader.loadOne source locale id
    let resources ← loader.loadEach source locale rest
    return resource :: resources

/-- Every resource of a source in a locale, in the order in which they are found. -/
def loadAll (loader : Loader) (source : String) (locale : Locale) : Loading (List LoadedResource) := do
  -- The error of a failed search names the logical name, as there is no copy to blame yet.
  let name := loader.resourceName source locale
  let ids ← Loading.ofRequest (.load source locale name)
    (Fetch.request loader.collection (.resources name))
  loader.loadEach source locale ids

/-- The messages of every resource of a source in a locale, or nothing when there is no resource. -/
def loadMerged (loader : Loader) (source : String) (locale : Locale) :
    Loading (Option MergedResources) := do
  let resources ← loader.loadAll source locale
  return mergeResources? resources

/-- The locales of the resources that file names reveal, at their first occurrences. -/
def localesOfFiles (loader : Loader) (source : String) (files : List String) : List Locale :=
  firstOccurrences (files.filterMap (loader.pattern.localeOfFile? source))

/-- The locales that have a resource of a source, in the order of the file names. -/
def discoverLocales (loader : Loader) (source : String) : Loading (List Locale) := do
  -- The listing may hold other files too, which are sorted out afterwards.
  let directory := loader.pattern.directory source
  let files ← Loading.ofRequest (.discovery source directory)
    (Fetch.request loader.collection (.list directory))
  return loader.localesOfFiles source files

end Loader

end MessageCatalogue
