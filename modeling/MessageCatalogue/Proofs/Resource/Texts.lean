import MessageCatalogue.Proofs.Resource.Encoding
import MessageCatalogue.Proofs.Resource.Loader

/-! Texts of narrow characters are loaded alike, whichever encoding their files are written in. -/

namespace MessageCatalogue

open Loading

/-- The answers to every question about some resources, where a text stands in the place of the bytes of a file. -/
structure Texts where
  list : String → Except ResourceFault (List String)
  resources : String → Except ResourceFault (List ResourceId)
  read : ResourceId → Except ResourceFault String

namespace Texts

/-- The resources whose files hold the texts in an encoding. -/
def written (encoding : Encoding) (texts : Texts) : Enumerator where
  list := texts.list
  resources := texts.resources
  read := fun id => (texts.read id).map encoding.encode

/-- The holdings whose files hold the texts of every collection in an encoding. -/
def filed (encoding : Encoding) (texts : Collection → Texts) : Holdings := fun collection =>
  (texts collection).written encoding

/-- No text has a character that does not fit in one byte. -/
def AreNarrow (texts : Texts) : Prop := ∀ id text, texts.read id = .ok text → Text.IsNarrow text

end Texts

namespace Loader

/-- A loader that decodes resources in another encoding. -/
def encodedIn (loader : Loader) (encoding : Encoding) : Loader := { loader with encoding }

/-- Bytes that are decoded to the same text are interpreted alike. -/
theorem interpret_congr {one other : Loader} {bytes bytes' : ByteArray}
    (same : one.encoding.decode bytes = other.encoding.decode bytes') (source : String) (locale : Locale)
    (id : ResourceId) : one.interpret source locale id bytes = other.interpret source locale id bytes' := by
  rw [interpret, interpret, same]

section Encodings

variable {texts : Collection → Texts} (narrow : ∀ collection, (texts collection).AreNarrow)
  (loader : Loader) (one other : Encoding) (source : String)

include narrow

theorem outcome_loadOne_encodedIn (locale : Locale) (id : ResourceId) :
    outcome (Texts.filed one texts) ((loader.encodedIn one).loadOne source locale id) =
      outcome (Texts.filed other texts)
        ((loader.encodedIn other).loadOne source locale id) := by
  rw [outcome_loadOne, outcome_loadOne]
  show (((texts loader.collection).read id).map one.encode |>.mapError _).bind _ =
    (((texts loader.collection).read id).map other.encode |>.mapError _).bind _
  cases found : (texts loader.collection).read id with
  | error fault => rfl
  | ok text =>
    -- Both encodings give the text back that they were given.
    have small := narrow loader.collection id text found
    have same : one.decode (one.encode text) = other.decode (other.encode text) := by
      rw [Encoding.decode_encode small one, Encoding.decode_encode small other]
    exact interpret_congr same source locale id

theorem outcome_loadMerged_encodedIn (locale : Locale) :
    outcome (Texts.filed one texts) ((loader.encodedIn one).loadMerged source locale) =
      outcome (Texts.filed other texts)
        ((loader.encodedIn other).loadMerged source locale) := by
  rw [outcome_loadMerged, outcome_loadMerged, outcome_loadAll, outcome_loadAll]
  -- The same resources are found, and each of them is loaded alike.
  have each : ∀ ids : List ResourceId,
      outcome (Texts.filed one texts)
          (ids.mapM ((loader.encodedIn one).loadOne source locale)) =
        outcome (Texts.filed other texts)
          (ids.mapM ((loader.encodedIn other).loadOne source locale)) := fun ids =>
    outcome_mapM_congr fun id _ => outcome_loadOne_encodedIn narrow loader one other source locale id
  rw [funext each]
  rfl

omit narrow in
theorem outcome_discoverLocales_encodedIn :
    outcome (Texts.filed one texts) ((loader.encodedIn one).discoverLocales source) =
      outcome (Texts.filed other texts)
        ((loader.encodedIn other).discoverLocales source) := by
  rw [outcome_discoverLocales, outcome_discoverLocales]
  rfl

end Encodings

end Loader

end MessageCatalogue
