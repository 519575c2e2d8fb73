import MessageCatalogue.Resource.FileTree
import MessageCatalogue.Settings.Basic
import MessageCatalogue.Settings.Environment
import MessageCatalogue.Settings.Toml.Document

/-! Settings come in layers, where the environment is laid over a document and both over the standard settings. -/

namespace MessageCatalogue.Settings

/-- The error of a document that cannot be read. -/
def malformedDocument : SettingsError := ⟨.malformedDocument, []⟩

/-- The table that the bytes of a document write, which is empty when there is no document. -/
def documentTable : Option ByteArray → Except SettingsError (Table SettingValue)
  -- Bytes that are no text make a document malformed, as bad syntax does.
  | none => .ok []
  | some bytes =>
    match Utf8.decode bytes with
    | .error _ => .error malformedDocument
    | .ok text =>
      match Toml.parse text with
      | none => .error malformedDocument
      | some table => .ok table

/-- The settings that a document and an environment give together. -/
def load (document : Option ByteArray) (environment : Environment) : Except MessageError Settings :=
  -- Only the settings that the environment leaves open are taken from the document.
  let settings := do
    let table ← documentTable document
    ofTable (SettingValue.tableLaidOver environment.settings table)
  settings.mapError .settings

/-- The document at a path of a file tree, where anything but a plain file counts as none. -/
def documentAt? (files : FileTree) (path : String) : Option ByteArray :=
  match files.locate path with
  | .ok (.file contents) => some contents
  | _ => none

/-- The paths at which a document is looked for from a directory at some depth, the nearest first. -/
def documentPaths (depth : Nat) (path : String) : List String :=
  -- An absolute path is looked for only where it leads, and any other one also from the directories above.
  if path.toList.head? = some '/' then [path]
  else (List.range (depth + 1)).map fun steps => String.join (List.replicate steps "../") ++ path

end MessageCatalogue.Settings
