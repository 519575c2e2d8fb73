import MessageCatalogue.Settings.Value
import MessageCatalogue.Text.Pieces
import MessageCatalogue.Text.Utf8
import MessageCatalogue.Text.WhiteSpace

/-! Variables of the environment with names of a common start hold settings as text. -/

namespace MessageCatalogue

/-- Variables by name with their values. -/
abbrev Environment : Type := List (String × String)

namespace Environment

/-- The variable that bytes hold with an equals sign between its name and its value, if they are text. -/
def assignment? (bytes : ByteArray) : Option (String × String) :=
  -- Only the first equals sign separates, and a value may hold others.
  match Utf8.decode bytes with
  | .error _ => none
  | .ok text =>
    (Text.cutFirst? ['='] text.toList).map fun (name, value) => (String.ofList name, String.ofList value)

/-- The variables of a block of bytes in which a null byte ends each of them. -/
def ofBlock (bytes : List UInt8) : Environment :=
  (bytes.splitBy fun byte _ => byte != 0).filterMap fun entry =>
    assignment? ⟨(entry.filter (· != 0)).toArray⟩

/-- What the names of variables that hold settings start with, in any case. -/
def nameStart : List Char := "messages_".toList

/-- The settings whose variables hold several items. -/
def listKeys : List String := ["sources", "supported_locales", "resource_roots"]

/-- The settings key that the name of a variable stands for. -/
def settingKey? (name : String) : Option String :=
  (nameStart.isPrefixOf? ((Text.trim name.toList).map Char.toLower)).map fun key =>
    String.ofList (Text.trim key)

/-- The items of a text between commas, without white space around them and without empty ones. -/
def listItems (text : String) : List String :=
  (((Text.pieces [','] text.toList).map Text.trim).filter (! ·.isEmpty)).map String.ofList

/-- The value that a variable gives for a settings key. -/
def settingValue (key text : String) : SettingValue :=
  if key ∈ listKeys then .list ((listItems text).map .text) else .text (Text.trimmed text)

/-- A value within tables under some keys, the outermost key first. -/
def nested (value : SettingValue) : List String → SettingValue
  | [] => value
  | key :: rest => .table [(key, nested value rest)]

/-- Settings with what one more variable gives in place of whatever had its first key. -/
def addVariable (known : Table SettingValue) (entry : String × String) : Table SettingValue :=
  -- Dots in a key nest tables, and a key with nothing beside a dot is passed over.
  match settingKey? entry.1 with
  | none => known
  | some key =>
    let parts := Text.pieces ['.'] key.toList
    if parts.any (·.isEmpty) then known
    else
      match parts.map String.ofList with
      | [] => known
      | first :: rest => known.insert first (nested (settingValue key entry.2) rest)

/-- The settings that the variables of an environment give. -/
def settings (environment : Environment) : Table SettingValue := environment.foldl addVariable []

end Environment

end MessageCatalogue
