import MessageCatalogue.Table

/-! Settings are written as values of a few shapes, and tables of them can be laid over each other. -/

namespace MessageCatalogue

/-- A value as a settings document or the environment writes it. -/
inductive SettingValue where
  | text (value : String)
  | integer (value : Int)
  | decimal (written : String)
  | flag (value : Bool)
  | list (items : List SettingValue)
  | table (entries : List (String × SettingValue))
deriving Repr, Inhabited

namespace SettingValue

mutual

/-- A value laid over another one, which it replaces unless both are tables. -/
def laidOver : SettingValue → SettingValue → SettingValue
  | .table entries, .table below => .table (tableLaidOver entries below)
  | value, _ => value

/-- A table laid over another one key by key. -/
def tableLaidOver : List (String × SettingValue) → Table SettingValue → Table SettingValue
  -- Keys that are only below keep their values.
  | [], below => below
  | (key, value) :: rest, below =>
    let laid := match below.find? key with
      | some covered => value.laidOver covered
      | none => value
    tableLaidOver rest (below.insert key laid)

end

end SettingValue

end MessageCatalogue
