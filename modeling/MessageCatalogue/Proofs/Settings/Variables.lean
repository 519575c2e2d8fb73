import MessageCatalogue.Proofs.Settings.Overlay
import MessageCatalogue.Proofs.Text.Pieces
import MessageCatalogue.Proofs.Text.WhiteSpace
import MessageCatalogue.Settings.Environment

/-! The variables of an environment give one setting each, and those that are lists are written in them with commas. -/

namespace MessageCatalogue.Environment

/--
The name of a variable stands for a key when it is the common start with the key behind it, both of them in any case.

White space around the name and around the key in it does not count.
-/
def StandsFor (name key : String) : Prop :=
  ∃ start spelled, Text.trim name.toList = start ++ spelled ∧ start.map Char.toLower = nameStart ∧
    (Text.trim spelled).map Char.toLower = key.toList

/-- No variable with a name that stands for a key has a dot in it. -/
def IsDotless (environment : Environment) : Prop :=
  ∀ entry ∈ environment, ∀ key, StandsFor entry.1 key → '.' ∉ entry.1.toList

/-- No variable of an environment stands for a key. -/
def Leaves (environment : Environment) (key : String) : Prop := ∀ entry ∈ environment, ¬ StandsFor entry.1 key

/-- Of the variables of an environment that stand for a key, the last one has some text. -/
def Sets (environment : Environment) (key text : String) : Prop :=
  ∃ before name after, environment = before ++ (name, text) :: after ∧ StandsFor name key ∧ Leaves after key

/-- An item of a list is not empty, has no white space around it and holds no comma. -/
structure IsItem (item : List Char) : Prop where
  occupied : item ≠ []
  trimmed : Text.trim item = item
  noComma : ',' ∉ item

/-- Pieces of text hold items in a row, each with white space around it, among pieces of nothing but white space. -/
inductive HoldItems : List (List Char) → List (List Char) → Prop where
  | nil : HoldItems [] []
  | blank {piece : List Char} {pieces items : List (List Char)} (white : ∀ c ∈ piece, isWhiteSpace c)
      (rest : HoldItems pieces items) : HoldItems (piece :: pieces) items
  | item {front item back : List Char} {pieces items : List (List Char)} (white : ∀ c ∈ front, isWhiteSpace c)
      (proper : IsItem item) (white' : ∀ c ∈ back, isWhiteSpace c) (rest : HoldItems pieces items) :
      HoldItems ((front ++ item ++ back) :: pieces) (item :: items)

/-- A text lists items when they are held by the pieces that commas join to the text. -/
def Lists (text : String) (items : List String) : Prop :=
  ∃ pieces, text.toList = [','].intercalate pieces ∧ HoldItems pieces (items.map String.toList)

variable {environment : Environment} {name key text : String} {pieces items : List (List Char)}

/-- A comma is a mark that overlaps no other one. -/
theorem isSolid_comma : Text.IsSolid [','] := ⟨',', [], rfl, by simp⟩

/-- White space holds no comma. -/
theorem comma_notMem_of_white {piece : List Char} (white : ∀ c ∈ piece, isWhiteSpace c) : ',' ∉ piece := by
  intro member
  cases white ',' member

/-- The pieces hold the items that are left of them when they are trimmed and the empty ones are dropped. -/
theorem HoldItems.filter_trim (hold : HoldItems pieces items) :
    (pieces.map Text.trim).filter (! ·.isEmpty) = items ∧ ∀ piece ∈ pieces, ',' ∉ piece := by
  -- A piece is white or has one item with white space around it.
  induction hold with
  | nil => simp
  | blank white _ ih =>
    refine ⟨?_, List.forall_mem_cons.mpr ⟨comma_notMem_of_white white, ih.2⟩⟩
    simp [Text.trim_eq_nil_iff.mpr white, ih.1]
  | @item front item back _ _ white proper white' _ ih =>
    have trimmed : Text.trim (front ++ item ++ back) = item := by
      rw [Text.trim_append_append white white', proper.trimmed]
    refine ⟨by rw [List.map_cons, trimmed, List.filter_cons_of_pos (by simp [proper.occupied]), ih.1], ?_⟩
    refine List.forall_mem_cons.mpr ⟨?_, ih.2⟩
    simp only [List.mem_append, not_or]
    exact ⟨⟨comma_notMem_of_white white, proper.noComma⟩, comma_notMem_of_white white'⟩

/-- Pieces without commas hold what is left of them when they are trimmed and the empty ones are dropped. -/
theorem holdItems_filter_trim (noComma : ∀ piece ∈ pieces, ',' ∉ piece) :
    HoldItems pieces ((pieces.map Text.trim).filter (! ·.isEmpty)) := by
  -- What is left of a piece after trimming is either nothing or an item.
  induction pieces with
  | nil => exact .nil
  | cons piece rest ih =>
    obtain ⟨own, others⟩ := List.forall_mem_cons.mp noComma
    rw [List.map_cons]
    by_cases empty : Text.trim piece = []
    · rw [List.filter_cons_of_neg (by simp [empty])]
      exact .blank (Text.trim_eq_nil_iff.mp empty) (ih others)
    · rw [List.filter_cons_of_pos (by simp [empty])]
      obtain ⟨front, back, white, white', split⟩ := Text.exists_trim piece
      have proper : IsItem (Text.trim piece) :=
        ⟨empty, Text.trim_trim piece, fun member => own (Text.mem_of_mem_trim member)⟩
      have held := HoldItems.item white proper white' (ih others)
      rwa [← split] at held

/-- The items of a text are those that it lists. -/
theorem listItems_eq_iff {items : List String} : listItems text = items ↔ Lists text items := by
  constructor
  · rintro rfl
    refine ⟨Text.pieces [','] text.toList, (Text.intercalate_pieces isSolid_comma.ne_nil _).symm, ?_⟩
    have noComma : ∀ piece ∈ Text.pieces [','] text.toList, ',' ∉ piece := fun _ => Text.notMem_of_mem_pieces
    have held := holdItems_filter_trim noComma
    simpa [listItems, Function.comp_def] using held
  · rintro ⟨pieces, joined, hold⟩
    obtain ⟨own, noComma⟩ := hold.filter_trim
    have same : ((Text.pieces [','] text.toList).map Text.trim).filter (! ·.isEmpty) = items.map String.toList := by
      rw [← own, joined]
      cases pieces with
      -- No pieces at all make the empty text, which is a single empty piece.
      | nil => rfl
      | cons first rest =>
        rw [isSolid_comma.pieces_intercalate (List.cons_ne_nil first rest) fun piece member => by
          simpa [List.singleton_infix_iff] using noComma piece member]
    rw [listItems, same, List.map_map]
    simp [Function.comp_def]

/-- The key that is read from a name is the one that the name stands for. -/
theorem settingKey?_eq_some_iff : settingKey? name = some key ↔ StandsFor name key := by
  simp only [settingKey?, Option.map_eq_some_iff, List.isPrefixOf?_eq_some_iff_append_eq]
  constructor
  · rintro ⟨rest, split, rfl⟩
    obtain ⟨start, spelled, whole, begun, rfl⟩ := List.append_eq_map_iff.mp split
    exact ⟨start, spelled, whole, begun, by rw [String.toList_ofList, Text.trim_map_toLower]⟩
  · rintro ⟨start, spelled, whole, begun, same⟩
    refine ⟨spelled.map Char.toLower, by rw [whole, List.map_append, begun], ?_⟩
    rw [Text.trim_map_toLower, same, String.ofList_toList]

/-- A name stands for one key at most. -/
theorem StandsFor.unique {other : String} (stands : StandsFor name key) (stands' : StandsFor name other) :
    key = other :=
  Option.some.inj ((settingKey?_eq_some_iff.mpr stands).symm.trans (settingKey?_eq_some_iff.mpr stands'))

/-- A key has no dot when the name that stands for it has none. -/
theorem StandsFor.dot_notMem (stands : StandsFor name key) (dotless : '.' ∉ name.toList) : '.' ∉ key.toList := by
  obtain ⟨start, spelled, whole, _, same⟩ := stands
  rw [← same, Text.mem_map_toLower_iff (by decide)]
  intro member
  refine dotless (Text.mem_of_mem_trim ?_)
  rw [whole]
  exact List.mem_append_right start (Text.mem_of_mem_trim member)

/-- A variable without a dot in its name adds the value of its key, unless there is no key or the key is empty. -/
theorem addVariable_eq {entry : String × String} (dotless : ∀ key, StandsFor entry.1 key → '.' ∉ entry.1.toList)
    (known : Table SettingValue) :
    (addVariable known entry = known ∧ ∀ key, StandsFor entry.1 key → key = "") ∨
      ∃ key, StandsFor entry.1 key ∧ addVariable known entry = known.insert key (settingValue key entry.2) := by
  unfold addVariable
  cases found : settingKey? entry.1 with
  | none =>
    refine .inl ⟨rfl, fun key stands => ?_⟩
    simp [settingKey?_eq_some_iff.mpr stands] at found
  | some key =>
    have stands := settingKey?_eq_some_iff.mp found
    have absent := stands.dot_notMem (dotless key stands)
    -- Without a dot the key is its only part.
    have parts : Text.pieces ['.'] key.toList = [key.toList] :=
      Text.pieces_of_not_infix (by rwa [List.singleton_infix_iff])
    simp only [parts]
    by_cases empty : key = ""
    · exact .inl ⟨by simp [empty], fun other stands' => stands'.unique stands ▸ empty⟩
    · exact .inr ⟨key, stands, by simp [empty, nested]⟩

/-- The value that a variable gives is a text or a list. -/
theorem isPlain_settingValue (key text : String) : (settingValue key text).IsPlain := by
  unfold settingValue
  split <;> trivial

/-- The settings of an environment without dots in its names are in order and hold no tables. -/
theorem isOrdered_settings (dotless : IsDotless environment) :
    environment.settings.IsOrdered ∧ ∀ entry ∈ environment.settings, entry.2.IsPlain := by
  -- The variables come one after the other, so the last one finds the settings of those before it.
  induction environment using List.reverseRecOn with
  | nil => exact ⟨List.Pairwise.nil, by simp [settings]⟩
  | append_singleton front last ih =>
    obtain ⟨earlier, own⟩ := List.forall_mem_append.mp dotless
    obtain ⟨ordered, plain⟩ := ih earlier
    have step : settings (front ++ [last]) = addVariable (settings front) last := by simp [settings]
    rw [step]
    rcases addVariable_eq (own last (List.mem_singleton_self last)) (settings front) with
      ⟨same, _⟩ | ⟨key, _, same⟩
    · rw [same]
      exact ⟨ordered, plain⟩
    · rw [same]
      refine ⟨ordered.insert key _, fun entry member => ?_⟩
      rcases Table.mem_of_mem_insert member with rfl | member
      · exact isPlain_settingValue key last.2
      · exact plain entry member

/-- A variable leaves the values of all keys that it does not stand for. -/
theorem find?_addVariable {entry : String × String} (dotless : ∀ key, StandsFor entry.1 key → '.' ∉ entry.1.toList)
    (other : ¬ StandsFor entry.1 key) (known : Table SettingValue) :
    (addVariable known entry).find? key = known.find? key := by
  rcases addVariable_eq dotless known with ⟨same, _⟩ | ⟨own, stands, same⟩
  · rw [same]
  · have different : key ≠ own := by
      rintro rfl
      exact other stands
    rw [same, Table.find?_insert_of_ne different]

/-- So do several variables in a row. -/
theorem find?_foldl_addVariable (dotless : IsDotless environment) (leaves : Leaves environment key)
    (known : Table SettingValue) : (environment.foldl addVariable known).find? key = known.find? key := by
  induction environment generalizing known with
  | nil => rfl
  | cons first rest ih =>
    obtain ⟨own, others⟩ := List.forall_mem_cons.mp dotless
    obtain ⟨leavesOwn, leavesOthers⟩ := List.forall_mem_cons.mp leaves
    rw [List.foldl_cons, ih others leavesOthers, find?_addVariable own leavesOwn]

/-- The settings of an environment have the value of the last variable that stands for a key. -/
theorem find?_settings_of_sets (dotless : IsDotless environment) (occupied : key ≠ "")
    (sets : Sets environment key text) : environment.settings.find? key = some (settingValue key text) := by
  -- Variables in front of the last one may have set the key as well, and those behind it do not.
  obtain ⟨before, name, after, rfl, stands, leaves⟩ := sets
  obtain ⟨_, dotless⟩ := List.forall_mem_append.mp dotless
  obtain ⟨own, later⟩ := List.forall_mem_cons.mp dotless
  rw [settings, List.foldl_append, List.foldl_cons, find?_foldl_addVariable later leaves]
  rcases addVariable_eq own (before.foldl addVariable []) with ⟨_, none⟩ | ⟨other, stands', same⟩
  · exact absurd (none key stands) occupied
  · obtain rfl := stands.unique stands'
    rw [same, Table.find?_insert_self]

/-- They have no value for a key that no variable stands for. -/
theorem find?_settings_of_leaves (dotless : IsDotless environment) (leaves : Leaves environment key) :
    environment.settings.find? key = none :=
  find?_foldl_addVariable dotless leaves []

/-- Either there is a last variable that stands for a key, or there is none at all. -/
theorem sets_or_leaves (environment : Environment) (key : String) :
    (∃ text, Sets environment key text) ∨ Leaves environment key := by
  -- The search starts from the end, so a variable further back hides those in front.
  induction environment with
  | nil => exact .inr (by simp [Leaves])
  | cons first rest ih =>
    rcases ih with ⟨text, before, name, after, rfl, stands, leaves⟩ | leaves
    · exact .inl ⟨text, first :: before, name, after, rfl, stands, leaves⟩
    · by_cases stands : StandsFor first.1 key
      · exact .inl ⟨first.2, [], first.1, rest, rfl, stands, leaves⟩
      · exact .inr (List.forall_mem_cons.mpr ⟨stands, leaves⟩)

end MessageCatalogue.Environment
