import MessageCatalogue.CommandLine.Report
import MessageCatalogue.Proofs.Outcome
import MessageCatalogue.Proofs.Settings.Variables

/-! Each setting is taken from the uppermost layer that has a value for it, which replaces all values below. -/

namespace MessageCatalogue.Settings

/-- How the values of a setting are written in a variable of the environment and in a document. -/
structure Form (α : Type) where
  inVariable : String → α → Prop
  inDocument : SettingValue → α → Prop

namespace Form

variable {α : Type}

/-- What a text stands for is written with that text, which has any white space around it in a variable. -/
def ofText (stands : String → α → Prop) : Form α where
  inVariable written value := stands (Text.trimmed written) value
  inDocument written value := ∃ own, written = .text own ∧ stands own value

/-- A text stands for itself. -/
def text : Form String := ofText fun own value => value = own

/-- A text that may be missing is there when it is written. -/
def optionalText : Form (Option String) := ofText fun own value => value = some own

/-- An encoding is named by a text. -/
def encoding : Form Encoding := ofText fun own value => Encoding.ofName? own = some value

/-- Texts are listed with commas in a variable, and with items of their own in a document. -/
def list : Form (List String) where
  inVariable := Environment.Lists
  inDocument written value := written = .list (value.map .text)

end Form

/-- The value of a setting comes from the last variable for it, or else a document, or else the standard settings. -/
inductive ComesFrom {α : Type} (environment : Environment) (document : Table SettingValue) (key : String)
    (form : Form α) (standard : α) : α → Prop where
  | environment {text : String} {value : α} (sets : environment.Sets key text) (written : form.inVariable text value) :
      ComesFrom environment document key form standard value
  | document {own : SettingValue} {value : α} (leaves : environment.Leaves key) (found : document.find? key = some own)
      (written : form.inDocument own value) : ComesFrom environment document key form standard value
  | standard (leaves : environment.Leaves key) (absent : document.find? key = none) :
      ComesFrom environment document key form standard standard

/-- The values that a command line gives go before all others, and without any of them the others have the say. -/
def GoBefore (given : List String) (others : List String → Prop) (value : List String) : Prop :=
  (given ≠ [] → value = given) ∧ (given = [] → others value)

/-- Settings whose values come from a command line, an environment, a document and the standard settings. -/
structure AreLayered (settings : Settings) (invocation : Invocation) (environment : Environment)
    (document : Table SettingValue) : Prop where
  defaultLocale : ComesFrom environment document "default_locale" .text standard.defaultLocale settings.defaultLocale
  supportedLocales :
    ComesFrom environment document "supported_locales" .list standard.supportedLocales settings.supportedLocales
  sources : GoBefore invocation.sources (ComesFrom environment document "sources" .list standard.sources)
    settings.sources
  commonNamespace :
    ComesFrom environment document "common_namespace" .optionalText standard.commonNamespace settings.commonNamespace
  resourcePattern :
    ComesFrom environment document "resource_pattern" .text standard.resourcePattern settings.resourcePattern
  encoding : ComesFrom environment document "encoding" .encoding standard.encoding settings.encoding
  resourceRoots : GoBefore invocation.roots
    (ComesFrom environment document "resource_roots" .list standard.resourceRoots) settings.resourceRoots

/-- A setting is read in agreement with the form in which it is written. -/
structure Form.IsReadBy {α : Type} (form : Form α) (key : String) (read : SettingValue → Except SettingsError α) :
    Prop where
  inVariable : ∀ text value, read (Environment.settingValue key text) = .ok value ↔ form.inVariable text value
  inDocument : ∀ own value, read own = .ok value ↔ form.inDocument own value

variable {environment : Environment} {key : String} {own : SettingValue}

/-- A text is read from a value that is one. -/
theorem asText_eq_ok_iff {value : String} : own.asText = .ok value ↔ own = .text value := by
  cases own <;> simp [SettingValue.asText]

/-- An encoding is read from its name. -/
theorem asEncoding_eq_ok_iff {value : Encoding} :
    own.asEncoding = .ok value ↔ ∃ name, own = .text name ∧ Encoding.ofName? name = some value := by
  cases own with
  | text name => cases named : Encoding.ofName? name <;> simp [SettingValue.asEncoding, named]
  | table entries =>
    -- No encoding is named by a table, whatever its first key is.
    cases entries with
    | nil => simp [SettingValue.asEncoding]
    | cons first rest =>
      simp only [SettingValue.asEncoding]
      split <;> simp
  | _ => simp [SettingValue.asEncoding]

/-- Texts are read from items that are texts, wherever these begin to be counted. -/
theorem textsFrom_eq_ok_iff {items : List SettingValue} {position : Nat} {value : List String} :
    SettingValue.textsFrom position items = .ok value ↔ items = value.map .text := by
  -- The items are read in their order, and the first one that is no text would be the error.
  induction items generalizing position value with
  | nil => cases value <;> simp [SettingValue.textsFrom]
  | cons first rest ih =>
    simp only [SettingValue.textsFrom, bind_ok_iff, mapError_ok_iff, asText_eq_ok_iff, ih, pure, Except.pure,
      Except.ok.injEq]
    constructor
    · rintro ⟨text, rfl, others, rfl, rfl⟩
      rfl
    · intro same
      cases value with
      | nil => cases same
      | cons text others =>
        obtain ⟨rfl, rfl⟩ := List.cons.inj same
        exact ⟨text, rfl, others, rfl, rfl⟩

/-- A list of texts is read from a list. -/
theorem asTexts_eq_ok_iff {value : List String} : own.asTexts = .ok value ↔ own = .list (value.map .text) := by
  cases own <;> simp [SettingValue.asTexts, textsFrom_eq_ok_iff]

/-- A setting whose variable holds a single text is read as the text is, when it is read from texts only. -/
theorem isReadBy_ofText {α : Type} {stands : String → α → Prop} {read : SettingValue → Except SettingsError α}
    (single : key ∉ Environment.listKeys)
    (reads : ∀ own value, read own = .ok value ↔ ∃ text, own = .text text ∧ stands text value) :
    (Form.ofText stands).IsReadBy key read where
  inVariable text value := by
    rw [Environment.settingValue, if_neg single, reads]
    simp [Form.ofText]
  inDocument := reads

/-- A setting whose variable holds several texts is read as the items of a list are. -/
theorem isReadBy_list (several : key ∈ Environment.listKeys) : Form.list.IsReadBy key SettingValue.asTexts where
  inVariable text value := by
    rw [Environment.settingValue, if_pos several, asTexts_eq_ok_iff, SettingValue.list.injEq,
      List.map_inj_right fun _ _ => SettingValue.text.inj]
    exact Environment.listItems_eq_iff
  inDocument _ _ := asTexts_eq_ok_iff

/-- A setting is read exactly as it comes from the environment, a document and the standard settings. -/
theorem field_eq_ok_iff {α : Type} {form : Form α} {read : SettingValue → Except SettingsError α}
    (reads : form.IsReadBy key read) (occupied : key ≠ "") (dotless : environment.IsDotless)
    {document : Table SettingValue} {standard value : α} :
    field (SettingValue.tableLaidOver environment.settings document) key read standard = .ok value ↔
      ComesFrom environment document key form standard value := by
  -- The environment lies over the document, and both over the standard settings.
  obtain ⟨ordered, plain⟩ := Environment.isOrdered_settings dotless
  have laid := SettingValue.find?_tableLaidOver ordered plain document key
  rw [field]
  constructor
  · intro given
    rcases Environment.sets_or_leaves environment key with ⟨text, sets⟩ | leaves
    · rw [laid, Environment.find?_settings_of_sets dotless occupied sets, Option.some_or] at given
      exact .environment sets ((reads.inVariable text value).mp (mapError_ok_iff.mp given))
    · rw [laid, Environment.find?_settings_of_leaves dotless leaves, Option.none_or] at given
      cases found : document.find? key with
      | some own =>
        rw [found] at given
        exact .document leaves found ((reads.inDocument own value).mp (mapError_ok_iff.mp given))
      | none =>
        rw [found] at given
        exact Except.ok.inj given ▸ .standard leaves found
  · intro comes
    cases comes with
    | environment sets written =>
      rw [laid, Environment.find?_settings_of_sets dotless occupied sets, Option.some_or]
      exact mapError_ok_iff.mpr ((reads.inVariable _ value).mpr written)
    | document leaves found written =>
      rw [laid, Environment.find?_settings_of_leaves dotless leaves, Option.none_or, found]
      exact mapError_ok_iff.mpr ((reads.inDocument _ value).mpr written)
    | standard leaves absent =>
      rw [laid, Environment.find?_settings_of_leaves dotless leaves, Option.none_or, absent]

/-- The settings of a table are read one by one, each under a key of its own. -/
theorem ofTable_eq_ok_iff {table : Table SettingValue} {settings : Settings} :
    ofTable table = .ok settings ↔
      field table "common_namespace" (fun own => own.asText.map some) standard.commonNamespace =
          .ok settings.commonNamespace ∧
        field table "default_locale" SettingValue.asText standard.defaultLocale = .ok settings.defaultLocale ∧
        field table "encoding" SettingValue.asEncoding standard.encoding = .ok settings.encoding ∧
        field table "resource_pattern" SettingValue.asText standard.resourcePattern = .ok settings.resourcePattern ∧
        field table "resource_roots" SettingValue.asTexts standard.resourceRoots = .ok settings.resourceRoots ∧
        field table "sources" SettingValue.asTexts standard.sources = .ok settings.sources ∧
        field table "supported_locales" SettingValue.asTexts standard.supportedLocales =
          .ok settings.supportedLocales := by
  -- Each field depends on its own key alone, so their order does not matter to a success.
  simp only [ofTable, bind_ok_iff, pure, Except.pure, Except.ok.injEq]
  constructor
  · rintro ⟨_, namespaceRead, _, localeRead, _, encodingRead, _, patternRead, _, rootsRead, _, sourcesRead, _,
      localesRead, rfl⟩
    exact ⟨namespaceRead, localeRead, encodingRead, patternRead, rootsRead, sourcesRead, localesRead⟩
  · rintro ⟨namespaceRead, localeRead, encodingRead, patternRead, rootsRead, sourcesRead, localesRead⟩
    exact ⟨_, namespaceRead, _, localeRead, _, encodingRead, _, patternRead, _, rootsRead, _, sourcesRead, _,
      localesRead, rfl⟩

/-- Settings are loaded from a document that can be read, whose table lies below that of the environment. -/
theorem load_eq_ok_iff {document : Option ByteArray} {settings : Settings} :
    load document environment = .ok settings ↔ ∃ table, documentTable document = .ok table ∧
      ofTable (SettingValue.tableLaidOver environment.settings table) = .ok settings := by
  rw [load, mapError_ok_iff, bind_ok_iff]

/-- Values of a command line go before others when they take their place. -/
theorem goBefore_ite {given value : List String} {others : List String → Prop} (holds : others value) :
    GoBefore given others (if given.isEmpty then value else given) := by
  cases given with
  | nil => exact ⟨fun some => absurd rfl some, fun _ => holds⟩
  | cons first rest => exact ⟨fun _ => rfl, fun none => by cases none⟩

/--
Settings that are loaded have each of their values from the uppermost layer that has one, whatever the others hold.

The layers are the command line for roots and sources, the variables without dots in their names, the document and the
standard settings. What a variable gives for a list are the items between its commas, so that items are read back from
any text that lists them.
-/
theorem settings_come_in_layers {invocation : Invocation} {document : Option ByteArray} {settings : Settings}
    (dotless : environment.IsDotless) (loaded : invocation.settings document environment = .ok settings) :
    (∃ table, documentTable document = .ok table ∧ settings.AreLayered invocation environment table) ∧
      ∀ text items, Environment.listItems text = items ↔ Environment.Lists text items := by
  refine ⟨?_, fun text items => Environment.listItems_eq_iff⟩
  obtain ⟨given, read, rfl⟩ := map_ok_iff.mp loaded
  obtain ⟨table, found, each⟩ := load_eq_ok_iff.mp read
  obtain ⟨namespaceRead, localeRead, encodingRead, patternRead, rootsRead, sourcesRead, localesRead⟩ :=
    ofTable_eq_ok_iff.mp each
  -- Every setting with a single text differs from the others in what the text stands for.
  have single : ∀ (own : SettingValue) value,
      own.asText = .ok value ↔ ∃ text, own = .text text ∧ value = text := fun own value => by
    simp [asText_eq_ok_iff]
  have optional : ∀ (own : SettingValue) value,
      own.asText.map some = .ok value ↔ ∃ text, own = .text text ∧ value = some text := fun own value => by
    simp only [map_ok_iff, asText_eq_ok_iff, @eq_comm _ value]
  refine ⟨table, found, ?_, ?_, goBefore_ite ?_, ?_, ?_, ?_, goBefore_ite ?_⟩
  · exact (field_eq_ok_iff (isReadBy_ofText (by decide) single) (by decide) dotless).mp localeRead
  · exact (field_eq_ok_iff (isReadBy_list (by decide)) (by decide) dotless).mp localesRead
  · exact (field_eq_ok_iff (isReadBy_list (by decide)) (by decide) dotless).mp sourcesRead
  · exact (field_eq_ok_iff (isReadBy_ofText (by decide) optional) (by decide) dotless).mp namespaceRead
  · exact (field_eq_ok_iff (isReadBy_ofText (by decide) single) (by decide) dotless).mp patternRead
  · exact (field_eq_ok_iff (isReadBy_ofText (by decide) fun _ _ => asEncoding_eq_ok_iff) (by decide) dotless).mp
      encodingRead
  · exact (field_eq_ok_iff (isReadBy_list (by decide)) (by decide) dotless).mp rootsRead

/-- The variables of a machine on which the default locale is set twice, once with white space behind the name. -/
def untidy : Environment :=
  [("java.home", "/"), ("MESSAGES_DEFAULT_LOCALE", "fr"), ("MESSAGES_DEFAULT_LOCALE ", "de"),
    ("messages_Sources", " user ,, order,")]

/-- Every layer gives some settings and hides others, and a list with white space and gaps in it gives its items. -/
theorem every_layer_has_its_settings :
    let invocation : Invocation := ⟨none, ["here"], [], .check⟩
    let document := some "sources = ['a']\ndefault_locale = 'it'\nencoding = 'latin1'".toUTF8
    let settings : Settings := { standard with
      defaultLocale := "de", sources := ["user", "order"], encoding := .latin1, resourceRoots := ["here"] }
    untidy.IsDotless ∧ invocation.settings document untidy = .ok settings ∧
      (∃ table, documentTable document = .ok table ∧ settings.AreLayered invocation untidy table) ∧
      ∀ text items, Environment.listItems text = items ↔ Environment.Lists text items := by
  intro invocation document settings
  -- No name in the environment stands for a key with a dot, which can be decided by looking at each of them.
  have dotless : untidy.IsDotless := by
    have named : ∀ entry ∈ untidy, (Environment.settingKey? entry.1).isSome → '.' ∉ entry.1.toList := by decide +kernel
    exact fun entry member _ stands =>
      named entry member (Option.isSome_of_mem (Environment.settingKey?_eq_some_iff.mpr stands))
  have loaded : invocation.settings document untidy = .ok settings := toOption_eq_some_iff.mp (by decide +kernel)
  exact ⟨dotless, loaded, settings_come_in_layers dotless loaded⟩

/-- A name with white space behind it stands for the same key, so that its variable hides the one without any. -/
theorem padded_name_has_last_word :
    ¬ ∀ (invocation : Invocation) (document : Option ByteArray) (environment : Environment) (settings : Settings),
      (∀ entry ∈ environment, Environment.nameStart <+: entry.1.toList.map Char.toLower → '.' ∉ entry.1.toList) →
      (environment.Pairwise fun one other => one.1.toList.map Char.toLower ≠ other.1.toList.map Char.toLower) →
      invocation.settings document environment = .ok settings →
      ∀ text, ("MESSAGES_DEFAULT_LOCALE", text) ∈ environment → settings.defaultLocale = Text.trimmed text := by
  intro every
  -- The environment has the variable under its plain name and under a padded one behind it.
  have loaded : (⟨none, [], [], .check⟩ : Invocation).settings none untidy =
      .ok { standard with defaultLocale := "de", sources := ["user", "order"] } :=
    toOption_eq_some_iff.mp (by decide +kernel)
  have same := every _ none untidy _ (by decide +kernel) (by decide +kernel) loaded "fr" (by simp [untidy])
  exact absurd same (by decide +kernel)

end MessageCatalogue.Settings
