import MessageCatalogue.Locale.Basic
import MessageCatalogue.Locale.Grammar
import MessageCatalogue.Proofs.Text.Ascii
import MessageCatalogue.Proofs.Text.Pieces

/-! A locale that was read holds a slash only in short subtags, so it spells no longer text with a slash in it. -/

namespace MessageCatalogue.Locale

/-- A subtag that holds a slash has at most four characters. -/
def IsTame (subtag : String) : Prop := '/' ∈ subtag.toList → subtag.length ≤ 4

/-- Letters and digits are no slashes, in small spelling either. -/
theorem slash_notMem_map_toLower {test : Char → Bool} (refused : test '/' = false) {subtag : List Char}
    (all : subtag.all test = true) : '/' ∉ subtag.map Char.toLower := by
  rw [Text.mem_map_toLower_iff (by decide)]
  intro member
  have passed := List.all_eq_true.mp all '/' member
  rw [refused] at passed
  cases passed

/-- A language holds no slash. -/
theorem isTame_language {subtag : List Char} {language : String} (fits : language? subtag = some language) :
    IsTame (if language = "" then "und" else language) := by
  -- The undetermined language has a name of its own, which holds no slash either.
  simp only [language?] at fits
  split at fits
  · -- A language consists of letters, and so does the name of the unknown one.
    rename_i shape
    have flat := slash_notMem_map_toLower (by decide) shape.2.2.2
    split
    · intro member
      exact absurd member (by decide)
    · intro member
      split at fits
      · rw [← Option.some.inj fits] at member
        simp at member
      · rw [← Option.some.inj fits, String.toList_ofList] at member
        exact absurd member flat
  · cases fits

/-- A script has four characters. -/
theorem isTame_script {subtag : List Char} {script : String} (fits : script? subtag = some script) :
    IsTame script := by
  -- Only a text of four characters is taken as a script.
  intro _
  unfold script? at fits
  split at fits
  · split at fits
    · rw [← Option.some.inj fits]
      simp
    · cases fits
  · cases fits

/-- A region has two or three characters. -/
theorem isTame_region {subtag : List Char} {region : String} (fits : region? subtag = some region) :
    IsTame region := by
  -- A region with few characters is tame, whatever they are.
  intro _
  unfold region? at fits
  split at fits
  · -- A region of letters has two of them.
    rename_i shape
    rw [← Option.some.inj fits, String.length_ofList, List.length_map, shape.1]
    decide
  · split at fits
    · -- A region of digits has three of them.
      rename_i shape
      rw [← Option.some.inj fits, String.length_ofList, shape.1]
      decide
    · cases fits

/-- A variant has four characters or consists of letters and digits. -/
theorem isTame_variant {subtag : List Char} {variant : String} (fits : variant? subtag = some variant) :
    IsTame variant := by
  unfold variant? at fits
  split at fits
  · rename_i shape
    intro member
    rw [← Option.some.inj fits, String.toList_ofList] at member
    rw [← Option.some.inj fits, String.length_ofList, List.length_map]
    -- A longer variant consists of letters and digits, which leaves the shorter ones.
    rcases shape.2 with short | long
    · exact Nat.le_of_eq short.1
    · exact absurd member (slash_notMem_map_toLower (by decide) long.2.2)
  · cases fits

/-- What is taken is the value of a subtag that fits, and the others are left. -/
theorem exists_of_takeFitting {fits? : List Char → Option String} {subtags rest : List (List Char)}
    {value : Option String} (taken : takeFitting fits? subtags = (value, rest)) :
    (∀ own ∈ value, ∃ subtag ∈ subtags, fits? subtag = some own) ∧ rest ⊆ subtags := by
  cases subtags with
  | nil =>
    obtain ⟨rfl, rfl⟩ := Prod.mk.inj taken
    simp
  | cons first others =>
    -- Only the first subtag is looked at.
    unfold takeFitting at taken
    cases found : fits? first with
    | none =>
      simp only [found, Prod.mk.injEq] at taken
      obtain ⟨rfl, rfl⟩ := taken
      simp
    | some own =>
      simp only [found, Prod.mk.injEq] at taken
      obtain ⟨rfl, rfl⟩ := taken
      simp [found]

/-- Every variant that is read belongs to a subtag that is one. -/
theorem exists_of_mapM_variant? {subtags : List (List Char)} {variants : List String}
    (read : subtags.mapM variant? = some variants) :
    ∀ variant ∈ variants, ∃ subtag ∈ subtags, variant? subtag = some variant := by
  -- All subtags are variants, so each variant comes from the subtag in its place.
  induction subtags generalizing variants with
  | nil =>
    cases read
    simp
  | cons first rest ih =>
    rw [List.mapM_cons] at read
    obtain ⟨own, found, later⟩ := Option.bind_eq_some_iff.mp read
    obtain ⟨others, each, same⟩ := Option.bind_eq_some_iff.mp later
    obtain rfl : own :: others = variants := Option.some.inj same
    intro variant member
    rcases List.mem_cons.mp member with rfl | member
    · exact ⟨first, List.mem_cons_self, found⟩
    · obtain ⟨subtag, among, fits⟩ := ih each variant member
      exact ⟨subtag, List.mem_cons_of_mem first among, fits⟩

/-- Each part of a locale is read from some subtag, and its variants are put in order. -/
structure IsReadFrom (locale : Locale) (subtags : List (List Char)) : Prop where
  language : ∃ subtag ∈ subtags, language? subtag = some locale.language
  script : ∀ script ∈ locale.script, ∃ subtag ∈ subtags, script? subtag = some script
  region : ∀ region ∈ locale.region, ∃ subtag ∈ subtags, region? subtag = some region
  variant : ∀ variant ∈ locale.variants, ∃ subtag ∈ subtags, variant? subtag = some variant
  ordered : locale.variants.Pairwise (· < ·)

/-- A locale of some subtags is read from them. -/
theorem isReadFrom_of_ofSubtags {subtags : List (List Char)} {locale : Locale} (read : ofSubtags subtags = .ok locale) :
    locale.IsReadFrom subtags := by
  cases subtags with
  | nil => cases read
  | cons first rest =>
    unfold ofSubtags at read
    cases language : language? first with
    | none => simp [language] at read
    | some own =>
      -- The parts are taken one after the other from what the ones before them left.
      obtain ⟨script, afterScript, scripted⟩ : ∃ script after, takeFitting script? rest = (script, after) := ⟨_, _, rfl⟩
      obtain ⟨region, afterRegion, regional⟩ : ∃ region after, takeFitting region? afterScript = (region, after) :=
        ⟨_, _, rfl⟩
      obtain ⟨ownScript, behindScript⟩ := exists_of_takeFitting scripted
      obtain ⟨ownRegion, behindRegion⟩ := exists_of_takeFitting regional
      simp only [language, scripted, regional] at read
      cases varied : afterRegion.mapM variant? with
      | none => simp [varied] at read
      | some variants =>
        simp only [varied, Except.ok.injEq] at read
        subst read
        refine ⟨⟨first, List.mem_cons_self, language⟩, fun script taken => ?_, fun region taken => ?_,
          fun variant listed => ?_, pairwise_increasing variants⟩
        · obtain ⟨subtag, member, fits⟩ := ownScript script taken
          exact ⟨subtag, List.mem_cons_of_mem first member, fits⟩
        · obtain ⟨subtag, member, fits⟩ := ownRegion region taken
          exact ⟨subtag, List.mem_cons_of_mem first (behindScript member), fits⟩
        · obtain ⟨subtag, member, fits⟩ := exists_of_mapM_variant? varied variant (mem_increasing.mp listed)
          exact ⟨subtag, List.mem_cons_of_mem first (behindScript (behindRegion member)), fits⟩

/-- A locale that a text names is read from the subtags of the text. -/
theorem isReadFrom_of_parse {text : String} {locale : Locale} (parsed : parse text = .ok locale) :
    locale.IsReadFrom (splitSubtags (Text.trim text.toList)) := by
  simp only [parse] at parsed
  split at parsed
  -- An empty text names no locale, and any other one is read by its subtags.
  · cases parsed
  · cases read : ofSubtags (splitSubtags (Text.trim text.toList)) with
    | error defect => simp [read] at parsed
    | ok own =>
      simp only [read, Except.ok.injEq] at parsed
      exact parsed ▸ isReadFrom_of_ofSubtags read

/-- A part of a locale is its language by name, its script, its region or one of its variants. -/
theorem mem_subtags {locale : Locale} {subtag : String} : subtag ∈ locale.subtags ↔
    subtag = locale.languageName ∨ subtag ∈ locale.script ∨ subtag ∈ locale.region ∨ subtag ∈ locale.variants := by
  simp only [subtags, List.mem_cons, List.mem_append, Option.mem_toList, Option.mem_def, or_assoc]

/-- The subtags of a locale that a text names hold slashes only when they are short. -/
theorem isTame_of_parse {text : String} {locale : Locale} (parsed : parse text = .ok locale) :
    ∀ subtag ∈ locale.subtags, IsTame subtag := by
  -- Each part of the locale was read from a subtag of its own kind.
  have own := isReadFrom_of_parse parsed
  intro subtag member
  rcases mem_subtags.mp member with rfl | script | region | variant
  · obtain ⟨_, _, fits⟩ := own.language
    exact isTame_language fits
  · obtain ⟨_, _, fits⟩ := own.script subtag script
    exact isTame_script fits
  · obtain ⟨_, _, fits⟩ := own.region subtag region
    exact isTame_region fits
  · obtain ⟨_, _, fits⟩ := own.variant subtag variant
    exact isTame_variant fits

/-- A text without separators that stands in a locale as file names spell it stands in one of its subtags. -/
theorem exists_subtag_of_infix {locale : Locale} {mark : List Char} (proper : mark ≠ []) (joined : '-' ∉ mark)
    (spelled : '_' ∉ mark) (stands : mark <:+: locale.resourceSuffix.toList) :
    ∃ subtag ∈ locale.subtags, mark <:+: subtag.toList := by
  -- What stands in the spelling comes from some part of the tag.
  obtain ⟨front, back, parts⟩ := stands
  rw [resourceSuffix, String.toList_ofList] at parts
  obtain ⟨whole, last, split, middle, _⟩ := List.map_eq_append_iff.mp parts.symm
  obtain ⟨first, own, rest, _, same⟩ := List.map_eq_append_iff.mp middle
  -- Only separators are spelled in another way, and the text holds none of them in either spelling.
  have kept : ∀ c ∈ own, id c = if c = '-' then '_' else c := by
    intro c member
    have image : (if c = '-' then '_' else c) ∈ mark := same ▸ List.mem_map_of_mem member
    by_cases hyphen : c = '-'
    · rw [if_pos hyphen] at image
      exact absurd image spelled
    · rw [if_neg hyphen]
      rfl
  have unchanged : own = mark := by
    rw [← same, ← List.map_congr_left kept, List.map_id]
  have inside : mark <:+: List.intercalate ['-'] (locale.subtags.map String.toList) := by
    have tag : locale.tag.toList = List.intercalate ['-'] (locale.subtags.map String.toList) :=
      String.toList_intercalate
    rw [← tag, split, rest, unchanged]
    exact ⟨first, last, rfl⟩
  -- A tag consists of its subtags, with hyphens between them.
  obtain ⟨part, member, within⟩ := Text.exists_of_infix_intercalate joined proper inside
  obtain ⟨subtag, own, rfl⟩ := List.mem_map.mp member
  exact ⟨subtag, own, within⟩

/-- A locale that was read does not spell a longer text without separators that holds a slash. -/
theorem not_infix_resourceSuffix {text : String} {locale : Locale} (parsed : parse text = .ok locale)
    {mark : List Char} (slash : '/' ∈ mark) (long : 4 < mark.length) (joined : '-' ∉ mark)
    (spelled : '_' ∉ mark) : ¬ mark <:+: locale.resourceSuffix.toList := by
  -- The text would lie within one subtag, which is shorter than the text when it holds a slash.
  intro stands
  have proper : mark ≠ [] := List.ne_nil_of_mem slash
  obtain ⟨subtag, member, inside⟩ := exists_subtag_of_infix proper joined spelled stands
  have short := isTame_of_parse parsed subtag member (inside.subset slash)
  have fits := inside.length_le
  rw [String.length_toList] at fits
  omega

end MessageCatalogue.Locale
