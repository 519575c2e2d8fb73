import MessageCatalogue.Proofs.Locale.Legible

/-! However the parts of a locale are spelled, they name the same locale, and so does what it is printed as. -/

namespace MessageCatalogue.Locale

variable {text : List Char}

/-- A language has two, three or five to eight letters. -/
def IsLanguage (text : List Char) : Prop :=
  2 ≤ text.length ∧ text.length ≤ 8 ∧ text.length ≠ 4 ∧ text.all Char.isAlpha

/-- A script has four letters. -/
def IsScript (text : List Char) : Prop := text.length = 4 ∧ text.all Char.isAlpha

/-- A region has two letters or three digits. -/
def IsRegion (text : List Char) : Prop :=
  text.length = 2 ∧ text.all Char.isAlpha ∨ text.length = 3 ∧ text.all Char.isDigit

/-- A proper variant has five to eight letters or digits, or four of which the first is a digit. -/
def IsVariant (text : List Char) : Prop :=
  text.all Char.isAlphanum ∧ (5 ≤ text.length ∧ text.length ≤ 8 ∨ text.length = 4 ∧ text.head?.any Char.isDigit)

instance : DecidablePred IsLanguage := fun _ => inferInstanceAs (Decidable (_ ∧ _))

instance : DecidablePred IsScript := fun _ => inferInstanceAs (Decidable (_ ∧ _))

instance : DecidablePred IsRegion := fun _ => inferInstanceAs (Decidable (_ ∨ _))

instance : DecidablePred IsVariant := fun _ => inferInstanceAs (Decidable (_ ∧ _))

/-- Of which kind a part is does not depend on its case. -/
theorem isLanguage_map_toLower : IsLanguage (text.map Char.toLower) ↔ IsLanguage text := by
  rw [IsLanguage, List.length_map, Text.all_map_toLower Char.isAlpha_toLower_eq_isAlpha, IsLanguage]

theorem isScript_map_toLower : IsScript (text.map Char.toLower) ↔ IsScript text := by
  rw [IsScript, List.length_map, Text.all_map_toLower Char.isAlpha_toLower_eq_isAlpha, IsScript]

theorem isRegion_map_toLower : IsRegion (text.map Char.toLower) ↔ IsRegion text := by
  rw [IsRegion, List.length_map, Text.all_map_toLower Char.isAlpha_toLower_eq_isAlpha,
    Text.all_map_toLower Text.isDigit_toLower, IsRegion]

theorem isVariant_map_toLower : IsVariant (text.map Char.toLower) ↔ IsVariant text := by
  have first : (text.map Char.toLower).head?.any Char.isDigit = text.head?.any Char.isDigit := by
    cases text <;> simp
  rw [IsVariant, List.length_map, Text.all_map_toLower Text.isAlphanum_toLower, first, IsVariant]

/-- A text with a capital in front and small letters behind. -/
def capitalized : List Char → List Char
  | [] => []
  | first :: rest => first.toUpper :: rest.map Char.toLower

@[simp] theorem capitalized_map_toLower (text : List Char) :
    capitalized (text.map Char.toLower) = capitalized text := by
  cases text <;> simp [capitalized]

@[simp] theorem map_toLower_capitalized (text : List Char) :
    (capitalized text).map Char.toLower = text.map Char.toLower := by
  cases text <;> simp [capitalized]

/-- A script becomes capitalized. -/
theorem script?_eq (letters : IsScript text) : script? text = some (String.ofList (capitalized text)) := by
  obtain ⟨long, letters⟩ := letters
  obtain ⟨a, b, c, d, rfl⟩ := List.length_eq_four.mp long
  exact if_pos letters

/-- A region becomes capital. -/
theorem region?_eq (shape : IsRegion text) : region? text = some (String.ofList (text.map Char.toUpper)) := by
  rcases shape with letters | ⟨long, digits⟩
  · exact if_pos letters
  · -- Digits are spelled in one way only.
    have other : ¬ (text.length = 2 ∧ text.all Char.isAlpha) := by omega
    rw [region?, if_neg other, if_pos ⟨long, digits⟩, Text.map_toUpper_of_digits digits]

/-- A proper variant becomes small. -/
theorem variant?_eq (shape : IsVariant text) : variant? text = some (String.ofList (text.map Char.toLower)) := by
  -- The shape of a proper variant is one of the two that are read, and all its characters are plain.
  obtain ⟨alphanumeric, shape⟩ := shape
  have plain : text.all isPlain := by
    refine List.all_eq_true.mpr fun c member => ?_
    have range := Text.toNat_of_isAlphanum (List.all_eq_true.mp alphanumeric c member)
    simp only [isPlain, Bool.and_eq_true, decide_eq_true_eq]
    omega
  refine if_pos ⟨plain, ?_⟩
  rcases shape with ⟨least, most⟩ | ⟨long, digit⟩
  · exact .inr ⟨least, most, alphanumeric⟩
  · cases text with
    | nil => cases long
    | cons first rest =>
      have digit : first.isDigit := by simpa using digit
      exact .inl ⟨long, by simp [isShortVariant, digit]⟩

/-- No proper variant is a script. -/
theorem IsVariant.not_isScript (shape : IsVariant text) : ¬ IsScript text := by
  -- A script has four letters, so only the variants of four characters could be one.
  rintro ⟨long, letters⟩
  rcases shape.2 with ⟨least, _⟩ | ⟨_, digit⟩
  · omega
  · -- A digit in front is no letter.
    cases text with
    | nil => cases long
    | cons first rest =>
      have letter : first.isAlpha := List.all_eq_true.mp letters first List.mem_cons_self
      simp [Text.isDigit_of_isAlpha letter] at digit

/-- The parts of a locale as they are spelled somewhere. -/
structure Draft where
  language : List Char
  script : Option (List Char)
  region : Option (List Char)
  variants : List (List Char)

namespace Draft

/-- The parts in the order in which they are spelled. -/
def parts (draft : Draft) : List (List Char) :=
  draft.language :: (draft.script.toList ++ draft.region.toList ++ draft.variants)

/-- A draft each of whose parts is of its kind. -/
structure IsValid (draft : Draft) : Prop where
  language : IsLanguage draft.language
  script : ∀ script ∈ draft.script, IsScript script
  region : ∀ region ∈ draft.region, IsRegion region
  variant : ∀ variant ∈ draft.variants, IsVariant variant

/-- Two drafts that differ in the case of letters only, and in how often and in which order variants stand in them. -/
structure IsAlike (draft other : Draft) : Prop where
  language : draft.language.map Char.toLower = other.language.map Char.toLower
  script : draft.script.map (List.map Char.toLower) = other.script.map (List.map Char.toLower)
  region : draft.region.map (List.map Char.toLower) = other.region.map (List.map Char.toLower)
  variants : ∀ variant, variant ∈ draft.variants.map (List.map Char.toLower) ↔
    variant ∈ other.variants.map (List.map Char.toLower)

/-- A text that has a hyphen or an underscore between each two parts, and any white space around them. -/
def IsSpelled (draft : Draft) (text : List Char) : Prop :=
  ∃ front body back, text = front ++ body ++ back ∧ (∀ c ∈ front, isWhiteSpace c) ∧ (∀ c ∈ back, isWhiteSpace c) ∧
    Joins draft.parts body

/-- The locale of the parts, each in canonical spelling. -/
def locale (draft : Draft) : Locale where
  -- The undetermined language is written by a name and kept as none.
  language :=
    if draft.language.map Char.toLower = "und".toList then "" else String.ofList (draft.language.map Char.toLower)
  script := draft.script.map fun script => String.ofList (capitalized script)
  region := draft.region.map fun region => String.ofList (region.map Char.toUpper)
  variants := increasing (draft.variants.map fun variant => String.ofList (variant.map Char.toLower))

/-- The parts of a locale as they are printed. -/
def ofLocale (locale : Locale) : Draft where
  -- An undetermined language is written out, since the first part cannot be left out.
  language := locale.languageName.toList
  script := locale.script.map String.toList
  region := locale.region.map String.toList
  variants := locale.variants.map String.toList

theorem parts_ofLocale (locale : Locale) : (ofLocale locale).parts = locale.subtags.map String.toList :=
  (map_toList_subtags locale).symm

variable {draft other : Draft}

/-- The language of a draft is read as that of its locale. -/
theorem IsValid.language?_eq (valid : draft.IsValid) : language? draft.language = some draft.locale.language :=
  if_pos valid.language

/-- Valid parts in their order are read as their locale. -/
theorem IsValid.ofSubtags_parts (valid : draft.IsValid) : ofSubtags draft.parts = .ok draft.locale :=
  Locale.ofSubtags_parts valid.language?_eq (fun script own => script?_eq (valid.script script own))
    (fun region own => region?_eq (valid.region region own))
    (fun variant own => variant?_eq (valid.variant variant own))
    fun _ _ variant leads => (valid.variant variant (List.mem_of_head? leads)).not_isScript

/-- Valid parts consist of letters and digits, of which each has some. -/
theorem IsValid.isAlphanum (valid : draft.IsValid) {part : List Char} (own : part ∈ draft.parts) :
    part ≠ [] ∧ ∀ c ∈ part, c.isAlphanum := by
  -- Each kind asks for letters, for digits or for either, and for a least number of them.
  have letters : ∀ {text : List Char}, text.all Char.isAlpha → ∀ c ∈ text, c.isAlphanum := fun all c member => by
    simp [Char.isAlphanum, List.all_eq_true.mp all c member]
  have digits : ∀ {text : List Char}, text.all Char.isDigit → ∀ c ∈ text, c.isAlphanum := fun all c member => by
    simp [Char.isAlphanum, List.all_eq_true.mp all c member]
  simp only [parts, List.mem_cons, List.mem_append, Option.mem_toList, or_assoc] at own
  rcases own with rfl | script | region | variant
  · obtain ⟨least, _, _, all⟩ := valid.language
    exact ⟨List.ne_nil_of_length_pos (by omega), letters all⟩
  · obtain ⟨long, all⟩ := valid.script part script
    exact ⟨List.ne_nil_of_length_pos (by omega), letters all⟩
  · rcases valid.region part region with ⟨long, all⟩ | ⟨long, all⟩
    · exact ⟨List.ne_nil_of_length_pos (by omega), letters all⟩
    · exact ⟨List.ne_nil_of_length_pos (by omega), digits all⟩
  · obtain ⟨all, shape⟩ := valid.variant part variant
    exact ⟨List.ne_nil_of_length_pos (by omega), List.all_eq_true.mp all⟩

/-- A text that spells valid parts names their locale. -/
theorem IsValid.parse_eq (valid : draft.IsValid) {text : String} (spelled : draft.IsSpelled text.toList) :
    parse text = .ok draft.locale := by
  obtain ⟨front, body, back, text, before, behind, joins⟩ := spelled
  obtain ⟨last, closes⟩ : ∃ last, draft.parts.getLast? = some last :=
    Option.ne_none_iff_exists'.mp (by simp [parts])
  obtain ⟨named, alphanumeric⟩ := valid.isAlphanum (List.mem_of_getLast? closes)
  have leads : draft.language ∈ draft.parts := List.mem_cons_self
  obtain ⟨named', alphanumeric'⟩ := valid.isAlphanum leads
  -- The parts begin and end with letters and digits, so trimming goes no further than up to them.
  have begun : ∀ c ∈ body.head?, isWhiteSpace c = false := fun c first =>
    Text.isWhiteSpace_of_isAlphanum (alphanumeric' c (List.mem_of_head? (joins.head?_eq named' ▸ first)))
  have ended : ∀ c ∈ body.getLast?, isWhiteSpace c = false := fun c final =>
    Text.isWhiteSpace_of_isAlphanum (alphanumeric c (List.mem_of_getLast? (joins.getLast?_eq closes named ▸ final)))
  have free : ∀ part ∈ draft.parts, '-' ∉ part ∧ '_' ∉ part := fun part own =>
    ⟨fun hyphen => absurd ((valid.isAlphanum own).2 _ hyphen) (by decide),
      fun underscore => absurd ((valid.isAlphanum own).2 _ underscore) (by decide)⟩
  rw [parse_eq_ok_iff, text, Text.trim_surround before behind begun ended, joins.splitSubtags_eq free]
  exact valid.ofSubtags_parts

/-- What does not depend on case holds of an optional part when it holds of another spelling of the part. -/
theorem forall_mem_of_alike {holds : List Char → Prop} (blind : ∀ {text}, holds (text.map Char.toLower) ↔ holds text)
    {one other : Option (List Char)} (alike : one.map (List.map Char.toLower) = other.map (List.map Char.toLower))
    (each : ∀ own ∈ other, holds own) : ∀ own ∈ one, holds own := by
  rintro own rfl
  obtain ⟨spelling, found, same⟩ := Option.map_eq_some_iff.mp alike.symm
  rw [← blind, ← same, blind]
  exact each spelling found

/-- A draft like a valid one is valid. -/
theorem IsValid.of_alike (valid : draft.IsValid) (alike : other.IsAlike draft) : other.IsValid where
  language := by
    rw [← isLanguage_map_toLower, alike.language, isLanguage_map_toLower]
    exact valid.language
  script := forall_mem_of_alike isScript_map_toLower alike.script valid.script
  region := forall_mem_of_alike isRegion_map_toLower alike.region valid.region
  variant variant own := by
    -- Some variant of the valid draft is another spelling of this one.
    obtain ⟨spelling, among, same⟩ := List.mem_map.mp ((alike.variants _).mp (List.mem_map_of_mem own))
    rw [← isVariant_map_toLower, ← same, isVariant_map_toLower]
    exact valid.variant spelling among

/-- Drafts that are alike have the same locale. -/
theorem IsAlike.locale_eq (alike : other.IsAlike draft) : other.locale = draft.locale := by
  -- In a canonical spelling, nothing is left of the case of a part.
  have spelling : ∀ draft : Draft, draft.locale =
      { language := if draft.language.map Char.toLower = "und".toList then "" else
          String.ofList (draft.language.map Char.toLower)
        script := (draft.script.map (List.map Char.toLower)).map fun script => String.ofList (capitalized script)
        region := (draft.region.map (List.map Char.toLower)).map fun region => String.ofList (region.map Char.toUpper)
        variants := increasing ((draft.variants.map (List.map Char.toLower)).map String.ofList) } := by
    intro draft
    simp [locale, Function.comp_def]
  have variants : increasing ((other.variants.map (List.map Char.toLower)).map String.ofList) =
      increasing ((draft.variants.map (List.map Char.toLower)).map String.ofList) :=
    increasing_congr fun variant => by simp only [List.mem_map (f := String.ofList), alike.variants]
  rw [spelling other, spelling draft, alike.language, alike.script, alike.region, variants]

/-- The locale of a valid draft is printed with the same parts. -/
theorem IsValid.isAlike_ofLocale (valid : draft.IsValid) : (ofLocale draft.locale).IsAlike draft where
  language := by
    change draft.locale.languageName.toList.map Char.toLower = _
    rw [languageName_of_language? valid.language?_eq]
    simp
  script := by simp [ofLocale, locale, Function.comp_def]
  region := by simp [ofLocale, locale, Function.comp_def]
  variants variant := by simp [ofLocale, locale, mem_increasing, Function.comp_def]

/-- All spellings of a valid draft and of the drafts like it name one locale, and so does what that is printed as. -/
theorem spellings_name_one_locale (valid : draft.IsValid) :
    (∀ other : Draft, other.IsAlike draft → ∀ text : String, other.IsSpelled text.toList →
        parse text = .ok draft.locale) ∧
      parse draft.locale.tag = .ok draft.locale ∧ parse draft.locale.resourceSuffix = .ok draft.locale := by
  have named : ∀ other : Draft, other.IsAlike draft → ∀ text : String, other.IsSpelled text.toList →
      parse text = .ok draft.locale := fun other alike text spelled =>
    alike.locale_eq ▸ (valid.of_alike alike).parse_eq spelled
  -- What a locale is printed as spells its parts, which are like those of the draft.
  have printed : ∀ text : String, Joins (draft.locale.subtags.map String.toList) text.toList →
      parse text = .ok draft.locale := fun text joins =>
    named _ valid.isAlike_ofLocale text ⟨[], text.toList, [], by simp, by simp, by simp, parts_ofLocale _ ▸ joins⟩
  have tag := printed draft.locale.tag (joins_tag draft.locale)
  exact ⟨named, tag, printed _ (isCanonical_of_parse tag).joins_resourceSuffix⟩

/-- Another spelling of a dialect of Slovenian, in which a variant stands twice, names the dialect. -/
theorem dialect_is_named :
    let draft : Draft := ⟨"sl".toList, some "latn".toList, some "it".toList,
      ["rozaj".toList, "1994".toList, "nedis".toList]⟩
    let other : Draft := ⟨"SL".toList, some "latn".toList, some "IT".toList,
      ["1994".toList, "NEDIS".toList, "rozaj".toList, "1994".toList]⟩
    draft.IsValid ∧ other.IsAlike draft ∧ other.IsSpelled " SL_latn-IT_1994_NEDIS-rozaj_1994\t".toList ∧
      parse " SL_latn-IT_1994_NEDIS-rozaj_1994\t" = .ok ⟨"sl", some "Latn", some "IT", ["1994", "nedis", "rozaj"]⟩ := by
  -- The draft and its other spelling have the same parts, and the text joins those of the other one.
  intro draft other
  have valid : draft.IsValid := ⟨by decide, by decide, by decide, by decide⟩
  have alike : other.IsAlike draft := ⟨by decide, by decide, by decide, fun variant => by simp [draft, other]; tauto⟩
  have spelled : other.IsSpelled " SL_latn-IT_1994_NEDIS-rozaj_1994\t".toList :=
    ⟨[' '], "SL_latn-IT_1994_NEDIS-rozaj_1994".toList, ['\t'], by decide, List.forall_mem_singleton.mpr rfl,
      List.forall_mem_singleton.mpr rfl,
      .next _ (.inr rfl) (.next _ (.inl rfl) (.next _ (.inr rfl) (.next _ (.inr rfl) (.next _ (.inl rfl)
        (.next _ (.inr rfl) (.last _))))))⟩
  refine ⟨valid, alike, spelled, ?_⟩
  rw [(spellings_name_one_locale valid).1 other alike _ spelled]
  rfl

end Draft

end MessageCatalogue.Locale
