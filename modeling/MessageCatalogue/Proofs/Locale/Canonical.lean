import MessageCatalogue.Proofs.Locale.Subtags

/-! A locale that a text names is in canonical spelling, in which each of its subtags is read as itself. -/

namespace MessageCatalogue.Locale

variable {subtag : List Char} {value : String}

/-- A kind of subtags that are read in any case, with one of their spellings as the value. -/
structure IgnoresCase (fits? : List Char → Option String) : Prop where
  caseless : ∀ subtag, fits? (subtag.map Char.toLower) = fits? subtag
  spelled : ∀ subtag value, fits? subtag = some value → value.toList.map Char.toLower = subtag.map Char.toLower

/-- The value of a subtag whose case does not matter is read as itself. -/
theorem IgnoresCase.reads_value {fits? : List Char → Option String} (ignores : IgnoresCase fits?)
    (fits : fits? subtag = some value) : fits? value.toList = some value := by
  -- In small letters, the value and the subtag are the same text.
  rw [← ignores.caseless, ignores.spelled subtag value fits, ignores.caseless, fits]

/-- Scripts are read in any case. -/
theorem ignoresCase_script? : IgnoresCase script? where
  caseless subtag := by
    -- Only a text of four characters can be a script.
    match subtag with
    | [] | [_] | [_, _] | [_, _, _] | _ :: _ :: _ :: _ :: _ :: _ => rfl
    | [a, b, c, d] => simp [script?]
  spelled subtag value fits := by
    unfold script? at fits
    split at fits
    · split at fits
      · obtain rfl := Option.some.inj fits
        simp
      · cases fits
    · cases fits

/-- Regions are read in any case. -/
theorem ignoresCase_region? : IgnoresCase region? where
  caseless subtag := by
    have capital : (subtag.map Char.toLower).map Char.toUpper = subtag.map Char.toUpper := by simp
    unfold region?
    rw [List.length_map, Text.all_map_toLower Char.isAlpha_toLower_eq_isAlpha,
      Text.all_map_toLower Text.isDigit_toLower, capital]
    -- A region of digits is spelled in one way only.
    by_cases digits : subtag.all Char.isDigit = true
    · rw [Text.map_toLower_of_digits digits]
    · simp [digits]
  spelled subtag value fits := by
    unfold region? at fits
    split at fits
    · obtain rfl := Option.some.inj fits
      simp
    · split at fits
      · obtain rfl := Option.some.inj fits
        rw [String.toList_ofList]
      · cases fits

/-- Letters in small spelling may stand in a locale as any others. -/
theorem isPlain_toLower (c : Char) : isPlain c.toLower = isPlain c := by
  -- Every letter is plain, and what is no letter has one spelling.
  cases letter : c.isAlpha with
  | true =>
    have plain : ∀ d : Char, d.isAlpha → isPlain d = true := by
      intro d alphabetic
      have range := Text.toNat_of_isAlpha alphabetic
      simp only [isPlain, Bool.and_eq_true, decide_eq_true_eq]
      omega
    rw [plain c letter, plain c.toLower (by simpa using letter)]
  | false => rw [Text.toLower_of_not_isAlpha letter]

/-- Variants are read in any case. -/
theorem ignoresCase_variant? : IgnoresCase variant? where
  caseless subtag := by
    -- The shape of a variant is a matter of letters and digits, whatever their case.
    have shape : isShortVariant (subtag.map Char.toLower) = isShortVariant subtag := by
      cases subtag with
      | nil => rfl
      | cons first rest =>
        rw [List.map_cons, isShortVariant, Text.isDigit_toLower, Text.all_map_toLower Text.isAlphanum_toLower,
          isShortVariant]
    have small : (subtag.map Char.toLower).map Char.toLower = subtag.map Char.toLower := by simp
    unfold variant?
    rw [List.length_map, Text.all_map_toLower isPlain_toLower, Text.all_map_toLower Text.isAlphanum_toLower, shape,
      small]
  spelled subtag value fits := by
    unfold variant? at fits
    split at fits
    · obtain rfl := Option.some.inj fits
      simp
    · cases fits

/-- A language is named by the subtag it was read from, in small letters. -/
theorem languageName_of_language? {locale : Locale} (fits : language? subtag = some locale.language) :
    locale.languageName.toList = subtag.map Char.toLower := by
  -- The subtag fits only in the shape of a language, in which it is kept or stands for none.
  unfold language? at fits
  split at fits
  · -- The name that stands for the undetermined language is kept, and a language with another name is not empty.
    rename_i shape
    have own := (Option.some.inj fits).symm
    unfold languageName
    by_cases unknown : subtag.map Char.toLower = ['u', 'n', 'd']
    · rw [own, if_pos unknown, if_pos rfl, unknown]
      rfl
    · have named : String.ofList (subtag.map Char.toLower) ≠ "" := by
        intro empty
        have none := congrArg String.length empty
        rw [String.length_ofList, List.length_map] at none
        have some : 2 ≤ "".length := none ▸ shape.1
        exact absurd some (by decide)
      rw [own, if_neg unknown, if_neg named, String.toList_ofList]
  · cases fits

/-- Languages are read in any case. -/
theorem language?_map_toLower (subtag : List Char) : language? (subtag.map Char.toLower) = language? subtag := by
  have small : (subtag.map Char.toLower).map Char.toLower = subtag.map Char.toLower := by simp
  unfold language?
  rw [List.length_map, Text.all_map_toLower Char.isAlpha_toLower_eq_isAlpha, small]

/-- A locale each of whose subtags is read as itself, without separators in them and with its variants in order. -/
structure IsCanonical (locale : Locale) : Prop where
  language : language? locale.languageName.toList = some locale.language
  script : ∀ script ∈ locale.script, script? script.toList = some script
  region : ∀ region ∈ locale.region, region? region.toList = some region
  variant : ∀ variant ∈ locale.variants, variant? variant.toList = some variant
  ordered : locale.variants.Pairwise (· < ·)
  joined : ∀ subtag ∈ locale.subtags, '-' ∉ subtag.toList ∧ '_' ∉ subtag.toList

/-- The subtags of a text hold no separators. -/
theorem separator_notMem_of_mem_splitSubtags {text : List Char} (member : subtag ∈ splitSubtags text) :
    '-' ∉ subtag ∧ '_' ∉ subtag := by
  refine ⟨Text.notMem_of_mem_pieces member, fun underscore => ?_⟩
  -- Every underscore of the text was read as a hyphen.
  have held := Text.subset_of_mem_pieces (by simp) member underscore
  obtain ⟨c, _, same⟩ := List.mem_map.mp held
  by_cases marked : c = '_'
  · simp [marked] at same
  · rw [if_neg marked] at same
    exact marked same

/-- Each part of a locale is a spelling of some subtag that the locale was read from. -/
theorem IsReadFrom.exists_spelling {locale : Locale} {subtags : List (List Char)} (read : locale.IsReadFrom subtags)
    {part : String} (member : part ∈ locale.subtags) :
    ∃ subtag ∈ subtags, part.toList.map Char.toLower = subtag.map Char.toLower := by
  -- Each kind of subtags has one of their spellings as its value.
  rcases mem_subtags.mp member with rfl | script | region | variant
  · obtain ⟨subtag, among, fits⟩ := read.language
    refine ⟨subtag, among, ?_⟩
    rw [languageName_of_language? fits]
    simp
  · obtain ⟨subtag, among, fits⟩ := read.script part script
    exact ⟨subtag, among, ignoresCase_script?.spelled subtag part fits⟩
  · obtain ⟨subtag, among, fits⟩ := read.region part region
    exact ⟨subtag, among, ignoresCase_region?.spelled subtag part fits⟩
  · obtain ⟨subtag, among, fits⟩ := read.variant part variant
    exact ⟨subtag, among, ignoresCase_variant?.spelled subtag part fits⟩

/-- A locale that a text names is in canonical spelling. -/
theorem isCanonical_of_parse {text : String} {locale : Locale} (parsed : parse text = .ok locale) :
    locale.IsCanonical := by
  -- Each part was read from a subtag and is what reading its own spelling gives.
  have read := isReadFrom_of_parse parsed
  refine ⟨?_, fun script own => ?_, fun region own => ?_, fun variant own => ?_, read.ordered, fun part member => ?_⟩
  · obtain ⟨subtag, _, fits⟩ := read.language
    rw [languageName_of_language? fits, language?_map_toLower, fits]
  · obtain ⟨_, _, fits⟩ := read.script script own
    exact ignoresCase_script?.reads_value fits
  · obtain ⟨_, _, fits⟩ := read.region region own
    exact ignoresCase_region?.reads_value fits
  · obtain ⟨_, _, fits⟩ := read.variant variant own
    exact ignoresCase_variant?.reads_value fits
  · -- Separators are no letters, so a part has as few of them as the subtag it was read from.
    obtain ⟨subtag, among, same⟩ := read.exists_spelling member
    have free := separator_notMem_of_mem_splitSubtags among
    rw [← Text.mem_map_toLower_iff (by decide), ← same, Text.mem_map_toLower_iff (by decide),
      ← Text.mem_map_toLower_iff (c := '_') (by decide), ← same, Text.mem_map_toLower_iff (by decide)] at free
    exact free

namespace IsCanonical

variable {locale : Locale}

/-- File names spell a locale by its subtags with underscores between them. -/
theorem splitOn_resourceSuffix (canonical : locale.IsCanonical) :
    locale.resourceSuffix.toList.splitOn '_' = locale.subtags.map String.toList := by
  -- No subtag holds a hyphen, so underscores replace only those between the subtags.
  have kept : ∀ part ∈ locale.subtags.map String.toList, part.map (fun c => if c = '-' then '_' else c) = id part := by
    intro part member
    obtain ⟨subtag, own, rfl⟩ := List.mem_map.mp member
    have same : ∀ c ∈ subtag.toList, (if c = '-' then '_' else c) = id c := by
      intro c held
      have other : c ≠ '-' := fun hyphen => (canonical.joined subtag own).1 (hyphen ▸ held)
      rw [if_neg other, id]
    rw [List.map_congr_left same, List.map_id, id]
  have joined : locale.resourceSuffix.toList = ['_'].intercalate (locale.subtags.map String.toList) := by
    rw [resourceSuffix, tag, String.toList_ofList, String.toList_intercalate]
    exact (Text.map_intercalate _ _ _).trans (by rw [List.map_congr_left kept, List.map_id]; rfl)
  rw [joined]
  refine List.splitOn_intercalate '_' ?_ (by simp [subtags])
  intro part member
  obtain ⟨subtag, own, rfl⟩ := List.mem_map.mp member
  exact (canonical.joined subtag own).2

/-- The name of a language has at least two letters, all of them small. -/
theorem small_languageName (canonical : locale.IsCanonical) :
    2 ≤ locale.languageName.length ∧ ∀ c ∈ locale.languageName.toList, c.isLower := by
  -- The name of a canonical locale is itself read as its language.
  have small := languageName_of_language? canonical.language
  have fits := canonical.language
  unfold language? at fits
  split at fits
  · -- The name is what its letters become in small spelling.
    rename_i shape
    refine ⟨shape.1, fun c member => ?_⟩
    rw [small] at member
    obtain ⟨d, held, rfl⟩ := List.mem_map.mp member
    rw [Char.isLower_toLower_eq_isAlpha]
    exact List.all_eq_true.mp shape.2.2.2 d held
  · cases fits

end IsCanonical

/-- No letter of a region is small. -/
theorem isLower_of_mem_region (fits : region? subtag = some value) : ∀ c ∈ value.toList, c.isLower = false := by
  -- Letters become capitals, and the other regions consist of digits.
  unfold region? at fits
  split at fits
  · obtain rfl := Option.some.inj fits
    intro c member
    rw [String.toList_ofList] at member
    obtain ⟨d, _, rfl⟩ := List.mem_map.mp member
    simp
  · split at fits
    · rename_i shape
      obtain rfl := Option.some.inj fits
      intro c member
      rw [String.toList_ofList] at member
      have digit := List.all_eq_true.mp shape.2 c member
      refine Bool.eq_false_iff.mpr fun small => ?_
      have letter : c.isAlpha = true := by simp [Char.isAlpha, small]
      simp [Text.isDigit_of_isAlpha letter] at digit
    · cases fits

/-- A script has four characters. -/
theorem length_of_script? (fits : script? subtag = some value) : subtag.length = 4 := by
  -- No text of another length is taken as one.
  unfold script? at fits
  split at fits
  · rfl
  · cases fits

/-- A variant has at least four characters. -/
theorem length_of_variant? (fits : variant? subtag = some value) : 4 ≤ subtag.length := by
  unfold variant? at fits
  split at fits
  · rename_i shape
    omega
  · cases fits

/-- A short language is no script, region or variant of a locale. -/
theorem IsCanonical.languageName_notMem_tail {one other : Locale} (canonical : one.IsCanonical)
    (canonical' : other.IsCanonical) (short : one.languageName.length ≤ 3) :
    one.languageName ∉ other.subtags.tail := by
  obtain ⟨proper, small⟩ := canonical.small_languageName
  rw [← String.length_toList] at short
  simp only [subtags, List.tail_cons, List.mem_append, Option.mem_toList, not_or]
  -- Scripts and variants are longer, and regions are not in small letters.
  refine ⟨⟨fun script => ?_, fun region => ?_⟩, fun variant => ?_⟩
  · have four := length_of_script? (canonical'.script _ script)
    omega
  · have occupied : 0 < one.languageName.toList.length := by
      rw [String.length_toList]
      omega
    obtain ⟨c, member⟩ := List.exists_mem_of_length_pos occupied
    have capital := isLower_of_mem_region (canonical'.region _ region) c member
    simp [small c member] at capital
  · have long := length_of_variant? (canonical'.variant _ variant)
    omega

end MessageCatalogue.Locale
