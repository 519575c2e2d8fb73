import MessageCatalogue.Proofs.Distinct
import MessageCatalogue.Proofs.Locale.Canonical
import MessageCatalogue.Proofs.Locale.Joining
import MessageCatalogue.Proofs.Text.WhiteSpace

/-! A locale is read back from its own spelling unless one of its variants is taken for something else there. -/

namespace MessageCatalogue.Locale

/-- Subtags that are taken keep their lengths. -/
theorem extent_of_takeFitting {fits? : List Char → Option String} (ignores : IgnoresCase fits?)
    {subtags rest : List (List Char)} {value : Option String} (taken : takeFitting fits? subtags = (value, rest)) :
    extent (value.toList.map String.toList) + extent rest = extent subtags := by
  -- A subtag that is taken is at most spelled in another case.
  unfold takeFitting at taken
  cases subtags with
  | nil =>
    obtain ⟨rfl, rfl⟩ := Prod.mk.inj taken
    rfl
  | cons first others =>
    cases found : fits? first with
    | none =>
      simp only [found, Prod.mk.injEq] at taken
      obtain ⟨rfl, rfl⟩ := taken
      exact Nat.zero_add _
    | some own =>
      simp only [found, Prod.mk.injEq] at taken
      obtain ⟨rfl, rfl⟩ := taken
      have alike := congrArg List.length (ignores.spelled first own found)
      rw [List.length_map, List.length_map] at alike
      simp [extent, alike]

/-- Variants that are read keep their lengths. -/
theorem extent_of_mapM_variant? {subtags : List (List Char)} {variants : List String}
    (read : subtags.mapM variant? = some variants) : extent (variants.map String.toList) = extent subtags := by
  -- Every variant is as long as the subtag that it is read from.
  induction subtags generalizing variants with
  | nil =>
    cases read
    rfl
  | cons first rest ih =>
    rw [List.mapM_cons] at read
    obtain ⟨own, found, later⟩ := Option.bind_eq_some_iff.mp read
    obtain ⟨others, each, same⟩ := Option.bind_eq_some_iff.mp later
    obtain rfl : own :: others = variants := Option.some.inj same
    have alike := congrArg List.length (ignoresCase_variant?.spelled first own found)
    rw [List.length_map, List.length_map] at alike
    rw [List.map_cons, extent_cons, extent_cons, ih each, alike]

/-- Putting variants in order adds none. -/
theorem extent_increasing_le (variants : List String) :
    extent ((increasing variants).map String.toList) ≤ extent (variants.map String.toList) := by
  -- Each insertion adds at most the element that is inserted.
  have grown : ∀ (variant : String) (others : List String),
      extent ((insertIncreasing variant others).map String.toList) ≤
        extent ((variant :: others).map String.toList) := by
    intro variant others
    induction others with
    | nil => exact Nat.le_refl _
    | cons first rest ih =>
      unfold insertIncreasing
      split
      · exact Nat.le_refl _
      · split
        · simp
        · simp only [List.map_cons, extent_cons] at ih ⊢
          omega
  induction variants with
  | nil => exact Nat.le_refl _
  | cons first rest ih =>
    have step := grown first (increasing rest)
    simp only [List.map_cons, extent_cons] at step ⊢
    exact step.trans (by omega)

/-- A locale has no more to spell than the subtags that it was read from. -/
theorem extent_subtags_le {subtags : List (List Char)} {locale : Locale} (read : ofSubtags subtags = .ok locale) :
    extent (locale.subtags.map String.toList) ≤ extent subtags := by
  cases subtags with
  | nil => cases read
  | cons first rest =>
    unfold ofSubtags at read
    cases language : language? first with
    | none => simp [language] at read
    | some own =>
      obtain ⟨script, afterScript, scripted⟩ : ∃ script after, takeFitting script? rest = (script, after) := ⟨_, _, rfl⟩
      obtain ⟨region, afterRegion, regional⟩ : ∃ region after, takeFitting region? afterScript = (region, after) :=
        ⟨_, _, rfl⟩
      simp only [language, scripted, regional] at read
      cases varied : afterRegion.mapM variant? with
      | none => simp [varied] at read
      | some variants =>
        simp only [varied, Except.ok.injEq] at read
        -- Only repeated variants are lost on the way.
        have named : language? first = some locale.language := by rw [language, ← read]
        have name : locale.languageName.toList.length = first.length := by
          rw [languageName_of_language? named, List.length_map]
        have ofScript := extent_of_takeFitting ignoresCase_script? scripted
        have ofRegion := extent_of_takeFitting ignoresCase_region? regional
        have ofVariants := extent_of_mapM_variant? varied
        have ordered := extent_increasing_le variants
        subst read
        simp only [subtags, List.map_cons, List.map_append, extent_cons, extent_append] at name ⊢
        omega

/-- A text names a locale exactly when the locale is that of the subtags left by trimming. -/
theorem parse_eq_ok_iff {text : String} {locale : Locale} :
    parse text = .ok locale ↔ ofSubtags (splitSubtags (Text.trim text.toList)) = .ok locale := by
  simp only [parse]
  split
  · -- The only subtag of an empty text is no language.
    rename_i empty
    rw [List.isEmpty_iff.mp empty]
    constructor <;> intro read <;> cases read
  · cases ofSubtags (splitSubtags (Text.trim text.toList)) <;> simp

/-- A script is four letters. -/
theorem isSome_script?_iff {subtag : List Char} :
    (script? subtag).isSome ↔ subtag.length = 4 ∧ subtag.all Char.isAlpha := by
  match subtag with
  | [] | [_] | [_, _] | [_, _, _] | _ :: _ :: _ :: _ :: _ :: _ => simp [script?]
  | [a, b, c, d] =>
    unfold script?
    split <;> simp_all

/-- A region has two or three characters. -/
theorem length_of_region? {subtag : List Char} {value : String} (fits : region? subtag = some value) :
    subtag.length = 2 ∨ subtag.length = 3 := by
  -- A region has two letters or three digits.
  unfold region? at fits
  split at fits
  · rename_i letters
    exact .inl letters.1
  · split at fits
    · rename_i digits
      exact .inr digits.1
    · cases fits

/-- The characters of a locale's subtags, kind by kind. -/
theorem map_toList_subtags (locale : Locale) : locale.subtags.map String.toList = locale.languageName.toList ::
    ((locale.script.map String.toList).toList ++ (locale.region.map String.toList).toList ++
      locale.variants.map String.toList) := by
  rw [subtags, List.map_cons, List.map_append, List.map_append, Option.toList_map, Option.toList_map]

/-- A part that fits is taken, and without it nothing is when the subtag in its place does not fit. -/
theorem takeFitting_part {fits? : List Char → Option String} {value : List Char → String} {part : Option (List Char)}
    (fits : ∀ own ∈ part, fits? own = some (value own)) (rest : List (List Char))
    (others : part = none → ∀ subtag ∈ rest.head?, fits? subtag = none) :
    takeFitting fits? (part.toList ++ rest) = (part.map value, rest) := by
  -- Without the part, the first subtag of the rest stands in its place.
  cases part with
  | some own => simp [takeFitting, fits own rfl]
  | none =>
    cases rest with
    | nil => rfl
    | cons first rest => simp [takeFitting, others rfl first rfl]

/-- Variants are read one after the other. -/
theorem mapM_variant? {value : List Char → String} {variants : List (List Char)}
    (fits : ∀ variant ∈ variants, variant? variant = some (value variant)) :
    variants.mapM variant? = some (variants.map value) := by
  induction variants with
  | nil => rfl
  | cons first rest ih =>
    obtain ⟨own, others⟩ := List.forall_mem_cons.mp fits
    rw [List.mapM_cons, own, ih others]
    rfl

/-- Parts that fit are read each in its place unless a first variant is taken for a script. -/
theorem ofSubtags_parts {first : List Char} {script region : Option (List Char)} {variants : List (List Char)}
    {language : String} {scriptOf regionOf variantOf : List Char → String} (named : language? first = some language)
    (scripted : ∀ own ∈ script, script? own = some (scriptOf own))
    (regional : ∀ own ∈ region, region? own = some (regionOf own))
    (varied : ∀ variant ∈ variants, variant? variant = some (variantOf variant))
    (unscripted : script = none → region = none →
      ∀ variant ∈ variants.head?, ¬ (variant.length = 4 ∧ variant.all Char.isAlpha)) :
    ofSubtags (first :: (script.toList ++ region.toList ++ variants)) =
      .ok ⟨language, script.map scriptOf, region.map regionOf, increasing (variants.map variantOf)⟩ := by
  -- What stands in the place of a script is a region, which is shorter, or a variant that is no script.
  have script := takeFitting_part scripted (region.toList ++ variants) fun noScript subtag leads => by
    refine Option.not_isSome_iff_eq_none.mp (mt isSome_script?_iff.mp fun letters => ?_)
    cases region with
    | some own =>
      obtain rfl : own = subtag := by simpa using leads
      have short := length_of_region? (regional own rfl)
      omega
    | none => exact unscripted noScript rfl subtag (by simpa using leads) letters
  -- What stands in the place of a region is a variant, which is longer.
  have region := takeFitting_part regional variants fun _ subtag leads => by
    rw [Option.eq_none_iff_forall_ne_some]
    intro value found
    have long := length_of_variant? (varied subtag (List.mem_of_head? leads))
    have short := length_of_region? found
    omega
  simp only [ofSubtags, named, List.append_assoc, script, region, mapM_variant? varied]

/--
A locale whose variants stay apart from what stands around them when it is spelled.

Without a script and a region, a first variant of four letters would stand in the place of a script.
A variant that ends in white space would lose it at the end of the text.
-/
structure IsLegible (locale : Locale) : Prop where
  unscripted : locale.script = none → locale.region = none →
    ∀ variant ∈ locale.variants.head?, ¬ (variant.toList.length = 4 ∧ variant.toList.all Char.isAlpha)
  closed : ∀ last ∈ locale.tag.toList.getLast?, isWhiteSpace last = false

namespace IsCanonical

variable {locale : Locale}

/-- The subtags of a locale are read as the locale unless a first variant is taken for a script. -/
theorem ofSubtags_subtags (canonical : locale.IsCanonical) (unscripted : locale.script = none → locale.region = none →
    ∀ variant ∈ locale.variants.head?, ¬ (variant.toList.length = 4 ∧ variant.toList.all Char.isAlpha)) :
    ofSubtags (locale.subtags.map String.toList) = .ok locale := by
  -- Each part is the value of its own characters.
  have script : ∀ own ∈ locale.script.map String.toList, script? own = some (String.ofList own) := by
    simpa using canonical.script
  have region : ∀ own ∈ locale.region.map String.toList, region? own = some (String.ofList own) := by
    simpa using canonical.region
  have variants : ∀ own ∈ locale.variants.map String.toList, variant? own = some (String.ofList own) := by
    simpa using canonical.variant
  have own : String.ofList ∘ String.toList = id := funext fun _ => String.ofList_toList
  rw [map_toList_subtags,
    ofSubtags_parts canonical.language script region variants (by simpa [List.head?_map] using unscripted)]
  simp only [Option.map_map, List.map_map, own, Option.map_id, List.map_id, id,
    increasing_of_pairwise canonical.ordered]

/-- A first variant that is taken for a script is lost. -/
theorem ofSubtags_subtags_ne (canonical : locale.IsCanonical) (noScript : locale.script = none)
    (noRegion : locale.region = none) {variant : String} (leads : locale.variants.head? = some variant)
    (letters : variant.toList.length = 4 ∧ variant.toList.all Char.isAlpha) :
    ofSubtags (locale.subtags.map String.toList) ≠ .ok locale := by
  intro read
  obtain ⟨more, variants⟩ := List.head?_eq_some_iff.mp leads
  obtain ⟨script, fits⟩ := Option.isSome_iff_exists.mp (isSome_script?_iff.mpr letters)
  -- The locale that is read has a script.
  simp only [subtags, noScript, noRegion, variants, Option.toList_none, List.nil_append, List.map_cons, ofSubtags,
    canonical.language, takeFitting, fits] at read
  split at read
  · have scripted := congrArg Locale.script (Except.ok.inj read)
    rw [noScript] at scripted
    cases scripted
  · cases read

/-- No part of a locale is empty. -/
theorem toList_ne_nil (canonical : locale.IsCanonical) : ∀ subtag ∈ locale.subtags, subtag.toList ≠ [] := by
  -- Each kind of subtags has a least length.
  intro subtag member empty
  rcases mem_subtags.mp member with rfl | script | region | variant
  · have long := canonical.small_languageName.1
    rw [← String.length_toList, empty] at long
    cases long
  · have long := length_of_script? (canonical.script subtag script)
    simp [empty] at long
  · have long := length_of_region? (canonical.region subtag region)
    simp [empty] at long
  · have long := length_of_variant? (canonical.variant subtag variant)
    simp [empty] at long

end IsCanonical

/-- A locale is printed with hyphens between its subtags. -/
theorem joins_tag (locale : Locale) : Joins (locale.subtags.map String.toList) locale.tag.toList := by
  have tag : locale.tag.toList = ['-'].intercalate (locale.subtags.map String.toList) := String.toList_intercalate
  rw [tag]
  exact .intercalate (.inl rfl) (by simp [subtags])

/-- No locale is printed longer than the text that names it. -/
theorem length_tag_le_of_parse {text : String} {locale : Locale} (parsed : parse text = .ok locale) :
    locale.tag.toList.length ≤ (Text.trim text.toList).length := by
  have read := extent_subtags_le (parse_eq_ok_iff.mp parsed)
  rw [(joins_tag locale).extent_eq, (joins_splitSubtags _).extent_eq] at read
  omega

namespace IsCanonical

variable {locale : Locale}

/-- File names spell a locale with underscores between its subtags. -/
theorem joins_resourceSuffix (canonical : locale.IsCanonical) :
    Joins (locale.subtags.map String.toList) locale.resourceSuffix.toList := by
  have joins := Joins.intercalate (.inr rfl) (List.splitOn_ne_nil '_' locale.resourceSuffix.toList)
  rwa [List.intercalate_splitOn, canonical.splitOn_resourceSuffix] at joins

/-- All texts that are joined from the subtags of a locale end alike. -/
theorem getLast?_eq (canonical : locale.IsCanonical) {text : List Char}
    (joins : Joins (locale.subtags.map String.toList) text) : text.getLast? = locale.tag.toList.getLast? := by
  obtain ⟨last, closes⟩ : ∃ last, locale.subtags.getLast? = some last :=
    Option.ne_none_iff_exists'.mp (by simp [subtags])
  have closes' : (locale.subtags.map String.toList).getLast? = some last.toList := by
    rw [List.getLast?_map, closes, Option.map_some]
  have named := canonical.toList_ne_nil last (List.mem_of_getLast? closes)
  rw [joins.getLast?_eq closes' named, (joins_tag locale).getLast?_eq closes' named]

/-- A text that is joined from the subtags of a locale has no white space to trim unless it is at the end. -/
theorem trim_eq (canonical : locale.IsCanonical) {text : List Char}
    (joins : Joins (locale.subtags.map String.toList) text)
    (closed : ∀ last ∈ locale.tag.toList.getLast?, isWhiteSpace last = false) : Text.trim text = text := by
  obtain ⟨long, small⟩ := canonical.small_languageName
  rw [← String.length_toList] at long
  -- The name of the language stands in front and consists of letters.
  have begun : ∀ c ∈ text.head?, isWhiteSpace c = false := by
    intro c first
    rw [joins.head?_eq (canonical.toList_ne_nil _ List.mem_cons_self)] at first
    have letter : c.isAlphanum = true := by simp [Char.isAlphanum, Char.isAlpha, small c (List.mem_of_head? first)]
    exact Text.isWhiteSpace_of_isAlphanum letter
  rw [← canonical.getLast?_eq joins] at closed
  have trimmed : Text.trim ([] ++ text ++ []) = text := Text.trim_surround (by simp) (by simp) begun closed
  simpa using trimmed

/-- A text that is joined from the subtags of a locale names the locale exactly when the locale is legible. -/
theorem parse_joined_iff (canonical : locale.IsCanonical) {text : String}
    (joins : Joins (locale.subtags.map String.toList) text.toList) :
    parse text = .ok locale ↔ locale.IsLegible := by
  have free : ∀ subtag ∈ locale.subtags.map String.toList, '-' ∉ subtag ∧ '_' ∉ subtag :=
    List.forall_mem_map.mpr canonical.joined
  constructor
  · intro parsed
    -- White space at the end would be lost, and what is left is too short to name the locale.
    have closed : ∀ last ∈ locale.tag.toList.getLast?, isWhiteSpace last = false := by
      intro last ended
      refine Bool.eq_false_iff.mpr fun white => ?_
      have shorter := Text.length_trim_lt ((canonical.getLast?_eq joins).symm ▸ ended) white
      have printed := length_tag_le_of_parse parsed
      have extent := joins.extent_eq
      rw [(joins_tag locale).extent_eq] at extent
      omega
    refine ⟨fun noScript noRegion variant leads letters => ?_, closed⟩
    rw [parse_eq_ok_iff, canonical.trim_eq joins closed, joins.splitSubtags_eq free] at parsed
    exact canonical.ofSubtags_subtags_ne noScript noRegion leads letters parsed
  · intro legible
    rw [parse_eq_ok_iff, canonical.trim_eq joins legible.closed, joins.splitSubtags_eq free]
    exact canonical.ofSubtags_subtags legible.unscripted

/-- A locale is read back from how file names spell it when it is legible. -/
theorem parse_resourceSuffix_iff (canonical : locale.IsCanonical) :
    parse locale.resourceSuffix = .ok locale ↔ locale.IsLegible :=
  canonical.parse_joined_iff canonical.joins_resourceSuffix

end IsCanonical

end MessageCatalogue.Locale
