import MessageCatalogue.Proofs.Outcome
import MessageCatalogue.Proofs.Reference
import MessageCatalogue.Proofs.Resource.Conversation
import MessageCatalogue.Proofs.Resource.Naming
import MessageCatalogue.Resource.Memory

/-! Documents with unusable codes are refused, among them codes that would be read as references to others. -/

namespace MessageCatalogue

open Fetch Loading

/-- A code is usable when it is not blank and does not both begin and end with a brace. -/
theorem codeDefect?_eq_none_iff {code : String} :
    codeDefect? code = none ↔
      Text.trim code.toList ≠ [] ∧ ¬ (code.toList.head? = some '{' ∧ code.toList.getLast? = some '}') := by
  -- Codes are looked at for blankness first, and braces count only behind that.
  unfold codeDefect?
  split
  · rename_i blank
    simp [List.isEmpty_iff.mp blank]
  · rename_i visible
    have visible : Text.trim code.toList ≠ [] := fun blank => visible (List.isEmpty_iff.mpr blank)
    split
    · rename_i braced
      simp [braced]
    · rename_i unbraced
      simpa [visible] using unbraced

/-- A usable code is not empty. -/
theorem ne_empty_of_codeDefect? {code : String} (usable : codeDefect? code = none) : code ≠ "" := by
  rintro rfl
  exact (codeDefect?_eq_none_iff.mp usable).1 rfl

/-- A code that refers to another one is usable exactly when white space stands around its braces. -/
theorem RefersTo.codeDefect?_eq_none_iff {text code : String} (refers : RefersTo text code) :
    codeDefect? text = none ↔ Text.trimmed text ≠ text := by
  have visible : Text.trim text.toList ≠ [] := by simp [refers.braced]
  rw [MessageCatalogue.codeDefect?_eq_none_iff]
  constructor
  · rintro ⟨_, unbraced⟩ same
    -- Without white space around them, the braces are the ends of the text.
    have untrimmed : (Text.trimmed text).toList = text.toList := congrArg String.toList same
    rw [Text.trimmed, String.toList_ofList] at untrimmed
    have whole : text.toList = '{' :: (code.toList ++ ['}']) := untrimmed.symm.trans refers.braced
    exact unbraced ⟨by rw [whole]; rfl, by rw [whole, ← List.cons_append, List.getLast?_concat]⟩
  · intro padded
    refine ⟨visible, ?_⟩
    rintro ⟨opened, closed⟩
    -- Braces at its ends would leave nothing to trim.
    refine padded ?_
    have begun : ∀ c ∈ text.toList.head?, isWhiteSpace c = false := by
      rw [opened]
      rintro c ⟨rfl⟩
      decide
    have ended : ∀ c ∈ text.toList.getLast?, isWhiteSpace c = false := by
      rw [closed]
      rintro c ⟨rfl⟩
      decide
    rw [Text.trimmed, Text.trim, Text.trimStart_of_head? begun, Text.trimEnd_of_getLast? ended, String.ofList_toList]

/-- The codes of some entries are usable. -/
def HasUsableCodes (entries : List Properties.Entry) : Prop := ∀ entry ∈ entries, codeDefect? entry.key = none

namespace Loader

variable {loader : Loader} {source : String} {locale : Locale} {id : ResourceId}

/-- A check is passed when every code is usable. -/
theorem checkCodes_eq_ok_iff {entries : List Properties.Entry} :
    checkCodes source id entries = .ok () ↔ HasUsableCodes entries := by
  -- The first code that is not usable would end the check.
  unfold HasUsableCodes
  induction entries with
  | nil => simp [checkCodes]
  | cons entry rest ih =>
    rw [checkCodes, List.forall_mem_cons]
    cases defect : codeDefect? entry.key with
    | some _ => simp
    | none => simp [ih]

/-- A check is failed at the first code that is not usable. -/
theorem checkCodes_eq_error_iff {entries : List Properties.Entry} {error : MessageError} :
    checkCodes source id entries = .error error ↔
      ∃ earlier entry later defect, entries = earlier ++ entry :: later ∧ HasUsableCodes earlier ∧
        codeDefect? entry.key = some defect ∧ error = .invalidCode source entry.key id.text defect := by
  induction entries with
  | nil => simp [checkCodes]
  | cons first rest ih =>
    unfold checkCodes
    cases found : codeDefect? first.key with
    | some defect =>
      constructor
      · intro failed
        exact ⟨[], first, rest, defect, rfl, by simp [HasUsableCodes], found, (Except.error.inj failed).symm⟩
      · rintro ⟨earlier, entry, later, own, split, usable, invalid, rfl⟩
        cases earlier with
        | nil =>
          obtain ⟨rfl, rfl⟩ := List.cons.inj split
          rw [Option.some.inj (found.symm.trans invalid)]
        | cons start others =>
          -- The first code would be among the usable ones.
          obtain ⟨rfl, rfl⟩ := List.cons.inj split
          cases found.symm.trans (usable _ List.mem_cons_self)
    | none =>
      refine ih.trans ⟨?_, ?_⟩
      · rintro ⟨earlier, entry, later, defect, rfl, usable, invalid, same⟩
        exact ⟨first :: earlier, entry, later, defect, rfl, List.forall_mem_cons.mpr ⟨found, usable⟩, invalid, same⟩
      · rintro ⟨earlier, entry, later, defect, split, usable, invalid, same⟩
        cases earlier with
        | nil =>
          obtain ⟨rfl, rfl⟩ := List.cons.inj split
          cases found.symm.trans invalid
        | cons start others =>
          obtain ⟨rfl, rfl⟩ := List.cons.inj split
          exact ⟨others, entry, later, defect, rfl, (List.forall_mem_cons.mp usable).2, invalid, same⟩

/-- A document that is not refused has usable codes. -/
theorem usable_of_interpret {bytes : ByteArray} {resource : LoadedResource}
    (interpreted : loader.interpret source locale id bytes = .ok resource) : HasUsableCodes resource.entries := by
  obtain ⟨_, text, decoded, parsed⟩ := interpret_ok interpreted
  rw [interpret_of_parse decoded parsed] at interpreted
  obtain ⟨_, checked, _⟩ := map_ok_iff.mp interpreted
  exact checkCodes_eq_ok_iff.mp checked

/-- A document with a code that is not usable is refused. -/
theorem interpret_of_not_usable {bytes : ByteArray} {text : String} {entries : List Properties.Entry}
    (decoded : loader.encoding.decode bytes = .ok text) (parsed : Properties.parse text = .ok entries)
    (unusable : ¬ HasUsableCodes entries) :
    ∃ earlier entry later defect, entries = earlier ++ entry :: later ∧ HasUsableCodes earlier ∧
      codeDefect? entry.key = some defect ∧
      loader.interpret source locale id bytes = .error (.invalidCode source entry.key id.text defect) := by
  -- The document can be decoded and parsed, so only the check is left to refuse it.
  rw [interpret_of_parse decoded parsed]
  cases checked : checkCodes source id entries with
  | ok => exact absurd (checkCodes_eq_ok_iff.mp checked) unusable
  | error error =>
    obtain ⟨earlier, entry, later, defect, split, usable, invalid, rfl⟩ := checkCodes_eq_error_iff.mp checked
    exact ⟨earlier, entry, later, defect, split, usable, invalid, rfl⟩

/-- Loaded resources come from documents that are not refused, and a refused document ends the loading. -/
theorem interpreted_of_loadEach {ids : List ResourceId} {exchanges : List Exchange}
    {result : Except MessageError (List LoadedResource)}
    (transcript : Transcript (loader.loadEach source locale ids).run exchanges result) :
    (∀ resources, result = .ok resources →
      ∀ resource ∈ resources, ∃ bytes, loader.interpret source locale resource.id bytes = .ok resource) ∧
    ∀ id bytes error, ⟨loader.collection, .read id, .ok bytes⟩ ∈ exchanges →
      loader.interpret source locale id bytes = .error error → result = .error error := by
  -- The induction is on the copies, each of which is read and interpreted before the next one.
  induction ids generalizing exchanges result with
  | nil =>
    obtain ⟨rfl, rfl⟩ := transcript_done.mp transcript
    exact ⟨by rintro resources ⟨rfl⟩; simp, by simp⟩
  | cons first rest ih =>
    rcases transcript_loadEach_cons transcript with
      ⟨error, own, rfl⟩ | ⟨earlier, later, resource, others, rfl, own, onward, rfl⟩
    · refine ⟨by simp, fun id bytes refusal member refused => ?_⟩
      rcases transcript_loadOne own with ⟨fault, rfl, _⟩ | ⟨read, rfl, same⟩
      · simp at member
      · -- The only document that was read is the one that was refused.
        obtain ⟨rfl, rfl⟩ : id = first ∧ bytes = read := by simpa using member
        exact congrArg Except.error (Except.error.inj (same.trans refused))
    · obtain ⟨loaded, refusals⟩ := ih onward
      rcases transcript_loadOne own with ⟨fault, rfl, impossible⟩ | ⟨read, rfl, same⟩
      · cases impossible
      · have identified : resource.id = first := (interpret_ok same.symm).1
        refine ⟨?_, fun id bytes refusal member refused => ?_⟩
        · intro resources whole
          obtain ⟨others, rfl, rfl⟩ := map_ok_iff.mp whole
          exact List.forall_mem_cons.mpr ⟨⟨read, identified ▸ same.symm⟩, loaded others rfl⟩
        · rcases List.mem_append.mp member with here | there
          · obtain ⟨rfl, rfl⟩ : id = first ∧ bytes = read := by simpa using here
            cases same.trans refused
          · rw [refusals id bytes refusal there refused]
            rfl

/-- Loaded resources of a locale come from documents that are not refused, and a refused document ends the loading. -/
theorem interpreted_of_loadAll {exchanges : List Exchange} {result : Except MessageError (List LoadedResource)}
    (transcript : Transcript (loader.loadAll source locale).run exchanges result) :
    (∀ resources, result = .ok resources →
      ∀ resource ∈ resources, ∃ bytes, loader.interpret source locale resource.id bytes = .ok resource) ∧
    ∀ id bytes error, ⟨loader.collection, .read id, .ok bytes⟩ ∈ exchanges →
      loader.interpret source locale id bytes = .error error → result = .error error := by
  rcases transcript_loadAll transcript with ⟨fault, rfl, rfl⟩ | ⟨ids, later, rfl, onward⟩
  · exact ⟨by simp, by simp⟩
  · obtain ⟨loaded, refusals⟩ := interpreted_of_loadEach onward
    refine ⟨loaded, fun id bytes error member refused => refusals id bytes error ?_ refused⟩
    -- Finding resources is not reading one.
    simpa using member

/--
Resources that are loaded have no code that would be read as a reference, unless white space stands around its braces.

A document with such a code and no white space around the braces is refused for the first unusable code in it. White
space around the braces, which a document can spell with escapes, lets such a code through.
-/
theorem unpadded_references_are_refused (loader : Loader) (source : String) (locale : Locale) :
    (∀ exchanges result, Transcript (loader.loadAll source locale).run exchanges result →
      (∀ resources, result = .ok resources → ∀ resource ∈ resources, ∀ entry ∈ resource.entries,
        Text.trimmed entry.key = entry.key → referencedCode? entry.key = none) ∧
      ∀ id bytes text entries, ⟨loader.collection, .read id, .ok bytes⟩ ∈ exchanges →
        loader.encoding.decode bytes = .ok text → Properties.parse text = .ok entries →
        (∃ entry ∈ entries, Text.trimmed entry.key = entry.key ∧ referencedCode? entry.key ≠ none) →
        ∃ earlier entry later defect, entries = earlier ++ entry :: later ∧ HasUsableCodes earlier ∧
          codeDefect? entry.key = some defect ∧ result = .error (.invalidCode source entry.key id.text defect)) ∧
    ∀ code, referencedCode? code ≠ none → (codeDefect? code = none ↔ Text.trimmed code ≠ code) := by
  -- A code that is a reference is usable exactly when it is padded.
  have padded : ∀ code, referencedCode? code ≠ none → (codeDefect? code = none ↔ Text.trimmed code ≠ code) := by
    intro code found
    obtain ⟨other, found⟩ := Option.ne_none_iff_exists'.mp found
    exact (referencedCode?_eq_some_iff.mp found).codeDefect?_eq_none_iff
  refine ⟨fun exchanges result transcript => ?_, padded⟩
  obtain ⟨loaded, refusals⟩ := interpreted_of_loadAll transcript
  constructor
  · intro resources succeeded resource member entry declared plain
    obtain ⟨bytes, interpreted⟩ := loaded resources succeeded resource member
    have usable := usable_of_interpret interpreted entry declared
    by_contra reference
    exact (padded entry.key reference).mp usable plain
  · rintro id bytes text entries read decoded parsed ⟨entry, declared, plain, reference⟩
    have unusable : ¬ HasUsableCodes entries := fun usable =>
      (padded entry.key reference).mp (usable entry declared) plain
    obtain ⟨earlier, first, later, defect, split, usable, invalid, refused⟩ :=
      interpret_of_not_usable decoded parsed unusable
    exact ⟨earlier, first, later, defect, split, usable, invalid, refusals id bytes _ read refused⟩

/-- The English document of a source under its standard name, and nothing else. -/
def englishDocument (text : String) : Holdings := fun _ =>
  (MemoryResources.empty.insert ⟨"memory", "i18n/user/i18n_messages_en.properties"⟩ text.toUTF8).enumerator

/-- An escaped brace begins a code that is refused. -/
theorem escaped_reference_is_refused :
    let text := "a=1\n\\\x7ba\x7d=2"
    let id : ResourceId := ⟨"memory", "i18n/user/i18n_messages_en.properties"⟩
    let entries : List Properties.Entry := [⟨1, "a", "1"⟩, ⟨2, "\x7ba\x7d", "2"⟩]
    (∃ entry ∈ entries, Text.trimmed entry.key = entry.key ∧ referencedCode? entry.key ≠ none) ∧
      outcome (englishDocument text) (standard.loadAll "user" .english) =
        .error (.invalidCode "user" "\x7ba\x7d" id.text .braced) := by
  intro text id entries
  have reference : ∃ entry ∈ entries, Text.trimmed entry.key = entry.key ∧ referencedCode? entry.key ≠ none :=
    ⟨_, List.mem_cons_of_mem _ List.mem_cons_self, by cbv, by cbv; simp⟩
  refine ⟨reference, ?_⟩
  have transcript := transcript_recorded (englishDocument text) (standard.loadAll "user" .english).run
  have asked : ((standard.loadAll "user" .english).run.recorded.run (englishDocument text)).2 =
      [⟨.shared, .resources id.name, .ok [id]⟩, ⟨.shared, .read id, .ok text.toUTF8⟩] := by cbv
  rw [asked] at transcript
  obtain ⟨earlier, first, later, defect, split, usable, invalid, refused⟩ :=
    ((unpadded_references_are_refused standard "user" .english).1 _ _ transcript).2 id text.toUTF8 text entries
      (List.mem_cons_of_mem _ List.mem_cons_self) (by cbv) (by cbv) reference
  -- The first entry has a usable code, so that the second one is the first that has none.
  have sound : codeDefect? "a" = none := by cbv
  have braced : codeDefect? "\x7ba\x7d" = some .braced := by cbv
  rcases List.cons_eq_append_iff.mp split with ⟨rfl, same⟩ | ⟨others, rfl, onward⟩
  · obtain ⟨rfl, rfl⟩ := List.cons.inj same
    cases sound.symm.trans invalid
  · rcases List.cons_eq_append_iff.mp onward with ⟨rfl, same⟩ | ⟨more, rfl, impossible⟩
    · obtain ⟨rfl, rfl⟩ := List.cons.inj same
      rw [← Option.some.inj (braced.symm.trans invalid)] at refused
      exact refused
    · simp at impossible

/-- White space in front of the braces lets a code through that refers to another one. -/
theorem padded_reference_is_loaded :
    let id : ResourceId := ⟨"memory", "i18n/user/i18n_messages_en.properties"⟩
    outcome (englishDocument "\\ \x7ba\x7d=x") (standard.loadAll "user" .english) =
        .ok [⟨id, [⟨1, " \x7ba\x7d", "x"⟩]⟩] ∧
      referencedCode? " \x7ba\x7d" = some "a" := by
  exact ⟨by cbv, by cbv⟩

end Loader

end MessageCatalogue
