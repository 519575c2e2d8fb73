import MessageCatalogue.Proofs.Properties.CodePoint
import MessageCatalogue.Proofs.Properties.LineNumbers

/-! A document fails to parse where the first of its logical lines with a malformed escape for a code point starts. -/

namespace MessageCatalogue.Properties

/-- The characters that the escapes for code points take in a logical line, those in its raw key first. -/
def LogicalLine.codePointDigits (logical : LogicalLine) : List (List Char) :=
  Properties.codePointDigits (splitEntry logical.text).1 ++ Properties.codePointDigits (splitEntry logical.text).2

/-- Whether some escape for a code point in a logical line is malformed. -/
def LogicalLine.isMalformed (logical : LogicalLine) : Bool :=
  logical.codePointDigits.any Properties.isMalformed

/-- An entry is that of a logical line when the raw parts of the line stand for its key and its value. -/
structure Entry.IsOf (entry : Entry) (logical : LogicalLine) : Prop where
  line : entry.line = logical.line
  key : StandsFor (splitEntry logical.text).1 entry.key.toList
  value : StandsFor (splitEntry logical.text).2 entry.value.toList

/-- A raw part has a text when none of its escapes for code points is malformed. -/
theorem exists_unescape_iff {raw : List Char} :
    (∃ text, unescape raw = .ok text) ↔ (codePointDigits raw).find? isMalformed = none := by
  -- There either is a text, and then no malformed escape was met, or there is the first one.
  cases read : unescape raw with
  | ok text =>
    have none : (codePointDigits raw).find? isMalformed = none := by
      refine Option.eq_none_iff_forall_ne_some.mpr fun digits found => ?_
      have failed : unescape raw = .error ⟨digits⟩ := unescape_eq_error.mpr found
      simp [failed] at read
    simp [none]
  | error malformed => simp [unescape_eq_error.mp read]

variable {logical : LogicalLine}

/-- A logical line fails with the first of its malformed escapes. -/
theorem readEntry_fails_iff {error : EntryError} :
    readEntry logical.line logical.text = .error error ↔
      logical.codePointDigits.find? isMalformed = some error.digits.toList ∧ error.line = logical.line := by
  -- The escapes of the raw value are only looked at behind a raw key without malformed ones.
  rw [readEntry_eq_error, unescape_eq_error, unescape_eq_error, exists_unescape_iff, LogicalLine.codePointDigits,
    List.find?_append, Option.or_eq_some_iff]

/-- A logical line has a malformed escape when there is a first one. -/
theorem LogicalLine.isMalformed_eq_false_iff :
    logical.isMalformed = false ↔ logical.codePointDigits.find? Properties.isMalformed = none := by
  rw [isMalformed, List.any_eq_false, List.find?_eq_none]

/-- A logical line gives an entry when none of its escapes is malformed. -/
theorem exists_readEntry_iff :
    (∃ entry, readEntry logical.line logical.text = .ok entry) ↔ logical.isMalformed = false := by
  rw [LogicalLine.isMalformed_eq_false_iff]
  -- A line without an entry fails, which takes a malformed escape.
  cases read : readEntry logical.line logical.text with
  | ok entry =>
    have none : logical.codePointDigits.find? isMalformed = none := by
      refine Option.eq_none_iff_forall_ne_some.mpr fun digits found => ?_
      have failed : readEntry logical.line logical.text = .error ⟨logical.line, String.ofList digits⟩ :=
        readEntry_fails_iff.mpr ⟨by rwa [String.toList_ofList], rfl⟩
      simp [failed] at read
    simp [none]
  | error error => simp [(readEntry_fails_iff.mp read).1]

/-- A logical line of a document gives the entry that its raw parts stand for. -/
theorem isOf_of_readEntry {text : String} {entry : Entry} (member : logical ∈ logicalLines text.toList)
    (read : readEntry logical.line logical.text = .ok entry) : entry.IsOf logical := by
  obtain ⟨key, value, line⟩ := readEntry_eq_ok.mp read
  obtain ⟨wholeKey, wholeValue⟩ := continues_splitEntry member
  exact ⟨line, standsFor_of_unescape wholeKey key, standsFor_of_unescape wholeValue value⟩

/-- A document fails with the first malformed escape of its first logical line that has any. -/
theorem find?_of_parse_error {text : String} {error : EntryError} (failed : parse text = .error error) :
    ∃ logical, (logicalLines text.toList).find? LogicalLine.isMalformed = some logical ∧
      logical.codePointDigits.find? isMalformed = some error.digits.toList ∧ error.line = logical.line := by
  obtain ⟨earlier, failing, later, split, before, fails⟩ := readEntries_eq_error.mp failed
  obtain ⟨found, line⟩ := readEntry_fails_iff.mp fails
  have malformed : failing.isMalformed := by
    by_contra proper
    simp [LogicalLine.isMalformed_eq_false_iff.mp (by simpa using proper)] at found
  refine ⟨failing, ?_, found, line⟩
  -- The lines before the failing one gave their entries.
  rw [List.find?_eq_some_iff_append]
  refine ⟨malformed, earlier, later, split, fun other member => ?_⟩
  simp [exists_readEntry_iff.mp (before other member)]

/-- A document is read when none of its logical lines has a malformed escape. -/
theorem parse_ok_of_proper {text : String}
    (proper : ∀ logical ∈ logicalLines text.toList, logical.isMalformed = false) :
    ∃ entries, parse text = .ok entries ∧
      List.Forall₂ (fun logical entry => entry.IsOf logical) (logicalLines text.toList) entries := by
  -- An error would come from a malformed escape in one of the lines.
  cases read : parse text with
  | error error =>
    obtain ⟨logical, found, _⟩ := find?_of_parse_error read
    have malformed := List.find?_some found
    simp [proper logical (List.mem_of_find?_eq_some found)] at malformed
  | ok entries =>
    have each := (List.forall₂_and_left _ _).mpr ⟨fun _ member => member, readEntries_eq_ok.mp read⟩
    exact ⟨entries, rfl, each.imp fun logical entry own => isOf_of_readEntry own.1 own.2⟩

/--
A document fails to parse when one of its logical lines has a malformed escape for a code point.

The error has the number of the line where the first of them starts and shows the first of its malformed escapes.
Otherwise each logical line gives its entry.
-/
theorem parse_fails_at_first_malformed_escape (text : String) :
    ((∃ error, parse text = .error error) ↔ ∃ logical ∈ logicalLines text.toList, logical.isMalformed) ∧
      (∀ error, parse text = .error error → ∃ logical digits,
        (logicalLines text.toList).find? LogicalLine.isMalformed = some logical ∧
          logical.codePointDigits.find? isMalformed = some digits ∧ digits.length ≤ 4 ∧
          error.line = logical.line ∧ EntryStartsOn text error.line ∧
          error.detail = s!"malformed \\uxxxx escape '\\u{String.ofList digits}'") ∧
      ((∀ logical ∈ logicalLines text.toList, logical.isMalformed = false) →
        ∃ entries, parse text = .ok entries ∧
          List.Forall₂ (fun logical entry => entry.IsOf logical) (logicalLines text.toList) entries) := by
  refine ⟨⟨?_, ?_⟩, ?_, parse_ok_of_proper⟩
  · rintro ⟨error, failed⟩
    obtain ⟨logical, found, _⟩ := find?_of_parse_error failed
    exact ⟨logical, List.mem_of_find?_eq_some found, List.find?_some found⟩
  · rintro ⟨logical, member, malformed⟩
    cases read : parse text with
    | error error => exact ⟨error, rfl⟩
    | ok entries =>
      -- If the document were read, the line in question would have given an entry.
      have each := readEntries_eq_ok.mp read
      obtain ⟨index, bound, rfl⟩ := List.mem_iff_getElem.mp member
      have own := each.get bound (each.length_eq ▸ bound)
      have proper := exists_readEntry_iff.mp ⟨_, own⟩
      simp [malformed] at proper
  · intro error failed
    obtain ⟨logical, found, digits, line⟩ := find?_of_parse_error failed
    have member := List.mem_of_find?_eq_some found
    have starts := ((lines_logicalLines text).2 logical.line).mp (List.mem_map_of_mem member)
    have short : error.digits.toList.length ≤ 4 := by
      rcases List.mem_append.mp (List.mem_of_find?_eq_some digits) with key | value
      · exact length_of_mem_codePointDigits key
      · exact length_of_mem_codePointDigits value
    refine ⟨logical, error.digits.toList, found, digits, short, line, line ▸ starts, ?_⟩
    rw [String.ofList_toList]
    rfl

-- A key ends at its separator, and so do the digits of an escape in it.
example : parse "first=1\nlast\\u=0041" = .error ⟨2, ""⟩ := by rfl

end MessageCatalogue.Properties
