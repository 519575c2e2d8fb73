import Mathlib.Data.List.Forall2
import MessageCatalogue.Proofs.Outcome
import MessageCatalogue.Properties.Document

/-! Entries are read from logical lines one after the other, and from each of them the key before the value. -/

namespace MessageCatalogue.Properties

variable {line : Nat} {error : EntryError}

/-- A raw part gives a text when that is what it stands for. -/
theorem decodePart_eq_ok {raw : List Char} {text : String} :
    decodePart line raw = .ok text ↔ unescape raw = .ok text.toList := by
  unfold decodePart
  cases unescape raw with
  | error malformed => simp
  | ok own => simp [← String.toList_inj]

/-- A raw part fails on its line with the characters of a malformed escape. -/
theorem decodePart_eq_error {raw : List Char} :
    decodePart line raw = .error error ↔ unescape raw = .error ⟨error.digits.toList⟩ ∧ error.line = line := by
  unfold decodePart
  cases unescape raw with
  | error malformed =>
    -- Both records are built from the characters, and the line is the one that was given.
    obtain ⟨digits⟩ := malformed
    obtain ⟨own, shown⟩ := error
    simp only [Except.error.injEq, EntryError.mk.injEq, MalformedEscape.mk.injEq]
    rw [and_comm, eq_comm (a := line), ← String.toList_inj, String.toList_ofList]
  | ok own => simp

/-- A logical line gives an entry when its raw key and its raw value stand for the key and the value. -/
theorem readEntry_eq_ok {text : List Char} {entry : Entry} :
    readEntry line text = .ok entry ↔ unescape (splitEntry text).1 = .ok entry.key.toList ∧
      unescape (splitEntry text).2 = .ok entry.value.toList ∧ entry.line = line := by
  simp only [readEntry, bind_ok_iff, decodePart_eq_ok, pure, Except.pure, Except.ok.injEq]
  constructor
  · rintro ⟨key, keyRead, value, valueRead, rfl⟩
    exact ⟨keyRead, valueRead, rfl⟩
  · rintro ⟨keyRead, valueRead, rfl⟩
    exact ⟨entry.key, keyRead, entry.value, valueRead, rfl⟩

/-- A logical line fails with its raw key or, when there is nothing wrong with that, with its raw value. -/
theorem readEntry_eq_error {text : List Char} :
    readEntry line text = .error error ↔ (unescape (splitEntry text).1 = .error ⟨error.digits.toList⟩ ∨
      (∃ key, unescape (splitEntry text).1 = .ok key) ∧
        unescape (splitEntry text).2 = .error ⟨error.digits.toList⟩) ∧ error.line = line := by
  simp only [readEntry, bind_error_iff, decodePart_eq_ok, decodePart_eq_error, pure, Except.pure, reduceCtorEq,
    and_false, exists_false, or_false]
  -- The value is only read when there is a key.
  constructor
  · rintro (⟨failed, same⟩ | ⟨key, read, failed, same⟩)
    · exact ⟨.inl failed, same⟩
    · exact ⟨.inr ⟨⟨key.toList, read⟩, failed⟩, same⟩
  · rintro ⟨failed | ⟨⟨key, read⟩, failed⟩, same⟩
    · exact .inl ⟨failed, same⟩
    · exact .inr ⟨String.ofList key, by rwa [String.toList_ofList], failed, same⟩

/-- Reading succeeds when each logical line gives an entry. -/
theorem readEntries_eq_ok {lines : List LogicalLine} {entries : List Entry} :
    readEntries lines = .ok entries ↔
      List.Forall₂ (fun logical entry => readEntry logical.line logical.text = .ok entry) lines entries := by
  -- The first line gives the first entry, and the rest are read behind it.
  induction lines generalizing entries with
  | nil => cases entries <;> simp [readEntries]
  | cons first rest ih =>
    simp only [readEntries, bind_ok_iff, pure, Except.pure, Except.ok.injEq, ih]
    constructor
    · rintro ⟨entry, own, others, each, rfl⟩
      exact .cons own each
    · rintro (_ | ⟨own, each⟩)
      exact ⟨_, own, _, each, rfl⟩

/-- Reading fails with the first logical line that gives no entry. -/
theorem readEntries_eq_error {lines : List LogicalLine} :
    readEntries lines = .error error ↔ ∃ earlier failing later, lines = earlier ++ failing :: later ∧
      (∀ logical ∈ earlier, ∃ entry, readEntry logical.line logical.text = .ok entry) ∧
      readEntry failing.line failing.text = .error error := by
  -- Either the first line fails or, behind it, one of the rest does.
  induction lines with
  | nil => simp [readEntries]
  | cons first rest ih =>
    simp only [readEntries, bind_error_iff, pure, Except.pure, reduceCtorEq, and_false, exists_false, or_false, ih]
    constructor
    · rintro (fails | ⟨entry, own, earlier, failing, later, rfl, before, fails⟩)
      · exact ⟨[], first, rest, rfl, by simp, fails⟩
      · exact ⟨first :: earlier, failing, later, rfl, List.forall_mem_cons.mpr ⟨⟨entry, own⟩, before⟩, fails⟩
    · rintro ⟨earlier, failing, later, split, before, fails⟩
      cases earlier with
      | nil =>
        obtain ⟨rfl, rfl⟩ := List.cons.inj split
        exact .inl fails
      | cons start earlier =>
        obtain ⟨rfl, rfl⟩ := List.cons.inj split
        obtain ⟨⟨entry, own⟩, before⟩ := List.forall_mem_cons.mp before
        exact .inr ⟨entry, own, earlier, failing, later, rfl, before, fails⟩

end MessageCatalogue.Properties
