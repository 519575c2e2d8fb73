import MessageCatalogue.Proofs.Text.WhiteSpace
import MessageCatalogue.Reference

/-! A text refers to a code when nothing but white space stands around the braces that hold the code. -/

namespace MessageCatalogue

/-- A text is a code in braces with white space around it, where the code is not empty and holds no brace of its own. -/
structure RefersTo (text code : String) : Prop where
  occupied : code ≠ ""
  notOpening : '{' ∉ code.toList
  notClosing : '}' ∉ code.toList
  braced : Text.trim text.toList = '{' :: (code.toList ++ ['}'])

/-- A code is held by braces exactly when these are its neighbours. -/
theorem braced?_eq_some_iff {text code : List Char} : braced? text = some code ↔ text = '{' :: (code ++ ['}']) := by
  constructor
  · intro held
    unfold braced? at held
    split at held
    · rw [← List.isSuffixOf?_eq_some_iff_append_eq.mp held]
    · cases held
  · rintro rfl
    exact List.isSuffixOf?_eq_some_iff_append_eq.mpr rfl

/-- The code that is read from a text is the one that the text refers to. -/
theorem referencedCode?_eq_some_iff {text code : String} : referencedCode? text = some code ↔ RefersTo text code := by
  -- What the braces hold is checked after they are found.
  unfold referencedCode?
  constructor
  · intro found
    split at found
    · rename_i held braced
      split at found
      · cases found
      · rename_i fitting
        obtain rfl := Option.some.inj found
        simp only [Bool.or_eq_true, List.isEmpty_iff, List.contains_iff_mem, not_or] at fitting
        obtain ⟨⟨occupied, notOpening⟩, notClosing⟩ := fitting
        refine ⟨by simpa using occupied, by simpa using notOpening, by simpa using notClosing, ?_⟩
        rw [String.toList_ofList]
        exact braced?_eq_some_iff.mp braced
    · cases found
  · intro refers
    have fitting : ¬ (code.toList.isEmpty || code.toList.contains '{' || code.toList.contains '}') = true := by
      simp [refers.occupied, refers.notOpening, refers.notClosing]
    rw [braced?_eq_some_iff.mpr refers.braced]
    simp only [if_neg fitting, String.ofList_toList]

/-- Codes are looked for in vain in a text that refers to none. -/
theorem referencedCode?_eq_none_iff {text : String} : referencedCode? text = none ↔ ∀ code, ¬ RefersTo text code := by
  simp only [Option.eq_none_iff_forall_not_mem, Option.mem_def, referencedCode?_eq_some_iff]

namespace RefersTo

variable {text code : String}

/-- White space around the braces makes no difference to what they refer to. -/
theorem of_surrounded {front back : List Char} (occupied : code ≠ "") (notOpening : '{' ∉ code.toList)
    (notClosing : '}' ∉ code.toList) (white : ∀ c ∈ front, isWhiteSpace c) (white' : ∀ c ∈ back, isWhiteSpace c)
    (written : text.toList = front ++ '{' :: (code.toList ++ ['}']) ++ back) : RefersTo text code := by
  -- Braces are no white space.
  have opening : ∀ c ∈ ('{' :: (code.toList ++ ['}'])).head?, isWhiteSpace c = false := by
    rintro c ⟨rfl⟩
    decide
  have closing : ∀ c ∈ ('{' :: (code.toList ++ ['}'])).getLast?, isWhiteSpace c = false := by
    rw [← List.cons_append, List.getLast?_concat]
    rintro c ⟨rfl⟩
    decide
  exact ⟨occupied, notOpening, notClosing, written ▸ Text.trim_surround white white' opening closing⟩

end RefersTo

end MessageCatalogue
