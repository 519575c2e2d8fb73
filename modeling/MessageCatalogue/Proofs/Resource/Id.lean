import MessageCatalogue.Proofs.Text.Pieces
import MessageCatalogue.Resource.Id

/-! The printed identifier of a copy refers to it as long as its origin does not hold the mark behind origins. -/

namespace MessageCatalogue

theorem isSolid_originMark : Text.IsSolid originMark := ⟨'!', _, rfl, by decide⟩

namespace ResourceId

variable {id : ResourceId} {identifier : String}

/-- An identifier refers only to copies of the logical name that it holds. -/
theorem logicalName_of_isNamedBy (named : id.isNamedBy identifier = true) : logicalName identifier = id.name := by
  unfold isNamedBy at named
  unfold logicalName
  cases split : splitIdentifier identifier with
  | mk origin name =>
    -- The names are compared with an origin as without one.
    cases origin with
    | none => simpa [split] using named
    | some origin =>
      simp only [split, Bool.and_eq_true, decide_eq_true_eq] at named
      exact named.1

/-- The mark stands between the origin and the logical name. -/
theorem toList_text (id : ResourceId) : id.text.toList = id.origin.toList ++ originMark ++ id.name.toList := by
  simp [text]

/-- An identifier is split behind an origin that does not hold the mark. -/
theorem splitIdentifier_text (unmarked : ¬ originMark <:+: id.origin.toList) :
    splitIdentifier id.text = (some id.origin, id.name) := by
  have cut := isSolid_originMark.cutFirst?_append unmarked id.name.toList
  rw [splitIdentifier, toList_text, cut]
  simp only [String.ofList_toList]

/-- The printed identifier of a copy refers to it exactly when its origin does not hold the mark. -/
theorem isNamedBy_text_iff : id.isNamedBy id.text = true ↔ ¬ originMark <:+: id.origin.toList := by
  constructor
  · intro named
    cases cut : Text.cutFirst? originMark id.text.toList with
    | none =>
      -- Without any cut, the whole identifier would be the name behind the mark.
      have whole : id.text = id.name := by simpa [isNamedBy, splitIdentifier, cut] using named
      have longer := congrArg List.length (id.toList_text.symm.trans (congrArg String.toList whole))
      simp only [List.length_append, originMark, List.length_cons, List.length_nil] at longer
      omega
    | some parts =>
      -- The cut is made at the first mark, so what stands in front of it holds none.
      obtain ⟨front, back⟩ := parts
      obtain ⟨_, absent⟩ := Text.cutFirst?_eq_some isSolid_originMark.ne_nil cut
      have same : String.ofList back = id.name ∧ String.ofList front = id.origin := by
        simpa [isNamedBy, splitIdentifier, cut] using named
      rwa [← same.2, String.toList_ofList]
  · intro unmarked
    simp [isNamedBy, splitIdentifier_text unmarked]

end ResourceId

end MessageCatalogue
