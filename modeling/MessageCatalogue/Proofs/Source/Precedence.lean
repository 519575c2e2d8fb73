import Mathlib
import MessageCatalogue.Proofs.Distinct
import MessageCatalogue.Source.Basic

/-! A lookup takes the first candidate that some member has a text for, and the text of the first such member. -/

namespace MessageCatalogue

namespace Source

variable {registry : Registry} {locale : Locale} {arguments : List Argument}

/-- Whether a source has no members of its own. -/
def isFlat : Source → Bool
  | .composite .. => false
  | _ => true

/-- The text that a source holds itself for a code in a locale. -/
def text? (registry : Registry) (locale : Locale) (code : String) : Source → Option String
  | .store key => (registry.store key).snapshot?.bind (·.text? code locale)
  | .silent _ | .composite .. => none

/-- The text at a position, which pairs the number of a candidate with that of a member. -/
def textAt? (registry : Registry) (locale : Locale) (candidates : List String) (members : List Source)
    (position : ℕ ×ₗ ℕ) : Option String :=
  candidates[(ofLex position).1]?.bind fun candidate =>
    members[(ofLex position).2]?.bind (text? registry locale candidate)

/-- The first position at which there is a text, where the candidate counts before the member. -/
def IsFirstHit (registry : Registry) (locale : Locale) (candidates : List String) (members : List Source)
    (position : ℕ ×ₗ ℕ) : Prop :=
  IsLeast {other | (textAt? registry locale candidates members other).isSome} position

/-- A source without members answers with the text that it holds. -/
theorem lookup_of_flat {source : Source} (flat : source.isFlat) (code : String) :
    lookup registry locale arguments source code =
      (text? registry locale code source).map (formatMessage · arguments) := by
  cases source with
  | store key => rw [lookup, text?, Store.lookup]
  | silent own => rw [lookup, text?, Option.map_none]
  | composite => simp [isFlat] at flat

/-- Sources without members answer with the text of the first one that holds any. -/
theorem lookupFirst_of_flat {members : List Source} (flat : ∀ member ∈ members, member.isFlat) (code : String) :
    lookupFirst registry locale arguments members code =
      (members.findSome? (text? registry locale code)).map (formatMessage · arguments) := by
  -- Arguments are put in after the search, so they have no part in which member is found.
  induction members with
  | nil => rw [lookupFirst, List.findSome?_nil, Option.map_none]
  | cons first rest ih =>
    obtain ⟨own, others⟩ := List.forall_mem_cons.mp flat
    rw [lookupFirst, lookup_of_flat own, List.findSome?_cons]
    cases text? registry locale code first with
    | some text => rfl
    | none => exact ih others

/-- The first value in a list is the one at the least number at which there is one. -/
theorem findSome?_eq_some_iff_getElem? {α β : Type} {f : α → Option β} {list : List α} {value : β} :
    list.findSome? f = some value ↔
      ∃ number : Nat, list[number]?.bind f = some value ∧ ∀ earlier < number, list[earlier]?.bind f = none := by
  -- Numbers count from the head, so those of the rest are one more.
  induction list with
  | nil => simp
  | cons first rest ih =>
    rw [List.findSome?_cons]
    cases held : f first with
    | some own =>
      constructor
      · rintro ⟨⟩
        exact ⟨0, by simpa using held, by simp⟩
      · rintro ⟨number, found, before⟩
        cases number with
        | zero => simpa [held] using found
        | succ number => simpa [held] using before 0 (Nat.succ_pos number)
    | none =>
      refine ih.trans ⟨?_, ?_⟩
      · rintro ⟨number, found, before⟩
        refine ⟨number + 1, by simpa using found, fun earlier less => ?_⟩
        cases earlier with
        | zero => simpa using held
        | succ earlier => simpa using before earlier (Nat.lt_of_succ_lt_succ less)
      · rintro ⟨number, found, before⟩
        cases number with
        | zero => simp [held] at found
        | succ number =>
          exact ⟨number, by simpa using found, fun earlier less => by
            simpa using before (earlier + 1) (Nat.succ_lt_succ less)⟩

/-- The first text that some member holds for some candidate, tried one candidate after the other. -/
def firstText? (registry : Registry) (locale : Locale) (candidates : List String) (members : List Source) :
    Option String :=
  candidates.findSome? fun candidate => members.findSome? (text? registry locale candidate)

/-- There is a first text unless there is none at any position. -/
theorem firstText?_eq_none_iff {candidates : List String} {members : List Source} :
    firstText? registry locale candidates members = none ↔
      ∀ candidate ∈ candidates, ∀ member ∈ members, text? registry locale candidate member = none := by
  simp only [firstText?, List.findSome?_eq_none_iff]

/-- A text is at a position when the member there holds it for the candidate there. -/
theorem textAt?_eq_some_iff {candidates : List String} {members : List Source} {position : ℕ ×ₗ ℕ} {text : String} :
    textAt? registry locale candidates members position = some text ↔
      ∃ candidate member, candidates[(ofLex position).1]? = some candidate ∧
        members[(ofLex position).2]? = some member ∧ text? registry locale candidate member = some text := by
  -- A position is a candidate together with a member.
  simp only [textAt?, Option.bind_eq_some_iff]
  constructor
  · rintro ⟨candidate, tried, member, placed, held⟩
    exact ⟨candidate, member, tried, placed, held⟩
  · rintro ⟨candidate, member, tried, placed, held⟩
    exact ⟨candidate, tried, member, placed, held⟩

/-- The first text is at a position that is the first with any text. -/
theorem exists_firstHit {candidates : List String} {members : List Source} {text : String}
    (first : firstText? registry locale candidates members = some text) :
    ∃ position, IsFirstHit registry locale candidates members position ∧
      textAt? registry locale candidates members position = some text := by
  obtain ⟨outer, found, skipped⟩ := findSome?_eq_some_iff_getElem?.mp first
  obtain ⟨candidate, tried, search⟩ := Option.bind_eq_some_iff.mp found
  obtain ⟨inner, here, passed⟩ := findSome?_eq_some_iff_getElem?.mp search
  obtain ⟨member, placed, held⟩ := Option.bind_eq_some_iff.mp here
  have there : textAt? registry locale candidates members (toLex (outer, inner)) = some text :=
    textAt?_eq_some_iff.mpr ⟨candidate, member, tried, placed, held⟩
  refine ⟨toLex (outer, inner), ⟨by simp [there], ?_⟩, there⟩
  intro other some
  obtain ⟨value, some⟩ := Option.isSome_iff_exists.mp some
  obtain ⟨chosen, owner, listed, kept, own⟩ := textAt?_eq_some_iff.mp some
  rw [Prod.Lex.le_iff]
  -- No member holds a text for an earlier candidate, and no earlier member one for this candidate.
  rcases Nat.lt_trichotomy outer (ofLex other).1 with later | same | earlier
  · exact .inl later
  · refine .inr ⟨same, Nat.le_of_not_lt fun less => ?_⟩
    have missed := passed _ less
    obtain rfl : candidate = chosen := by simpa [← same, tried] using listed
    simp [kept, own] at missed
  · have missed := skipped _ earlier
    rw [listed, Option.bind_some, List.findSome?_eq_none_iff] at missed
    simp [missed owner (List.mem_of_getElem? kept)] at own

/-- A text is the first exactly when it is at the first position with any text. -/
theorem firstText?_eq_some_iff {candidates : List String} {members : List Source} {text : String} :
    firstText? registry locale candidates members = some text ↔
      ∃ position, IsFirstHit registry locale candidates members position ∧
        textAt? registry locale candidates members position = some text := by
  refine ⟨exists_firstHit, ?_⟩
  rintro ⟨position, first, there⟩
  -- The search finds something, and there is only one first position at which it can be.
  cases found : firstText? registry locale candidates members with
  | none =>
    obtain ⟨candidate, member, tried, placed, held⟩ := textAt?_eq_some_iff.mp there
    have missed := firstText?_eq_none_iff.mp found candidate (List.mem_of_getElem? tried)
      member (List.mem_of_getElem? placed)
    cases held.symm.trans missed
  | some value =>
    obtain ⟨same, also, here⟩ := exists_firstHit found
    rw [first.unique also] at there
    exact here.symm.trans there

/-- A composite of sources without members answers with the first text for its candidates. -/
theorem lookup_composite_of_flat {name : String} {resolver : Option LocaleResolver} {common : Option String}
    {members : List Source} (flat : ∀ member ∈ members, member.isFlat) (code : String) :
    lookup registry locale arguments (.composite name resolver common members) code =
      (firstText? registry locale (candidateCodes code common) members).map (formatMessage · arguments) := by
  rw [lookup, firstText?, List.map_findSome?]
  refine congrArg (List.findSome? · _) (funext fun candidate => ?_)
  exact lookupFirst_of_flat flat candidate

/-- A code is the first of its own candidates. -/
theorem candidateCodes_eq_cons (code : String) (common : Option String) :
    ∃ others, candidateCodes code common = code :: others :=
  -- Candidates only join at the end.
  ⟨_, foldl_appendNew [code] _⟩

/--
A composite of sources without members answers with the text of its first candidate and member that go together.

So a text for the code itself goes before one for a shorter code, and an earlier member before a later one.
-/
theorem lookup_takes_first_hit {name : String} {resolver : Option LocaleResolver} {common : Option String}
    {members : List Source} {registry : Registry} {locale : Locale} {arguments : List Argument} {code : String}
    (flat : ∀ member ∈ members, member.isFlat) :
    let answer := lookup registry locale arguments (.composite name resolver common members) code
    let candidates := candidateCodes code common
    (answer = none ↔
      ∀ candidate ∈ candidates, ∀ member ∈ members, text? registry locale candidate member = none) ∧
    (∀ message, answer = some message ↔
      ∃ position text, IsFirstHit registry locale candidates members position ∧
        textAt? registry locale candidates members position = some text ∧
        message = formatMessage text arguments) ∧
    (∀ text, members.findSome? (text? registry locale code) = some text →
      answer = some (formatMessage text arguments)) ∧
    ∀ candidate member later, member < later →
      (textAt? registry locale candidates members (toLex (candidate, member))).isSome →
        ¬ IsFirstHit registry locale candidates members (toLex (candidate, later)) := by
  -- The members hold texts by themselves, so the search is one through pairs of a candidate and a member.
  intro answer candidates
  have answers : answer = (firstText? registry locale candidates members).map (formatMessage · arguments) :=
    lookup_composite_of_flat flat code
  refine ⟨?_, fun message => ?_, fun text exact => ?_, fun candidate member later less holds first => ?_⟩
  · rw [answers, Option.map_eq_none_iff, firstText?_eq_none_iff]
  · rw [answers, Option.map_eq_some_iff]
    constructor
    · rintro ⟨text, found, rfl⟩
      obtain ⟨position, first, there⟩ := firstText?_eq_some_iff.mp found
      exact ⟨position, text, first, there, rfl⟩
    · rintro ⟨position, text, first, there, rfl⟩
      exact ⟨text, firstText?_eq_some_iff.mpr ⟨position, first, there⟩, rfl⟩
  · obtain ⟨others, start⟩ := candidateCodes_eq_cons code common
    have found : firstText? registry locale candidates members = some text := by
      rw [firstText?, show candidates = code :: others from start, List.findSome?_cons, exact]
    rw [answers, found, Option.map_some]
  -- A hit of an earlier member for the same candidate would come first.
  · rcases Prod.Lex.toLex_le_toLex.mp (first.2 holds) with smaller | ⟨_, notLater⟩
    · exact Nat.lt_irrefl _ smaller
    · exact Nat.not_le_of_lt less notLater

/-- A store that holds an English text for one code. -/
def storeOfText (code text : String) : Store :=
  ⟨⟨"source", ⟨.shared, ⟨"\x7bsource\x7d_\x7blocale\x7d"⟩, .utf8⟩, .english, some []⟩,
    .initialized ⟨[.english], [(.english, ⟨"source_en", [], (∅ : Messages).insert code text⟩)]⟩, []⟩

/-- A member with a text for the code itself goes before an earlier one with a text for its last segment. -/
theorem whole_code_precedes_last_segment :
    let registry : Registry := ⟨[storeOfText "not-found" "generic", storeOfText "user.not-found" "specific"], []⟩
    let members := [.store 0, .silent .english, .store 1]
    (∀ member ∈ members, isFlat member) ∧
      lookup registry .english [] (.composite "outer" none none members) "user.not-found" = some "specific" := by
  intro registry members
  have flat : ∀ member ∈ members, isFlat member := by decide
  obtain ⟨_, _, exact, _⟩ := lookup_takes_first_hit flat
  exact ⟨flat, (exact "specific" (by cbv)).trans (by cbv)⟩

end Source

end MessageCatalogue
