import MessageCatalogue.Proofs.Source.Precedence
import MessageCatalogue.Proofs.Store.Codes
import MessageCatalogue.Proofs.Store.Incremental
import MessageCatalogue.Source.Context

/-! Texts that refer to a published code are answered with its message, and other texts are left as they are. -/

namespace MessageCatalogue

namespace Source

variable {registry : Registry} {locale : Locale} {arguments : List Argument} {members : List Source} {code : String}

/-- Stores have no members of their own. -/
theorem isFlat_of_mem_map_store {keys : List StoreKey} {member : Source} (listed : member ∈ keys.map Source.store) :
    member.isFlat := by
  obtain ⟨key, _, rfl⟩ := List.mem_map.mp listed
  rfl

/-- A text that a store holds is one for a code that is not empty. -/
theorem ne_empty_of_text? {key : StoreKey} {setup : Setup}
    (usable : (registry.store key).IsLaid setup fun _ => Catalogue.HasUsableCodes)
    (held : (text? registry locale code (.store key)).isSome) : code ≠ "" := by
  obtain ⟨text, held⟩ := Option.isSome_iff_exists.mp held
  obtain ⟨snapshot, published, own⟩ := Option.bind_eq_some_iff.mp held
  have laid := usable.serving snapshot (Store.snapshot?_eq_some_iff.mp published)
  exact ne_empty_of_codeDefect? (laid.usable_of_text? own)

/-- A text for the code itself goes before those for its other candidates. -/
theorem firstText?_of_code {text : String} (held : members.findSome? (text? registry locale code) = some text)
    (common : Option String) : firstText? registry locale (candidateCodes code common) members = some text := by
  obtain ⟨others, start⟩ := candidateCodes_eq_cons code common
  rw [firstText?, start, List.findSome?_cons, held]

/-- A text that refers to a code is answered with the message of the first member that holds the code. -/
theorem localize_of_refersTo (flat : ∀ member ∈ members, member.isFlat) {written text : String}
    (refers : RefersTo written code) (held : members.findSome? (text? registry locale code) = some text)
    (name : String) (resolver : Option LocaleResolver) (common : Option String) :
    localize registry (.composite name resolver common members) written (some locale) arguments =
      formatMessage text arguments := by
  rw [localize, referencedCode?_eq_some_iff.mpr refers]
  simp only [Option.getD_some]
  rw [lookup_composite_of_flat flat, firstText?_of_code held, Option.map_some, Option.getD_some]

/-- A text that refers to no code is left as it is. -/
theorem localize_of_not_refersTo {source : Source} {written : String} (literal : ∀ code, ¬ RefersTo written code)
    (request : Option Locale) : localize registry source written request arguments = written := by
  rw [localize, referencedCode?_eq_none_iff.mpr literal]

/--
A composite of stores answers a text with the message of the code that it holds in braces, once a member has one.

Documents are checked when they are loaded, so no published code is too short to be referred to, and every code that
is free of braces can be, with white space around these. All other texts are literal.
-/
theorem published_codes_are_localized {registry : Registry} {keys : List StoreKey}
    (reached : ∀ key ∈ keys, Store.Reachable (fun _ => True) (registry.store key).setup (registry.store key))
    (name : String) (resolver : Option LocaleResolver) (common : Option String) :
    let members := keys.map Source.store
    let source : Source := .composite name resolver common members
    (∀ locale code, '{' ∉ code.toList → '}' ∉ code.toList →
      (∃ member ∈ members, (text? registry locale code member).isSome) →
        ∃ text, members.findSome? (text? registry locale code) = some text ∧
          ∀ written front back, (∀ c ∈ front, isWhiteSpace c) → (∀ c ∈ back, isWhiteSpace c) →
            written.toList = front ++ '{' :: (code.toList ++ ['}']) ++ back → ∀ arguments,
              localize registry source written (some locale) arguments = formatMessage text arguments ∧
              ∀ (context : MessageContext) (request : LocaleContext), context.source = source →
                request.locale = locale →
                  context.localizeFor registry request written arguments = formatMessage text arguments) ∧
    ∀ written : String,
      (¬ ∃ interior, Text.trim written.toList = '{' :: (interior ++ ['}']) ∧
        interior ≠ [] ∧ '{' ∉ interior ∧ '}' ∉ interior) → ∀ arguments,
          (∀ locale, localize registry source written locale arguments = written) ∧
          ∀ (context : MessageContext) (request : LocaleContext),
            context.localizeFor registry request written arguments = written := by
  intro members source
  constructor
  · rintro locale code notOpening notClosing ⟨member, listed, held⟩
    -- Whichever store holds the code, it serves usable codes only.
    have occupied : code ≠ "" := by
      obtain ⟨key, among, rfl⟩ := List.mem_map.mp listed
      exact ne_empty_of_text? (reached key among).hasUsableCodes held
    obtain ⟨text, found⟩ := Option.isSome_iff_exists.mp (List.findSome?_isSome_iff.mpr ⟨member, listed, held⟩)
    refine ⟨text, found, ?_⟩
    intro written front back white white' spelled arguments
    have refers := RefersTo.of_surrounded occupied notOpening notClosing white white' spelled
    have localized : localize registry source written (some locale) arguments = formatMessage text arguments :=
      localize_of_refersTo (fun _ => isFlat_of_mem_map_store) refers found name resolver common
    refine ⟨localized, ?_⟩
    intro context request same chosen
    rw [MessageContext.localizeFor, same, chosen]
    exact localized
  · intro written literal arguments
    have none : ∀ code, ¬ RefersTo written code := fun code refers =>
      literal ⟨code.toList, refers.braced, by simpa using refers.occupied, refers.notOpening, refers.notClosing⟩
    exact ⟨fun locale => localize_of_not_refersTo none locale, fun context request => localize_of_not_refersTo none _⟩

end Source

/-- A store of two languages is reached by its initialization. -/
theorem Store.reachable_servingEnglish (text : String) : Reachable (fun _ => True) .bilingual (servingEnglish text) :=
  Reachable.fresh.run_init_of_met fun _ _ => trivial

namespace Source

/-- A code with a blank is found in the second of two stores, and a code with a brace nowhere. -/
theorem code_with_blank_is_localized :
    let registry : Registry := ⟨[.servingEnglish "b=0", .servingEnglish "a.\\ b=\x7b\x7d!"], []⟩
    let source : Source := .composite "outer" none (some "c") [.store 0, .store 1]
    (∀ key ∈ [0, 1], Store.Reachable (fun _ => True) (registry.store key).setup (registry.store key)) ∧
      localize registry source "\u2003\x7ba. b\x7d\n" (some .english) [.text "user"] = "user!" ∧
      localize registry source "\x7ba.\x7bb\x7d" (some .english) [.text "user"] = "\x7ba.\x7bb\x7d" := by
  intro registry source
  have reached : ∀ key ∈ [0, 1], Store.Reachable (fun _ => True) (registry.store key).setup (registry.store key) := by
    intro key member
    rcases List.mem_pair.mp member with rfl | rfl
    · exact Store.reachable_servingEnglish "b=0"
    · exact Store.reachable_servingEnglish "a.\\ b=\x7b\x7d!"
  have first : (Store.servingEnglish "b=0").snapshot?.bind (·.text? "a. b" .english) = none := by cbv
  have second : (Store.servingEnglish "a.\\ b=\x7b\x7d!").snapshot?.bind (·.text? "a. b" .english) =
      some "\x7b\x7d!" := by cbv
  have missed : text? registry .english "a. b" (.store 0) = none := first
  have held : text? registry .english "a. b" (.store 1) = some "\x7b\x7d!" := second
  obtain ⟨published, literal⟩ := published_codes_are_localized reached "outer" none (some "c")
  obtain ⟨text, found, answers⟩ := published .english "a. b" (by decide) (by decide)
    ⟨.store 1, List.mem_cons_of_mem _ List.mem_cons_self, by rw [held]; rfl⟩
  obtain rfl : text = "\x7b\x7d!" := by simpa [List.findSome?, missed, held] using found.symm
  refine ⟨reached, ?_, ?_⟩
  · have wide : ∀ c ∈ ['\u2003'], isWhiteSpace c := List.forall_mem_singleton.mpr (by decide)
    have ending : ∀ c ∈ ['\n'], isWhiteSpace c := List.forall_mem_singleton.mpr (by decide)
    refine (answers _ ['\u2003'] ['\n'] wide ending (by decide) _).1.trans ?_
    decide
  · refine (literal "\x7ba.\x7bb\x7d" ?_ [.text "user"]).1 (some .english)
    -- The second opening brace would stand in the interior.
    rintro ⟨interior, braced, _, notOpening, _⟩
    have rest : interior ++ ['}'] = ['a', '.', '{', 'b', '}'] := (List.cons.inj braced).2.symm
    have within : '{' ∈ interior ++ ['}'] := by rw [rest]; decide
    exact notOpening (by simpa using within)

end Source

end MessageCatalogue
