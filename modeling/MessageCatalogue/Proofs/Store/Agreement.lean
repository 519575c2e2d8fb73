import MessageCatalogue.Proofs.Store.Assembly

/-! Snapshots agree when nothing that they serve tells them apart, however their messages are stored. -/

namespace MessageCatalogue

namespace Catalogue

/-- Two catalogues have the same texts and the same resources under the same logical name. -/
structure Agrees (one other : Catalogue) : Prop where
  name : one.name = other.name
  resources : one.resources = other.resources
  messages : one.messages.Equiv other.messages

@[refl] theorem Agrees.refl (catalogue : Catalogue) : catalogue.Agrees catalogue := ⟨rfl, rfl, .rfl⟩

theorem Agrees.symm {one other : Catalogue} (agree : one.Agrees other) : other.Agrees one :=
  ⟨agree.name.symm, agree.resources.symm, agree.messages.symm⟩

theorem Agrees.trans {one other third : Catalogue} (first : one.Agrees other) (second : other.Agrees third) :
    one.Agrees third :=
  ⟨first.name.trans second.name, first.resources.trans second.resources, first.messages.trans second.messages⟩

/-- Catalogues that agree are concerned by the same identifiers. -/
theorem Agrees.owns_eq {one other : Catalogue} (agree : one.Agrees other) (identifier : String) :
    one.owns identifier = other.owns identifier := by
  simp only [owns, agree.name, agree.resources]

end Catalogue

/-- Overlays of one locale agree when they lie over bases that agree. -/
theorem Setup.overlayOf_agrees (setup : Setup) {one other : Catalogue} (agree : one.Agrees other)
    (locale : Locale) (own : Option MergedResources) :
    (setup.overlayOf one locale own).Agrees (setup.overlayOf other locale own) := by
  cases own with
  | none => exact ⟨rfl, rfl, agree.messages⟩
  | some own => exact ⟨rfl, rfl, agree.messages.union_left⟩

/-- Two entries of dictionaries have catalogues that agree under the same locale. -/
def EntriesAgree (one other : Locale × Catalogue) : Prop := one.1 = other.1 ∧ one.2.Agrees other.2

/-- Entries that agree one by one stand under the same keys. -/
theorem keys_eq_of_agrees {one other : Dictionary Locale Catalogue} (agree : List.Forall₂ EntriesAgree one other) :
    one.keys = other.keys := by
  induction agree with
  | nil => rfl
  | cons own _ ih => rw [Dictionary.keys_cons, Dictionary.keys_cons, own.1, ih]

namespace Snapshot

/-- Two snapshots support the same locales, and their catalogues agree one by one, each of them under its locale. -/
structure Agrees (one other : Snapshot) : Prop where
  locales : one.locales = other.locales
  catalogues : List.Forall₂ EntriesAgree one.catalogues other.catalogues

namespace Agrees

variable {one other : Snapshot} (agree : one.Agrees other)

include agree

/-- Whatever catalogues that agree have in common, snapshots that agree have in common in every locale. -/
theorem elim_catalogue?_eq {β : Type} (absent : β) (part : Catalogue → β)
    (same : ∀ one other : Catalogue, one.Agrees other → part one = part other) (locale : Locale) :
    (one.catalogue? locale).elim absent part = (other.catalogue? locale).elim absent part := by
  -- The first catalogue of the locale stands at the same place in both.
  unfold catalogue?
  have each := agree.catalogues
  generalize one.catalogues = left, other.catalogues = right at each ⊢
  induction each with
  | nil => rfl
  | @cons first first' rest rest' own _ ih =>
    rw [Dictionary.find?, Dictionary.find?, own.1]
    split
    · exact same _ _ own.2
    · exact ih

/-- Snapshots that agree have the same text of every code in every locale. -/
theorem text?_eq (code : String) (locale : Locale) : one.text? code locale = other.text? code locale := by
  have elim : ∀ found : Option Catalogue, found.bind (·.messages[code]?) = found.elim none (·.messages[code]?) :=
    fun found => by cases found <;> rfl
  rw [text?, text?, elim, elim]
  exact agree.elim_catalogue?_eq none _ (fun _ _ own => own.messages.getElem?_eq) locale

/-- Snapshots that agree have equally many messages in every locale. -/
theorem counts_eq : one.counts = other.counts := by
  unfold counts
  rw [agree.locales]
  exact List.map_congr_left fun locale _ => congrArg (locale, ·)
    (agree.elim_catalogue?_eq 0 (·.messages.size) (fun _ _ own => own.messages.size_eq) locale)

/-- Snapshots that agree are concerned by the same identifiers. -/
theorem owns_eq (identifier : String) : one.owns identifier = other.owns identifier := by
  -- The catalogues agree one by one, and so do the answers that are asked of them.
  unfold owns
  have each := agree.catalogues
  generalize one.catalogues = left, other.catalogues = right at each ⊢
  induction each with
  | nil => rfl
  | cons own _ ih =>
    simp only [Dictionary.values, List.map_cons, List.any_cons, own.2.owns_eq identifier] at ih ⊢
    rw [ih]

end Agrees

end Snapshot

/-- Layers that agree one by one make snapshots that agree. -/
theorem Setup.snapshot_agrees (setup : Setup) {one other : Layers} (base : one.base.Agrees other.base)
    (overlays : List.Forall₂ EntriesAgree one.overlays other.overlays) :
    (setup.snapshot one).Agrees (setup.snapshot other) :=
  ⟨congrArg (setup.defaultLocale :: ·) (keys_eq_of_agrees overlays),
    List.rel_append overlays (.cons ⟨rfl, base⟩ .nil)⟩

end MessageCatalogue
