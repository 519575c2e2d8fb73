import MessageCatalogue.Proofs.Store.Publication
import MessageCatalogue.Source.Lifecycle

/-! The stores of a source are its leaves, and what the source owns is what they own. -/

namespace MessageCatalogue

namespace Registry

variable (registry : Registry)

/-- A store that is put in place of another one is found under the number of that one. -/
theorem store_set_self {key : StoreKey} (kept : key < registry.stores.length) (store : Store) :
    (registry.set key store).store key = store := by
  simp [Registry.store, set, kept]

/-- Putting a store in place of another one leaves the others alone. -/
theorem store_set_of_ne {key other : StoreKey} (different : other ≠ key) (store : Store) :
    (registry.set key store).store other = registry.store other := by
  simp [Registry.store, set, Ne.symm different]

/-- A store that is put in its own place changes nothing. -/
theorem set_store (key : StoreKey) : registry.set key (registry.store key) = registry := by
  -- A number that is not in use has no place to put anything.
  have same : registry.stores.set key (registry.store key) = registry.stores := by
    refine List.ext_getElem? fun position => ?_
    rw [List.getElem?_set]
    split
    · rename_i here
      subst here
      split
      · rename_i kept
        simp [Registry.store, kept]
      · rename_i absent
        exact (List.getElem?_eq_none (Nat.le_of_not_lt absent)).symm
    · rfl
  rw [set, same]

end Registry

namespace Source

mutual

/-- The numbers of the stores of a source, in the order in which it comes to them. -/
def leaves : Source → List StoreKey
  | .store key => [key]
  | .silent _ => []
  | .composite _ _ _ members => leavesOfAll members

/-- The numbers of the stores of several sources, one source after the other. -/
def leavesOfAll : List Source → List StoreKey
  | [] => []
  | first :: rest => leaves first ++ leavesOfAll rest

end

mutual

/-- A source owns what one of its stores owns. -/
theorem owns_eq (registry : Registry) (identifier : String) (source : Source) :
    owns registry identifier source = (leaves source).any fun key => (registry.store key).owns identifier := by
  cases source with
  | store key => simp only [owns, leaves, List.any_cons, List.any_nil, Bool.or_false]
  | silent locale => simp only [owns, leaves, List.any_nil]
  | composite name resolver common members => rw [owns, leaves, ownsAny_eq]
termination_by sizeOf source

/-- Several sources own what one of their stores owns. -/
theorem ownsAny_eq (registry : Registry) (identifier : String) (members : List Source) :
    ownsAny registry identifier members =
      (leavesOfAll members).any fun key => (registry.store key).owns identifier := by
  cases members with
  | nil => simp only [ownsAny, leavesOfAll, List.any_nil]
  | cons first rest =>
    rw [ownsAny, leavesOfAll, List.any_append, owns_eq registry identifier first, ownsAny_eq registry identifier rest]
termination_by sizeOf members

end

/-- Whether an event names a resource of the store under a number. -/
def touches (registry : Registry) (event : ChangeEvent) (key : StoreKey) : Bool :=
  event.changed.any (registry.store key).owns

/-- An event touches a source when it touches one of its stores. -/
theorem isTouchedBy_eq (registry : Registry) (event : ChangeEvent) (source : Source) :
    isTouchedBy registry event source = (leaves source).any (touches registry event) := by
  -- It makes no difference whether stores or identifiers are gone through first.
  rw [Bool.eq_iff_iff]
  simp only [isTouchedBy, owns_eq, List.any_eq_true]
  constructor
  · rintro ⟨identifier, named, key, leaf, owned⟩
    exact ⟨key, leaf, List.any_eq_true.mpr ⟨identifier, named, owned⟩⟩
  · rintro ⟨key, leaf, touched⟩
    obtain ⟨identifier, named, owned⟩ := List.any_eq_true.mp touched
    exact ⟨identifier, named, key, leaf, owned⟩

/-- An event touches only stores that serve something. -/
theorem serving_of_touches {registry : Registry} {event : ChangeEvent} {key : StoreKey}
    (touched : touches registry event key = true) :
    ∃ current, (registry.store key).lifecycle = .initialized current := by
  obtain ⟨identifier, _, owned⟩ := List.any_eq_true.mp touched
  obtain ⟨current, serving, _⟩ := Store.serving_of_owns owned
  exact ⟨current, serving⟩

/-- An event touches only stores that the registry keeps. -/
theorem lt_of_touches {registry : Registry} {event : ChangeEvent} {key : StoreKey}
    (touched : touches registry event key = true) : key < registry.stores.length := by
  -- What stands for an absent store serves nothing.
  obtain ⟨current, serving⟩ := serving_of_touches touched
  refine Nat.lt_of_not_le fun absent => ?_
  have missing : registry.store key = Store.absent := by
    simp [Registry.store, List.getElem?_eq_none absent]
  rw [missing] at serving
  cases serving

end Source

end MessageCatalogue
