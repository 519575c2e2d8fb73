import MessageCatalogue.Resource.Enumerator

/-! An outage makes chosen requests fail while the others are answered as before. -/

namespace MessageCatalogue

/-- The kinds of request. -/
inductive RequestKind where
  | list
  | resources
  | read
deriving DecidableEq, Repr

/-- The requests of a kind about one subject, which fail with an account. -/
structure Outage where
  kind : RequestKind
  subject : String
  account : String
deriving DecidableEq, Repr

namespace Outage

/-- Outages without those that concern a kind and a subject. -/
def lift (outages : List Outage) (kind : RequestKind) (subject : String) : List Outage :=
  outages.filter fun outage => ¬ (outage.kind = kind ∧ outage.subject = subject)

/-- The fault, if any, with which requests of a kind about a subject fail. -/
def fault? (outages : List Outage) (kind : RequestKind) (subject : String) : Option ResourceFault :=
  (outages.find? fun outage => outage.kind = kind ∧ outage.subject = subject).map fun outage =>
    .other outage.account

end Outage

/-- An enumerator of which some requests fail. -/
def Enumerator.under (enumerator : Enumerator) (outages : List Outage) : Enumerator where
  -- What does not fail is answered as before.
  list := fun directory =>
    match Outage.fault? outages .list directory with
    | some fault => .error fault
    | none => enumerator.list directory
  resources := fun name =>
    match Outage.fault? outages .resources name with
    | some fault => .error fault
    | none => enumerator.resources name
  read := fun id =>
    match Outage.fault? outages .read id.text with
    | some fault => .error fault
    | none => enumerator.read id

end MessageCatalogue
