import MessageCatalogue.CommandLine.LogDirective

/-! A log filter says how much each part of the program may report while it runs. -/

namespace MessageCatalogue

/-- Directives of which the most specific one that is about an event decides. -/
structure LogFilter where
  directives : List LogDirective
deriving DecidableEq, Repr

namespace LogFilter

/-- The filter used unless another one is set. -/
def standard : String := "warn"

/-- The filter that a text writes with commas between its directives. -/
def parse (text : String) : Option LogFilter := do
  -- A filter without directives still lets errors pass.
  let parts := (Text.pieces [','] text.toList).filter (! ·.isEmpty)
  let directives ← parts.mapM LogDirective.ofText?
  return ⟨if directives.isEmpty then [⟨none, none, none, .error⟩] else directives⟩

/-- The more specific directive of two, where the later one of equals counts. -/
def moreSpecific (first : Option LogDirective) (second : LogDirective) : LogDirective :=
  match first with
  | some first => if first.givesWayTo second then second else first
  | none => second

/-- Whether an event passes a filter. -/
def passes (filter : LogFilter) (event : LogEvent) : Bool :=
  -- Of the directives that concern the event, the most specific one has the last word.
  let applicable := filter.directives.filter fun directive =>
    directive.isDecisive && directive.concerns event
  match applicable.foldl (fun best directive => some (moreSpecific best directive)) none with
  | some directive => event.level.rank ≤ directive.level.rank
  | none => false

end LogFilter

end MessageCatalogue
