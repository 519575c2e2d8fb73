import MessageCatalogue.CommandLine.Arguments
import MessageCatalogue.CommandLine.Help
import MessageCatalogue.CommandLine.LogFilter
import MessageCatalogue.CommandLine.Report

/-! A run of the program ends with a status after it has printed what it found or what went wrong. -/

namespace MessageCatalogue

/-- The status of a run with the lines that it prints, its complaints and the events that it logs. -/
structure Outcome where
  status : Nat
  lines : List String
  complaints : List String
  events : List LogEvent
deriving DecidableEq, Repr

namespace Outcome

/-- What is printed, where every line has its ending. -/
def output (outcome : Outcome) : String := String.join (outcome.lines.map (· ++ "\n"))

/-- Whether a run neither complains nor logs. -/
def isQuiet (outcome : Outcome) : Bool := outcome.complaints.isEmpty && outcome.events.isEmpty

/-- A run that ends with the account of what went wrong. -/
def failure (account : String) : Outcome := ⟨1, [], ["error: " ++ account], []⟩

end Outcome

namespace Refusal

/-- The account of a command line that is at fault. -/
def account : Refusal → String
  -- The account does not quote the word that is at fault.
  | .help _ => "help was requested"
  | .version => "the version was requested"
  | .nothingGiven => "no command was given"
  | .missingCommand => "a command is required but none was given"
  | .unknownCommand => "the command is unknown"
  | .unknownArgument => "an argument was not expected"
  | .missingArgument => "a required argument was not given"
  | .missingValue => "a value is required for an option but none was given"
  | .surplusValue => "an option takes no value but was given one"
  | .repeatedOption => "an option cannot be used several times"

/-- How a run ends that carries out no command. -/
def outcome : Refusal → Outcome
  -- Only what was asked for is printed, and a faulty command line has a status of its own.
  | .help topic => ⟨0, topic.lines, [], []⟩
  | .version => ⟨0, ["msgctl 0.3.0"], [], []⟩
  | .nothingGiven => ⟨2, [], HelpTopic.program.lines, []⟩
  | refusal => ⟨2, [], ["error: " ++ refusal.account, "", "Usage: " ++ HelpTopic.program.usage], []⟩

end Refusal

/-- How a run goes on once its words and its log filter are read. -/
inductive Plan where
  | ended (outcome : Outcome)
  | command (filter : LogFilter) (invocation : Invocation)

namespace Plan

/-- The variable that holds the log filter. -/
def filterVariable : String := "MSGCTL_LOG"

/-- The plan for some words, where an unusable log filter ends a run before the words are looked at. -/
def ofWords (environment : Environment) (words : List String) : Plan :=
  -- Without the variable the standard filter applies.
  let written := (environment.find? (·.1 = filterVariable)).map (·.2)
  match LogFilter.parse (written.getD LogFilter.standard) with
  | none => .ended (.failure "invalid log filter")
  | some filter =>
    match Invocation.parse words with
    | .error refusal => .ended refusal.outcome
    | .ok invocation => .command filter invocation

/-- The path of the settings document that a plan needs. -/
def documentPath? : Plan → Option String
  | .ended _ => none
  | .command _ invocation => invocation.config

/-- The events among some that the log filter of a plan lets pass. -/
def heard (events : List LogEvent) : Plan → List LogEvent
  | .ended _ => []
  | .command filter _ => events.filter filter.passes

/-- The outcome of a command under settings that are known. -/
def outcome (filter : LogFilter) (report : Except MessageError Report) : Outcome :=
  match report with
  -- An error leaves nothing to log, as its message is all that is reported.
  | .error error => .failure error.message
  | .ok report =>
    ⟨if report.succeeded then 0 else 1, report.lines, [],
      (LogEvent.settingsResolved :: report.events).filter filter.passes⟩

/-- The outcome of a plan with its settings document in an environment. -/
def execute (document : Option ByteArray) (environment : Environment) : Plan → Fetch Outcome
  -- A plan that ended early asks for no resources.
  | .ended outcome => return outcome
  | .command filter invocation => do
    let report ← (do
      let settings ← Loading.ofExcept (invocation.settings document environment)
      Report.ofCommand settings invocation.command : Loading Report).run
    return outcome filter report

/-- The outcome of a plan on the files that root directories lead to, with the events of missing ones. -/
def executeOn (rootAt : Directories.Roots) (document : Option ByteArray) (environment : Environment)
    (plan : Plan) : Outcome :=
  -- The roots that are missing show in the requests, and they are reported behind the other events.
  let holdings := Directories.holdings rootAt
  let computation := plan.execute document environment
  let outcome := computation.run holdings
  let skipped := Directories.skipEvents rootAt (computation.requests holdings)
  { outcome with events := outcome.events ++ plan.heard skipped }

end Plan

end MessageCatalogue
