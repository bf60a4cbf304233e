import TypedQueries.CommandLine.Arguments
import TypedQueries.Generation.Setup
import TypedQueries.Value.Json

/-!
# The command line

What a command does with a file tree, what it prints and how it ends. Reports and problems are
printed as lines of text or in JSON notation; errors from within are always a line of text.
-/

namespace TypedQueries.CommandLine

inductive ExitStatus where
  | success
  | diagnostics
  | usage
  | setup
  | internal
deriving DecidableEq

def ExitStatus.code : ExitStatus → Nat
  | success => 0
  | diagnostics => 1
  | usage => 2
  | setup => 10
  | internal => 50

structure Outcome where
  tree : FileTree
  status : ExitStatus
  /-- What is printed as a result. -/
  output : List Text
  /-- What is printed besides. -/
  messages : List Text
  log : List LogEntry

/-! ### What is printed -/

/-- What is printed, as a result and besides. -/
structure Printed where
  output : List Text
  messages : List Text

def summaryValue (s : Companion.Summary) : Value :=
  .record
    [("created", .int s.created), ("updated", .int s.updated), ("unchanged", .int s.unchanged),
      ("deleted", .int s.deleted), ("failed", .int s.failed)]

def reportValue (r : Report) : Value :=
  .record
    [("ok", .bool r.isClean),
      ("diagnostics", .list (r.diagnostics.map fun d => .text d.text)),
      ("summary", summaryValue r.summary)]

def summaryLines (s : Companion.Summary) : List Text :=
  if s.writes = 0 && s.failed = 0 then []
  else
    ["querygen: created=" ++ Text.ofNat s.created ++ " updated=" ++ Text.ofNat s.updated ++
      " deleted=" ++ Text.ofNat s.deleted ++ " failed=" ++ Text.ofNat s.failed]

def printReport (format : Format) (r : Report) : Printed :=
  match format with
  | .json => ⟨[(reportValue r).json], []⟩
  | .text => ⟨summaryLines r.summary, r.diagnostics.map Diagnostic.text⟩

def problemValue (p : Problem) : Value :=
  .record
    [("ok", .bool false), ("error", .record p.entries), ("exit_code", .int ExitStatus.setup.code)]

def printFailure (format : Format) : Failure → Printed
  | .setup e =>
    match format with
    | .json => ⟨[(problemValue e.problem).json], []⟩
    | .text => ⟨[], e.problem.lines⟩
  | .internal e => ⟨[], ["ERROR[QUERYGEN_INTERNAL_ERROR]: " ++ e.shown]⟩

def failureStatus : Failure → ExitStatus
  | .setup _ => .setup
  | .internal _ => .internal

def reportStatus (r : Report) : ExitStatus := if r.isClean then .success else .diagnostics

def usage : Text :=
  "usage: querygen [-h] [--config CONFIG] [--log-level \x7bdebug,info,warning,error\x7d] " ++
    "[--workers WORKERS] [--format \x7btext,json\x7d] paths [paths ...]"

/-- What is printed on a call for help. -/
def help : List Text :=
  [usage, [], "Generate typed parameter classes for interpolated query constants."]

/-! ### Commands -/

variable [DocumentReader] [Source.Release] [NameMatcher]

namespace Request

/-- What a request comes to when one stands at `here`: the settings, and the generation that they
govern. -/
def generation (t : FileTree) (here : Path) (r : Request) :
    Except Failure (Settings × Generation) := do
  let s ← Settings.loadWith t here r.config (r.logLevel.map LogLevel.name) r.workers
  let packages ← (Selection.ofArguments t here r.paths).mapError SelectionError.failure
  .ok (s, generate s t packages)

def fail (r : Request) (t : FileTree) (log : List LogEntry) (e : Failure) : Outcome :=
  let printed := printFailure r.format e
  ⟨t, failureStatus e, printed.output, printed.messages, log⟩

def perform (t : FileTree) (here : Path) (r : Request) : Outcome :=
  match r.generation t here with
  | .error e => r.fail t [] e
  | .ok (s, g) =>
    let log := LogEntry.atLeast s.logLevel g.log
    match g.result with
    | .error e => r.fail g.tree log (.internal (.interruption e))
    | .ok report =>
      let printed := printReport r.format report
      ⟨g.tree, reportStatus report, printed.output, printed.messages, log⟩

end Request

/-- The outcome of a command with some arguments. -/
def run (t : FileTree) (here : Path) (arguments : List Text) : Outcome :=
  match Invocation.read arguments with
  | .error e => ⟨t, .usage, [], [usage, "querygen: error: " ++ e.message], []⟩
  | .ok .help => ⟨t, .success, help, [], []⟩
  | .ok (.generate r) => r.perform t here

end TypedQueries.CommandLine
