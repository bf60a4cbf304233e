import TypedQueries.Companion.Name
import TypedQueries.Diagnostic
import TypedQueries.LogEntry
import TypedQueries.NamePattern.Matcher
import TypedQueries.Package.Folding
import TypedQueries.Package.Lookup
import TypedQueries.ParamSet.Builder
import TypedQueries.Template

/-!
# Analysing files

Finds the query constants of a file, folds them and builds the parameter sets of their directives.
Each constant has one outcome, whatever becomes of the others; only a class name that an earlier
constant of the file has taken keeps a later one from having its set.
-/

namespace TypedQueries

open Source

/-- An assignment at the top level of a module whose target has the name of a query. -/
structure QueryConstant where
  name : Text
  /-- Where the name stands. -/
  start : Position
  value : Expr

namespace QueryConstant

def line (q : QueryConstant) : Nat := q.start.line

/-- The column of a constant, counted in bytes from one. -/
def column (q : QueryConstant) : Nat := q.start.column + 1

def candidates : StatementKind → List QueryConstant
  | .assign targets value =>
    targets.filterMap fun
      | .name w p => some ⟨w, p, value⟩
      | _ => none
  | .annotated (.name w p) _ (some value) => [⟨w, p, value⟩]
  | _ => []

/-- The query constants of a module, in order; none of them when the pattern is malformed and
there is a name to compare with it. -/
def discover [NameMatcher] (pattern : CodedText) (statements : List Statement) :
    Except PatternFault (List QueryConstant) :=
  (statements.flatMap fun s => candidates s.kind).filterM fun q =>
    NamePattern.isQueryName pattern q.name

end QueryConstant

/-- What an analysis has found in a file. -/
structure FileResult where
  path : Path
  module : Text
  /-- Whether the analysis was completed. -/
  ok : Bool
  wanted : List ParamSet
  diagnostics : List Diagnostic

/-- What an analysis yields besides: what it logs, and the modules whose indices it uses. -/
structure Analysed where
  result : FileResult
  log : List LogEntry
  consulted : List Text

/-- What becomes of a query constant by itself. -/
inductive Outcome where
  /-- It is no text that is known. -/
  | unknown
  | faulty (e : DirectiveError)
  /-- It has no directives. -/
  | plain
  | wanted (p : ParamSet)

/-- The outcome of a query constant with what happened on the way. -/
structure QueryAnalysis where
  outcome : Outcome
  folding : Folding
  /-- The modules that were consulted for types. -/
  consulted : List Text

namespace Package

/-- The outcome of a query constant of a module. -/
def analyseQuery (p : Package) (suffix module : Text) (q : QueryConstant) : QueryAnalysis :=
  let folding := p.fold [⟨module, q.name⟩] module q.value
  match folding.value with
  | none => ⟨.unknown, folding, []⟩
  | some text =>
    let built := ParamSet.ofDirectives (p.resolver module) q.name suffix (Template.directives text)
    let outcome :=
      match built.result with
      | .error e => .faulty e
      | .ok none => .plain
      | .ok (some set) => .wanted set
    ⟨outcome, folding, built.lookups.flatMap fun w => (p.lookup module w).consulted⟩

end Package

/-! ### Diagnostics and logs -/

namespace QueryConstant

def diagnose (q : QueryConstant) (path : Path) (severity : Severity) (message : Text) :
    Diagnostic :=
  ⟨path, q.line, q.column, message, severity⟩

/-- The diagnostics for a constant with an ill-formed directive. -/
def faultDiagnostics (q : QueryConstant) (path : Path) (e : DirectiveError) : List Diagnostic :=
  q.diagnose path .error ("ill-formed interpolation: " ++ e.message) ::
    match e.detail?, e.remediation? with
    | some detail, some remediation =>
      [q.diagnose path .error detail, q.diagnose path .hint ("HINT: " ++ remediation)]
    | _, _ => []

/-- The diagnostic for a constant whose class name is that of another one. -/
def duplicateDiagnostic (q : QueryConstant) (path : Path) (typeName owner : Text) : Diagnostic :=
  q.diagnose path .error <|
    "parameter type " ++ typeName ++ " of " ++ q.name ++ " is already generated for " ++ owner ++
      "; rename one of the queries"

def mention (q : QueryConstant) (path : Path) : Text :=
  "path=" ++ path.text ++ " const=" ++ q.name

end QueryConstant

def scannerEntry (level : LogLevel) (message : Text) : LogEntry :=
  ⟨level, "querygen.scanner", message⟩

/-- The log entries of a fold: its cycles. -/
def Folding.log (f : Folding) : List LogEntry :=
  f.events.filterMap fun
    | .cyclic k =>
      some ⟨.warning, "querygen.folding",
        "cyclic dependency in constant expression module=" ++ k.module ++ " ident=" ++ k.name⟩
    | _ => none

def Folding.consulted (f : Folding) : List Text :=
  f.events.filterMap fun
    | .consulted m => some m
    | _ => none

/-- The log entries for the fold of a constant. -/
def foldingLog (path : Path) (q : QueryConstant) (f : Folding) : List LogEntry :=
  scannerEntry .debug ("trying to fold query string " ++ q.mention path) ::
    f.log ++
      [scannerEntry .debug <|
        match f.value with
        | none => "failed to fold query string " ++ q.mention path
        | some text =>
          "constant-folded query string " ++ q.mention path ++ " folded=" ++
            Text.Quoted.encode text]

/-! ### Files -/

structure FileProgress where
  /-- The sets, each with the name of the constant it belongs to. -/
  wanted : List (ParamSet × Text)
  diagnostics : List Diagnostic
  log : List LogEntry
  consulted : List Text

namespace FileProgress

def empty : FileProgress := ⟨[], [], [], []⟩

/-- The constant that has taken a class name. -/
def owner? (f : FileProgress) (typeName : Text) : Option Text :=
  (f.wanted.find? fun (p, _) => p.typeName = typeName).map (·.2)

/-- Takes in the outcome of a further constant. -/
def add (path : Path) (f : FileProgress) (q : QueryConstant) (a : QueryAnalysis) : FileProgress :=
  let f : FileProgress :=
    { f with
      log := f.log ++ foldingLog path q a.folding
      consulted := f.consulted ++ a.folding.consulted ++ a.consulted }
  match a.outcome with
  | .unknown => f
  | .plain => f
  | .faulty e =>
    { f with
      diagnostics := f.diagnostics ++ q.faultDiagnostics path e
      log := f.log ++
        [scannerEntry .error <|
          "failed to create params from query string " ++ q.mention path ++ " err=" ++ e.message] }
  | .wanted p =>
    match f.owner? p.typeName with
    | none => { f with wanted := f.wanted ++ [(p, q.name)] }
    | some owner =>
      { f with
        diagnostics := f.diagnostics ++ [q.duplicateDiagnostic path p.typeName owner]
        log := f.log ++
          [scannerEntry .error <|
            "duplicate parameter type " ++ q.mention path ++ " type=" ++ p.typeName ++ " first=" ++
              owner] }

end FileProgress

namespace Package

/-- The analysis of a file of the package. -/
def analyseFile [NameMatcher] (p : Package) (s : Settings) (file : SourceFile) :
    Except PatternFault Analysed := do
  let queries ← QueryConstant.discover s.namePattern file.statements
  let step (f : FileProgress) (q : QueryConstant) : FileProgress :=
    f.add file.path q (p.analyseQuery s.typeSuffix file.module q)
  let f := queries.foldl step .empty
  .ok ⟨⟨file.path, file.module, true, f.wanted.map (·.1), f.diagnostics⟩, f.log, f.consulted⟩

/-- The analysis of a file of the package, where one that fails becomes a diagnostic. -/
def analyseSafely [NameMatcher] (p : Package) (s : Settings) (file : SourceFile) : Analysed :=
  match p.analyseFile s file with
  | .ok a => a
  | .error e =>
    let message : Text := "internal error during analysis: " ++ e.shown
    ⟨⟨file.path, file.module, false, [], [.ofFile file.path message]⟩,
     [scannerEntry .error ("analysis failed path=" ++ file.path.text)], []⟩

def sources (p : Package) (only : Option (List Path)) : List SourceFile :=
  p.files.values.filter fun f =>
    !Companion.isCompanion f.path &&
      match only with
      | none => true
      | some paths => paths.contains f.path

/-- The analyses of the files of the package, or of those at some paths. -/
def analyse [NameMatcher] (p : Package) (s : Settings) (only : Option (List Path)) :
    List Analysed :=
  (p.sources only).map (p.analyseSafely s)

end Package

end TypedQueries
