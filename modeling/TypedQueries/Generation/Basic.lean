import TypedQueries.Generation.Package

/-!
# Generating companions

Goes through the selected packages in ascending order, and takes together what has come of each.
-/

namespace TypedQueries

/-- What a run over packages has to say. -/
structure Report where
  diagnostics : List Diagnostic
  summary : Companion.Summary

namespace Report

def empty : Report := ⟨[], .zero⟩

def add (r : Report) (diagnostics : List Diagnostic) (summary : Companion.Summary) : Report :=
  ⟨r.diagnostics ++ diagnostics, r.summary.add summary⟩

def isClean (r : Report) : Bool := r.diagnostics.isEmpty && r.summary.failed = 0

end Report

/-- What a run over packages comes to. What it has written until an interruption stays. -/
structure Generation where
  tree : FileTree
  log : List LogEntry
  result : Except Interruption Report

variable [Source.Release] [NameMatcher]

/-- Generates the companions of packages, after some others. -/
def generateFrom (s : Settings) (t : FileTree) (log : List LogEntry) (report : Report) :
    List (Path × Selection) → Generation
  | [] => ⟨t, log, .ok report⟩
  | (d, selection) :: rest =>
    let run := generatePackage t s d selection
    match run.result with
    | .error e => ⟨run.tree, log ++ run.log, .error e⟩
    | .ok (diagnostics, summary) =>
      generateFrom s run.tree (log ++ run.log) (report.add diagnostics summary) rest

def generate (s : Settings) (t : FileTree) (packages : List (Path × Selection)) : Generation :=
  generateFrom s t [] .empty packages

end TypedQueries
