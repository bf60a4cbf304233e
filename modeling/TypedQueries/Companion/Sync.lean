import TypedQueries.Companion.Emission
import TypedQueries.Companion.Plan
import TypedQueries.FileTree.Basic

/-!
# Bringing companion modules up to date

Applies a plan to a file tree, one companion after the other. Of a companion that is there only
what follows its preamble is replaced, and nothing is written when nothing would change. A
companion that cannot be written counts as failed, and the others follow all the same.
-/

namespace TypedQueries.Companion

open Source

inductive SyncError where
  | file (e : FileError)
  /-- A companion whose preamble is not known. -/
  | malformed (path : Path)
  | emission (e : EmissionError)
  /-- A companion whose text has halves of surrogate pairs in it. -/
  | encoding (e : Text.Utf8.EncodeError)
deriving DecidableEq

namespace SyncError

def message : SyncError → Text
  | file e => e.message
  | malformed path => "cannot locate preamble in unparsable file " ++ path.text
  | emission e => e.message
  | encoding e => e.message

end SyncError

/-- A runtime module that lies in no package. -/
structure NoRuntimePackage where
deriving DecidableEq

def NoRuntimePackage.message (_ : NoRuntimePackage) : Text :=
  "not enough values to unpack (expected 2, got 1)"

/-- How the companions of a package import the marker of generated classes. -/
def RuntimeImport.of (runtimeModule package : CodedText) :
    Except NoRuntimePackage RuntimeImport :=
  match runtimeModule.splitLast? '.' with
  | none => .error ⟨⟩
  | some (parent, name) => .ok ⟨parent, name, decide (package = parent)⟩

structure Companions where
  /-- The name of the package. -/
  package : CodedText
  runtime : RuntimeImport

namespace Companions

/-- Writes a companion that is not there yet. The file is opened before its text is encoded, so it
is left empty when that fails. -/
def create (c : Companions) (t : FileTree) (path : Path) (wanted : List ParamSet) :
    FileTree × Except SyncError Unit :=
  match render c.package c.runtime wanted with
  | .error e => (t, .error (.emission e))
  | .ok text =>
    match t.create path [] with
    | .error e => (t, .error (.file e))
    | .ok opened =>
      match Text.Utf8.encodeCoded text with
      | .error e => (opened, .error (.encoding e))
      | .ok contents => (opened.put path (.file contents), .ok ())

def body (c : Companions) (wanted : List ParamSet) : Except SyncError Bytes := do
  let text ← (emit (c.runtime.name ++ ".") wanted).mapError .emission
  (Text.Utf8.encodeCoded text).mapError .encoding

/-- The tree with other classes in a companion, or nothing when it has them already. -/
def update (c : Companions) (t : FileTree) (path : Path) (standing : Standing)
    (wanted : List ParamSet) : Except SyncError (Option FileTree) :=
  match standing with
  | .module statements => do
    let body ← c.body wanted
    let contents ← (t.read path).mapError .file
    let n := preambleBytes statements contents
    if contents.drop n = body then .ok none
    else
      let t ← (t.overwrite path (contents.take n ++ body)).mapError .file
      .ok (some t)
  | _ => .error (.malformed path)

end Companions

/-- What is to be done about one companion. -/
inductive Action where
  | create
  | update
  | delete
deriving DecidableEq

inductive SyncOutcome where
  | created
  | updated
  | unchanged
  | deleted
  | failed
deriving DecidableEq

structure Summary where
  created : Nat
  updated : Nat
  unchanged : Nat
  deleted : Nat
  failed : Nat
deriving DecidableEq

namespace Summary

def zero : Summary := ⟨0, 0, 0, 0, 0⟩

def count (s : Summary) : SyncOutcome → Summary
  | .created => { s with created := s.created + 1 }
  | .updated => { s with updated := s.updated + 1 }
  | .unchanged => { s with unchanged := s.unchanged + 1 }
  | .deleted => { s with deleted := s.deleted + 1 }
  | .failed => { s with failed := s.failed + 1 }

def add (a b : Summary) : Summary :=
  ⟨a.created + b.created, a.updated + b.updated, a.unchanged + b.unchanged,
    a.deleted + b.deleted, a.failed + b.failed⟩

def writes (s : Summary) : Nat := s.created + s.updated + s.deleted

end Summary

def Planned.action (g : Planned) : Action :=
  if !g.standing.isPresent then .create else if g.wanted.isEmpty then .delete else .update

namespace Companions

/-- Does what is to be done about a companion: the tree after it, and what it came to. -/
def perform (c : Companions) (t : FileTree) (g : Planned) :
    FileTree × Except SyncError SyncOutcome :=
  match g.action with
  | .create =>
    let (t, result) := c.create t g.path g.wanted
    (t, result.map fun _ => .created)
  | .delete =>
    match t.delete g.path with
    | .ok t => (t, .ok .deleted)
    | .error e => (t, .error (.file e))
  | .update =>
    match c.update t g.path g.standing g.wanted with
    | .ok (some t) => (t, .ok .updated)
    | .ok none => (t, .ok .unchanged)
    | .error e => (t, .error e)

end Companions

/-! ### Logs -/

def syncEntry (level : LogLevel) (message : Text) : LogEntry := ⟨level, "querygen.sync", message⟩

def Action.announcement : Action → Text
  | create => "creating new file path="
  | update => "updating file path="
  | delete => "removing file path="

def Planned.announcement (g : Planned) : LogEntry :=
  syncEntry .debug (g.action.announcement ++ g.path.text)

def Planned.failure (g : Planned) (e : SyncError) : LogEntry :=
  syncEntry .warning ("failed to sync file path=" ++ g.path.text ++ " err=" ++ e.message)

/-- The log entry after a run, if it has written anything. -/
def Summary.announcement (s : Summary) (package : CodedText) : List LogEntry :=
  if s.created = 0 && s.updated = 0 then []
  else
    [syncEntry .info <|
      "querygen codegen summary pkg=" ++ package.shown ++ " filesCreated=" ++
        Text.ofNat s.created ++ " filesUpdated=" ++ Text.ofNat s.updated]

/-! ### Runs -/

/-- What a run has come to so far. -/
structure SyncState where
  tree : FileTree
  summary : Summary
  log : List LogEntry

/-- The end of a run. One that meets parameter sets that cannot be emitted ends early, and what it
has done until then stays. -/
structure SyncRun where
  tree : FileTree
  log : List LogEntry
  result : Except EmissionError Summary

namespace Companions

/-- Applies what a plan has left. -/
def applyFrom (c : Companions) (s : SyncState) : List Planned → SyncRun
  | [] => ⟨s.tree, s.log, .ok s.summary⟩
  | g :: gs =>
    let log := s.log ++ [g.announcement]
    match c.perform s.tree g with
    | (tree, .ok outcome) => c.applyFrom ⟨tree, s.summary.count outcome, log⟩ gs
    | (tree, .error (.emission e)) => ⟨tree, log, .error e⟩
    | (tree, .error e) => c.applyFrom ⟨tree, s.summary.count .failed, log ++ [g.failure e]⟩ gs

def applyPlan (c : Companions) (t : FileTree) (targets : List Planned) : SyncRun :=
  c.applyFrom ⟨t, .zero, []⟩ targets

/-- Brings the companions up to date with the results for the files of the package. -/
def sync (c : Companions) (t : FileTree) (existing : List Existing) (results : List FileResult) :
    SyncRun :=
  let run := c.applyPlan t (plan existing results)
  match run.result with
  | .ok summary => { run with log := run.log ++ summary.announcement c.package }
  | .error _ => run

end Companions

/-! ### Companions that are there -/

def Existing.load [Release] (t : FileTree) (path : Path) :
    Except FileError (Existing × List LogEntry) := do
  let contents ← t.read path
  match Standing.ofContents contents with
  | .malformed =>
    .ok (⟨path, .malformed⟩,
      [syncEntry .warning <|
        "failed to parse companion path=" ++ path.text ++ " err=" ++ Release.complain contents])
  | standing => .ok (⟨path, standing⟩, [])

end TypedQueries.Companion
