import TypedQueries.Companion.Name
import TypedQueries.Companion.Preamble
import TypedQueries.Package.Analysis
import TypedQueries.Table

/-!
# Plans for companion modules

A plan says which parameter sets each companion of a package is to hold. It joins the companions
that are there with what the analysis of the files wants. Of several files with the same companion
the last one decides; a companion is left out when the analysis of one of its files was not
completed, so that it is neither rewritten nor deleted.
-/

namespace TypedQueries.Companion

open Source

/-- What there is at the path of a companion. -/
inductive Standing where
  | absent
  /-- A file that cannot be read as a module. -/
  | malformed
  | module (statements : List Statement)

namespace Standing

def isPresent : Standing → Bool
  | absent => false
  | _ => true

def ofContents [Release] (contents : Bytes) : Standing :=
  match readStatements? contents with
  | some statements => module statements
  | none => malformed

end Standing

structure Existing where
  path : Path
  standing : Standing

structure Planned where
  path : Path
  standing : Standing
  /-- The parameter sets that it is to hold; without any there is to be no companion. -/
  wanted : List ParamSet
  /-- The file that wants them, if there is one. -/
  source : Option Path

/-- The companion that the result for a file is about; only modules that are no companions
themselves have one. -/
def destination? (r : FileResult) : Option Path :=
  if (".py" : Text).isSuffixOf r.path.name && !isCompanion r.path then some (pathOf r.path)
  else none

/-- A plan in the making, with the paths of companions that are to be left alone. -/
structure Draft where
  plan : Table Path Planned
  held : List Path

namespace Draft

/-- At first the companions that are there are to hold nothing. -/
def ofExisting (existing : List Existing) : Draft :=
  ⟨.ofList (existing.map fun e => (e.path, ⟨e.path, e.standing, [], none⟩)), []⟩

/-- Merges the result for a file into a draft. A companion is held when the analysis of one of its
files was not completed; otherwise the result says what it is to hold. -/
def merge (d : Draft) (r : FileResult) : Draft :=
  match destination? r with
  | none => d
  | some path =>
    if !r.ok then { d with held := d.held.insert path }
    else
      match d.plan.get? path with
      | some g =>
        { d with plan := d.plan.insert path { g with wanted := r.wanted, source := some r.path } }
      | none =>
        if r.wanted.isEmpty then d
        else { d with plan := d.plan.insert path ⟨path, .absent, r.wanted, some r.path⟩ }

/-- What is left of a draft without the companions that are held. -/
def release (d : Draft) : Table Path Planned := d.held.foldl Table.erase d.plan

end Draft

def planned (existing : List Existing) (results : List FileResult) : Table Path Planned :=
  (results.foldl Draft.merge (.ofExisting existing)).release

/-- What is to become of the companions, in ascending order of their paths. -/
def plan (existing : List Existing) (results : List FileResult) : List Planned :=
  ((planned existing results).entries.mergeSort fun a b => a.1.atMost b.1).map (·.2)

end TypedQueries.Companion
