import TypedQueries.Text.Basic

/-!
# Paths

A path is a list of names below a root, or below wherever one stands. Empty names and single dots
are dropped when a path is read; double dots stay until the path is resolved.
-/

namespace TypedQueries

inductive Anchor where
  /-- Wherever one stands. -/
  | relative
  | root
  /-- The root written with exactly two slashes, which is kept apart. -/
  | doubleRoot
deriving DecidableEq

structure Path where
  anchor : Anchor
  parts : List Text
deriving DecidableEq

namespace Anchor

def text : Anchor → Text
  | relative => []
  | root => ['/']
  | doubleRoot => ['/', '/']

def ofText (t : Text) : Anchor :=
  match (t.takeWhile (· = '/')).length with
  | 0 => relative
  | 2 => doubleRoot
  | _ => root

end Anchor

namespace Path

/-- The name of the file that makes a directory a package. -/
def initName : Text := "__init__.py"

def ofText (t : Text) : Path :=
  ⟨.ofText t, (Text.splitOn '/' t).filter fun w => w ≠ [] && w ≠ ['.']⟩

def text (p : Path) : Text :=
  match p.anchor.text ++ Text.join ['/'] p.parts with
  | [] => ['.']
  | t => t

/-- The last name; a root has none. -/
def name (p : Path) : Text := p.parts.getLastD []

def parent (p : Path) : Path := { p with parts := p.parts.dropLast }

def child (p : Path) (name : Text) : Path := { p with parts := p.parts ++ [name] }

def join (p q : Path) : Path :=
  if q.anchor = .relative then { p with parts := p.parts ++ q.parts } else q

/-- A name without its suffix, and the suffix with its dot. A dot at the beginning or the end
makes no suffix. -/
def splitName (name : Text) : Text × Text :=
  match Text.splitLast? '.' name with
  | some (stem, suffix) => if stem = [] || suffix = [] then (name, []) else (stem, '.' :: suffix)
  | none => (name, [])

def stem (p : Path) : Text := (splitName p.name).1

def suffix (p : Path) : Text := (splitName p.name).2

/-- Names with each double dot taken together with the name before it; a double dot that has no
name before it goes. -/
def collapse (parts : List Text) : List Text :=
  parts.foldl (fun done w => if w = ['.', '.'] then done.dropLast else done ++ [w]) []

def collapsed (p : Path) : Path := { p with parts := collapse p.parts }

/-- The absolute path without double dots that `p` means when one stands at `here`. -/
def resolve (here p : Path) : Path := ⟨.root, collapse (here.join p).parts⟩

/-- The names of a path with its anchor before them, by which paths are ordered. -/
def key (p : Path) : List Text :=
  match p.anchor.text with
  | [] => p.parts
  | a => a :: p.parts

/-- Order name by name, a path before what lies below it. -/
def atMost (p q : Path) : Bool := !q.key.lex p.key Text.isBefore

def sort (ps : List Path) : List Path := ps.mergeSort atMost

/-- Whether `p` lies below the directory `d`. -/
def isBelow (d p : Path) : Bool :=
  d.anchor = p.anchor && d.parts.length < p.parts.length && d.parts.isPrefixOf p.parts

end Path

end TypedQueries
