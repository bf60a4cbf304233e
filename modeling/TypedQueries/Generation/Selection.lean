import TypedQueries.Companion.Name
import TypedQueries.FileTree.Basic
import TypedQueries.Table

/-!
# Selecting packages

The arguments of a run name files and directories. A file stands for itself in the package that it
lies in; a directory stands for all packages below it, save those that are hidden or hold what
other tools have made. The arguments are taken in one by one into a table of packages, in which a
package that is selected as a whole stays so.
-/

namespace TypedQueries

inductive Selection where
  | whole
  /-- Some of its files. -/
  | files (paths : List Path)
deriving DecidableEq

/-- What an argument selects: a directory, as a whole or for one file of it. -/
structure Choice where
  directory : Path
  file : Option Path
deriving DecidableEq

inductive SelectionError where
  | notFound (argument : Text)
  | noSources (arguments : List Text)
  /-- A path with a null character in it. -/
  | nullCharacter
deriving DecidableEq

def moduleEnding : Text := ".py"

def Path.isModule (p : Path) : Bool := moduleEnding.isSuffixOf p.name

def FileTree.modulesIn (t : FileTree) (d : Path) : List Path :=
  Path.sort ((t.children d).filter Path.isModule)

namespace Choice

def skippedNames : List Text := ["__pycache__", "build", "dist", "node_modules"]

/-- Whether a directory of this name is passed over. -/
def isSkipped (name : Text) : Bool := name.head? = some '.' || skippedNames.contains name

/-- Whether what lies at `p` is reached from the directory `d`. -/
def isReached (d p : Path) : Bool :=
  (p.parts.drop d.parts.length).dropLast.all fun name => !isSkipped name

/-- What a file selects: itself, unless it is no module or a companion. -/
def ofFile (p : Path) : List Choice :=
  if p.suffix = moduleEnding && !Companion.isCompanion p then [⟨p.parent, some p⟩] else []

/-- What a directory selects: every directory reached from it that has a module in it. -/
def ofDirectory (t : FileTree) (d : Path) : List Choice :=
  ((t.descendants d).filter fun p => p.isModule && isReached d p).map fun p => ⟨p.parent, none⟩

/-- What an argument selects when one stands at `here`. -/
def ofArgument (t : FileTree) (here : Path) (argument : Text) :
    Except SelectionError (List Choice) :=
  let p := Path.resolve here (.ofText argument)
  if argument.any (·.toNat = 0) then .error .nullCharacter
  else if t.isFile p then .ok (ofFile p)
  else if t.isDirectory p then .ok (ofDirectory t p)
  else .error (.notFound argument)

end Choice

namespace Selection

/-- Takes a choice into the packages that are selected so far. One that is selected as a whole
stays so; of another one a file is added, or all. -/
def select (packages : Table Path Selection) (c : Choice) : Table Path Selection :=
  match packages.get? c.directory, c.file with
  | some whole, _ => packages
  | _, none => packages.insert c.directory whole
  | none, some p => packages.insert c.directory (files [p])
  | some (files paths), some p =>
    packages.insert c.directory (files (if paths.contains p then paths else paths ++ [p]))

/-- The packages that arguments select when one stands at `here`, as far as they are taken in. -/
def collect (t : FileTree) (here : Path) (arguments : List Text) :
    Except SelectionError (Table Path Selection) :=
  arguments.foldlM
    (fun packages argument => return (← Choice.ofArgument t here argument).foldl select packages)
    .empty

/-- The selection with its files in ascending order. -/
def sorted : Selection → Selection
  | whole => whole
  | files paths => files (Path.sort paths)

def listing (packages : Table Path Selection) : List (Path × Selection) :=
  (packages.entries.mergeSort fun a b => a.1.atMost b.1).map fun (d, selection) =>
    (d, selection.sorted)

def ofArguments (t : FileTree) (here : Path) (arguments : List Text) :
    Except SelectionError (List (Path × Selection)) := do
  match listing (← collect t here arguments) with
  | [] => .error (.noSources arguments)
  | packages => .ok packages

end Selection

end TypedQueries
