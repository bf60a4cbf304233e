import TypedQueries.Diagnostic
import TypedQueries.Package.Basic
import TypedQueries.Source.Statement.Read
import TypedQueries.Text.Utf8

/-!
# Loading packages

Reads the files of a package. A file that cannot be read is reported and left out. Loading stops
for good where the name of a module has no end, and in some releases at a null character.
-/

namespace TypedQueries

open Source

/-- Why a file is left out of its package. -/
inductive LoadFault where
  | unreadable (e : FileError)
  | undecodable (e : Text.Utf8.DecodeError)
  | malformed (r : Refusal)
deriving DecidableEq

namespace LoadFault

def message : LoadFault → Text
  | unreadable e => "failed to read file: " ++ e.message
  | undecodable e => "failed to read file: " ++ e.message
  | malformed r => "syntax error: " ++ r.message

/-- The line and the column at which a file is at fault, zero for a file as a whole. -/
def place : LoadFault → Position
  | malformed r => ⟨r.line, r.column⟩
  | _ => ⟨0, 0⟩

def diagnostic (e : LoadFault) (p : Path) : Diagnostic :=
  ⟨p, e.place.line, e.place.column, e.message, .error⟩

end LoadFault

inductive LoadStop where
  /-- A null character in a file. -/
  | nullCharacter
  /-- A climb through the packages around a file that has no end. -/
  | endless
deriving DecidableEq

def FileTree.readText (tree : FileTree) (p : Path) : Except LoadFault Text :=
  match (tree.locate p).mapError (FileError.mk · p) >>= tree.read with
  | .error e => .error (.unreadable { e with path := p })
  | .ok bytes =>
    match Text.Utf8.decode bytes with
    | .error e => .error (.undecodable e)
    | .ok text => .ok text

/-- The statements of a text, or how it is refused. -/
def readSource [Release] (text : Text) : Except LoadStop (Except Refusal (List Statement)) :=
  if text.contains '\x00' then
    if Release.refusesNull then .ok (.error (Release.refuse text)) else .error .nullCharacter
  else
    match readModule? text with
    | none => .ok (.error (Release.refuse text))
    | some statements => .ok (.ok statements)

/-- The file at a path, or why it is left out. -/
def SourceFile.load [Release] (tree : FileTree) (p : Path) :
    Except LoadStop (Except LoadFault SourceFile) :=
  match tree.readText p with
  | .error fault => .ok (.error fault)
  | .ok text => do
    match ← readSource text with
    | .error r => .ok (.error (.malformed r))
    | .ok statements =>
      match ModuleName.ofPath? tree p.collapsed with
      | none => .error .endless
      | some module => .ok (.ok ⟨p, module, statements⟩)

/-- A package as far as it could be loaded. -/
structure Loaded where
  package : Package
  diagnostics : List Diagnostic

def loadFiles [Release] (tree : FileTree) :
    List Path → Except LoadStop (List SourceFile × List Diagnostic)
  | [] => .ok ([], [])
  | p :: ps => do
    let file ← SourceFile.load tree p
    let (files, diagnostics) ← loadFiles tree ps
    match file with
    | .ok f => .ok (f :: files, diagnostics)
    | .error fault => .ok (files, fault.diagnostic p :: diagnostics)

/-- The package of a directory, made of the files at some paths. -/
def Package.load [Release] (tree : FileTree) (directory : Path) (paths : List Path) :
    Except LoadStop Loaded := do
  let (files, diagnostics) ← loadFiles tree (Path.sort paths)
  match ModuleName.ofPackage? tree directory.collapsed with
  | none => .error .endless
  | some name => .ok ⟨.ofFiles directory name files, diagnostics⟩

end TypedQueries
