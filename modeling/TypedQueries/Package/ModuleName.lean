import TypedQueries.FileTree.Basic

/-!
# Names of modules

A module is named after its file and the packages around it: the directories above it, as long as
they hold an initial file. The initial file itself bears the name of its package.
-/

namespace TypedQueries.ModuleName

/-- The names of the packages around a directory, whose names are given from the innermost on. The
root lies in itself, so there is no end to the packages when it is one of them. -/
def enclosing? (tree : FileTree) (anchor : Anchor) : (up : List Text) → Option (List Text)
  | [] => if tree.contains ⟨anchor, [Path.initName]⟩ then none else some []
  | w :: up =>
    if tree.contains ⟨anchor, up.reverse ++ [w, Path.initName]⟩ then
      (enclosing? tree anchor up).map (· ++ [w])
    else some []

/-- The name of the module in a file, given by its absolute path. -/
def ofPath? (tree : FileTree) (p : Path) : Option Text := do
  let packages ← enclosing? tree p.anchor p.parts.dropLast.reverse
  let own := if p.name = Path.initName then [] else [p.stem]
  match packages ++ own with
  | [] => some p.parent.name
  | parts => some (Text.join ['.'] parts)

def ofPackage? (tree : FileTree) (directory : Path) : Option Text :=
  ofPath? tree (directory.child Path.initName)

/-- The components of a package with the last `n` of them left out. Leaving out more than there
are counts from the other end: as many are kept as then remain up to the end. -/
def climb (n : Nat) (parts : List Text) : List Text :=
  if n ≤ parts.length then parts.take (parts.length - n)
  else parts.take (2 * parts.length - n)

/-- The module that an import of names in `module` refers to. The level counts leading dots: none
for a name that is complete, one for the package of the module, and one more for each package
further up. -/
def resolveImport (module : Text) (isPackage : Bool) (level : Nat) (source : Option Text) : Text :=
  let source := source.getD []
  if level = 0 then source
  else
    let parts := Text.splitOn '.' module
    let base := climb (level - 1) (if isPackage then parts else parts.dropLast)
    Text.join ['.'] (if source = [] then base else base ++ Text.splitOn '.' source)

end TypedQueries.ModuleName
