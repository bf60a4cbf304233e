import TypedQueries.FileTree.Path

/-!
# Diagnostics

What the author of a file is told about it.
-/

namespace TypedQueries

inductive Severity where
  | error
  | hint
deriving DecidableEq

def Severity.name : Severity → Text
  | error => "error"
  | hint => "hint"

/-- A diagnostic about a place in a file. Lines and columns count from one; both are zero for a
diagnostic about the file as a whole. -/
structure Diagnostic where
  path : Path
  line : Nat
  column : Nat
  message : Text
  severity : Severity
deriving DecidableEq

namespace Diagnostic

def ofFile (path : Path) (message : Text) : Diagnostic := ⟨path, 0, 0, message, .error⟩

def text (d : Diagnostic) : Text :=
  d.path.text ++ ":" ++ Text.ofNat d.line ++ ":" ++ Text.ofNat d.column ++ ": " ++ d.message

end Diagnostic

end TypedQueries
