import TypedQueries.Source.Encoding
import TypedQueries.Source.Statement.Read

/-!
# The preamble of a companion module

The preamble is what the readers of a companion module may edit: all lines up to the last import,
or up to the end of the text that the module begins with. A preamble is counted in lines of the
module and cut in bytes of the file, where only a line feed ends a line.
-/

namespace TypedQueries.Companion

open Source

/-- The statements of a file, unless it has a null byte in it or cannot be decoded or read. -/
def readStatements? [Release] (contents : Bytes) : Option (List Statement) := do
  if contents.contains 0 then none
  let text ← Encoding.decodeFile? contents
  readLines? text

/-- The line on which the text ends that a module begins with; zero when it begins with something
else. -/
def docstringEnd : List Statement → Nat
  | ⟨.expression (.text _), line⟩ :: _ => line
  | _ => 0

def isImport : Statement → Bool
  | ⟨.importModules _, _⟩ => true
  | ⟨.importNames .., _⟩ => true
  | _ => false

def preambleLines (statements : List Statement) : Nat :=
  ((statements.filter isImport).map Statement.lastLine).foldl max (docstringEnd statements)

/-- How many bytes the first `lines` lines of a file have; all of it when there are fewer. -/
def bytesOfLines : (lines : Nat) → Bytes → Nat
  | 0, _ => 0
  | _ + 1, [] => 0
  | n + 1, b :: r => bytesOfLines (if b = lineFeed then n else n + 1) r + 1

theorem bytesOfLines_le_length (lines : Nat) (bs : Bytes) :
    bytesOfLines lines bs ≤ bs.length := by
  induction bs generalizing lines with
  | nil => cases lines <;> simp [bytesOfLines]
  | cons b r ih =>
    cases lines with
    | zero => simp [bytesOfLines]
    | succ n =>
      simp only [bytesOfLines, List.length_cons]
      exact Nat.succ_le_succ (ih _)

def preambleBytes (statements : List Statement) (contents : Bytes) : Nat :=
  bytesOfLines (preambleLines statements) contents

end TypedQueries.Companion
