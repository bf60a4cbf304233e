import TypedQueries.Source.Expr.Basic

/-!
# Statements

What is kept of the statements of a module: bindings of names, imports and expressions. The body
of a compound statement is not kept.
-/

namespace TypedQueries.Source

/-- A module that is imported as a whole. -/
structure ImportedModule where
  /-- Its dotted name. -/
  path : Text
  /-- The name it is given. -/
  boundAs : Option Text
deriving DecidableEq

/-- A name that is imported from a module. -/
structure ImportedName where
  name : Text
  /-- The name it is given. -/
  boundAs : Option Text
deriving DecidableEq

/-- What a statement does, as far as it is kept. -/
inductive StatementKind where
  /-- An assignment to one or several targets. -/
  | assign (targets : List Target) (value : Expr)
  /-- An assignment, or a mere declaration, with an annotation. -/
  | annotated (target : Target) (declared : Expr) (value : Option Expr)
  /-- An assignment joined with an operator. -/
  | augmented (target : Target)
  | importModules (modules : List ImportedModule)
  /-- An import of names; the import of all names lists none. `level` counts the leading dots. -/
  | importNames (level : Nat) (source : Option Text) (names : List ImportedName)
  | classDefinition (name : Text) (bases : List Expr)
  | functionDefinition (name : Text)
  | expression (e : Expr)
  | other

structure Statement where
  kind : StatementKind
  /-- The line on which it ends. -/
  lastLine : Nat

end TypedQueries.Source
