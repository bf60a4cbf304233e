import TypedQueries.Source.Token

/-!
# Expressions

What is kept of an expression: the parts that a constant text, a type or the target of an
assignment can be made of. All else is one and the same.
-/

namespace TypedQueries.Source

inductive Expr where
  /-- One or several string literals in a row, none of them formatted. -/
  | text (value : Text)
  /-- A name and where it stands. -/
  | name (w : Text) (start : Position)
  | attribute (value : Expr) (field : Text)
  | sum (left right : Expr)
  /-- A call and its positional arguments, starred ones included. -/
  | call (function : Expr) (arguments : List Expr)
  | subscript (value : Expr)
  | tuple (elements : List Expr)
  | list (elements : List Expr)
  | starred (value : Expr)
  | other

namespace Expr

def isStarred : Expr → Bool
  | starred _ => true
  | _ => false

end Expr

inductive Target where
  /-- A name and where it stands. -/
  | name (w : Text) (start : Position)
  /-- An attribute or an element of something. -/
  | place
  /-- A pattern, whose names are given. -/
  | pattern (names : List Text)
deriving DecidableEq

namespace Target

def names : Target → List Text
  | name w _ => [w]
  | place => []
  | pattern ns => ns

mutual

/-- The target that an expression is, if it is one. -/
def ofExpr? : Expr → Option Target
  | .name w p => some (name w p)
  | .attribute _ _ => some place
  | .subscript _ => some place
  | .tuple es => (namesOf? es).map pattern
  | .list es => (namesOf? es).map pattern
  | .starred e => (ofExpr? e).map fun t => pattern t.names
  | _ => none

/-- The names in the parts of a pattern, provided that these are targets. -/
def namesOf? : List Expr → Option (List Text)
  | [] => some []
  | e :: es => do
    let t ← ofExpr? e
    let rest ← namesOf? es
    some (t.names ++ rest)

end

/-- The target of an assignment with an annotation or an operator: a name or a place. -/
def single? (e : Expr) : Option Target :=
  match e with
  | .name w p => some (name w p)
  | .attribute _ _ => some place
  | .subscript _ => some place
  | _ => none

mutual

def isDeletable : Expr → Bool
  | .name .. => true
  | .attribute .. => true
  | .subscript _ => true
  | .tuple es => areDeletable es
  | .list es => areDeletable es
  | _ => false

def areDeletable : List Expr → Bool
  | [] => true
  | e :: es => isDeletable e && areDeletable es

end

end Target

end TypedQueries.Source
