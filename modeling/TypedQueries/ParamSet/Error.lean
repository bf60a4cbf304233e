import TypedQueries.Text.Basic

/-!
# Ill-formed directives

The faults that keep a query from having a parameter set, their codes and their wording.
-/

namespace TypedQueries

inductive DirectiveError where
  /-- A field begins with the wildcard. -/
  | firstOccurrenceRequiresType (field : Text)
  /-- A field is given two types. -/
  | typeConflict (field firstType otherType : Text)
  /-- A type is not known under its name. -/
  | unresolvedType (field typeName : Text)
  /-- A name given as a type is something else. -/
  | notAType (field typeName : Text)
  /-- A type has no format of its own. -/
  | unformattableType (field typeName : Text)
deriving DecidableEq

namespace DirectiveError

def field : DirectiveError → Text
  | firstOccurrenceRequiresType f => f
  | typeConflict f _ _ => f
  | unresolvedType f _ => f
  | notAType f _ => f
  | unformattableType f _ => f

def code : DirectiveError → Text
  | firstOccurrenceRequiresType .. => "QUERYGEN_FIRST_OCCURRENCE_REQUIRES_TYPE"
  | typeConflict .. => "QUERYGEN_TYPE_CONFLICT"
  | unresolvedType .. => "QUERYGEN_UNRESOLVED_TYPE"
  | notAType .. => "QUERYGEN_NOT_A_TYPE"
  | unformattableType .. => "QUERYGEN_UNFORMATTABLE_TYPE"

def message : DirectiveError → Text
  | firstOccurrenceRequiresType f => "first interpolation of " ++ f ++ " must specify type"
  | typeConflict f a b => "field " ++ f ++ " used with distinct types: " ++ a ++ " and " ++ b
  | unresolvedType f t =>
    "failed name lookup for type " ++ t ++ " of interpolation variable " ++ f
  | notAType _ t => "expected named type after first ':' but found non-type " ++ t
  | unformattableType _ t => "cannot automatically format type: " ++ t

def formatHint : Text :=
  "you can specify a custom format specifier using \x7b\x7bfieldName : type : %d\x7d\x7d syntax"

/-- What the author can do about a fault, if there is a standard advice. -/
def remediation? : DirectiveError → Option Text
  | unformattableType .. => some formatHint
  | _ => none

/-- A longer explanation, for the faults that have one. -/
def detail? : DirectiveError → Option Text
  | unformattableType f t =>
    some ("cannot handle type " ++ t ++ " of interpolation variable " ++ f ++
      "; it should be a basic type (int, str) or have a basic type as its underlying type")
  | _ => none

end DirectiveError

end TypedQueries
