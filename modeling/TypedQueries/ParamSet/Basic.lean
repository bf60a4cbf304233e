import TypedQueries.Text.Basic

/-!
# Parameter sets

The parameters of one query: a class name and the fields in the order of their first occurrence.
Each field records where it occurs and how its value is formatted there.
-/

namespace TypedQueries

/-- One occurrence of a field: its position among the directives and its format. -/
structure Substitution where
  index : Int
  spec : Text
deriving DecidableEq

structure Field where
  name : Text
  typeName : Text
  substitutions : List Substitution
deriving DecidableEq

/-- The parameters of a query, under the name of the class that carries them. -/
structure ParamSet where
  typeName : Text
  fields : List Field
deriving DecidableEq

namespace ParamSet

def occurrenceCount (p : ParamSet) : Nat := (p.fields.flatMap (·.substitutions)).length

end ParamSet

end TypedQueries
