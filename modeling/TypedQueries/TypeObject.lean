import TypedQueries.Text.Basic

/-!
# Type objects

What is known about a name that a directive gives as its type: whether it is a type at all, and
which primitive kind it has or wraps. Only one level is looked through.
-/

namespace TypedQueries

inductive Kind where
  | int
  | string
  | bool
  | float
  | bytes
  | complex
deriving DecidableEq

namespace Kind

def name : Kind → Text
  | int => "int"
  | string => "string"
  | bool => "bool"
  | float => "float"
  | bytes => "bytes"
  | complex => "complex"

/-- The format that a value of this kind gets when the author gives none; other kinds need one. -/
def format? : Kind → Option Text
  | int => some ['%', 'd']
  | string => some ['%', 's']
  | _ => none

end Kind

structure TypeObject where
  name : Text
  isType : Bool
  /-- The kind it has or wraps; none for a type of unknown or composite shape. -/
  underlying : Option Kind
deriving DecidableEq

namespace TypeObject

def ofKind (name : Text) (underlying : Option Kind) : TypeObject := ⟨name, true, underlying⟩

def nonType (name : Text) : TypeObject := ⟨name, false, none⟩

end TypeObject

/-- The names of the types that are always known, with their kinds. -/
def builtinKinds : List (Text × Option Kind) :=
  [("int", some .int), ("str", some .string), ("bool", some .bool), ("float", some .float),
   ("bytes", some .bytes), ("complex", some .complex), ("object", none)]

def builtin? (name : Text) : Option TypeObject :=
  (builtinKinds.lookup name).map (TypeObject.ofKind name)

def builtinKind? (name : Text) : Option Kind := (builtinKinds.lookup name).join

end TypedQueries
