import TypedQueries.Text.Basic

/-!
# The marker of generated classes

Generated classes carry a marker that checks, when the class is made, that both accessors are
there and can be called.
-/

namespace TypedQueries.Marker

/-- What a class binds a name to, as far as the marker cares. -/
inductive Member where
  | method
  | value
deriving DecidableEq

def accessors : List Text := ["format_specifiers", "format_args"]

structure Class where
  name : Text
  members : List (Text × Member)
deriving DecidableEq

structure MissingAccessor where
  className : Text
  accessor : Text
deriving DecidableEq

def MissingAccessor.message (e : MissingAccessor) : Text :=
  e.className ++ " does not implement QueryParams: missing " ++ e.accessor ++ "()"

/-- The class itself, unless an accessor is missing in it or cannot be called; the first such
accessor is named. -/
def mark (c : Class) : Except MissingAccessor Class :=
  match accessors.find? fun a => c.members.lookup a ≠ some .method with
  | some a => .error ⟨c.name, a⟩
  | none => .ok c

/-- Whether instances of a class count as parameter objects: the accessors exist. -/
def Class.isParams (c : Class) : Bool := accessors.all fun a => (c.members.lookup a).isSome

end TypedQueries.Marker
