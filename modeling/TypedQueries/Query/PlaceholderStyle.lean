import TypedQueries.Text.Identifier
import TypedQueries.Text.LowerCase
import TypedQueries.Text.Quoted

/-!
# Placeholder styles

How the n-th argument of a query is written for a database driver. Styles are registered under
names; upper and lower case make no difference in a name.
-/

namespace TypedQueries

/-- The text for the argument at a position; the arguments of a query are counted from one. -/
abbrev Placeholder := Int → Text

namespace Placeholder

/-- The text in which the mark between braces, the letter n, gives way to the position. -/
def ofTemplate : Text → Placeholder
  | '{' :: 'n' :: '}' :: r, n => Text.ofInt n ++ ofTemplate r n
  | c :: r, n => c :: ofTemplate r n
  | [], _ => []

end Placeholder

/-- The known styles, each under its name in lower case. -/
structure PlaceholderStyles where
  entries : List (Text × Placeholder)

namespace PlaceholderStyles

inductive Error where
  /-- The name of a new style is no identifier. -/
  | notIdentifier (name : Option Text)
  /-- No style has the name. -/
  | unknown (name : Option Text) (known : List Text)
deriving DecidableEq

/-- The wording of a fault; the name that is missing altogether is shown as `None`. -/
def Error.message : Error → Text
  | .notIdentifier name =>
    "bind var style name must be an identifier, got " ++
      (match name with
        | some n => Text.Quoted.encode n
        | none => "None")
  | .unknown name known =>
    "Unknown bind var style '" ++ name.getD "None" ++ "'. Available: " ++ Text.join ", " known

def builtin : PlaceholderStyles :=
  ⟨[("postgres", fun n => '$' :: Text.ofInt n),
    ("simple", fun _ => ['?']),
    ("sqlserver", fun n => '@' :: 'p' :: Text.ofInt n),
    ("oracle", fun n => ':' :: Text.ofInt n)]⟩

def key (name : Option Text) : Text := Text.lower (name.getD [])

def names (s : PlaceholderStyles) : List Text := Text.sort (s.entries.map (·.1))

/-- Adds a style or replaces the one of that name. -/
def register (s : PlaceholderStyles) (name : Option Text) (p : Placeholder) :
    Except Error PlaceholderStyles :=
  if Text.isIdentifier (key name) then
    .ok ⟨(key name, p) :: s.entries.filter fun (k, _) => k ≠ key name⟩
  else .error (.notIdentifier name)

def get (s : PlaceholderStyles) (name : Option Text) : Except Error Placeholder :=
  match s.entries.lookup (key name) with
  | some p => .ok p
  | none => .error (.unknown name s.names)

end PlaceholderStyles

end TypedQueries
