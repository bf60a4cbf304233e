import TypedQueries.Text.Range
import TypedQueries.Text.Basic

/-!
# Class names

The class of a query's parameters is named after the query. A name in capitals with underscores
is turned into camel case (`USER_QUERY` becomes `UserQuery`); any other name stays as it is.
-/

namespace TypedQueries.ClassName

def isCapital (c : Char) : Bool := 'A' ≤ c && c ≤ 'Z'

/-- Whether a character may stand in a word of a name in capitals. -/
def isWordPart (c : Char) : Bool := isCapital c || Text.isAsciiDigit c

/-- Whether the words after the first are words in capitals; the last may be empty, as after a
trailing underscore. -/
def areWords : List Text → Bool
  | [] => true
  | [w] => w.all isWordPart
  | w :: ws => !w.isEmpty && w.all isWordPart && areWords ws

/-- Whether a name consists of words in capitals and digits with single underscores between them,
the first beginning with a letter. -/
def isCapitalised (name : Text) : Bool :=
  match Text.splitOn '_' name with
  | (c :: first) :: rest => isCapital c && first.all isWordPart && areWords rest
  | _ => false

def small (c : Char) : Char := if isCapital c then Char.ofNat (c.toNat + 32) else c

def camel : Text → Text
  | [] => []
  | c :: r => c :: r.map small

/-- A name without the line feed that may end it. -/
def withoutFinalLineFeed (name : Text) : Text :=
  if name.getLast? = some '\n' then name.dropLast else name

/-- The class name of a query, ending in `suffix`. -/
def ofQuery (name suffix : Text) : Text :=
  if isCapitalised (withoutFinalLineFeed name) then
    (Text.splitOn '_' name).flatMap camel ++ suffix
  else name ++ suffix

end TypedQueries.ClassName
