import TypedQueries.ErrorKind
import TypedQueries.Text.Integer
import TypedQueries.Value.Moment

/-!
# Faults of documents

Why a document has no value. Most faults are of one kind, a document that is not well formed; the
others lie in single scalars.
-/

namespace TypedQueries.Yaml

inductive Fault where
  | malformed
  /-- An escape beyond the last code point. -/
  | noCodePoint (number : Nat)
  | noNumeral (text : Text) (base : Nat)
  | noInteger (fault : Text.IntegerFault)
  | noFloat (text : Text)
  | noTruthValue (text : Text)
  /-- A number without any characters. -/
  | emptyNumber
  | noMoment (fault : CalendarFault)
deriving DecidableEq

/-- The least number that is too large for a code point to be looked for. -/
def hugeNumber : Nat := Nat.pow 2 31

def Fault.kind : Fault → ErrorKind
  | malformed => .document
  | noCodePoint n => if n < hugeNumber then .value else .overflow
  | noTruthValue _ => .key
  | emptyNumber => .position
  | noNumeral _ _ => .value
  | noInteger _ => .value
  | noFloat _ => .value
  | noMoment _ => .value

def Fault.message : Fault → Text
  | malformed => "invalid YAML"
  | noCodePoint n =>
    if n < hugeNumber then "chr() arg not in range(0x110000)"
    else "Python int too large to convert to C int"
  | noNumeral t base =>
    "invalid literal for int() with base " ++ Text.ofNat base ++ ": " ++
      (Text.Quoted.encode t).take Text.Integer.shownLength
  | noInteger fault => fault.message
  | noFloat t => "could not convert string to float: " ++ Text.Quoted.encode t
  | noTruthValue t => t
  | emptyNumber => "string index out of range"
  | noMoment fault => fault.message

end TypedQueries.Yaml
