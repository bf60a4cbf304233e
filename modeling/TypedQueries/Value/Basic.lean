import TypedQueries.Text.Integer
import TypedQueries.Value.Double
import TypedQueries.Value.Moment

/-!
# Values

The values that a document of settings can hold. Each is written as a text by itself, and shown in
another way inside a list or a map, where texts have quotes.
-/

namespace TypedQueries

inductive Value where
  | null
  | bool (b : Bool)
  | int (n : Int)
  | float (d : Double)
  | text (t : CodedText)
  | date (d : Date)
  | moment (m : Moment)
  | list (items : List Value)
  /-- Values under keys, each key once. -/
  | map (entries : List (Value × Value))
deriving Inhabited

namespace Value

/-- How a value that holds no others is shown. -/
def shownSimple : Value → Text
  | null => "None"
  | bool b => if b then "True" else "False"
  | int n => Text.ofInt n
  | float d => d.text
  | text t => Text.Quoted.encodeCoded t
  | date d => d.shown
  | moment m => m.shown
  | list _ => []
  | map _ => []

mutual

/-- How a value is shown inside another one. -/
def shown : Value → Text
  | list items => "[" ++ Text.join ", " (shownItems items) ++ "]"
  | map entries => "\x7b" ++ Text.join ", " (shownEntries entries) ++ "\x7d"
  | v => v.shownSimple

def shownItems : List Value → List Text
  | [] => []
  | v :: vs => v.shown :: shownItems vs

def shownEntries : List (Value × Value) → List Text
  | [] => []
  | (k, v) :: es => (k.shown ++ ": " ++ v.shown) :: shownEntries es

end

def written : Value → CodedText
  | text t => t
  | date d => d.text
  | moment m => m.text
  | v => v.shown

mutual

/-- Whether a value can be written: an integer in it must not have too many digits. -/
def isWritable : Value → Bool
  | int n => n.natAbs < Nat.pow 10 Text.Integer.maxDigits
  | list items => areWritable items
  | map entries => areEntriesWritable entries
  | _ => true

def areWritable : List Value → Bool
  | [] => true
  | v :: vs => v.isWritable && areWritable vs

def areEntriesWritable : List (Value × Value) → Bool
  | [] => true
  | (k, v) :: es => k.isWritable && v.isWritable && areEntriesWritable es

end

def kindName : Value → Text
  | null => "NoneType"
  | bool _ => "bool"
  | int _ => "int"
  | float _ => "float"
  | text _ => "str"
  | date _ => "date"
  | moment _ => "datetime"
  | list _ => "list"
  | map _ => "dict"

def fullKindName : Value → Text
  | date _ => "datetime.date"
  | moment _ => "datetime.datetime"
  | v => v.kindName

/-! ### Values as integers -/

/-- Why a value is no integer. -/
inductive IntFault where
  | notNumeric (kind : Text)
  | notAnInteger (fault : Text.IntegerFault)
  | infinite
  | nan
deriving DecidableEq

def IntFault.message : IntFault → Text
  | notNumeric kind =>
    "int() argument must be a string, a bytes-like object or a real number, not '" ++ kind ++ "'"
  | notAnInteger fault => fault.message
  | infinite => "cannot convert float infinity to integer"
  | nan => "cannot convert float NaN to integer"

/-- The integer that a value stands for; numbers lose their fraction. -/
def toInt : Value → Except IntFault Int
  | int n => .ok n
  | bool b => .ok (if b then 1 else 0)
  | float .nan => .error .nan
  | float d =>
    match d.truncate? with
    | some n => .ok n
    | none => .error .infinite
  | text t =>
    match t.toText? with
    | some t => (Text.Integer.read t).mapError .notAnInteger
    | none => .error (.notAnInteger (.malformed t))
  | v => .error (.notNumeric v.fullKindName)

/-! ### Keys -/

/-- The quotient that a value equals, if it is a finite number; truth values count as numbers. -/
def ratio? : Value → Option (Int × Nat)
  | int n => some (n, 1)
  | bool b => some (if b then 1 else 0, 1)
  | float (.finite negative m e) =>
    ((Double.finite negative m e).ratio?).map fun (n, d) => (if negative then -n else n, d)
  | _ => none

def sameKey : Value → Value → Bool
  | null, null => true
  | text a, text b => a = b
  | date a, date b => a = b
  | moment a, moment b => a = b
  | float (.infinite a), float (.infinite b) => a = b
  | a, b =>
    match a.ratio?, b.ratio? with
    | some (n, d), some (n', d') => n * d' = n' * d
    | _, _ => false

def isKey : Value → Bool
  | list _ => false
  | map _ => false
  | _ => true

/-- The entries with another value under a key, which goes to the end if it is new. -/
def insertEntry (key value : Value) : List (Value × Value) → List (Value × Value)
  | [] => [(key, value)]
  | (k, v) :: es =>
    if sameKey k key then (k, value) :: es else (k, v) :: insertEntry key value es

/-- The map of values under names that differ. -/
def record (entries : List (Text × Value)) : Value := map (entries.map fun (k, v) => (text k, v))

def entry? (name : Text) (entries : List (Value × Value)) : Option Value :=
  (entries.find? fun (k, _) => sameKey k (text name)).map (·.2)

end Value

end TypedQueries
