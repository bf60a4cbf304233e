import TypedQueries.Text.LowerCase
import TypedQueries.Value.Basic
import TypedQueries.Yaml.Fault
import TypedQueries.Yaml.Node

/-!
# Kinds of scalars

A plain scalar without a tag is of the kind that its form says; every other scalar is of the kind
that its tag says, or a text. The forms are those of the first version of the format, where also
`yes` and `on` are truth values and a leading zero makes a number octal.
-/

namespace TypedQueries.Yaml

inductive Kind where
  | null
  | bool
  | int
  | float
  | timestamp
  | text
  /-- The key of what is to be merged into a mapping. -/
  | merge
  /-- The key of the value that a mapping stands for. -/
  | default
deriving DecidableEq

/-! ### Forms -/

def truthValues : List (Text × Bool) :=
  [("yes", true), ("no", false), ("true", true), ("false", false), ("on", true), ("off", false)]

/-- The text in lower case, in upper case, or in lower case with a first capital, provided that it
is all Latin letters. -/
def casings (t : Text) : List Text :=
  let upper (c : Char) : Char := if 'a' ≤ c && c ≤ 'z' then Char.ofNat (c.toNat - 32) else c
  match t with
  | [] => [[]]
  | c :: r => [c :: r, (c :: r).map upper, upper c :: r]

def isBool (t : Text) : Bool := truthValues.any fun (w, _) => (casings w).contains t

def isNull (t : Text) : Bool := t = [] || t = ['~'] || (casings "null").contains t

/-- Whether a character is a digit of a base up to ten, or an underscore. -/
def isDigitOf (base : Nat) (c : Char) : Bool :=
  c = '_' || ('0'.toNat ≤ c.toNat && c.toNat < '0'.toNat + base)

def isHexDigit (c : Char) : Bool := c = '_' || (Text.hexValue? c).isSome

def isRun (p : Char → Bool) (t : Text) : Bool := t ≠ [] && t.all p

/-- Whether a text is a digit followed by digits and underscores. -/
def isWhole (t : Text) : Bool :=
  match t with
  | c :: r => c ≠ '_' && isDigitOf 10 c && r.all (isDigitOf 10)
  | [] => false

/-- Whether a text is a number below sixty of at most two digits. -/
def isSixtieth : Text → Bool
  | [c] => Text.isAsciiDigit c
  | [c, d] => '0' ≤ c && c ≤ '5' && Text.isAsciiDigit d
  | _ => false

def isInt (t : Text) : Bool :=
  let magnitude := (Text.Integer.splitSign t).2
  match magnitude with
  | ['0'] => true
  | '0' :: 'b' :: r => isRun (isDigitOf 2) r
  | '0' :: 'x' :: r => isRun isHexDigit r
  | '0' :: r => isRun (isDigitOf 8) r
  | _ =>
    match Text.splitOn ':' magnitude with
    | whole :: sixtieths => isWhole whole && sixtieths.all isSixtieth
    | [] => false

def isExponent : Text → Bool
  | [] => true
  | e :: sign :: digits =>
    (e = 'e' || e = 'E') && (sign = '-' || sign = '+') && isRun Text.isAsciiDigit digits
  | _ => false

def isFraction (t : Text) : Bool := isExponent (t.dropWhile (isDigitOf 10))

def isFloat (t : Text) : Bool :=
  let magnitude := (Text.Integer.splitSign t).2
  let whole := magnitude.takeWhile (· ≠ '.')
  match magnitude.dropWhile (· ≠ '.') with
  | [] => false
  | _ :: fraction =>
    if whole = [] then
      (casings "inf").contains fraction ||
        (magnitude = t &&
          ((["nan", "NaN", "NAN"] : List Text).contains fraction ||
            (isWhole (fraction.take 1) && isFraction fraction)))
    else
      (isWhole whole && isFraction fraction) ||
        match Text.splitOn ':' whole with
        | first :: sixtieths =>
          sixtieths ≠ [] && isWhole first && sixtieths.all isSixtieth &&
            fraction.all (isDigitOf 10)
        | [] => false

/-! ### Dates and times -/

/-- The number that one digit, or two if `least` allows, make at the head of a text. -/
def shortNumber? (least most : Nat) (t : Text) : Option (Nat × Text) :=
  let digits := (t.take most).takeWhile Text.isAsciiDigit
  if least ≤ digits.length then
    some (digits.foldl (fun n d => 10 * n + (d.toNat - '0'.toNat)) 0, t.drop digits.length)
  else none

def after? (c : Char) : Text → Option Text
  | d :: r => if d = c then some r else none
  | [] => none

def day? (t : Text) : Option (Date × Text) := do
  let (year, t) ← shortNumber? 4 4 t
  let t ← after? '-' t
  let (month, t) ← shortNumber? 1 2 t
  let t ← after? '-' t
  let (day, t) ← shortNumber? 1 2 t
  some (⟨year, month, day⟩, t)

/-- The microseconds that the digits after a point make. -/
def microseconds (digits : Text) : Nat :=
  let six := digits.take 6
  (six ++ List.replicate (6 - six.length) '0').foldl (fun n d => 10 * n + (d.toNat - '0'.toNat)) 0

/-- A distance from universal time in minutes, if a text is one. -/
def offset? (t : Text) : Option (Option Int) :=
  match t.dropWhile isWhite with
  | [] => if t = [] then some none else none
  | ['Z'] => some (some 0)
  | sign :: r =>
    if sign = '+' || sign = '-' then do
      let (hours, r) ← shortNumber? 1 2 r
      let minutes ←
        (match r with
          | [] => some 0
          | r => do
            let r ← after? ':' r
            let (minutes, r) ← shortNumber? 2 2 r
            if r = [] then some minutes else none : Option Nat)
      let total : Int := 60 * hours + minutes
      some (some (if sign = '-' then -total else total))
    else none

/-- A time after its day, if a text is one. -/
def time? (date : Date) (t : Text) : Option Moment := do
  let t ←
    (match t with
      | 'T' :: r => some r
      | 't' :: r => some r
      | c :: r => if isWhite c then some (r.dropWhile isWhite) else none
      | [] => none : Option Text)
  let (hour, t) ← shortNumber? 1 2 t
  let t ← after? ':' t
  let (minute, t) ← shortNumber? 2 2 t
  let t ← after? ':' t
  let (second, t) ← shortNumber? 2 2 t
  let (fraction, t) :=
    match t with
    | '.' :: r => (r.takeWhile Text.isAsciiDigit, r.dropWhile Text.isAsciiDigit)
    | t => ([], t)
  let offset ← offset? t
  some ⟨date, hour, minute, second, microseconds fraction, offset⟩

/-- The day or the time that a text is, whether or not the calendar has it. -/
def timestamp? (t : Text) : Option (Date ⊕ Moment) := do
  let (date, r) ← day? t
  if r = [] then some (.inl date) else (time? date r).map .inr

/-- How many characters a day has that is written in full. -/
def dayLength : Nat := 10

/-- Whether a text is a day, written in full, or a time. -/
def isTimestamp (t : Text) : Bool :=
  match timestamp? t with
  | some (.inl _) => t.length = dayLength
  | some (.inr _) => true
  | none => false

/-! ### Values -/

/-- The kind that the form of a plain scalar says. -/
def formKind (t : Text) : Kind :=
  if isBool t then .bool
  else if isFloat t then .float
  else if isInt t then .int
  else if t = ['<', '<'] then .merge
  else if isNull t then .null
  else if isTimestamp t then .timestamp
  else if t = ['='] then .default
  else .text

/-- The kind of a plain scalar; with half of a surrogate pair in it, it is a text. -/
def kindOf (t : CodedText) : Kind := (t.toText?.map formKind).getD .text

/-- The kinds by the names in their tags. -/
def kindNames : List (Text × Kind) :=
  [("null", .null), ("bool", .bool), ("int", .int), ("float", .float), ("timestamp", .timestamp),
   ("str", .text), ("merge", .merge), ("value", .default)]

/-- The kind of a scalar; none for a tag that is not known. -/
def scalarKind? (tag : Option Text) (text : CodedText) (plain : Bool) : Option Kind :=
  match tag with
  | none => some (if plain then kindOf text else .text)
  | some ['!'] => some (kindOf text)
  | some tag => (kindNames.find? fun (n, _) => tag = coreTag ++ n).map (·.2)

/-- The number that digits of a base make. -/
def baseNumber (base : Nat) (digits : Text) : Except Fault Nat :=
  let values := digits.map fun c => (Text.hexValue? c).filter (· < base)
  if digits ≠ [] && values.all Option.isSome then
    .ok (Text.Integer.numeral base 0 (values.filterMap id))
  else .error (.noNumeral digits base)

/-- The sum of numbers of which each counts sixty times what the next one does. -/
def sexagesimal (parts : List Int) : Int := parts.foldl (fun n p => 60 * n + p) 0

def intValue (t : Text) : Except Fault Int := do
  let (negative, magnitude) := Text.Integer.splitSign (t.filter (· ≠ '_'))
  let n : Int ←
    (match magnitude with
      | [] => .error .emptyNumber
      | ['0'] => .ok 0
      | '0' :: 'b' :: r => (baseNumber 2 r).map Int.ofNat
      | '0' :: 'x' :: r => (baseNumber 16 r).map Int.ofNat
      | '0' :: r => (baseNumber 8 ('0' :: r)).map Int.ofNat
      | m => do
        let parts ← (Text.splitOn ':' m).mapM fun p => (Text.Integer.read p).mapError .noInteger
        .ok (sexagesimal parts) : Except Fault Int)
  .ok (if negative then -n else n)

def decimal? (t : Text) : Option Double :=
  let (negative, magnitude) := Text.Integer.splitSign t
  let whole := magnitude.takeWhile Text.isAsciiDigit
  let r := magnitude.dropWhile Text.isAsciiDigit
  let (fraction, r) :=
    match r with
    | '.' :: r => (r.takeWhile Text.isAsciiDigit, r.dropWhile Text.isAsciiDigit)
    | r => ([], r)
  let digits := whole ++ fraction
  let number (t : Text) : Nat := t.foldl (fun n d => 10 * n + (d.toNat - '0'.toNat)) 0
  let scaled (e : Int) : Option Double :=
    some (.ofScientific negative (number digits) (e - fraction.length))
  if digits = [] then
    if magnitude = "inf".toList || magnitude = "infinity".toList then some (.infinite negative)
    else if magnitude = "nan".toList then some .nan
    else none
  else
    match r with
    | [] => scaled 0
    | e :: r =>
      let (down, exponent) := Text.Integer.splitSign r
      if (e = 'e' || e = 'E') && isRun Text.isAsciiDigit exponent then
        scaled (if down then -(number exponent : Int) else number exponent)
      else none

def floatValue (t : Text) : Except Fault Double := do
  let part (t : Text) : Except Fault Double :=
    match decimal? t with
    | some d => .ok d
    | none => .error (.noFloat t)
  let (negative, magnitude) := Text.Integer.splitSign (Text.lower (t.filter (· ≠ '_')))
  let d ←
    (if magnitude = [] then .error .emptyNumber
    else if magnitude = ".inf".toList then .ok (.infinite false)
    else if magnitude = ".nan".toList then .ok .nan
    else if magnitude.contains ':' then do
      let parts ← (Text.splitOn ':' magnitude).mapM part
      let scaled := parts.reverse.zipIdx.map fun (p, i) => p.scale (Nat.pow 60 i)
      .ok (scaled.foldl Double.add (.zero false))
    else part magnitude : Except Fault Double)
  .ok (d.withSign negative)

def scalarValue (text : CodedText) (kind : Kind) : Except Fault Value :=
  let t := text.shown
  match kind with
  | .null => .ok .null
  | .bool =>
    match truthValues.lookup (Text.lower t) with
    | some b => .ok (.bool b)
    | none => .error (.noTruthValue (Text.lower t))
  | .int => (intValue t).map .int
  | .float => (floatValue t).map .float
  | .text => .ok (.text text)
  | .timestamp =>
    match timestamp? t with
    | none => .error .malformed
    | some (.inl d) =>
      match d.fault? with
      | some e => .error (.noMoment e)
      | none => .ok (.date d)
    | some (.inr m) =>
      match m.fault? with
      | some e => .error (.noMoment e)
      | none => .ok (.moment m)
  | .merge => .error .malformed
  | .default => .error .malformed

end TypedQueries.Yaml
