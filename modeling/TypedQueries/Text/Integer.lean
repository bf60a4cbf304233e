import TypedQueries.Text.Blank
import TypedQueries.Text.Digit
import TypedQueries.Text.Quoted

/-!
# Integers in decimal notation

An integer may stand between blanks and have a sign; its digits are of any script, with single
underscores between them.
-/

namespace TypedQueries.Text

inductive IntegerFault where
  | malformed (text : CodedText)
  | tooManyDigits (count : Nat)
deriving DecidableEq

namespace Integer

def maxDigits : Nat := 4300

/-- How many characters of a malformed text are shown. -/
def shownLength : Nat := 200

/-- Whether a character may stand around an integer: all blanks, save those controls that separate
files, groups, records and units. -/
def isMargin (c : Char) : Bool := isBlank c && !(0x1c ≤ c.toNat && c.toNat ≤ 0x1f)

def splitSign : Text → Bool × Text
  | '-' :: r => (true, r)
  | '+' :: r => (false, r)
  | r => (false, r)

def numeral (base : Nat) (n : Nat) (digits : List Nat) : Nat :=
  digits.foldl (fun n d => base * n + d) n

def digits? (t : Text) : Option (List Nat) :=
  let runs := splitOn '_' t
  if runs.all (· ≠ []) then runs.flatten.mapM digitValue? else none

def read (t : Text) : Except IntegerFault Int :=
  let (negative, magnitude) := splitSign (trim isMargin t)
  match digits? magnitude with
  | none => .error (.malformed (CodedText.ofText t))
  | some digits =>
    if maxDigits < digits.length then .error (.tooManyDigits digits.length)
    else
      let n : Int := numeral 10 0 digits
      .ok (if negative then -n else n)

end Integer

def IntegerFault.message : IntegerFault → Text
  | malformed t =>
    "invalid literal for int() with base 10: " ++ (Quoted.encodeCoded t).take Integer.shownLength
  | tooManyDigits n =>
    "Exceeds the limit (" ++ ofNat Integer.maxDigits ++
      " digits) for integer string conversion: value has " ++ ofNat n ++
      " digits; use sys.set_int_max_str_digits() to increase the limit"

end TypedQueries.Text
