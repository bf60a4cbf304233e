import TypedQueries.Text.Basic

/-!
# Numbers of double precision

A finite number of double precision is a significand below 2^53 times a power of two, so it is kept
exactly. A number is read by rounding its decimal notation to the nearest one, a half to the even
neighbour; it is written with the fewest digits that are read back as the same number.
-/

namespace TypedQueries

inductive Double where
  /-- `significand` times two to the power of `exponent`. -/
  | finite (negative : Bool) (significand : Nat) (exponent : Int)
  | infinite (negative : Bool)
  | nan
deriving DecidableEq

namespace Double

def minExponent : Int := -1074

def maxExponent : Int := 971

def precision : Nat := 53

def zero (negative : Bool) : Double := finite negative 0 minExponent

/-! ### Rounding -/

/-- The integer nearest to a quotient, a half going to the even one. -/
def roundHalfEven (num den : Nat) : Nat :=
  let q := num / den
  let r := num % den
  if 2 * r < den then q else if den < 2 * r then q + 1 else q + q % 2

/-- A quotient divided by a power of a base. -/
def divideByPower (base : Nat) (num den : Nat) : (e : Int) → Nat × Nat
  | .ofNat k => (num, den * Nat.pow base k)
  | .negSucc k => (num * Nat.pow base (k + 1), den)

/-- The greatest power of two that is not above a quotient of positive numbers. -/
def binaryExponent (num den : Nat) : Int :=
  let k : Int := num.log2 - den.log2
  let (n, d) := divideByPower 2 num den k
  if n < d then k - 1 else k

def ofRatio (negative : Bool) (num den : Nat) : Double :=
  if num = 0 then zero negative
  else
    let e := max minExponent (binaryExponent num den - (precision - 1))
    let (n, d) := divideByPower 2 num den e
    let m := roundHalfEven n d
    let (m, e) := if m = Nat.pow 2 precision then (Nat.pow 2 (precision - 1), e + 1) else (m, e)
    if maxExponent < e then infinite negative else finite negative m e

def digitCount (n : Nat) : Nat := (Text.ofNat n).length

/-- The number nearest to `digits` times ten to the power of `exponent`. What is far outside the
range of the finite numbers is told by the count of its digits. -/
def ofScientific (negative : Bool) (digits : Nat) (exponent : Int) : Double :=
  let magnitude := exponent + digitCount digits
  if digits = 0 || magnitude < -330 then zero negative
  else if 310 < magnitude then infinite negative
  else
    let (num, den) := divideByPower 10 digits 1 (-exponent)
    ofRatio negative num den

/-- The absolute value of a finite number as a quotient. -/
def ratio? : Double → Option (Nat × Nat)
  | finite _ m e => some (divideByPower 2 m 1 (-e))
  | _ => none

/-- The sum of two numbers that are not negative. -/
def add (a b : Double) : Double :=
  match a.ratio?, b.ratio? with
  | some (n, d), some (n', d') => ofRatio false (n * d' + n' * d) (d * d')
  | _, _ => infinite false

def scale (factor : Nat) (a : Double) : Double :=
  match a.ratio? with
  | some (n, d) => ofRatio false (factor * n) d
  | none => a

/-- The number with another sign if `negative` says so. -/
def withSign (negative : Bool) : Double → Double
  | finite _ m e => finite negative m e
  | infinite _ => infinite negative
  | nan => nan

def truncate? : Double → Option Int
  | finite negative m e =>
    let (n, d) := divideByPower 2 m 1 (-e)
    some (if negative then -(n / d : Nat) else (n / d : Nat))
  | _ => none

/-! ### Shortest decimal notation -/

/-- A finite positive number on a decimal grid: the number and the ends of the interval of what is
rounded to it, all in units of `1 / unit` steps of the grid. -/
structure OnGrid where
  value : Nat
  low : Nat
  high : Nat
  unit : Nat
  /-- Whether the ends belong to the interval. -/
  closed : Bool

/-- A number on the grid of the multiples of ten to the power of `k`. A power of two is nearer to
the number below it than to the one above. -/
def onGrid (m : Nat) (e k : Int) : OnGrid :=
  let (num, den) := divideByPower 2 1 1 (2 - e)
  let (num, den) := divideByPower 10 num den k
  let below := if m = Nat.pow 2 (precision - 1) && minExponent < e then 1 else 2
  ⟨4 * m * num, (4 * m - below) * num, (4 * m + 2) * num, den, m % 2 = 0⟩

/-- Whether what stands `c` steps from zero is rounded to the number. -/
def OnGrid.admits (g : OnGrid) (c : Nat) : Bool :=
  let x := c * g.unit
  if g.closed then g.low ≤ x && x ≤ g.high else g.low < x && x < g.high

/-- The step nearest to the number, of the two next to it, among those that are rounded to it. -/
def OnGrid.nearest? (g : OnGrid) : Option Nat :=
  let c := g.value / g.unit
  let nearest := roundHalfEven g.value g.unit
  let other := if nearest = c then c + 1 else c
  if g.admits nearest then some nearest else if g.admits other then some other else none

def decimalExponent (num den : Nat) : Int :=
  if den ≤ num then digitCount (num / den) - 1
  else
    let t := digitCount (den / num)
    if den ≤ num * Nat.pow 10 (t - 1) then 1 - t else -t

/-- The number without its trailing zeros, and their count added to `k`. -/
def dropZeros (digits : Nat) (k : Int) : Nat × Int :=
  let text := Text.ofNat digits
  let zeros := (text.reverse.takeWhile (· = '0')).length
  (digits / Nat.pow 10 zeros, k + zeros)

def maxDigits : Nat := 17

/-- The fewest digits, and the exponent of the last one, that are rounded to a positive number. -/
def shortest (m : Nat) (e : Int) : Nat × Int :=
  let (num, den) := divideByPower 2 m 1 (-e)
  let first := decimalExponent num den
  let hit := (List.range maxDigits).findSome? fun (n : Nat) =>
    (onGrid m e (first - n)).nearest?.map fun c => dropZeros c (first - n)
  hit.getD (0, 0)

/-- The greatest count of digits before the point in positional notation. -/
def maxWhole : Int := 16

/-- The greatest count of zeros between the point and the first digit in positional notation. -/
def maxLeadingZeros : Int := 3

/-- An exponent with its sign and two digits at least. -/
def exponentText (x : Int) : Text :=
  let digits := Text.ofNat x.natAbs
  (if x < 0 then '-' else '+') :: List.replicate (2 - digits.length) '0' ++ digits

/-- Digits with a point or an exponent; `whole` of them stand before the point. -/
def place (digits : Text) (whole : Int) : Text :=
  if whole < -maxLeadingZeros || maxWhole < whole then
    let fraction := digits.drop 1
    digits.take 1 ++ (if fraction = [] then [] else '.' :: fraction) ++ 'e' ::
      exponentText (whole - 1)
  else if whole ≤ 0 then "0." ++ List.replicate whole.natAbs '0' ++ digits
  else
    let n := whole.toNat
    let fraction := digits.drop n
    digits.take n ++ List.replicate (n - digits.length) '0' ++ '.' ::
      (if fraction = [] then ['0'] else fraction)

def text : Double → Text
  | nan => "nan"
  | infinite negative => if negative then "-inf" else "inf"
  | finite negative m e =>
    let magnitude : Text :=
      if m = 0 then "0.0"
      else
        let (digits, k) := shortest m e
        let digits := Text.ofNat digits
        place digits (digits.length + k)
    if negative then '-' :: magnitude else magnitude

end Double

end TypedQueries
