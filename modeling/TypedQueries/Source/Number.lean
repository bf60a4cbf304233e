import TypedQueries.Text.Basic
import TypedQueries.Text.Digit
import TypedQueries.Text.Identifier

/-!
# Numbers of the scanned language

Whether a text begins with a number, and where the number ends. The value plays no role. A number
may not run into a name, except into a keyword that can follow an expression, such as in `1if x`.
-/

namespace TypedQueries.Source.Number

/-- Skips digits with single underscores between them, the first digit being required. -/
def skipDigits? (isDigit : Char → Bool) : Text → Option Text
  | c :: '_' :: r => if isDigit c then skipDigits? isDigit r else none
  | c :: r => if isDigit c then some (skipMore r) else none
  | [] => none
where
  /-- Skips further digits; an underscore that no digit follows is left where it is. -/
  skipMore : Text → Text
    | '_' :: c :: r => if isDigit c then skipMore r else '_' :: c :: r
    | c :: r => if isDigit c then skipMore r else c :: r
    | [] => []

/-- The beginnings of keywords that may follow a number at once. -/
def followers : List Text := ["and", "else", "for", "if", "in", "is", "or", "not"]

/-- The text, unless it begins with a character that would continue a word. -/
def ended? (t : Text) : Option Text :=
  match t with
  | [] => some []
  | c :: r =>
    if followers.any fun f => f.isPrefixOf (c :: r) then some t
    else if Text.isIdentifierStart c || Text.isIdentifierPart c || !Text.isAscii c then none
    else some t

def skipExponent? (t : Text) : Option Text :=
  match t with
  | e :: sign :: r =>
    if e = 'e' || e = 'E' then
      if sign = '+' || sign = '-' then skipDigits? Text.isAsciiDigit r
      else if Text.isAsciiDigit sign then skipDigits? Text.isAsciiDigit (sign :: r)
      else some t
    else some t
  | _ => some t

def isImaginaryMark (c : Char) : Bool := c = 'j' || c = 'J'

def skipImaginary : Text → Text
  | c :: r => if isImaginaryMark c then r else c :: r
  | [] => []

def skipFraction? (t : Text) : Option Text := do
  let t ←
    match t with
    | '.' :: c :: r =>
      if Text.isAsciiDigit c then skipDigits? Text.isAsciiDigit (c :: r) else some (c :: r)
    | '.' :: [] => some []
    | t => some t
  let t ← skipExponent? t
  ended? (skipImaginary t)

/-- Whether a text goes on as a number with a fraction, an exponent or an imaginary mark. -/
def goesOn : Text → Bool
  | [] => false
  | c :: _ => c = '.' || c = 'e' || c = 'E' || isImaginaryMark c

/-- Skips a number in base two, eight or sixteen, after its mark. -/
def skipBased? (isDigit : Char → Bool) (t : Text) : Option Text := do
  let t ← match t with
    | '_' :: r => skipDigits? isDigit r
    | t => skipDigits? isDigit t
  match t with
  | c :: _ => if Text.isAsciiDigit c || c = '_' then none else ended? t
  | [] => some []

def isHexDigit (c : Char) : Bool := (Text.hexValue? c).isSome

def skip? (t : Text) : Option Text :=
  match t with
  | '0' :: 'x' :: r => skipBased? isHexDigit r
  | '0' :: 'X' :: r => skipBased? isHexDigit r
  | '0' :: 'o' :: r => skipBased? (fun c => '0' ≤ c && c ≤ '7') r
  | '0' :: 'O' :: r => skipBased? (fun c => '0' ≤ c && c ≤ '7') r
  | '0' :: 'b' :: r => skipBased? (fun c => c = '0' || c = '1') r
  | '0' :: 'B' :: r => skipBased? (fun c => c = '0' || c = '1') r
  | '.' :: _ => skipFraction? t
  | _ => do
    let r ← skipDigits? Text.isAsciiDigit t
    let digits := t.take (t.length - r.length)
    if r.head? = some '_' then none
    -- a number that starts with zero and has another digit needs a fraction or the like
    else if digits.head? = some '0' && digits.any (fun c => '1' ≤ c && c ≤ '9') && !goesOn r then
      none
    else skipFraction? r

end TypedQueries.Source.Number
