/-!
# Text

Everything this library reads and writes is a list of characters, so lengths and positions count
code points. Here are the operations that several parts share: joining, splitting at a separator,
trimming a suffix and writing numbers.
-/

namespace TypedQueries

/-- Text is a list of characters. -/
abbrev Text := List Char

instance : Coe String Text := ⟨String.toList⟩

namespace Text

def join (sep : Text) : List Text → Text
  | [] => []
  | [w] => w
  | w :: ws => w ++ sep ++ join sep ws

theorem join_cons_cons (sep w v : Text) (vs : List Text) :
    join sep (w :: v :: vs) = w ++ (sep ++ join sep (v :: vs)) := List.append_assoc ..

def splitOn (sep : Char) : Text → List Text
  | [] => [[]]
  | c :: r =>
    if c = sep then [] :: splitOn sep r
    else
      match splitOn sep r with
      | [] => [[c]]
      | w :: ws => (c :: w) :: ws

theorem splitOn_ne_nil (sep : Char) (t : Text) : splitOn sep t ≠ [] := by
  cases t with
  | nil => simp [splitOn]
  | cons c r =>
    by_cases h : c = sep
    · simp [splitOn, h]
    · simp only [splitOn, if_neg h]
      split <;> simp

/-- Joining undoes splitting at the same separator. -/
theorem join_splitOn (sep : Char) (t : Text) : join [sep] (splitOn sep t) = t := by
  induction t with
  | nil => rfl
  | cons c r ih =>
    have hne := splitOn_ne_nil sep r
    by_cases h : c = sep
    · subst h
      cases hs : splitOn c r with
      | nil => exact absurd hs hne
      | cons w ws =>
        rw [hs] at ih
        simp [splitOn, hs, join, ih]
    · cases hs : splitOn sep r with
      | nil => exact absurd hs hne
      | cons w ws =>
        rw [hs] at ih
        simp only [splitOn, if_neg h, hs]
        cases ws with
        | nil => simpa [join] using ih
        | cons v vs => simpa [join] using ih

def dropEnd (n : Nat) (t : Text) : Text := t.take (t.length - n)

/-- The text split at the last occurrence of `sep`, which belongs to neither part. -/
def splitLast? (sep : Char) (t : Text) : Option (Text × Text) :=
  let pieces := splitOn sep t
  if pieces.length < 2 then none
  else some (join [sep] pieces.dropLast, pieces.getLastD [])

def ofNat (n : Nat) : Text := Nat.toDigits 10 n

def ofInt : Int → Text
  | .ofNat n => ofNat n
  | .negSucc n => '-' :: ofNat (n + 1)

/-- A digit of a number in base 16 or less, in lower case. -/
def hexDigit (n : Nat) : Char := Nat.digitChar n

/-- The last `width` hexadecimal digits of a number. -/
def hex (width n : Nat) : Text :=
  (List.range width).reverse.map fun i => hexDigit (n / Nat.pow 16 i % 16)

def padRight (width : Nat) (t : Text) : Text := t ++ List.replicate (width - t.length) ' '

/-- The text with a single line feed for each end of a line. -/
def unifyLineEnds : Text → Text
  | '\r' :: '\n' :: r => '\n' :: unifyLineEnds r
  | '\r' :: r => '\n' :: unifyLineEnds r
  | c :: r => c :: unifyLineEnds r
  | [] => []

/-- Whether `a` stands before `b` in the order by code points, a prefix first. -/
def isBefore (a b : Text) : Bool := a.lex b fun c d => c.toNat < d.toNat

/-- Order by code points, a prefix first. -/
def atMost (a b : Text) : Bool := !isBefore b a

def sort (ts : List Text) : List Text := ts.mergeSort atMost

end Text

abbrev Bytes := List UInt8

def lineFeed : UInt8 := 0x0a

def carriageReturn : UInt8 := 0x0d

end TypedQueries
