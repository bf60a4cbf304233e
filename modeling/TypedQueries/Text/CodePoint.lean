import TypedQueries.Text.Basic

/-!
# Code points

A text from outside may hold halves of surrogate pairs, which are code points but no characters.
Such a text can be compared and split, but it has no bytes in UTF-8.
-/

namespace TypedQueries

inductive CodePoint where
  | char (c : Char)
  /-- Half of a surrogate pair, given by its distance from the first one. -/
  | half (offset : Fin 2048)
deriving DecidableEq

/-- A text that may have halves of surrogate pairs in it. -/
abbrev CodedText := List CodePoint

namespace CodePoint

/-- The escape of half of a surrogate pair. -/
def halfEscape (offset : Fin 2048) : Text := '\\' :: 'u' :: Text.hex 4 (0xd800 + offset)

/-- The code point of a number; there is none beyond the last one. -/
def ofNat? (n : Nat) : Option CodePoint :=
  if n.isValidChar then some (char (Char.ofNat n))
  else if h : n - 0xd800 < 2048 then some (half ⟨n - 0xd800, h⟩)
  else none

def isHalf : CodePoint → Bool
  | char _ => false
  | half _ => true

end CodePoint

namespace CodedText

def ofText (t : Text) : CodedText := t.map .char

instance : Coe Text CodedText := ⟨ofText⟩

/-- The text itself when it consists of characters. -/
def toText? : CodedText → Option Text
  | [] => some []
  | .char c :: r => (toText? r).map (c :: ·)
  | .half _ :: _ => none

/-- How a text is shown where halves of surrogate pairs are escaped. -/
def shown (t : CodedText) : Text :=
  t.flatMap fun
    | .char c => [c]
    | .half n => CodePoint.halfEscape n

/-- A text with a character in the place of each half of a surrogate pair. -/
def replaced (t : CodedText) : Text :=
  t.map fun
    | .char c => c
    | .half _ => '\ufffd'

def unlines (lines : List CodedText) : CodedText := lines.flatMap (· ++ ofText ['\n'])

/-- Changes each run of characters by itself; `run` is the one that has begun. -/
def mapRunsFrom (f : Text → Text) (run : Text) : CodedText → CodedText
  | [] => ofText (f run)
  | .char c :: r => mapRunsFrom f (run ++ [c]) r
  | .half n :: r => ofText (f run) ++ .half n :: mapRunsFrom f [] r

def mapRuns (f : Text → Text) (t : CodedText) : CodedText := mapRunsFrom f [] t

def splitLast? (sep : Char) (t : CodedText) : Option (CodedText × CodedText) :=
  match t.reverse.dropWhile (· ≠ .char sep) with
  | [] => none
  | _ :: front => some (front.reverse, (t.reverse.takeWhile (· ≠ .char sep)).reverse)

@[simp] theorem ofText_append (a b : Text) : ofText (a ++ b) = ofText a ++ ofText b :=
  List.map_append

end CodedText

end TypedQueries
