import TypedQueries.Text.Basic
import TypedQueries.Text.Digit

/-!
# Format verbs

A verb in a text is a percent sign, any flags, an optional width, an optional precision and a
letter; a doubled percent sign stands for one. Like directives, verbs are read from left to right
and each step is forced.
-/

namespace TypedQueries

inductive FormatPiece where
  /-- A character that belongs to no verb. -/
  | char (c : Char)
  /-- A doubled percent sign. -/
  | percent
  /-- A verb, which takes an argument. -/
  | verb (source : Text)
deriving DecidableEq

namespace FormatPiece

def isFlag (c : Char) : Bool := c = '-' || c = '+' || c = '#' || c = ' ' || c = '0'

def skipPrecision : Text → Text
  | '.' :: c :: r => if Text.isDigit c then r.dropWhile Text.isDigit else '.' :: c :: r
  | t => t

theorem length_skipPrecision_le (t : Text) : (skipPrecision t).length ≤ t.length := by
  unfold skipPrecision
  split
  · rename_i c r
    split
    · have := (List.dropWhile_suffix Text.isDigit (l := r)).length_le
      simp only [List.length_cons]
      omega
    · exact Nat.le_refl _
  · exact Nat.le_refl _

/-- The rest of a text whose head, after a percent sign, completes a verb. -/
def afterVerb? (t : Text) : Option Text :=
  match skipPrecision ((t.dropWhile isFlag).dropWhile Text.isDigit) with
  | c :: rest => if Text.isAsciiLetter c then some rest else none
  | [] => none

/-- The rest of a text that begins with a verb or with a doubled percent sign, and which. -/
def read? : Text → Option (FormatPiece × Text)
  | '%' :: '%' :: r => some (percent, r)
  | '%' :: r =>
    (afterVerb? r).map fun rest => (verb ('%' :: r.take (r.length - rest.length)), rest)
  | _ => none

theorem length_of_afterVerb? {t rest : Text} (h : afterVerb? t = some rest) :
    rest.length < t.length := by
  unfold afterVerb? at h
  have h1 := length_skipPrecision_le ((t.dropWhile isFlag).dropWhile Text.isDigit)
  have h2 := (List.dropWhile_suffix Text.isDigit (l := t.dropWhile isFlag)).length_le
  have h3 := (List.dropWhile_suffix isFlag (l := t)).length_le
  split at h
  · rename_i c r hc
    split at h
    · cases h
      rw [hc, List.length_cons] at h1
      omega
    · cases h
  · cases h

theorem length_of_read? {t rest : Text} {p : FormatPiece} (h : read? t = some (p, rest)) :
    rest.length < t.length := by
  unfold read? at h
  split at h
  · cases h
    simp only [List.length_cons]
    omega
  · obtain ⟨r, hr, he⟩ := Option.map_eq_some_iff.1 h
    cases he
    have := length_of_afterVerb? hr
    simp only [List.length_cons]
    omega
  · cases h

def pieces (t : Text) : List FormatPiece :=
  match _h : read? t with
  | some (p, rest) => p :: pieces rest
  | none =>
    match t with
    | [] => []
    | c :: r => .char c :: pieces r
termination_by t.length
decreasing_by
  · exact length_of_read? ‹_›
  · simp

end FormatPiece

end TypedQueries
