import TypedQueries.Text.Basic
import TypedQueries.Text.Blank
import TypedQueries.Text.Digit
import TypedQueries.Text.Alphanumeric
import TypedQueries.Text.CaseVariant

/-!
# Patterns for names

Which names belong to queries is said by a regular expression over characters. A pattern is
matched by following all ways at once: it leads from a position in the text to a set of positions,
and the text matches when its end can be reached from its beginning.
-/

namespace TypedQueries

inductive CharClass where
  | digit
  | space
  | word
deriving DecidableEq

def CharClass.contains (c : Char) : CharClass → Bool
  | digit => Text.isDigit c
  | space => Text.isBlank c
  | word => Text.isAlphanumeric c || c = '_'

inductive CharSetPart where
  | range (first last : Char)
  | class_ (k : CharClass)
  | notClass (k : CharClass)
deriving DecidableEq

/-- Whether a character belongs to a part of a set, upper and lower case making no difference if
`fold` says so. -/
def CharSetPart.contains (fold : Bool) (c : Char) : CharSetPart → Bool
  | range a b => (if fold then Text.caseVariants c else [c]).any fun d => a ≤ d && d ≤ b
  | class_ k => k.contains c
  | notClass k => !k.contains c

structure CharSet where
  parts : List CharSetPart
  /-- Whether the set is that of the characters in no part. -/
  negated : Bool
  /-- Whether upper and lower case make no difference. -/
  fold : Bool
deriving DecidableEq

namespace CharSet

def contains (s : CharSet) (c : Char) : Bool := s.parts.any (·.contains s.fold c) != s.negated

def single (fold : Bool) (c : Char) : CharSet := ⟨[.range c c], false, fold⟩

/-- The set of all characters, or of all but the line feed. -/
def dot (all : Bool) : CharSet := ⟨if all then [] else [.range '\n' '\n'], true, false⟩

end CharSet

/-- A condition on a position in a text. -/
inductive Boundary where
  | start
  /-- The end, or just before a line feed at the end. -/
  | finish
  | lineStart
  | lineFinish
  /-- The very end. -/
  | absoluteFinish
  | wordEdge
  | noWordEdge
deriving DecidableEq

namespace Boundary

def isWordAt (t : Text) (i : Nat) : Bool := t[i]?.any (CharClass.contains · .word)

def isEdge (t : Text) (i : Nat) : Bool := (0 < i && isWordAt t (i - 1)) != isWordAt t i

def holds (t : Text) (i : Nat) : Boundary → Bool
  | start => i = 0
  | finish => i = t.length || (i + 1 = t.length && t[i]? = some '\n')
  | lineStart => i = 0 || t[i - 1]? = some '\n'
  | lineFinish => i = t.length || t[i]? = some '\n'
  | absoluteFinish => i = t.length
  | wordEdge => isEdge t i
  | noWordEdge => !isEdge t i

end Boundary

inductive NamePattern where
  | empty
  | char (s : CharSet)
  | boundary (b : Boundary)
  | append (p q : NamePattern)
  | either (p q : NamePattern)
  /-- A pattern some number of times in a row. -/
  | loop (p : NamePattern) (least : Nat) (most : Option Nat)
  /-- A position at which a pattern matches, or does not. -/
  | look (p : NamePattern) (positive : Bool)
deriving DecidableEq

namespace NamePattern

/-- Where steps from any of some positions lead. -/
def advance (step : Nat → List Nat) (positions : List Nat) : List Nat :=
  (positions.flatMap step).eraseDups

def exactly (step : Nat → List Nat) : (n : Nat) → List Nat → List Nat
  | 0, positions => positions
  | n + 1, positions =>
    if positions.isEmpty then [] else exactly step n (advance step positions)

def atMost (step : Nat → List Nat) : (n : Nat) → List Nat → List Nat
  | 0, positions => positions
  | n + 1, positions =>
    if positions.isEmpty then []
    else (positions ++ atMost step n (advance step positions)).eraseDups

/-- The positions that a pattern leads to from a position in a text. Where no limit is set, one
repetition for each character of the text is enough. -/
def ends (t : Text) : NamePattern → Nat → List Nat
  | empty, i => [i]
  | char s, i => if t[i]?.any s.contains then [i + 1] else []
  | boundary b, i => if b.holds t i then [i] else []
  | append p q, i => advance (ends t q) (ends t p i)
  | either p q, i => (ends t p i ++ ends t q i).eraseDups
  | loop p least most, i =>
    let limit :=
      match most with
      | some m => min (m - least) t.length
      | none => t.length
    atMost (ends t p) limit (exactly (ends t p) least [i])
  | look p positive, i => if (ends t p i).isEmpty != positive then [i] else []

def matchesAll (p : NamePattern) (t : Text) : Bool := (p.ends t 0).contains t.length

end NamePattern

end TypedQueries
