/-!
# Ranges of code points

A character property is a list of closed ranges of code points. The tables hold the characters
from U+0080 on; below that every property is given by a rule of its own.
-/

namespace TypedQueries.Text

def inRanges (ranges : List (Nat × Nat)) (c : Char) : Bool :=
  ranges.any fun (a, b) => a ≤ c.toNat && c.toNat ≤ b

def isAscii (c : Char) : Bool := c.toNat < 128

def isAsciiLetter (c : Char) : Bool := ('a' ≤ c && c ≤ 'z') || ('A' ≤ c && c ≤ 'Z')

def isAsciiDigit (c : Char) : Bool := '0' ≤ c && c ≤ '9'

end TypedQueries.Text
