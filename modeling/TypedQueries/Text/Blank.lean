import TypedQueries.Text.Range

/-!
# Blank characters

The 29 characters that count as white space: the controls U+0009 to U+000D and U+001C to U+001F,
the next-line control and the space separators of Unicode.
-/

namespace TypedQueries.Text

def blankRanges : List (Nat × Nat) :=
  [(0x9, 0xd), (0x1c, 0x20), (0x85, 0x85), (0xa0, 0xa0), (0x1680, 0x1680), (0x2000, 0x200a),
   (0x2028, 0x2029), (0x202f, 0x202f), (0x205f, 0x205f), (0x3000, 0x3000)]

def isBlank (c : Char) : Bool := inRanges blankRanges c

def trim (blank : Char → Bool) (t : List Char) : List Char :=
  ((t.dropWhile blank).reverse.dropWhile blank).reverse

end TypedQueries.Text
