import TypedQueries.Text.CodePoint

/-!
# Releases of the scanned language

In a few places what a source file means depends on the release of the language: on the encodings
and the names of characters that come with it, on the form in which it compares words, and on what
it says about a file that it refuses.
-/

namespace TypedQueries.Source

/-- Where a text is refused, and why. Without a place, line and column are zero. -/
structure Refusal where
  line : Nat
  column : Nat
  message : Text
deriving DecidableEq

class CharacterNames where
  /-- The character of a name. -/
  named? : Text → Option Char

class Release extends CharacterNames where
  /-- The text of bytes in the encoding of a name; none for an unknown name or malformed bytes. -/
  decode? : Text → Bytes → Option Text
  /-- The form in which a word is compared with others. -/
  normalForm : Text → Text
  /-- The character that is taken for half of a surrogate pair in a literal. -/
  standIn : Fin 2048 → Char
  /-- Whether a text with a null character is refused as any malformed one is. -/
  refusesNull : Bool
  /-- How a text that is no module is refused. -/
  refuse : Text → Refusal
  /-- What is said about bytes that are no module. -/
  complain : Bytes → Text

end TypedQueries.Source
