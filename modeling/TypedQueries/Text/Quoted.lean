import TypedQueries.Text.CodePoint
import TypedQueries.Text.Printable

/-!
# Quoting for messages

Text shown in a message stands between single quotes, or between double quotes when it holds a
single quote and no double one. Printable characters are shown as they are; of the others the
line feed, the carriage return and the tabulator have short escapes and the rest are written with
two, four or eight hexadecimal digits.
-/

namespace TypedQueries.Text.Quoted

def quote (t : Text) : Char := if t.contains '\'' && !t.contains '"' then '"' else '\''

def encodeChar (q c : Char) : Text :=
  if c = q || c = '\\' then ['\\', c]
  else if c = '\n' then ['\\', 'n']
  else if c = '\r' then ['\\', 'r']
  else if c = '\t' then ['\\', 't']
  else if isPrintable c then [c]
  else if c.toNat < 0x100 then '\\' :: 'x' :: hex 2 c.toNat
  else if c.toNat < 0x10000 then '\\' :: 'u' :: hex 4 c.toNat
  else '\\' :: 'U' :: hex 8 c.toNat

def encode (t : Text) : Text :=
  let q := quote t
  q :: t.flatMap (encodeChar q) ++ [q]

/-- The shown form of a text in which halves of surrogate pairs are escaped. -/
def encodeCoded (t : CodedText) : Text :=
  let q := quote t.shown
  let encodePoint : CodePoint → Text
    | .char c => encodeChar q c
    | .half n => CodePoint.halfEscape n
  q :: t.flatMap encodePoint ++ [q]

end TypedQueries.Text.Quoted
