import TypedQueries.Text.Basic

/-!
# Quoting in ASCII

Text between double quotes in which every character other than a printable ASCII one is written
as an escape. A character beyond U+FFFF is written as two escapes, its high and its low half.
-/

namespace TypedQueries.Text.AsciiQuoted

def unit (n : Nat) : Text := '\\' :: 'u' :: hex 4 n

def encodeChar (c : Char) : Text :=
  if c = '"' then ['\\', '"']
  else if c = '\\' then ['\\', '\\']
  else if c = '\n' then ['\\', 'n']
  else if c = '\r' then ['\\', 'r']
  else if c = '\t' then ['\\', 't']
  else if c.toNat = 8 then ['\\', 'b']
  else if c.toNat = 12 then ['\\', 'f']
  else if 32 ≤ c.toNat && c.toNat ≤ 126 then [c]
  else if c.toNat < 0x10000 then unit c.toNat
  else
    let n := c.toNat - 0x10000
    unit (0xd800 + n / 0x400) ++ unit (0xdc00 + n % 0x400)

def encode (t : Text) : Text := '"' :: t.flatMap encodeChar ++ ['"']

end TypedQueries.Text.AsciiQuoted
