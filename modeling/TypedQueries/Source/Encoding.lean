import TypedQueries.Source.Release
import TypedQueries.Text.Digit
import TypedQueries.Text.Utf8

/-!
# The encoding of a file

A file read as bytes says how it is encoded: by a byte order mark, or by a comment on one of its
first two lines, of which the second counts only when the first holds nothing but a comment. What
says nothing is in UTF-8, and then a byte that belongs to no character is a matter of whoever comes
upon it. Three encodings are known by several names each; others come with the release.
-/

namespace TypedQueries.Source

inductive Encoding where
  /-- UTF-8 with bytes in between that belong to no character. -/
  | lenient
  | utf8
  | latin1
  | ascii
  | other (name : Text)
deriving DecidableEq

namespace Encoding

def byteOrderMark : Bytes := [0xef, 0xbb, 0xbf]

def widen (bs : Bytes) : Text := bs.map fun b => Char.ofNat b.toNat

/-- Whether a character may stand before a comment on its line. -/
def isMargin (c : Char) : Bool := c = ' ' || c = '\t' || c = '\x0c'

def isNamePart (c : Char) : Bool :=
  Text.isAsciiLetter c || Text.isAsciiDigit c || c = '-' || c = '_' || c = '.'

/-- The name of an encoding in a comment: what stands after the first word for it that a colon or
an equals sign follows. -/
def nameIn? : Text → Option Text
  | [] => none
  | c :: r =>
    let mark : Text := "coding"
    let after := (c :: r).drop mark.length
    if mark.isPrefixOf (c :: r) && (after.head? = some ':' || after.head? = some '=') then
      match ((after.drop 1).dropWhile fun d => d = ' ' || d = '\t').takeWhile isNamePart with
      | [] => nameIn? r
      | name => some name
    else nameIn? r

def nameOnLine? (line : Text) : Option Text :=
  match line.dropWhile isMargin with
  | '#' :: r => nameIn? ('#' :: r)
  | _ => none

/-- Whether a line holds nothing but blanks or a comment. -/
def isBare (line : Text) : Bool :=
  match line.dropWhile isMargin with
  | [] => true
  | c :: _ => c = '#'

/-- The name of an encoding on the first two lines. -/
def declared? (t : Text) : Option Text :=
  match Text.splitOn '\n' t with
  | first :: second :: _ =>
    match nameOnLine? first with
    | some name => some name
    | none => if isBare first then nameOnLine? second else none
  | [first] => nameOnLine? first
  | [] => none

def plain (name : Text) : Text :=
  name.map fun c =>
    if c = '_' then '-' else if 'A' ≤ c && c ≤ 'Z' then Char.ofNat (c.toNat + 32) else c

def isVariant (name base : Text) : Bool := name = base || (base ++ ['-']).isPrefixOf name

/-- Whether a name is the usual one of UTF-8; only such a name agrees with a byte order mark. -/
def isUtf8Name (name : Text) : Bool := isVariant ((plain name).take 12) "utf-8"

def aliases : List (Encoding × List Text) :=
  [(.utf8, ["utf8", "utf", "u8", "utf8-ucs2", "utf8-ucs4", "cp65001"]),
   (.latin1,
    ["latin1", "latin", "l1", "iso8859-1", "iso8859", "8859", "cp819", "iso-8859-1-1987",
     "iso-ir-100", "ibm819", "csisolatin1"]),
   (.ascii,
    ["ascii", "us-ascii", "646", "us", "ansi-x3.4-1968", "ansi-x3.4-1986", "cp367",
     "csascii", "ibm367", "iso646-us", "iso-646.irv-1991", "iso-ir-6"])]

def ofName (name : Text) : Encoding :=
  let p := plain name
  if isUtf8Name name then lenient
  else if ["latin-1", "iso-8859-1", "iso-latin-1"].any fun base => isVariant p base then latin1
  else
    match aliases.find? fun (_, names) => names.contains p with
    | some (e, _) => e
    | none => other name

/-- The encoding of a file, given what follows its byte order mark. -/
def ofBody (body : Bytes) : Encoding :=
  match declared? (Text.unifyLineEnds (widen body)) with
  | none => lenient
  | some name => ofName name

/-- Bytes with a single line feed for each end of a line. -/
def unifyLineEnds : Bytes → Bytes
  | [] => []
  | b :: r =>
    if b ≠ carriageReturn then b :: unifyLineEnds r
    else if r.head? = some lineFeed then unifyLineEnds r
    else lineFeed :: unifyLineEnds r

variable [Release]

/-- The text of bytes, with a line feed at the end of each line. An encoding of the release is not
asked where the lines end, and its text ends before the first null character. -/
def decode? (e : Encoding) (bs : Bytes) : Option Text :=
  match e with
  | lenient => some (Text.unifyLineEnds ((Text.Utf8.pieces bs).map (·.1)))
  | utf8 => (Text.Utf8.decode bs).toOption.map Text.unifyLineEnds
  | latin1 => some (Text.unifyLineEnds (widen bs))
  | ascii => if bs.all (· < 0x80) then some (Text.unifyLineEnds (widen bs)) else none
  | other name =>
    (Release.decode? name (unifyLineEnds bs)).map fun t => t.takeWhile (· ≠ '\x00')

/-- The text of a file; none when it cannot be decoded, or when it has a byte order mark and says
to be in another encoding. -/
def decodeFile? (bs : Bytes) : Option Text :=
  if byteOrderMark.isPrefixOf bs then
    let body := bs.drop byteOrderMark.length
    if ofBody body = lenient then lenient.decode? body else none
  else (ofBody bs).decode? bs

end Encoding

end TypedQueries.Source
