import TypedQueries.Found
import TypedQueries.Source.Release
import TypedQueries.Text.Digit

/-!
# String literals

A literal has up to two letters before its quotes, which say whether it is a text, bytes or a
formatted string and whether backslashes are taken as they are. The quotes are single or triple;
only a literal between triple quotes may hold line feeds. A backslash keeps the character after it
from ending the literal even where it does not begin an escape.
-/

namespace TypedQueries.Source

inductive LiteralKind where
  | text
  | bytes
  | formatted
deriving DecidableEq

structure Literal where
  kind : LiteralKind
  /-- Whether backslashes are taken as they are. -/
  raw : Bool
  /-- What stands between the quotes. -/
  body : Text
deriving DecidableEq

namespace Literal

/-- The letters that may stand before the quotes, in lower case, and what they say. -/
def marks : List ((LiteralKind × Bool) × Text) :=
  [((.text, false), ""), ((.text, false), "u"), ((.text, true), "r"), ((.bytes, false), "b"),
   ((.bytes, true), "rb"), ((.bytes, true), "br"), ((.formatted, false), "f"),
   ((.formatted, true), "rf"), ((.formatted, true), "fr")]

def small (c : Char) : Char := if 'A' ≤ c && c ≤ 'Z' then Char.ofNat (c.toNat + 32) else c

def isQuote (c : Char) : Bool := c = '"' || c = '\''

structure Opening where
  kind : LiteralKind
  raw : Bool
  quote : Char
  triple : Bool

def opening? (t : Text) : Option (Opening × Text) := do
  let ((kind, raw), _) ←
    marks.find? fun (_, letters) => (t.takeWhile Text.isAsciiLetter).map small = letters
  match t.dropWhile Text.isAsciiLetter with
  | q :: r =>
    if isQuote q then
      match r with
      | a :: b :: r' =>
        if a = q && b = q then some (⟨kind, raw, q, true⟩, r')
        else some (⟨kind, raw, q, false⟩, r)
      | _ => some (⟨kind, raw, q, false⟩, r)
    else none
  | [] => none

/-- What stands before the closing quotes, and what stands after them. -/
def readBody? (quote : Char) (triple : Bool) : Text → Option (Text × Text)
  | [] => none
  | c :: r =>
    if c = quote then
      if !triple then some ([], r)
      else if [quote, quote].isPrefixOf r then some ([], r.drop 2)
      else (readBody? quote triple r).map fun (body, rest) => (c :: body, rest)
    else if c = '\\' then
      match r with
      | e :: r' => (readBody? quote triple r').map fun (body, rest) => (c :: e :: body, rest)
      | [] => none
    else if c = '\n' && !triple then none
    else (readBody? quote triple r).map fun (body, rest) => (c :: body, rest)

/-! ### Escapes -/

def letterEscapes : List (Char × Char) :=
  [('\\', '\\'), ('\'', '\''), ('"', '"'), ('a', '\x07'), ('b', '\x08'), ('f', '\x0c'),
   ('n', '\n'), ('r', '\r'), ('t', '\t'), ('v', '\x0b')]

def readHex? (n : Nat) : (count : Nat) → (t : Text) → Option (Reached Nat t)
  | 0, t => some (.none n t)
  | _ + 1, [] => none
  | count + 1, c :: r => do
    let d ← Text.hexValue? c
    let ⟨v, rest, h⟩ ← readHex? (16 * n + d) count r
    some ⟨v, rest, Nat.le_succ_of_le h⟩

def isOctalDigit (c : Char) : Bool := '0' ≤ c && c ≤ '7'

def readOctal (n : Nat) : (count : Nat) → (t : Text) → Reached Nat t
  | count + 1, c :: r =>
    if isOctalDigit c then
      let ⟨v, rest, h⟩ := readOctal (8 * n + (c.toNat - 48)) count r
      ⟨v, rest, Nat.le_succ_of_le h⟩
    else .none n (c :: r)
  | _, t => .none n t

/-- How many hexadecimal digits follow a letter in an escape; in bytes there are two at most. -/
def hexCount? (bytes : Bool) (c : Char) : Option Nat :=
  if c = 'x' then some 2
  else if bytes then none
  else if c = 'u' then some 4
  else if c = 'U' then some 8
  else none

def readName? (t : Text) : Option (Reached Text t) :=
  match t with
  | [] => none
  | c :: r =>
    if c = '\x7b' then
      match Reached.while (fun d : Char => d ≠ '\x7d') r with
      | ⟨name, _ :: rest, h⟩ => some ⟨name, rest, Nat.le_succ_of_le (Nat.le_of_succ_le h)⟩
      | ⟨_, [], _⟩ => none
    else none

section
variable [CharacterNames]

/-- What an escape after its backslash stands for, and the rest. A line feed stands for nothing,
and a character that begins no escape stands for itself after the backslash. -/
def readEscape? (bytes : Bool) : (t : Text) → Option (Found CodedText t)
  | [] => none
  | c :: r =>
    if c = '\n' then some ⟨[], r, Nat.lt_succ_self _⟩
    else
      match letterEscapes.lookup c with
      | some v => some ⟨[.char v], r, Nat.lt_succ_self _⟩
      | none =>
        match hexCount? bytes c with
        | some count => do
          let ⟨n, rest, h⟩ ← readHex? 0 count r
          let v ← CodePoint.ofNat? n
          some ⟨[v], rest, Nat.lt_succ_of_le h⟩
        | none =>
          if isOctalDigit c then do
            let ⟨n, rest, h⟩ := readOctal (c.toNat - 48) 2 r
            some ⟨[.char (Char.ofNat n)], rest, Nat.lt_succ_of_le h⟩
          else if c = 'N' && !bytes then do
            let ⟨name, rest, h⟩ ← readName? r
            let v ← CharacterNames.named? name
            some ⟨[.char v], rest, Nat.lt_succ_of_le h⟩
          else some ⟨[.char '\\', .char c], r, Nat.lt_succ_self _⟩

/-- The text that a text with escapes stands for; none when an escape is malformed. -/
def decode? (bytes : Bool) (t : Text) : Option CodedText :=
  match t with
  | [] => some []
  | c :: r =>
    if c = '\\' then do
      let ⟨v, rest, _h⟩ ← readEscape? bytes r
      let more ← decode? bytes rest
      some (v ++ more)
    else do
      let more ← decode? bytes r
      some (.char c :: more)
termination_by t.length
decreasing_by
  · simp only [List.length_cons]
    omega
  · simp
end

/-- The characters of a text, with those that are taken for halves of surrogate pairs. -/
def standing [Release] (t : CodedText) : Text :=
  t.map fun
    | .char c => c
    | .half n => Release.standIn n

def value? [Release] (l : Literal) : Option Text :=
  if l.kind = .bytes && !l.body.all Text.isAscii then none
  else if l.raw then some l.body
  else (decode? (l.kind = .bytes) l.body).map standing

end Literal

end TypedQueries.Source
