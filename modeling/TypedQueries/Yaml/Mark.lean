import TypedQueries.Found
import TypedQueries.Text.Basic
import TypedQueries.Text.Range

/-!
# Marked characters

A document is read as a list of characters that know where they stand, because indentation has a
meaning in it. Lines have been given line feeds for their ends already; three further characters
end a line.
-/

namespace TypedQueries.Yaml

structure Mark where
  char : Char
  /-- How many characters come before it. -/
  index : Nat
  line : Nat
  column : Nat

/-- What takes the place of a character at the end of a document, which cannot hold it. -/
def nul : Char := '\x00'

def nextLine : Char := '\u0085'

/-- The line separator and the paragraph separator, which stay what they are when lines are
joined. -/
def separators : List Char := ['\u2028', '\u2029']

/-- The byte order mark, which takes up no column. -/
def orderMark : Char := '\ufeff'

def isBreak (c : Char) : Bool := c = '\n' || c = nextLine || separators.contains c

def isLineEnd (c : Char) : Bool := isBreak c || c = nul

def isWhite (c : Char) : Bool := c = ' ' || c = '\t'

/-- Whether a word cannot go on with a character. -/
def isGap (c : Char) : Bool := isWhite c || isLineEnd c

def documentRanges : List (Nat × Nat) :=
  [(0x9, 0xa), (0xd, 0xd), (0x20, 0x7e), (0x85, 0x85), (0xa0, 0xd7ff), (0xe000, 0xfffd),
   (0x10000, 0x10ffff)]

def isAdmissible (c : Char) : Bool := Text.inRanges documentRanges c

/-- The characters of a text with their places. -/
def marksFrom (index line column : Nat) : Text → List Mark
  | [] => []
  | c :: r =>
    ⟨c, index, line, column⟩ ::
      (if isBreak c then marksFrom (index + 1) (line + 1) 0 r
      else marksFrom (index + 1) line (if c = orderMark then column else column + 1) r)

def peek : List Mark → Char
  | [] => nul
  | m :: _ => m.char

def plainText (ms : List Mark) : Text := ms.map Mark.char

def charsWhile (p : Char → Bool) (ms : List Mark) : Reached Text ms :=
  let ⟨taken, rest, h⟩ := Reached.while (fun m => p m.char) ms
  ⟨plainText taken, rest, h⟩

/-- The end of a line: what it leaves in a text. The separators leave themselves, all else leaves a
line feed. -/
def lineBreak? : (ms : List Mark) → Option (Found Char ms)
  | [] => none
  | m :: r =>
    if isBreak m.char then
      some ⟨if separators.contains m.char then m.char else '\n', r, Nat.lt_succ_self _⟩
    else none

/-- Whether the first characters mark the beginning or the end of a document, provided that they
stand at the beginning of a line. -/
def isBoundary (indicator : Char) (ms : List Mark) : Bool :=
  plainText (ms.take 3) = List.replicate 3 indicator && isGap (peek (ms.drop 3))

def isAnyBoundary (ms : List Mark) : Bool := isBoundary '-' ms || isBoundary '.' ms

/-- Goes to the next character that is neither a blank nor in a comment nor the end of a line, and
tells whether the end of a line was passed. -/
def toNextToken (ms : List Mark) : Reached Bool ms :=
  let ⟨_, rest, h⟩ := charsWhile (· = ' ') ms
  let ⟨_, rest', h'⟩ :=
    if peek rest = '#' then charsWhile (fun c => !isLineEnd c) rest else .none [] rest
  match lineBreak? rest' with
  | none => ⟨false, rest', Nat.le_trans h' h⟩
  | some ⟨_, after, hb⟩ =>
    have hlt : after.length < ms.length :=
      Nat.lt_of_lt_of_le hb (Nat.le_trans h' h)
    let ⟨_, final, hf⟩ := toNextToken after
    ⟨true, final, Nat.le_trans hf (Nat.le_of_lt hlt)⟩
termination_by ms.length

/-- Reads on when nothing but blanks and a comment is left on a line. -/
def endOfLine? (ms : List Mark) : Option (Reached Unit ms) :=
  let ⟨_, rest, h⟩ := charsWhile (· = ' ') ms
  let ⟨_, rest', h'⟩ :=
    if peek rest = '#' then charsWhile (fun c => !isLineEnd c) rest else .none [] rest
  if isLineEnd (peek rest') then
    match lineBreak? rest' with
    | none => some ⟨(), rest', Nat.le_trans h' h⟩
    | some ⟨_, after, hb⟩ =>
      some ⟨(), after, Nat.le_trans (Nat.le_of_lt hb) (Nat.le_trans h' h)⟩
  else none

end TypedQueries.Yaml
