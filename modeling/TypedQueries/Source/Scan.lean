import TypedQueries.Text.Identifier
import TypedQueries.Text.Utf8
import TypedQueries.Source.Token
import TypedQueries.Source.Number
import TypedQueries.Source.Formatted

/-!
# Scanning

Turns a text into tokens. Outside brackets a line feed ends a logical line, and the indentation of
the next one that is not blank is compared with the indentations in force. Indentation is measured
twice, once with tabulators of width eight and once with tabulators of width one; lines whose
order depends on the width are refused.
-/

namespace TypedQueries.Source

def longSymbols : List (Symbol × Text) :=
  [(.augmented, "**="), (.augmented, "//="), (.augmented, "<<="), (.augmented, ">>="),
   (.ellipsis, "...")]

def doubleSymbols : List (Symbol × Text) :=
  [(.arrow, "->"), (.walrus, ":="), (.augmented, "+="), (.augmented, "-="), (.augmented, "*="),
   (.augmented, "/="), (.augmented, "%="), (.augmented, "@="), (.augmented, "&="),
   (.augmented, "|="), (.augmented, "^="), (.doubleStar, "**"), (.division, "//"),
   (.shift, "<<"), (.shift, ">>"), (.comparison, "=="), (.comparison, "!="),
   (.comparison, "<="), (.comparison, ">=")]

def brackets : List (Symbol × Text) :=
  [(.opening .round, "("), (.closing .round, ")"), (.opening .square, "["),
   (.closing .square, "]"), (.opening .curly, "\x7b"), (.closing .curly, "\x7d")]

def singleSymbols : List (Symbol × Text) :=
  [(.comma, ","), (.colon, ":"), (.semicolon, ";"), (.dot, "."), (.assign, "="), (.plus, "+"),
   (.minus, "-"), (.star, "*"), (.at, "@"), (.tilde, "~"), (.bar, "|"), (.caret, "^"),
   (.ampersand, "&"), (.slash, "/"), (.division, "%"), (.comparison, "<"), (.comparison, ">")]

def symbols : List (Symbol × Text) := longSymbols ++ doubleSymbols ++ brackets ++ singleSymbols

namespace TokenKind

/-- Whether a character may stand in a word. Characters beyond ASCII are taken into the word first
and checked afterwards. -/
def isWordPart (c : Char) : Bool := !Text.isAscii c || Text.isIdentifierPart c

def beginsNumber : Text → Bool
  | '.' :: c :: _ => Text.isAsciiDigit c
  | c :: _ => Text.isAsciiDigit c
  | [] => false

variable [Release]

/-- The form of a word in which it is compared with others; in ASCII there is but one. -/
def wordForm (w : Text) : Text := if w.all Text.isAscii then w else Release.normalForm w

/-- What a word is, provided that it is an identifier. -/
def ofWord? (w : Text) : Option TokenKind :=
  match Keyword.ofWord? w with
  | some k => some (.keyword k)
  | none => if Text.isIdentifier w then some (.word (wordForm w)) else none

def readPlain? (t : Text) : Option (Found (List TokenKind) t) :=
  if beginsNumber t then do
    let rest ← Number.skip? t
    let last := (t.take (t.length - rest.length)).getLast?
    Found.leaving? [.number (last.any Number.isImaginaryMark)] t rest
  else if t.head?.any isWordPart then do
    let k ← ofWord? (t.takeWhile isWordPart)
    Found.leaving? [k] t (t.dropWhile isWordPart)
  else do
    let (s, spelling) ← symbols.find? fun (_, spelling) => spelling.isPrefixOf t
    Found.leaving? [.symbol s] t (t.drop spelling.length)

def isSpace (c : Char) : Bool := c = ' ' || c = '\t' || c = '\x0c'

mutual

/-- What stands at the head of a text, and the rest. A formatted string is followed by the tokens
of its placeholders; anything else is a single token. In a literal every byte has to be read. -/
def read? (t : Text) : Option (Found (List TokenKind) t) :=
  match Literal.opening? t with
  | some (o, r) => do
    let (body, rest) ← Literal.readBody? o.quote o.triple r
    if body.contains Text.Utf8.unreadable then none
    let literal : Literal := ⟨o.kind, o.raw, body⟩
    match o.kind with
    | .text => do
      let v ← literal.value?
      Found.leaving? [.text v] t rest
    | .bytes => do
      let _ ← literal.value?
      Found.leaving? [.bytes] t rest
    | .formatted => do
      let expressions ← Formatted.expressions? o.raw body
      let fields ← expressions.mapM fun e => if _h : e.length < t.length then readAll? e else none
      let placed := fields.flatMap fun ks =>
        .symbol (.opening .field) :: ks ++ [.symbol (.closing .field)]
      Found.leaving? (.formatted :: placed) t rest
  | none => readPlain? t
termination_by 2 * t.length
decreasing_by omega

def readAll? (t : Text) : Option (List TokenKind) :=
  match t with
  | [] => some []
  | c :: r =>
    if isSpace c || c = '\n' then readAll? r
    else do
      let ⟨ks, rest, _h⟩ ← read? (c :: r)
      let more ← readAll? rest
      some (ks ++ more)
termination_by 2 * t.length + 1
decreasing_by
  · simp only [List.length_cons]
    omega
  · omega
  · omega

end

end TokenKind

/-! ### Indentation -/

structure Indentation where
  wide : Nat
  narrow : Nat
deriving DecidableEq

namespace Indentation

/-- The indentation at the head of a text, and the rest. A form feed begins the count anew. A
line that is continued by a backslash keeps the first width, other than zero, that a backslash
was found at. -/
def read? (now : Indentation) (first : Nat) : (t : Text) → Option (Reached Indentation t)
  | [] => some (.none now [])
  | c :: r =>
    let go (now : Indentation) : Option (Reached Indentation (c :: r)) := do
      let ⟨i, rest, h⟩ ← read? now first r
      some ⟨i, rest, Nat.le_succ_of_le h⟩
    if c = ' ' then go ⟨now.wide + 1, now.narrow + 1⟩
    else if c = '\t' then go ⟨(now.wide / 8 + 1) * 8, now.narrow + 1⟩
    else if c = '\x0c' then go ⟨0, 0⟩
    else if c = '\\' then
      match r with
      | d :: r' =>
        if d = '\n' && !r'.isEmpty then do
          let ⟨i, rest, h⟩ ← read? now (if first = 0 then now.wide else first) r'
          some ⟨i, rest, Nat.le_succ_of_le (Nat.le_succ_of_le h)⟩
        else none
      | [] => none
    else some (.none (if first = 0 then now else ⟨first, first⟩) (c :: r))

/-- The most indentations that may be in force. -/
def limit : Nat := 99

/-- The tokens for a line with indentation `i` when those in `stack` are in force, the innermost
first, and the indentations in force afterwards. -/
def enter? (stack : List Indentation) (i : Indentation) :
    Option (List TokenKind × List Indentation) :=
  let top := stack.headD ⟨0, 0⟩
  if top.wide < i.wide then
    if stack.length < limit && top.narrow < i.narrow then some ([.indent], i :: stack) else none
  else
    let kept := stack.dropWhile fun j => i.wide < j.wide
    if kept.headD ⟨0, 0⟩ = i then
      some (List.replicate (stack.length - kept.length) .dedent, kept)
    else none

end Indentation

/-! ### Lines -/

structure Progress where
  position : Position
  /-- How many brackets are open. -/
  depth : Nat
  /-- The indentations in force, the innermost first. -/
  indentations : List Indentation

namespace Progress

def depthLimit : Nat := 200

/-- The progress after the characters that `t` has before its end `rest`. -/
def past (p : Progress) (t rest : Text) : Progress :=
  { p with position := p.position.afterText (t.take (t.length - rest.length)) }

/-- The progress after some tokens; only a bracket changes the depth. -/
def nested? (p : Progress) : List TokenKind → Option Progress
  | [.symbol (.opening _)] =>
    if p.depth < depthLimit then some { p with depth := p.depth + 1 } else none
  | [.symbol (.closing _)] => some { p with depth := p.depth - 1 }
  | _ => some p

end Progress

variable [Release]

mutual

/-- The tokens of a text that begins with a new line. -/
def scanLines? (p : Progress) (t : Text) : Option (List Token) := do
  let ⟨i, r, h⟩ ← Indentation.read? ⟨0, 0⟩ 0 t
  let q := p.past t r
  match r, h with
  | [], _ => some (q.indentations.map fun _ => ⟨.dedent, q.position, q.position.line⟩)
  | c :: r', _h =>
    if c = '\n' then scanLines? (q.past (c :: r') r') r'
    else if c = '#' then
      let ⟨_, r'', _h'⟩ := Reached.while (fun d : Char => d ≠ '\n') r'
      scanLines? (q.past (c :: r') r'') r''
    else
      let (kinds, indentations) ← Indentation.enter? p.indentations i
      let more ← scanRest? { q with indentations } (c :: r')
      some (kinds.map (⟨·, q.position, q.position.line⟩) ++ more)
termination_by 2 * t.length + 1
decreasing_by all_goals simp only [List.length_cons] at *; omega

def scanRest? (p : Progress) (t : Text) : Option (List Token) :=
  match t with
  | [] => none
  | c :: r =>
    if TokenKind.isSpace c then scanRest? (p.past (c :: r) r) r
    else if c = '#' then
      let ⟨_, r', _h⟩ := Reached.while (fun d : Char => d ≠ '\n') r
      scanRest? (p.past (c :: r) r') r'
    else if c = '\n' then
      if p.depth = 0 then do
        let more ← scanLines? (p.past (c :: r) r) r
        some (⟨.newline, p.position, p.position.line⟩ :: more)
      else scanRest? (p.past (c :: r) r) r
    else if c = '\\' then
      match r with
      | d :: r' =>
        if d = '\n' && !r'.isEmpty then scanRest? (p.past (c :: d :: r') r') r' else none
      | [] => none
    else do
      let ⟨kinds, rest, _h⟩ ← TokenKind.read? (c :: r)
      let q := p.past (c :: r) rest
      let more ← scanRest? (← q.nested? kinds) rest
      some (kinds.map (⟨·, p.position, q.position.line⟩) ++ more)
termination_by 2 * t.length
decreasing_by all_goals simp only [List.length_cons] at *; omega

end

/-- The text with a line feed at its end. -/
def endLine (t : Text) : Text := if t.getLast? = some '\n' then t else t ++ ['\n']

/-- The tokens of a text whose lines end in line feeds; none when some part of it is no token or a
line's indentation fits to no other. -/
def scan? (t : Text) : Option (List Token) := scanLines? ⟨⟨1, 0⟩, 0, []⟩ (endLine t)

end TypedQueries.Source
