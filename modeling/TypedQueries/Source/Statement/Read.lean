import TypedQueries.Source.Case
import TypedQueries.Source.Statement.Simple

/-!
# Reading modules

The statements of a module with those that have a body. A body is one line of simple statements,
or an indented block.
-/

namespace TypedQueries.Source

/-- The tokens after a token at the head that shows the layout. -/
def afterKind? (k : TokenKind) : (ts : List Token) → Option (Found Unit ts)
  | [] => none
  | t :: r => if t.kind = k then some ⟨(), r, shorter_tail t r⟩ else none

/-- A condition: an expression, perhaps with an assignment, without a star. -/
def condition? (ts : List Token) : Option (Found Unit ts) :=
  if atSymbol .star ts then none
  else do
    let ⟨_, rest, h⟩ ← item? true ts
    some ⟨(), rest, h⟩

/-! ### Headers -/

/-- Something that a with statement enters, and what it is assigned to. -/
def entered? (ts : List Token) : Option (Found Unit ts) := do
  let ⟨_, r, h⟩ ← expression? ts
  match afterKeyword? .as_ r with
  | none => some ⟨(), r, h⟩
  | some ⟨_, r', h'⟩ =>
    let ⟨e, rest, h''⟩ ← place? r'
    let _ ← Target.ofExpr? e
    have h1 := shorter_trans h h'
    some ⟨(), rest, shorter_trans h1 h''⟩

/-- What a with statement enters, with commas between, up to what ends it; a last comma only where
`trailing` allows it. -/
def enteredList? (trailing : Bool) (ts : List Token) : Option (Found Unit ts) := do
  let ⟨_, r, h⟩ ← entered? ts
  match afterSymbol? .comma r with
  | none => some ⟨(), r, h⟩
  | some ⟨_, r', h'⟩ =>
    have h1 := shorter_trans h h'
    if trailing && atSymbol (.closing .round) r' then some ⟨(), r', h1⟩
    else
      let ⟨_, rest, h''⟩ ← enteredList? trailing r'
      some ⟨(), rest, shorter_trans h1 h''⟩
termination_by ts.length

def withHeader? (ts : List Token) : Option (Found Unit ts) :=
  match bracketed with
  | some f => some f
  | none => do
    let ⟨_, r, h⟩ ← enteredList? false ts
    let ⟨_, rest, h'⟩ ← afterSymbol? .colon r
    some ⟨(), rest, shorter_trans h h'⟩
where
  /-- The header with brackets around the list. -/
  bracketed : Option (Found Unit ts) := do
    let ⟨_, r, h⟩ ← afterSymbol? (.opening .round) ts
    let ⟨_, r', h'⟩ ← enteredList? true r
    have h1 := shorter_trans h h'
    let ⟨_, r'', h''⟩ ← afterSymbol? (.closing .round) r'
    have h2 := shorter_trans h1 h''
    let ⟨_, rest, h3⟩ ← afterSymbol? .colon r''
    some ⟨(), rest, shorter_trans h2 h3⟩

def forHeader? (ts : List Token) : Option (Found Unit ts) := do
  let ⟨_, r, h⟩ ← targets? ts
  let ⟨_, r', h'⟩ ← afterKeyword? .in_ r
  have h1 := shorter_trans h h'
  let ⟨_, r'', h''⟩ ← items? false r'
  have h2 := shorter_trans h1 h''
  let ⟨_, rest, h3⟩ ← afterSymbol? .colon r''
  some ⟨(), rest, shorter_trans h2 h3⟩

def conditionHeader? (ts : List Token) : Option (Found Unit ts) := do
  let ⟨_, r, h⟩ ← condition? ts
  let ⟨_, rest, h'⟩ ← afterSymbol? .colon r
  some ⟨(), rest, shorter_trans h h'⟩

def classHeader? (ts : List Token) : Option (Found (Text × List Expr) ts) := do
  let ⟨w, r, h⟩ ← word? ts
  match afterSymbol? (.opening .round) r with
  | none =>
    let ⟨_, rest, h'⟩ ← afterSymbol? .colon r
    some ⟨(w, []), rest, shorter_trans h h'⟩
  | some ⟨_, r', h'⟩ =>
    have h1 := shorter_trans h h'
    let ⟨bases, r'', h''⟩ ← arguments? false .positional r'
    have h2 := shorter_of_shorter_of_atMost h1 h''
    let ⟨_, r3, h3⟩ ← afterSymbol? (.closing .round) r''
    have h4 := shorter_trans h2 h3
    let ⟨_, rest, h5⟩ ← afterSymbol? .colon r3
    some ⟨(w, bases), rest, shorter_trans h4 h5⟩

def functionHeader? (ts : List Token) : Option (Found Text ts) := do
  let ⟨w, r, h⟩ ← word? ts
  let ⟨_, r', h'⟩ ← afterSymbol? (.opening .round) r
  have h1 := shorter_trans h h'
  let ⟨_, r'', h''⟩ ← parameters? true {} r'
  have h2 := shorter_of_shorter_of_atMost h1 h''
  let ⟨_, r3, h3⟩ ← afterSymbol? (.closing .round) r''
  have h4 := shorter_trans h2 h3
  let ⟨_, r4, h5⟩ ← further? (.symbol .arrow) r3
  have h6 := shorter_of_shorter_of_atMost h4 h5
  let ⟨_, rest, h7⟩ ← afterSymbol? .colon r4
  some ⟨w, rest, shorter_trans h6 h7⟩

def subject? (ts : List Token) : Option (Found Unit ts) := do
  let ⟨(es, comma), r, h⟩ ← items? true ts
  if !comma && es.any Expr.isStarred then none
  let ⟨_, rest, h'⟩ ← afterSymbol? .colon r
  some ⟨(), rest, shorter_trans h h'⟩

def caseHeader? (ts : List Token) : Option (Found Unit ts) := do
  let ⟨_, r, h⟩ ← openPattern? ts
  match afterKeyword? .if_ r with
  | none =>
    let ⟨_, rest, h'⟩ ← afterSymbol? .colon r
    some ⟨(), rest, shorter_trans h h'⟩
  | some ⟨_, r', h'⟩ =>
    have h1 := shorter_trans h h'
    let ⟨_, rest, h''⟩ ← conditionHeader? r'
    some ⟨(), rest, shorter_trans h1 h''⟩

/-- The header of an exception handler, after the keyword, with its colon; without an exception
only where `open_` allows it. -/
def handlerHeader? (open_ : Bool) (ts : List Token) : Option (Found Unit ts) :=
  match if open_ then afterSymbol? .colon ts else none with
  | some f => some f
  | none => do
    let ⟨_, r, h⟩ ← expression? ts
    let ⟨_, r', h'⟩ ← alias? r
    have h1 := shorter_of_shorter_of_atMost h h'
    let ⟨_, rest, h''⟩ ← afterSymbol? .colon r'
    some ⟨(), rest, shorter_trans h1 h''⟩

def matchWord : Text := "match"

def caseWord : Text := "case"

def afterWord? (w : Text) (ts : List Token) : Option (Found Unit ts) := afterKind? (.word w) ts

/-! ### Statements with a body -/

mutual

/-- A statement, or the simple statements of a line. -/
def statement? (ts : List Token) : Option (Found (List Statement) ts) :=
  match ts with
  | [] => none
  | t :: r =>
    let one (k : StatementKind) : Found Unit r → Found (List Statement) (t :: r)
      | ⟨_, rest, h⟩ => ⟨[⟨k, lastLine (t :: r) rest⟩], rest, shorter_cons t h⟩
    match t.kind with
    | .keyword .if_ => (branches? r).map (one .other)
    | .keyword .while_ => (loop? conditionHeader? r).map (one .other)
    | .keyword .for_ => (loop? forHeader? r).map (one .other)
    | .keyword .with_ => (bodied? withHeader? r).map (one .other)
    | .keyword .try_ => (attempt? r).map (one .other)
    | .keyword .class_ => definition? (t :: r)
    | .keyword .def_ => definition? (t :: r)
    | .keyword .async_ =>
      match afterKeyword? .for_ r, afterKeyword? .with_ r with
      | some ⟨_, r', h⟩, _ =>
        (loop? forHeader? r').map fun ⟨_, rest, h'⟩ => one .other ⟨(), rest, shorter_trans h h'⟩
      | none, some ⟨_, r', h⟩ =>
        (bodied? withHeader? r').map fun ⟨_, rest, h'⟩ => one .other ⟨(), rest, shorter_trans h h'⟩
      | none, none => definition? (t :: r)
    | .symbol .at => decorated? (t :: r)
    | .word w =>
      if w = matchWord then
        match cases? r with
        | some f => some (one .other f)
        | none => simpleLine? (t :: r)
      else simpleLine? (t :: r)
    | _ => simpleLine? (t :: r)
termination_by 10 * ts.length + 5
decreasing_by all_goals simp only [List.length_cons] at *; omega

def definition? (ts : List Token) : Option (Found (List Statement) ts) :=
  match afterKeyword? .class_ ts with
  | some ⟨_, r, h⟩ => do
    let ⟨(w, bases), r', h'⟩ ← classHeader? r
    let ⟨_, rest, h''⟩ ← block? r'
    some ⟨[⟨.classDefinition w bases, lastLine ts rest⟩], rest, by omega⟩
  | none => do
    let ⟨_, r0, h0⟩ :=
      match afterKeyword? .async_ ts with
      | some f => f.reached
      | none => Reached.none () ts
    let ⟨_, r, h⟩ ← afterKeyword? .def_ r0
    let ⟨w, r', h'⟩ ← functionHeader? r
    let ⟨_, rest, h''⟩ ← block? r'
    some ⟨[⟨.functionDefinition w, lastLine ts rest⟩], rest, by omega⟩
termination_by 10 * ts.length + 3
decreasing_by all_goals omega

def decorated? (ts : List Token) : Option (Found (List Statement) ts) :=
  match afterSymbol? .at ts with
  | none => definition? ts
  | some ⟨_, r, h⟩ => do
    let ⟨_, r', h'⟩ ← condition? r
    have h1 := shorter_trans h h'
    let ⟨_, r'', h''⟩ ← afterLine? r'
    have h2 := shorter_trans h1 h''
    let ⟨ss, rest, h3⟩ ← decorated? r''
    some ⟨ss, rest, shorter_trans h2 h3⟩
termination_by 10 * ts.length + 4
decreasing_by all_goals omega

/-- A body: a line of simple statements, or an indented block. -/
def block? (ts : List Token) : Option (Found Unit ts) :=
  match afterLine? ts with
  | none => do
    let ⟨_, rest, h⟩ ← simpleLine? ts
    some ⟨(), rest, h⟩
  | some ⟨_, r, h⟩ => do
    let ⟨_, r', h'⟩ ← afterKind? .indent r
    let ⟨_, rest, h''⟩ ← indented? r'
    some ⟨(), rest, by omega⟩
termination_by 10 * ts.length + 2
decreasing_by all_goals omega

/-- The statements of a block, of which there is at least one, and the end of the indentation. -/
def indented? (ts : List Token) : Option (Found Unit ts) := do
  let ⟨_, r, h⟩ ← statement? ts
  match afterKind? .dedent r with
  | some ⟨_, rest, h'⟩ => some ⟨(), rest, shorter_trans h h'⟩
  | none =>
    let ⟨_, rest, h'⟩ ← indented? r
    some ⟨(), rest, shorter_trans h h'⟩
termination_by 10 * ts.length + 6
decreasing_by all_goals omega

def bodied? (header? : (ts : List Token) → Option (Found Unit ts)) (ts : List Token) :
    Option (Found Unit ts) := do
  let ⟨_, r, h⟩ ← header? ts
  let ⟨_, rest, h'⟩ ← block? r
  some ⟨(), rest, shorter_trans h h'⟩
termination_by 10 * ts.length + 1
decreasing_by all_goals omega

/-- A header, a body and perhaps another body for the end of the loop. -/
def loop? (header? : (ts : List Token) → Option (Found Unit ts)) (ts : List Token) :
    Option (Found Unit ts) := do
  let ⟨_, r, h⟩ ← bodied? header? ts
  let ⟨_, rest, h'⟩ ← otherwise? r
  some ⟨(), rest, shorter_of_shorter_of_atMost h h'⟩
termination_by 10 * ts.length + 2
decreasing_by all_goals omega

def otherwise? (ts : List Token) : Option (Reached Unit ts) :=
  match afterKeyword? .else_ ts with
  | none => some (.none () ts)
  | some ⟨_, r, h⟩ => do
    let ⟨_, rest, h'⟩ ← bodied? (afterSymbol? .colon) r
    have h'' := shorter_trans h h'
    some ⟨(), rest, atMost_of_shorter h''⟩
termination_by 10 * ts.length
decreasing_by all_goals omega

/-- The branches of a conditional statement, after the keyword of the first. -/
def branches? (ts : List Token) : Option (Found Unit ts) := do
  let ⟨_, r, h⟩ ← bodied? conditionHeader? ts
  match afterKeyword? .elif_ r with
  | some ⟨_, r', h'⟩ =>
    let ⟨_, rest, h''⟩ ← branches? r'
    some ⟨(), rest, by omega⟩
  | none =>
    let ⟨_, rest, h'⟩ ← otherwise? r
    some ⟨(), rest, shorter_of_shorter_of_atMost h h'⟩
termination_by 10 * ts.length + 2
decreasing_by all_goals omega

/-- A body that may fail, after the keyword, with its handlers and what follows them. All handlers
have a star or none has. -/
def attempt? (ts : List Token) : Option (Found Unit ts) := do
  let ⟨_, r, h⟩ ← bodied? (afterSymbol? .colon) ts
  match afterKeyword? .except_ r with
  | none =>
    let ⟨_, r', h'⟩ ← afterKeyword? .finally_ r
    let ⟨_, rest, h''⟩ ← bodied? (afterSymbol? .colon) r'
    some ⟨(), rest, by omega⟩
  | some ⟨_, r', _⟩ =>
    let ⟨_, r'', h''⟩ ← handlers? (atSymbol .star r') r
    let ⟨_, r3, h3⟩ ← otherwise? r''
    match afterKeyword? .finally_ r3 with
    | none => some ⟨(), r3, by omega⟩
    | some ⟨_, r4, h4⟩ =>
      let ⟨_, rest, h5⟩ ← bodied? (afterSymbol? .colon) r4
      some ⟨(), rest, by omega⟩
termination_by 10 * ts.length + 2
decreasing_by all_goals omega

def handlers? (starred : Bool) (ts : List Token) : Option (Reached Unit ts) :=
  match afterKeyword? .except_ ts with
  | none => some (.none () ts)
  | some ⟨_, r, h⟩ => do
    let ⟨_, r', h'⟩ ←
      if starred then (afterSymbol? .star r).map Found.reached else some (Reached.none () r)
    let ⟨_, r'', h''⟩ ← bodied? (handlerHeader? !starred) r'
    let ⟨_, rest, h3⟩ ← handlers? starred r''
    some ⟨(), rest, by omega⟩
termination_by 10 * ts.length
decreasing_by all_goals omega

/-- The subject and the cases of a match statement, after its first word. -/
def cases? (ts : List Token) : Option (Found Unit ts) := do
  let ⟨_, r, h⟩ ← subject? ts
  let ⟨_, r', h'⟩ ← afterLine? r
  let ⟨_, r'', h''⟩ ← afterKind? .indent r'
  let ⟨_, rest, h3⟩ ← caseList? r''
  some ⟨(), rest, by omega⟩
termination_by 10 * ts.length
decreasing_by all_goals omega

/-- Cases, of which there is at least one, and the end of the indentation. -/
def caseList? (ts : List Token) : Option (Found Unit ts) := do
  let ⟨_, r, h⟩ ← afterWord? caseWord ts
  let ⟨_, r', h'⟩ ← bodied? caseHeader? r
  match afterKind? .dedent r' with
  | some ⟨_, rest, h''⟩ => some ⟨(), rest, by omega⟩
  | none =>
    let ⟨_, rest, h''⟩ ← caseList? r'
    some ⟨(), rest, by omega⟩
termination_by 10 * ts.length
decreasing_by all_goals omega

end

/-- The statements that tokens make; none when they are malformed. -/
def statements? (ts : List Token) : Option (List Statement) :=
  match ts with
  | [] => some []
  | t :: r => do
    let ⟨ss, rest, _h⟩ ← statement? (t :: r)
    let more ← statements? rest
    some (ss ++ more)
termination_by ts.length
decreasing_by exact _h

variable [Release]

/-- The statements of a module, given its text with line feeds at the ends of its lines. -/
def readLines? (t : Text) : Option (List Statement) := do
  let ts ← scan? t
  statements? ts

def readModule? (t : Text) : Option (List Statement) := readLines? (Text.unifyLineEnds t)

/-- The expression that a text is by itself; there may be no star before it. -/
def readExpression? (t : Text) : Option Expr := do
  let ts ← scan? (Text.unifyLineEnds t)
  let ⟨(es, comma), r, _⟩ ← items? false ts
  if es.any Expr.isStarred || r.any (fun u => u.kind ≠ .newline) then none
  else some (tupleOf es comma)

end TypedQueries.Source
