import TypedQueries.Source.Scan
import TypedQueries.Source.Expr.Operator

/-!
# Reading expressions

Readers for the head of a list of tokens, one for each form of expression. No step looks back: at
every point the next token decides what can follow, so an expression is read in one way or not at
all.
-/

namespace TypedQueries.Source

/-! ### What a token can begin -/

def TokenKind.beginsExpression : TokenKind → Bool
  | .word _ => true
  | .keyword k =>
    [Keyword.false_, .none_, .true_, .not_, .lambda_, .await_].contains k
  | .symbol s =>
    [Symbol.opening .round, .opening .square, .opening .curly, .ellipsis, .plus, .minus,
      .tilde].contains s
  | .number _ => true
  | .text _ => true
  | .bytes => true
  | .formatted => true
  | _ => false

def atExpression (ts : List Token) : Bool := ts.head?.any fun t => t.kind.beginsExpression

def atItem (ts : List Token) : Bool := atExpression ts || atSymbol .star ts

/-- Whether an assignment within an expression begins at the head. -/
def atWalrus : List Token → Bool
  | t :: u :: _ =>
    match t.kind with
    | .word _ => u.kind = .symbol .walrus
    | _ => false
  | _ => false

/-- The name of an argument and its equals sign at the head. -/
def argumentName? (ts : List Token) : Option (Found Text ts) := do
  let ⟨w, r, h⟩ ← word? ts
  let ⟨_, r', h'⟩ ← afterSymbol? .assign r
  some ⟨w, r', shorter_trans h h'⟩

/-! ### Literals in a row -/

/-- A string literal as a token: its value, unless it is one of bytes or a formatted one. -/
inductive LiteralPart where
  | text (value : Text)
  | bytes
  | formatted
deriving DecidableEq

/-- What string literals in a row make; bytes and texts do not mix. -/
def combine? (parts : List LiteralPart) : Option Expr :=
  if parts.all (· = .bytes) then some .other
  else if parts.any (· = .bytes) then none
  else if parts.any (· = .formatted) then some .other
  else
    some <| .text <| parts.flatMap fun
      | .text v => v
      | _ => []

/-- The elements of a list with commas: one without a comma stands for itself. -/
def tupleOf (es : List Expr) (comma : Bool) : Expr :=
  match es, comma with
  | [e], false => e
  | es, _ => .tuple es

/-! ### Parameters -/

/-- What the parameters read so far allow to follow. -/
structure ParameterStage where
  /-- A parameter has been read. -/
  any : Bool := false
  /-- A parameter with a default has been read. -/
  defaults : Bool := false
  /-- The slash has been read. -/
  slash : Bool := false
  /-- A star has been read. -/
  star : Bool := false
  /-- The star stood alone, so that a name has to follow. -/
  bare : Bool := false

/-- Where the arguments of a call stand: which forms can still follow. -/
inductive ArgumentStage where
  | positional
  | named
  | doubleStarred
deriving DecidableEq

/-- What an entry of a dictionary or a set is. -/
inductive Entry where
  | element
  | starred
  | pair
  | doubleStarred
deriving DecidableEq

def Entry.isOfSet (e : Entry) : Bool := e = .element || e = .starred

/-! ### Expressions -/

mutual

/-- An atom: a name, a literal or something in brackets. -/
def atom? (ts : List Token) : Option (Found Expr ts) :=
  match ts with
  | [] => none
  | t :: r =>
    let simple (e : Expr) : Option (Found Expr (t :: r)) := some ⟨e, r, shorter_tail t r⟩
    match t.kind with
    | .word w => simple (.name w t.start)
    | .keyword .false_ => simple .other
    | .keyword .none_ => simple .other
    | .keyword .true_ => simple .other
    | .number _ => simple .other
    | .symbol .ellipsis => simple .other
    | .text _ => strings? (t :: r)
    | .bytes => strings? (t :: r)
    | .formatted => strings? (t :: r)
    | .symbol (.opening .round) => do
      let ⟨e, rest, h⟩ ← grouped? .round r
      some ⟨e, rest, shorter_cons t h⟩
    | .symbol (.opening .square) => do
      let ⟨e, rest, h⟩ ← displayed? r
      some ⟨e, rest, shorter_cons t h⟩
    | .symbol (.opening .curly) => do
      let ⟨_, rest, h⟩ ← entries? r
      some ⟨.other, rest, shorter_cons t h⟩
    | _ => none
termination_by 30 * ts.length + 2
decreasing_by all_goals simp only [List.length_cons] at *; omega

def strings? (ts : List Token) : Option (Found Expr ts) :=
  match ts with
  | [] => none
  | t :: r => do
    let ⟨parts, rest, _h⟩ ← literals? (t :: r)
    let e ← combine? parts
    Found.leaving? e (t :: r) rest
termination_by 30 * ts.length + 1
decreasing_by all_goals simp only [List.length_cons] at *; omega

def literals? (ts : List Token) : Option (Reached (List LiteralPart) ts) :=
  match ts with
  | [] => some (.none [] [])
  | t :: r =>
    match t.kind with
    | .text v => do
      let ⟨parts, rest, h⟩ ← literals? r
      some ⟨.text v :: parts, rest, atMost_cons t h⟩
    | .bytes => do
      let ⟨parts, rest, h⟩ ← literals? r
      some ⟨.bytes :: parts, rest, atMost_cons t h⟩
    | .formatted => do
      let ⟨_, r', h'⟩ ← placeholders? r
      let ⟨parts, rest, h⟩ ← literals? r'
      have h'' := atMost_trans h' h
      some ⟨.formatted :: parts, rest, atMost_cons t h''⟩
    | _ => some (.none [] (t :: r))
termination_by 30 * ts.length
decreasing_by all_goals simp only [List.length_cons] at *; omega

def placeholders? (ts : List Token) : Option (Reached Unit ts) :=
  match afterSymbol? (.opening .field) ts with
  | none => some (.none () ts)
  | some ⟨_, r, h⟩ => do
    let ⟨_, r', h'⟩ ← grouped? .field r
    let ⟨_, rest, h''⟩ ← placeholders? r'
    some ⟨(), rest, by omega⟩
termination_by 30 * ts.length
decreasing_by all_goals omega

/-- What stands in round brackets, after the opening one: an expression, a tuple or a generator.
The placeholder of a formatted string follows the same rules. -/
def grouped? (b : Bracket) (ts : List Token) : Option (Found Expr ts) :=
  match afterSymbol? (.closing b) ts with
  | some ⟨_, rest, h⟩ => some ⟨.tuple [], rest, h⟩
  | none =>
    if atKeyword .yield_ ts then do
      let ⟨_, r, h⟩ ← yield? ts
      let ⟨_, rest, h'⟩ ← afterSymbol? (.closing b) r
      some ⟨.other, rest, shorter_trans h h'⟩
    else do
      let ⟨(es, comma), r, h⟩ ← items? true ts
      let e := tupleOf es comma
      match afterSymbol? (.closing b) r with
      | some ⟨_, rest, h'⟩ =>
        if e.isStarred then none else some ⟨e, rest, shorter_trans h h'⟩
      | none =>
        if comma || e.isStarred then none
        else do
          let ⟨_, r', h'⟩ ← clauses? r
          have h1 := shorter_trans h h'
          let ⟨_, rest, h''⟩ ← afterSymbol? (.closing b) r'
          some ⟨.other, rest, shorter_trans h1 h''⟩
termination_by 30 * ts.length + 24
decreasing_by all_goals omega

/-- What stands in square brackets, after the opening one: a list or what fills one. -/
def displayed? (ts : List Token) : Option (Found Expr ts) :=
  match afterSymbol? (.closing .square) ts with
  | some ⟨_, rest, h⟩ => some ⟨.list [], rest, h⟩
  | none => do
    let ⟨(es, comma), r, h⟩ ← items? true ts
    match afterSymbol? (.closing .square) r with
    | some ⟨_, rest, h'⟩ => some ⟨.list es, rest, shorter_trans h h'⟩
    | none =>
      if comma || es.any Expr.isStarred then none
      else do
        let ⟨_, r', h'⟩ ← clauses? r
        let ⟨_, rest, h''⟩ ← afterSymbol? (.closing .square) r'
        some ⟨.other, rest, by omega⟩
termination_by 30 * ts.length + 24
decreasing_by all_goals omega

/-- What stands in curly brackets, after the opening one: a dictionary, a set or what fills
one. -/
def entries? (ts : List Token) : Option (Found Unit ts) :=
  match afterSymbol? (.closing .curly) ts with
  | some ⟨_, rest, h⟩ => some ⟨(), rest, h⟩
  | none => do
    let ⟨entry, r, h⟩ ← entry? ts
    match afterSymbol? (.closing .curly) r with
    | some ⟨_, rest, h'⟩ => some ⟨(), rest, shorter_trans h h'⟩
    | none =>
      match afterSymbol? .comma r with
      | some ⟨_, r', h'⟩ =>
        let ⟨_, rest, h''⟩ ← moreEntries? entry r'
        some ⟨(), rest, by omega⟩
      | none =>
        if entry = .starred || entry = .doubleStarred then none
        else
          let ⟨_, r', h'⟩ ← clauses? r
          let ⟨_, rest, h''⟩ ← afterSymbol? (.closing .curly) r'
          some ⟨(), rest, by omega⟩
termination_by 30 * ts.length + 26
decreasing_by all_goals omega

/-- The first entry of a dictionary or a set. -/
def entry? (ts : List Token) : Option (Found Entry ts) :=
  if atSymbol .star ts then do
    let ⟨_, r, h⟩ ← item? true ts
    some ⟨.starred, r, h⟩
  else if atWalrus ts then do
    let ⟨_, r, h⟩ ← item? true ts
    some ⟨.element, r, h⟩
  else
    match afterSymbol? .doubleStar ts with
    | some ⟨_, r, h⟩ => do
      let ⟨_, rest, h'⟩ ← operation? .bitOr r
      some ⟨.doubleStarred, rest, shorter_trans h h'⟩
    | none => do
      let ⟨_, r, h⟩ ← expression? ts
      match afterSymbol? .colon r with
      | none => some ⟨.element, r, h⟩
      | some ⟨_, r', h'⟩ =>
        let ⟨_, rest, h''⟩ ← expression? r'
        some ⟨.pair, rest, by omega⟩
termination_by 30 * ts.length + 20
decreasing_by
  all_goals try simp only [Level.tighter]
  all_goals omega

/-- The entries of the same kind as the first one after a comma, if any, and the closing
bracket. -/
def moreEntries? (first : Entry) (ts : List Token) : Option (Found Unit ts) :=
  match afterSymbol? (.closing .curly) ts with
  | some ⟨_, rest, h⟩ => some ⟨(), rest, h⟩
  | none => do
    let ⟨entry, r, h⟩ ← entry? ts
    if entry.isOfSet ≠ first.isOfSet then none
    match afterSymbol? (.closing .curly) r with
    | some ⟨_, rest, h'⟩ => some ⟨(), rest, shorter_trans h h'⟩
    | none =>
      let ⟨_, r', h'⟩ ← afterSymbol? .comma r
      let ⟨_, rest, h''⟩ ← moreEntries? first r'
      some ⟨(), rest, by omega⟩
termination_by 30 * ts.length + 24
decreasing_by all_goals omega

def clauses? (ts : List Token) : Option (Found Unit ts) := do
  let ⟨_, r, h⟩ ← clause? ts
  if atKeyword .for_ r || atKeyword .async_ r then
    let ⟨_, rest, h'⟩ ← clauses? r
    some ⟨(), rest, shorter_trans h h'⟩
  else some ⟨(), r, h⟩
termination_by 30 * ts.length + 1
decreasing_by all_goals omega

/-- A clause: what runs through something, and conditions. -/
def clause? (ts : List Token) : Option (Found Unit ts) := do
  let ⟨_, r0, h0⟩ :=
    match afterKeyword? .async_ ts with
    | some f => f.reached
    | none => Reached.none () ts
  let ⟨_, r1, h1⟩ ← afterKeyword? .for_ r0
  let ⟨_, r2, h2⟩ ← targets? r1
  let ⟨_, r3, h3⟩ ← afterKeyword? .in_ r2
  let ⟨_, r4, h4⟩ ← operation? .disjunction r3
  let ⟨_, rest, h5⟩ ← conditions? r4
  some ⟨(), rest, by omega⟩
termination_by 30 * ts.length
decreasing_by
  all_goals try simp only [Level.tighter]
  all_goals omega

def conditions? (ts : List Token) : Option (Reached Unit ts) :=
  match afterKeyword? .if_ ts with
  | none => some (.none () ts)
  | some ⟨_, r, h⟩ => do
    let ⟨_, r', h'⟩ ← operation? .disjunction r
    let ⟨_, rest, h''⟩ ← conditions? r'
    some ⟨(), rest, by omega⟩
termination_by 30 * ts.length
decreasing_by
  all_goals try simp only [Level.tighter]
  all_goals omega

def targets? (ts : List Token) : Option (Found Target ts) := do
  let ⟨(es, comma), rest, h⟩ ← places? ts
  let t ← Target.ofExpr? (tupleOf es comma)
  some ⟨t, rest, h⟩
termination_by 30 * ts.length + 6
decreasing_by all_goals omega

/-- Expressions without operators, with commas between them, and whether there is a comma. -/
def places? (ts : List Token) : Option (Found (List Expr × Bool) ts) := do
  let ⟨e, r, h⟩ ← place? ts
  match afterSymbol? .comma r with
  | none => some ⟨([e], false), r, h⟩
  | some ⟨_, r', h'⟩ =>
    if atItem r' then
      let ⟨(es, _), rest, h''⟩ ← places? r'
      some ⟨(e :: es, true), rest, by omega⟩
    else some ⟨([e], true), r', shorter_trans h h'⟩
termination_by 30 * ts.length + 5
decreasing_by all_goals omega

/-- An expression without operators, perhaps with a star before it. -/
def place? (ts : List Token) : Option (Found Expr ts) :=
  match afterSymbol? .star ts with
  | some ⟨_, r, h⟩ => do
    let ⟨e, rest, h'⟩ ← primary? r
    some ⟨.starred e, rest, shorter_trans h h'⟩
  | none => primary? ts
termination_by 30 * ts.length + 4
decreasing_by all_goals omega

/-- An atom with its attributes, calls and subscripts. -/
def primary? (ts : List Token) : Option (Found Expr ts) := do
  let ⟨e, r, h⟩ ← atom? ts
  let ⟨e', rest, h'⟩ ← trailers? e r
  some ⟨e', rest, shorter_of_shorter_of_atMost h h'⟩
termination_by 30 * ts.length + 3
decreasing_by all_goals omega

/-- The attributes, calls and subscripts that follow `e`. -/
def trailers? (e : Expr) (ts : List Token) : Option (Reached Expr ts) :=
  match ts with
  | [] => some (.none e [])
  | t :: r =>
    match t.kind with
    | .symbol .dot => do
      let ⟨w, r', h⟩ ← word? r
      let ⟨e', rest, h'⟩ ← trailers? (.attribute e w) r'
      some ⟨e', rest, by simp only [List.length_cons]; omega⟩
    | .symbol (.opening .round) => do
      let ⟨es, r', h⟩ ← callArguments? r
      let ⟨e', rest, h'⟩ ← trailers? (.call e es) r'
      some ⟨e', rest, by simp only [List.length_cons]; omega⟩
    | .symbol (.opening .square) => do
      let ⟨_, r', h⟩ ← slices? r
      let ⟨e', rest, h'⟩ ← trailers? (.subscript e) r'
      some ⟨e', rest, by simp only [List.length_cons]; omega⟩
    | _ => some (.none e (t :: r))
termination_by 30 * ts.length
decreasing_by all_goals simp only [List.length_cons] at *; omega

def callArguments? (ts : List Token) : Option (Found (List Expr) ts) := do
  let ⟨es, r, _h⟩ ← arguments? true .positional ts
  let ⟨_, rest, _h'⟩ ← afterSymbol? (.closing .round) r
  some ⟨es, rest, by omega⟩
termination_by 30 * ts.length + 25
decreasing_by all_goals omega

def arguments? (sole : Bool) (stage : ArgumentStage) (ts : List Token) :
    Option (Reached (List Expr) ts) :=
  if atSymbol (.closing .round) ts then some (.none [] ts)
  else do
    let ⟨(es, stage'), r, h⟩ ← argument? stage ts
    match afterSymbol? .comma r with
    | some ⟨_, r', h'⟩ =>
      let ⟨more, rest, h''⟩ ← arguments? false stage' r'
      some ⟨es ++ more, rest, by omega⟩
    | none =>
      if sole && (atKeyword .for_ r || atKeyword .async_ r) && es.any (!·.isStarred) then
        let ⟨_, rest, h'⟩ ← clauses? r
        some ⟨es, rest, by omega⟩
      else some ⟨es, r, atMost_of_shorter h⟩
termination_by 30 * ts.length + 24
decreasing_by all_goals omega

/-- An argument: the expression, if it is positional, and the stage after it. -/
def argument? (stage : ArgumentStage) (ts : List Token) :
    Option (Found (List Expr × ArgumentStage) ts) :=
  match afterSymbol? .star ts with
  | some ⟨_, r, h⟩ =>
    if stage = .doubleStarred then none
    else do
      let ⟨e, rest, h'⟩ ← expression? r
      some ⟨([.starred e], stage), rest, shorter_trans h h'⟩
  | none =>
    match afterSymbol? .doubleStar ts with
    | some ⟨_, r, h⟩ => do
      let ⟨_, rest, h'⟩ ← expression? r
      some ⟨([], .doubleStarred), rest, shorter_trans h h'⟩
    | none =>
      match argumentName? ts with
      | some ⟨_, r, h⟩ => do
        let ⟨_, rest, h'⟩ ← expression? r
        some ⟨([], if stage = .positional then .named else stage), rest, shorter_trans h h'⟩
      | none =>
        if stage = .positional then do
          let ⟨e, rest, h⟩ ← item? true ts
          some ⟨([e], stage), rest, h⟩
        else none
termination_by 30 * ts.length + 22
decreasing_by all_goals omega

/-- What stands in the brackets of a subscript, after the opening one, and the closing one. -/
def slices? (ts : List Token) : Option (Found Unit ts) := do
  let ⟨_, r, h⟩ ← slice? ts
  match afterSymbol? (.closing .square) r with
  | some ⟨_, rest, h'⟩ => some ⟨(), rest, shorter_trans h h'⟩
  | none =>
    let ⟨_, r', h'⟩ ← afterSymbol? .comma r
    match afterSymbol? (.closing .square) r' with
    | some ⟨_, rest, h''⟩ => some ⟨(), rest, by omega⟩
    | none =>
      let ⟨_, rest, h''⟩ ← slices? r'
      some ⟨(), rest, by omega⟩
termination_by 30 * ts.length + 24
decreasing_by all_goals omega

/-- One of the parts of a subscript: an expression, or bounds with colons. -/
def slice? (ts : List Token) : Option (Found Unit ts) :=
  if atSymbol .colon ts then bounds? ts
  else if atSymbol .star ts then do
    let ⟨_, r, h⟩ ← afterSymbol? .star ts
    let ⟨_, rest, h'⟩ ← expression? r
    some ⟨(), rest, shorter_trans h h'⟩
  else do
    let ⟨_, r, h⟩ ← item? true ts
    if atSymbol .colon r && !atWalrus ts then
      let ⟨_, rest, h'⟩ ← bounds? r
      some ⟨(), rest, shorter_trans h h'⟩
    else some ⟨(), r, h⟩
termination_by 30 * ts.length + 22
decreasing_by all_goals omega

/-- The colons of a slice with the bounds after them, of which none is required. -/
def bounds? (ts : List Token) : Option (Found Unit ts) := do
  let ⟨_, r, h⟩ ← afterSymbol? .colon ts
  let ⟨_, r', h'⟩ ← bound? r
  match afterSymbol? .colon r' with
  | none => some ⟨(), r', shorter_of_shorter_of_atMost h h'⟩
  | some ⟨_, r'', h''⟩ =>
    let ⟨_, rest, h'''⟩ ← bound? r''
    some ⟨(), rest, by omega⟩
termination_by 30 * ts.length + 1
decreasing_by all_goals omega

/-- A bound of a slice, if there is one. -/
def bound? (ts : List Token) : Option (Reached Unit ts) :=
  if atExpression ts then do
    let ⟨_, rest, h⟩ ← expression? ts
    some ⟨(), rest, atMost_of_shorter h⟩
  else some (.none () ts)
termination_by 30 * ts.length + 20
decreasing_by all_goals omega

def power? (ts : List Token) : Option (Found Expr ts) := do
  let ⟨e, r, h⟩ ←
    match afterKeyword? .await_ ts with
    | some ⟨_, r, h⟩ => do
      let ⟨_, rest, h'⟩ ← primary? r
      some (⟨Expr.other, rest, shorter_trans h h'⟩ : Found Expr ts)
    | none => primary? ts
  match afterSymbol? .doubleStar r with
  | some ⟨_, r', h'⟩ =>
    let ⟨_, rest, h''⟩ ← operation? .sign r'
    some ⟨.other, rest, by omega⟩
  | none => some ⟨e, r, h⟩
termination_by 30 * ts.length + 4
decreasing_by
  all_goals try simp only [Level.tighter]
  all_goals omega

/-- Operands and operators of one level and the tighter ones. -/
def operation? (l : Level) (ts : List Token) : Option (Found Expr ts) :=
  match l.beforeOperand? ts with
  | some ⟨_, r, h⟩ => do
    let ⟨_, rest, h'⟩ ← operation? l r
    some ⟨.other, rest, shorter_trans h h'⟩
  | none =>
    match _hl : l.next? with
    | some m => do
      let ⟨e, r, h⟩ ← operation? m ts
      let ⟨e', rest, h'⟩ ← operations? l e r
      some ⟨e', rest, shorter_of_shorter_of_atMost h h'⟩
    | none => power? ts
termination_by 30 * ts.length + 5 + l.tighter
decreasing_by
  · omega
  · have := Level.tighter_of_next? ‹_›
    omega
  · omega
  · omega

/-- The operators of one level after the operand `e`, with their further operands. -/
def operations? (l : Level) (e : Expr) (ts : List Token) : Option (Reached Expr ts) :=
  match l.between? ts with
  | none => some (.none e ts)
  | some ⟨f, r, h⟩ =>
    match l.next? with
    | none => none
    | some m => do
      let ⟨e', r', h'⟩ ← operation? m r
      let ⟨e'', rest, h''⟩ ← operations? l (f e e') r'
      some ⟨e'', rest, by omega⟩
termination_by 30 * ts.length
decreasing_by
  · have : m.tighter ≤ 10 := by cases m <;> decide
    omega
  · omega

def expression? (ts : List Token) : Option (Found Expr ts) :=
  match afterKeyword? .lambda_ ts with
  | some ⟨_, r, h⟩ => do
    let ⟨_, r', h'⟩ ← parameters? false {} r
    let ⟨_, r'', h''⟩ ← afterSymbol? .colon r'
    let ⟨_, rest, h'''⟩ ← expression? r''
    some ⟨.other, rest, by omega⟩
  | none => do
    let ⟨e, r, h⟩ ← operation? .disjunction ts
    match afterKeyword? .if_ r with
    | none => some ⟨e, r, h⟩
    | some ⟨_, r', h'⟩ =>
      let ⟨_, r'', h''⟩ ← operation? .disjunction r'
      let ⟨_, r3, h3⟩ ← afterKeyword? .else_ r''
      let ⟨_, rest, h4⟩ ← expression? r3
      some ⟨.other, rest, by omega⟩
termination_by 30 * ts.length + 17
decreasing_by
  all_goals try simp only [Level.tighter]
  all_goals omega

/-- An expression with a star before it or, where `named` allows it, with an assignment. -/
def item? (named : Bool) (ts : List Token) : Option (Found Expr ts) :=
  match afterSymbol? .star ts with
  | some ⟨_, r, h⟩ => do
    let ⟨e, rest, h'⟩ ← operation? .bitOr r
    some ⟨.starred e, rest, shorter_trans h h'⟩
  | none =>
    if named && atWalrus ts then do
      let ⟨_, r, h⟩ ← word? ts
      let ⟨_, r', h'⟩ ← afterSymbol? .walrus r
      let ⟨_, rest, h''⟩ ← expression? r'
      some ⟨.other, rest, by omega⟩
    else expression? ts
termination_by 30 * ts.length + 18
decreasing_by
  all_goals try simp only [Level.tighter]
  all_goals omega

/-- Items with commas between them, and whether there is a comma. -/
def items? (named : Bool) (ts : List Token) : Option (Found (List Expr × Bool) ts) := do
  let ⟨e, r, h⟩ ← item? named ts
  match afterSymbol? .comma r with
  | none => some ⟨([e], false), r, h⟩
  | some ⟨_, r', h'⟩ =>
    if atItem r' then
      let ⟨(es, _), rest, h''⟩ ← items? named r'
      some ⟨(e :: es, true), rest, by omega⟩
    else some ⟨([e], true), r', shorter_trans h h'⟩
termination_by 30 * ts.length + 20
decreasing_by all_goals omega

/-- What a generator yields, with the keyword before it. -/
def yield? (ts : List Token) : Option (Found Unit ts) := do
  let ⟨_, r, h⟩ ← afterKeyword? .yield_ ts
  match afterKeyword? .from_ r with
  | some ⟨_, r', h'⟩ =>
    let ⟨_, rest, h''⟩ ← expression? r'
    some ⟨(), rest, by omega⟩
  | none =>
    if atItem r then
      let ⟨_, rest, h'⟩ ← items? false r
      some ⟨(), rest, shorter_trans h h'⟩
    else some ⟨(), r, h⟩
termination_by 30 * ts.length
decreasing_by all_goals omega

/-- The parameters of a function, up to what ends them; only those of a definition have
annotations. -/
def parameters? (annotated : Bool) (stage : ParameterStage) (ts : List Token) :
    Option (Reached Unit ts) :=
  match afterSymbol? .doubleStar ts with
  | some ⟨_, r, h⟩ =>
    if stage.bare then none
    else do
      let ⟨_, r', h'⟩ ← word? r
      let ⟨_, r'', h''⟩ ← parameterType? annotated false r'
      match afterSymbol? .comma r'' with
      | some ⟨_, rest, h3⟩ => some ⟨(), rest, by omega⟩
      | none => some ⟨(), r'', by omega⟩
  | none =>
    match afterSymbol? .star ts with
    | some ⟨_, r, h⟩ =>
      if stage.star then none
      else if atSymbol .comma r then
        parametersAfter? annotated { stage with star := true, bare := true } ts r h
      else do
        let ⟨_, r', h'⟩ ← word? r
        let ⟨_, r'', h''⟩ ← parameterType? annotated true r'
        parametersAfter? annotated { stage with star := true } ts r'' (by omega)
    | none =>
      match afterSymbol? .slash ts with
      | some ⟨_, r, h⟩ =>
        if stage.slash || stage.star || !stage.any then none
        else parametersAfter? annotated { stage with slash := true } ts r h
      | none =>
        match word? ts with
        | some ⟨_, r, h⟩ => do
          let ⟨_, r', h'⟩ ← parameterType? annotated false r
          match afterSymbol? .assign r' with
          | some ⟨_, r'', h''⟩ =>
            let ⟨_, r3, h3⟩ ← expression? r''
            parametersAfter? annotated
              { stage with any := true, defaults := stage.defaults || !stage.star, bare := false }
              ts r3 (by omega)
          | none =>
            if stage.defaults && !stage.star then none
            else
              parametersAfter? annotated { stage with any := true, bare := false } ts r' (by omega)
        | none => if stage.bare then none else some (.none () ts)
termination_by 30 * ts.length + 1
decreasing_by all_goals omega

/-- The parameters that follow one that leaves `r`: none without a comma. -/
def parametersAfter? (annotated : Bool) (stage : ParameterStage) (ts r : List Token)
    (h : r.length < ts.length) : Option (Reached Unit ts) :=
  match afterSymbol? .comma r with
  | some ⟨_, r', h'⟩ => do
    let ⟨_, rest, h''⟩ ← parameters? annotated stage r'
    some ⟨(), rest, by omega⟩
  | none => if stage.bare then none else some ⟨(), r, atMost_of_shorter h⟩
termination_by 30 * r.length
decreasing_by all_goals omega

/-- The annotation of a parameter, if there is one; that of a starred parameter may itself have a
star. -/
def parameterType? (annotated star : Bool) (ts : List Token) : Option (Reached Unit ts) :=
  match if annotated then afterSymbol? .colon ts else none with
  | none => some (.none () ts)
  | some ⟨_, r, h⟩ =>
    if star && atSymbol .star r then do
      let ⟨_, r', h'⟩ ← afterSymbol? .star r
      let ⟨_, rest, h''⟩ ← operation? .bitOr r'
      some ⟨(), rest, by omega⟩
    else do
      let ⟨_, rest, h'⟩ ← expression? r
      some ⟨(), rest, by omega⟩
termination_by 30 * ts.length
decreasing_by
  all_goals try simp only [Level.tighter]
  all_goals omega

end

end TypedQueries.Source
