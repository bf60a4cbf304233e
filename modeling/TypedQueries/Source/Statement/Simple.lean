import TypedQueries.Source.Expr.Read
import TypedQueries.Source.Statement.Basic

/-!
# Reading simple statements

The statements without a body, of which several may share a line.
-/

namespace TypedQueries.Source

/-! ### Imports -/

def dottedName? (ts : List Token) : Option (Found Text ts) := do
  let ⟨w, r, h⟩ ← word? ts
  match afterSymbol? .dot r with
  | none => some ⟨w, r, h⟩
  | some ⟨_, r', h'⟩ =>
    let ⟨path, rest, h''⟩ ← dottedName? r'
    some ⟨w ++ '.' :: path, rest, by omega⟩
termination_by ts.length

def alias? (ts : List Token) : Option (Reached (Option Text) ts) :=
  match afterKeyword? .as_ ts with
  | none => some (.none none ts)
  | some ⟨_, r, h⟩ => do
    let ⟨w, rest, h'⟩ ← word? r
    have h'' := shorter_trans h h'
    some ⟨some w, rest, atMost_of_shorter h''⟩

def importedModules? (ts : List Token) : Option (Found (List ImportedModule) ts) := do
  let ⟨path, r, h⟩ ← dottedName? ts
  let ⟨given, r', h'⟩ ← alias? r
  have h1 := shorter_of_shorter_of_atMost h h'
  match afterSymbol? .comma r' with
  | none => some ⟨[⟨path, given⟩], r', h1⟩
  | some ⟨_, r'', h''⟩ =>
    have h2 := shorter_trans h1 h''
    let ⟨more, rest, h3⟩ ← importedModules? r''
    some ⟨⟨path, given⟩ :: more, rest, shorter_trans h2 h3⟩
termination_by ts.length

def importedNames? (trailing : Bool) (ts : List Token) :
    Option (Found (List ImportedName) ts) := do
  let ⟨name, r, h⟩ ← word? ts
  let ⟨given, r', h'⟩ ← alias? r
  have h1 := shorter_of_shorter_of_atMost h h'
  match afterSymbol? .comma r' with
  | none => some ⟨[⟨name, given⟩], r', h1⟩
  | some ⟨_, r'', h''⟩ =>
    have h2 := shorter_trans h1 h''
    if trailing && (word? r'').isNone then some ⟨[⟨name, given⟩], r'', h2⟩
    else
      let ⟨more, rest, h3⟩ ← importedNames? trailing r''
      some ⟨⟨name, given⟩ :: more, rest, shorter_trans h2 h3⟩
termination_by ts.length

/-- What is imported from a module: all names, or some, perhaps in brackets. -/
def importList? (ts : List Token) : Option (Found (List ImportedName) ts) :=
  match afterSymbol? .star ts with
  | some ⟨_, rest, h⟩ => some ⟨[], rest, h⟩
  | none =>
    match afterSymbol? (.opening .round) ts with
    | none => importedNames? false ts
    | some ⟨_, r, h⟩ => do
      let ⟨names, r', h'⟩ ← importedNames? true r
      let ⟨_, rest, h''⟩ ← afterSymbol? (.closing .round) r'
      some ⟨names, rest, by omega⟩

def leadingDots : (ts : List Token) → Reached Nat ts
  | [] => .none 0 []
  | t :: r =>
    if t.kind = .symbol .dot then
      let ⟨n, rest, h⟩ := leadingDots r
      ⟨n + 1, rest, atMost_cons t h⟩
    else if t.kind = .symbol .ellipsis then
      let ⟨n, rest, h⟩ := leadingDots r
      ⟨n + 3, rest, atMost_cons t h⟩
    else .none 0 (t :: r)

def importNames? (ts : List Token) : Option (Found StatementKind ts) := do
  let ⟨level, r, h⟩ := leadingDots ts
  let ⟨source, r', h'⟩ :=
    match dottedName? r with
    | some ⟨path, r', h'⟩ => (⟨some path, r', atMost_of_shorter h'⟩ : Reached (Option Text) r)
    | none => .none none r
  if level = 0 && source.isNone then none
  have h1 := atMost_trans h h'
  let ⟨_, r'', h''⟩ ← afterKeyword? .import_ r'
  have h2 := shorter_of_atMost_of_shorter h1 h''
  let ⟨names, rest, h3⟩ ← importList? r''
  some ⟨.importNames level source names, rest, shorter_trans h2 h3⟩

/-! ### Assignments and expressions -/

/-- The value of an assignment: what a generator is sent, or expressions. -/
def assigned? (ts : List Token) : Option (Found Expr ts) :=
  if atKeyword .yield_ ts then do
    let ⟨_, rest, h⟩ ← yield? ts
    some ⟨.other, rest, h⟩
  else do
    let ⟨(es, comma), rest, h⟩ ← items? false ts
    some ⟨tupleOf es comma, rest, h⟩

/-- The further targets and the value of an assignment whose first target is `e`, after an equals
sign. -/
def assignment? (e : Expr) (ts : List Token) : Option (Found (List Target × Expr) ts) := do
  let target ← Target.ofExpr? e
  let ⟨value, r, h⟩ ← assigned? ts
  match afterSymbol? .assign r with
  | none => some ⟨([target], value), r, h⟩
  | some ⟨_, r', h'⟩ =>
    let ⟨(targets, value'), rest, h''⟩ ← assignment? value r'
    some ⟨(target :: targets, value'), rest, by omega⟩
termination_by ts.length

/-- The value after an equals sign, if there is one. -/
def initial? (ts : List Token) : Option (Reached (Option Expr) ts) :=
  match afterSymbol? .assign ts with
  | none => some (.none none ts)
  | some ⟨_, r, h⟩ => do
    let ⟨e, rest, h'⟩ ← assigned? r
    have h'' := shorter_trans h h'
    some ⟨some e, rest, atMost_of_shorter h''⟩

def expressionStatement? (ts : List Token) : Option (Found StatementKind ts) := do
  let ⟨(es, comma), r, h⟩ ← items? false ts
  let e := tupleOf es comma
  match afterSymbol? .assign r with
  | some ⟨_, r', h'⟩ =>
    let ⟨(targets, value), rest, h''⟩ ← assignment? e r'
    some ⟨.assign targets value, rest, by omega⟩
  | none =>
    match afterSymbol? .augmented r with
    | some ⟨_, r', h'⟩ =>
      let target ← Target.single? e
      let ⟨_, rest, h''⟩ ← assigned? r'
      some ⟨.augmented target, rest, by omega⟩
    | none =>
      match afterSymbol? .colon r with
      | some ⟨_, r', h'⟩ =>
        let target ← Target.single? e
        let ⟨declared, r'', h''⟩ ← expression? r'
        let ⟨value, rest, h3⟩ ← initial? r''
        some ⟨.annotated target declared value, rest, by omega⟩
      | none => some ⟨.expression e, r, h⟩

/-! ### Other statements -/

def nameList? (ts : List Token) : Option (Found Unit ts) := do
  let ⟨_, r, h⟩ ← word? ts
  match afterSymbol? .comma r with
  | none => some ⟨(), r, h⟩
  | some ⟨_, r', h'⟩ =>
    let ⟨_, rest, h''⟩ ← nameList? r'
    some ⟨(), rest, by omega⟩
termination_by ts.length

def further? (mark : TokenKind) : (ts : List Token) → Option (Reached Unit ts)
  | [] => some (.none () [])
  | t :: r =>
    if t.kind = mark then do
      let ⟨_, rest, h⟩ ← expression? r
      some ⟨(), rest, by simp only [List.length_cons]; omega⟩
    else some (.none () (t :: r))

def raised? (ts : List Token) : Option (Reached Unit ts) :=
  if atExpression ts then do
    let ⟨_, r, h⟩ ← expression? ts
    let ⟨_, rest, h'⟩ ← further? (.keyword .from_) r
    have h'' := shorter_of_shorter_of_atMost h h'
    some ⟨(), rest, atMost_of_shorter h''⟩
  else some (.none () ts)

def returned? (ts : List Token) : Option (Reached Unit ts) :=
  if atItem ts then do
    let ⟨_, rest, h⟩ ← items? false ts
    some ⟨(), rest, atMost_of_shorter h⟩
  else some (.none () ts)

def deleted? (ts : List Token) : Option (Found Unit ts) := do
  let ⟨(es, _), rest, h⟩ ← places? ts
  if Target.areDeletable es then some ⟨(), rest, h⟩ else none

def simpleStatement? (ts : List Token) : Option (Found StatementKind ts) :=
  match ts with
  | [] => none
  | t :: r =>
    let found : Found Unit r → Found StatementKind (t :: r)
      | ⟨_, rest, h⟩ => ⟨.other, rest, shorter_cons t h⟩
    let reached : Reached Unit r → Found StatementKind (t :: r)
      | ⟨_, rest, h⟩ => ⟨.other, rest, shorter_cons_of_atMost t h⟩
    match t.kind with
    | .keyword .pass_ => some (reached (.none () r))
    | .keyword .break_ => some (reached (.none () r))
    | .keyword .continue_ => some (reached (.none () r))
    | .keyword .return_ => (returned? r).map reached
    | .keyword .raise_ => (raised? r).map reached
    | .keyword .global_ => (nameList? r).map found
    | .keyword .nonlocal_ => (nameList? r).map found
    | .keyword .del_ => (deleted? r).map found
    | .keyword .assert_ => do
      let ⟨_, r', h⟩ ← expression? r
      let ⟨_, rest, h'⟩ ← further? (.symbol .comma) r'
      have h'' := shorter_of_shorter_of_atMost h h'
      some ⟨.other, rest, shorter_cons t h''⟩
    | .keyword .yield_ => do
      let ⟨_, rest, h⟩ ← yield? (t :: r)
      some ⟨.other, rest, h⟩
    | .keyword .import_ => do
      let ⟨modules, rest, h⟩ ← importedModules? r
      some ⟨.importModules modules, rest, shorter_cons t h⟩
    | .keyword .from_ => do
      let ⟨kind, rest, h⟩ ← importNames? r
      some ⟨kind, rest, shorter_cons t h⟩
    | _ => expressionStatement? (t :: r)

/-! ### Lines of statements -/

def TokenKind.isLayout (k : TokenKind) : Bool := k = .newline || k = .indent || k = .dedent

/-- The last line of the tokens that `ts` has before its end `rest`. -/
def lastLine (ts rest : List Token) : Nat :=
  match ((ts.take (ts.length - rest.length)).filter fun t => !t.kind.isLayout).getLast? with
  | some t => t.lastLine
  | none => 0

/-- The tokens after the end of a line. -/
def afterLine? : (ts : List Token) → Option (Found Unit ts)
  | [] => none
  | t :: r => if t.kind = .newline then some ⟨(), r, shorter_tail t r⟩ else none

def simpleLine? (ts : List Token) : Option (Found (List Statement) ts) := do
  let ⟨kind, r, h⟩ ← simpleStatement? ts
  let statement : Statement := ⟨kind, lastLine ts r⟩
  match afterSymbol? .semicolon r with
  | none =>
    let ⟨_, rest, h'⟩ ← afterLine? r
    some ⟨[statement], rest, shorter_trans h h'⟩
  | some ⟨_, r', h'⟩ =>
    have h1 := shorter_trans h h'
    match afterLine? r' with
    | some ⟨_, rest, h''⟩ => some ⟨[statement], rest, shorter_trans h1 h''⟩
    | none =>
      let ⟨more, rest, h''⟩ ← simpleLine? r'
      some ⟨statement :: more, rest, shorter_trans h1 h''⟩
termination_by ts.length

end TypedQueries.Source
