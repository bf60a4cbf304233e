import TypedQueries.Source.Expr.Read

/-!
# Reading case patterns

The patterns of a match statement. Nothing of them is kept; they are read so that what follows
them is found, and so that a malformed one is refused.
-/

namespace TypedQueries.Source

def wildcardWord : Text := ['_']

/-- A name that a pattern binds, which is not the wildcard. -/
def captured? (ts : List Token) : Option (Found Unit ts) := do
  let ⟨w, r, h⟩ ← word? ts
  if w = wildcardWord then none else some ⟨(), r, h⟩

def signedNumber? (ts : List Token) : Option (Found Bool ts) := do
  let ⟨_, r, h⟩ :=
    match afterSymbol? .minus ts with
    | some f => f.reached
    | none => Reached.none () ts
  match r, h with
  | t :: rest, h =>
    match t.kind with
    | .number i => some ⟨i, rest, by simp only [List.length_cons] at h; omega⟩
    | _ => none
  | [], _ => none

def numberPattern? (ts : List Token) : Option (Found Unit ts) := do
  let ⟨imaginary, r, h⟩ ← signedNumber? ts
  match (afterSymbol? .plus r).or (afterSymbol? .minus r) with
  | none => some ⟨(), r, h⟩
  | some ⟨_, r', h'⟩ =>
    match r', h' with
    | t :: rest, h' =>
      if !imaginary && t.kind = .number true then
        some ⟨(), rest, by simp only [List.length_cons] at h'; omega⟩
      else none
    | [], _ => none

/-- The names after a word that are joined to it by dots, and whether there are any. -/
def attributes? (ts : List Token) : Option (Reached Bool ts) :=
  match ts with
  | [] => some (.none false [])
  | t :: r =>
    if t.kind = .symbol .dot then do
      let ⟨_, r', h⟩ ← word? r
      let ⟨_, rest, h'⟩ ← attributes? r'
      some ⟨true, rest, by simp only [List.length_cons]; omega⟩
    else some (.none false (t :: r))
termination_by ts.length
decreasing_by simp only [List.length_cons]; omega

def literalPattern? (ts : List Token) : Option (Found Unit ts) :=
  match ts with
  | [] => none
  | t :: r =>
    match t.kind with
    | .symbol .minus => numberPattern? (t :: r)
    | .number _ => numberPattern? (t :: r)
    | .keyword .none_ => some ⟨(), r, shorter_tail t r⟩
    | .keyword .true_ => some ⟨(), r, shorter_tail t r⟩
    | .keyword .false_ => some ⟨(), r, shorter_tail t r⟩
    | .text _ => literals (t :: r)
    | .bytes => literals (t :: r)
    | .formatted => literals (t :: r)
    | _ => none
where
  /-- String literals in a row. -/
  literals (ts : List Token) : Option (Found Unit ts) := do
    let ⟨_, rest, h⟩ ← strings? ts
    some ⟨(), rest, h⟩

/-- The key of an entry in a mapping pattern: a literal or a name with dots. -/
def key? (ts : List Token) : Option (Found Unit ts) :=
  match word? ts with
  | none => literalPattern? ts
  | some ⟨_, r, h⟩ => do
    let ⟨dotted, rest, h'⟩ ← attributes? r
    if dotted then some ⟨(), rest, shorter_of_shorter_of_atMost h h'⟩ else none

/-- The tokens after the end of a sequence: after its closing bracket, or from the colon or the
condition on that ends a sequence without brackets. -/
def afterClosing? (closing : Option Bracket) (ts : List Token) : Option (Reached Unit ts) :=
  match closing with
  | some b => (afterSymbol? (.closing b) ts).map Found.reached
  | none => if atSymbol .colon ts || atKeyword .if_ ts then some (.none () ts) else none

mutual

/-- Patterns with commas between them, of which there is at least one; perhaps a comma, and the
closing bracket if there is to be one. -/
def elements? (closing : Option Bracket) (ts : List Token) : Option (Found Unit ts) := do
  let ⟨_, r, h⟩ ← element? ts
  match afterClosing? closing r with
  | some ⟨_, rest, h'⟩ => some ⟨(), rest, shorter_of_shorter_of_atMost h h'⟩
  | none =>
    let ⟨_, r', h'⟩ ← afterSymbol? .comma r
    match afterClosing? closing r' with
    | some ⟨_, rest, h''⟩ => some ⟨(), rest, by omega⟩
    | none =>
      let ⟨_, rest, h''⟩ ← elements? closing r'
      some ⟨(), rest, by omega⟩
termination_by 10 * ts.length + 6
decreasing_by all_goals omega

/-- A pattern or a star with a name, and whether it is the latter. -/
def element? (ts : List Token) : Option (Found Bool ts) :=
  match afterSymbol? .star ts with
  | some ⟨_, r, h⟩ => do
    let ⟨_, rest, h'⟩ ← word? r
    some ⟨true, rest, shorter_trans h h'⟩
  | none => do
    let ⟨_, rest, h⟩ ← pattern? ts
    some ⟨false, rest, h⟩
termination_by 10 * ts.length + 5
decreasing_by all_goals omega

/-- Alternatives, and perhaps a name for what they match. -/
def pattern? (ts : List Token) : Option (Found Unit ts) := do
  let ⟨_, r, h⟩ ← alternatives? ts
  match afterKeyword? .as_ r with
  | none => some ⟨(), r, h⟩
  | some ⟨_, r', h'⟩ =>
    let ⟨_, rest, h''⟩ ← captured? r'
    some ⟨(), rest, by omega⟩
termination_by 10 * ts.length + 4
decreasing_by all_goals omega

def alternatives? (ts : List Token) : Option (Found Unit ts) := do
  let ⟨_, r, h⟩ ← closedPattern? ts
  match afterSymbol? .bar r with
  | none => some ⟨(), r, h⟩
  | some ⟨_, r', h'⟩ =>
    let ⟨_, rest, h''⟩ ← alternatives? r'
    some ⟨(), rest, by omega⟩
termination_by 10 * ts.length + 3
decreasing_by all_goals omega

/-- A pattern that needs no brackets among alternatives. -/
def closedPattern? (ts : List Token) : Option (Found Unit ts) :=
  match ts with
  | [] => none
  | t :: r =>
    match t.kind with
    | .word w =>
      if w = wildcardWord then some ⟨(), r, shorter_tail t r⟩
      else do
        let ⟨_, r', h'⟩ ← attributes? r
        match afterSymbol? (.opening .round) r' with
        | none => some ⟨(), r', shorter_cons_of_atMost t h'⟩
        | some ⟨_, r'', h''⟩ =>
          have h2 := shorter_of_atMost_of_shorter h' h''
          let ⟨_, rest, h3⟩ ← classPattern? false r''
          have h4 := shorter_trans h2 h3
          some ⟨(), rest, shorter_cons t h4⟩
    | .symbol (.opening .round) =>
      match afterSymbol? (.closing .round) r with
      | some ⟨_, rest, h⟩ => some ⟨(), rest, shorter_cons t h⟩
      | none => do
        let ⟨starred, r', h⟩ ← element? r
        match afterSymbol? (.closing .round) r' with
        | some ⟨_, rest, h'⟩ =>
          have h1 := shorter_trans h h'
          if starred then none else some ⟨(), rest, shorter_cons t h1⟩
        | none =>
          let ⟨_, r'', h'⟩ ← afterSymbol? .comma r'
          have h1 := shorter_trans h h'
          match afterSymbol? (.closing .round) r'' with
          | some ⟨_, rest, h''⟩ =>
            have h2 := shorter_trans h1 h''
            some ⟨(), rest, shorter_cons t h2⟩
          | none =>
            let ⟨_, rest, h''⟩ ← elements? (some .round) r''
            have h2 := shorter_trans h1 h''
            some ⟨(), rest, shorter_cons t h2⟩
    | .symbol (.opening .square) =>
      match afterSymbol? (.closing .square) r with
      | some ⟨_, rest, h⟩ => some ⟨(), rest, shorter_cons t h⟩
      | none => do
        let ⟨_, rest, h⟩ ← elements? (some .square) r
        some ⟨(), rest, shorter_cons t h⟩
    | .symbol (.opening .curly) => do
      let ⟨_, rest, h⟩ ← mappingPattern? r
      some ⟨(), rest, shorter_cons t h⟩
    | _ => literalPattern? (t :: r)
termination_by 10 * ts.length + 2
decreasing_by all_goals simp only [List.length_cons] at *; omega

/-- The parts of a class pattern after the opening bracket, and the closing one; parts with names
come last. -/
def classPattern? (named : Bool) (ts : List Token) : Option (Found Unit ts) :=
  match afterSymbol? (.closing .round) ts with
  | some ⟨_, rest, h⟩ => some ⟨(), rest, h⟩
  | none => do
    let ⟨named', r, h⟩ ←
      match argumentName? ts with
      | some ⟨_, r, h⟩ => do
        let ⟨_, rest, h'⟩ ← pattern? r
        some (⟨true, rest, shorter_trans h h'⟩ : Found Bool ts)
      | none => do
        if named then none
        let ⟨_, rest, h⟩ ← pattern? ts
        some ⟨false, rest, h⟩
    match afterSymbol? (.closing .round) r with
    | some ⟨_, rest, h'⟩ => some ⟨(), rest, shorter_trans h h'⟩
    | none =>
      let ⟨_, r', h'⟩ ← afterSymbol? .comma r
      let ⟨_, rest, h''⟩ ← classPattern? named' r'
      some ⟨(), rest, by omega⟩
termination_by 10 * ts.length + 5
decreasing_by all_goals omega

/-- The parts of a mapping pattern after the opening bracket, and the closing one; a name for the
remaining entries comes last. -/
def mappingPattern? (ts : List Token) : Option (Found Unit ts) :=
  match afterSymbol? (.closing .curly) ts with
  | some ⟨_, rest, h⟩ => some ⟨(), rest, h⟩
  | none =>
    match afterSymbol? .doubleStar ts with
    | some ⟨_, r, h⟩ => do
      let ⟨_, r', h'⟩ ← captured? r
      have h1 := shorter_trans h h'
      let ⟨_, r'', h''⟩ :=
        match afterSymbol? .comma r' with
        | some f => f.reached
        | none => Reached.none () r'
      have h2 := shorter_of_shorter_of_atMost h1 h''
      let ⟨_, rest, h3⟩ ← afterSymbol? (.closing .curly) r''
      some ⟨(), rest, shorter_trans h2 h3⟩
    | none => do
      let ⟨_, r, h⟩ ← key? ts
      let ⟨_, r', h'⟩ ← afterSymbol? .colon r
      have h1 := shorter_trans h h'
      let ⟨_, r'', h''⟩ ← pattern? r'
      have h2 := shorter_trans h1 h''
      match afterSymbol? (.closing .curly) r'' with
      | some ⟨_, rest, h3⟩ => some ⟨(), rest, shorter_trans h2 h3⟩
      | none =>
        let ⟨_, r3, h3⟩ ← afterSymbol? .comma r''
        have h4 := shorter_trans h2 h3
        let ⟨_, rest, h5⟩ ← mappingPattern? r3
        some ⟨(), rest, shorter_trans h4 h5⟩
termination_by 10 * ts.length + 5
decreasing_by all_goals omega

end

/-- The pattern of a case: one pattern, or several with commas between them. -/
def openPattern? (ts : List Token) : Option (Found Unit ts) := do
  let ⟨starred, r, h⟩ ← element? ts
  match afterSymbol? .comma r with
  | none => if starred then none else some ⟨(), r, h⟩
  | some ⟨_, r', h'⟩ =>
    if atSymbol .colon r' || atKeyword .if_ r' then some ⟨(), r', shorter_trans h h'⟩
    else
      let ⟨_, rest, h''⟩ ← elements? none r'
      some ⟨(), rest, by omega⟩

end TypedQueries.Source
