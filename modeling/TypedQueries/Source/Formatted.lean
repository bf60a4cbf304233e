import TypedQueries.Source.Literal

/-!
# Formatted strings

A formatted string holds placeholders between braces; a doubled brace stands for itself. A
placeholder is an expression, then perhaps an equals sign, a conversion and a format, and a format
may hold placeholders again, one level deep. Where the expression ends is decided by brackets and
quotes alone; the expression is read afterwards.
-/

namespace TypedQueries.Source.Formatted

/-- Where a scan for the end of an expression stands. -/
structure State where
  /-- The quote of the literal it is in, and whether it is a triple one. -/
  quoted : Option (Char × Bool)
  /-- How many brackets are open. -/
  depth : Nat

def tripled (q : Char) : Text → Bool
  | a :: b :: _ => a = q && b = q
  | _ => false

/-- The expression at the head of a text, and the rest from the character that ends it: a closing
brace, a colon, an exclamation mark or an equals sign outside brackets and quotes. There may be
no backslash, and no comment outside quotes. -/
def expression? (s : State) : (t : Text) → Option (Reached Text t)
  | [] => none
  | c :: r =>
    -- takes this character and goes on
    let go (s : State) : Option (Reached Text (c :: r)) := do
      let ⟨e, rest, h⟩ ← expression? s r
      some ⟨c :: e, rest, Nat.le_succ_of_le h⟩
    -- takes this character and the next one
    let goTwice (s : State) : Option (Reached Text (c :: r)) :=
      match r with
      | d :: r' => do
        let ⟨e, rest, h⟩ ← expression? s r'
        some ⟨c :: d :: e, rest, Nat.le_succ_of_le (Nat.le_succ_of_le h)⟩
      | [] => none
    -- takes this character and the next two
    let goThrice (s : State) : Option (Reached Text (c :: r)) :=
      match r with
      | d :: f :: r' => do
        let ⟨e, rest, h⟩ ← expression? s r'
        some ⟨c :: d :: f :: e, rest, by simp only [List.length_cons]; omega⟩
      | _ => none
    if c = '\\' then none
    else
      match s.quoted with
      | some (q, triple) =>
        if c = q then
          if !triple then go { s with quoted := none }
          else if tripled q r then goThrice { s with quoted := none }
          else go s
        else go s
      | none =>
        if Literal.isQuote c then
          if tripled c r then goThrice { s with quoted := some (c, true) }
          else go { s with quoted := some (c, false) }
        else if c = '(' || c = '[' || c = '{' then go { s with depth := s.depth + 1 }
        else if c = '#' then none
        else if s.depth = 0 then
          if (c = '!' || c = '=' || c = '<' || c = '>') && r.head? = some '=' then goTwice s
          else if c = '!' || c = ':' || c = '}' || c = '=' then some (.none [] (c :: r))
          else if c = ')' || c = ']' then none
          else go s
        else if c = ')' || c = ']' || c = '}' then go { s with depth := s.depth - 1 }
        else go s

/-- Whether a character is a blank between tokens or a line feed. -/
def isFiller (c : Char) : Bool :=
  c = ' ' || c = '\t' || c = '\n' || c = '\x0c' || c = '\r' || c = '\x0b'

/-- The text up to a single brace, with its escapes left as they are, and the rest from that brace
on. A doubled brace outside formats belongs to the text, and so do the braces around the name of a
character. -/
def segment? (raw top : Bool) (t : Text) : Option (Reached Text t) :=
  match t with
  | [] => some (.none [] [])
  | c :: r =>
    if c = '{' || c = '}' then
      if top && r.head? = some c then
        match r with
        | _ :: r' => do
          let ⟨s, rest, h⟩ ← segment? raw top r'
          some ⟨c :: s, rest, Nat.le_succ_of_le (Nat.le_succ_of_le h)⟩
        | [] => none
      else if top && c = '}' then none
      else some (.none [] (c :: r))
    else if c = '\\' && !raw then
      match r with
      | d :: r' =>
        if d = '{' || d = '}' then do
          let ⟨s, rest, h⟩ ← segment? raw top (d :: r')
          some ⟨c :: s, rest, Nat.le_succ_of_le h⟩
        else if d = 'N' && r'.head? = some '{' then
          match Reached.while (fun e : Char => e ≠ '}') r' with
          | ⟨name, [], _⟩ => some ⟨c :: d :: name, [], Nat.zero_le _⟩
          | ⟨name, b :: after, hn⟩ => do
            let ⟨s, rest, h⟩ ← segment? raw top after
            some ⟨c :: d :: name ++ b :: s, rest, by simp only [List.length_cons] at *; omega⟩
        else do
          let ⟨s, rest, h⟩ ← segment? raw top r'
          some ⟨c :: d :: s, rest, Nat.le_succ_of_le (Nat.le_succ_of_le h)⟩
      | [] => some ⟨[c], [], Nat.zero_le _⟩
    else do
      let ⟨s, rest, h⟩ ← segment? raw top r
      some ⟨c :: s, rest, Nat.le_succ_of_le h⟩
termination_by t.length
decreasing_by
  all_goals simp only [List.length_cons] at *
  all_goals omega

def skipEquals (t : Text) : Reached Unit t :=
  match t with
  | [] => .none () []
  | c :: r =>
    if c = '=' then
      let ⟨_, rest, h⟩ := Reached.while isFiller r
      ⟨(), rest, atMost_cons c h⟩
    else .none () (c :: r)

def skipConversion? (t : Text) : Option (Reached Unit t) :=
  match t with
  | '!' :: c :: r =>
    if c = 's' || c = 'r' || c = 'a' then
      some ⟨(), r, Nat.le_succ_of_le (Nat.le_succ r.length)⟩
    else none
  | ['!'] => none
  | t => some (.none () t)

variable [CharacterNames]

mutual

/-- The expressions of the placeholders in a text, up to its end or to a closing brace that is not
its own, and the rest. `level` counts the formats around the text. -/
def fields? (raw : Bool) (level : Nat) (t : Text) : Option (Reached (List Text) t) := do
  let ⟨s, r, h⟩ ← segment? raw (level = 0) t
  if !raw && (Literal.decode? false s).isNone then none
  match Found.after? '{' r with
  | none => some ⟨[], r, h⟩
  | some ⟨_, r', h'⟩ =>
    let ⟨es, r'', h''⟩ ← field? raw level r'
    let ⟨more, rest, h3⟩ ← fields? raw level r''
    some ⟨es ++ more, rest, by omega⟩
termination_by 2 * t.length + 1
decreasing_by all_goals omega

def field? (raw : Bool) (level : Nat) (t : Text) : Option (Reached (List Text) t) := do
  if level ≥ 2 then none
  let ⟨e, r, h⟩ ← expression? ⟨none, 0⟩ t
  if e.all isFiller then none
  let ⟨_, r, h2⟩ := skipEquals r
  let ⟨_, r, h3⟩ ← skipConversion? r
  match Found.after? '}' r with
  | some ⟨_, rest, h4⟩ => some ⟨[e], rest, by omega⟩
  | none =>
    let ⟨_, r', h4⟩ ← Found.after? ':' r
    let ⟨es, r'', h5⟩ ← fields? raw (level + 1) r'
    let ⟨_, rest, h6⟩ ← Found.after? '}' r''
    some ⟨e :: es, rest, by omega⟩
termination_by 2 * t.length
decreasing_by omega

end

/-- The expressions of the placeholders in the body of a formatted string. -/
def expressions? (raw : Bool) (body : Text) : Option (List Text) := do
  let ⟨es, rest, _⟩ ← fields? raw 0 body
  if rest.isEmpty then some es else none

end TypedQueries.Source.Formatted
