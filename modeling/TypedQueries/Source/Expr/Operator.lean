import TypedQueries.Found
import TypedQueries.Source.Expr.Basic

/-!
# Operators

The levels on which operators bind, from the loosest to the tightest, and how an operator of a
level is recognised at the head of a list of tokens.
-/

namespace TypedQueries.Source

def afterSymbol? (s : Symbol) : (ts : List Token) → Option (Found Unit ts)
  | [] => none
  | t :: r => if t.kind = .symbol s then some ⟨(), r, shorter_tail t r⟩ else none

def afterKeyword? (k : Keyword) : (ts : List Token) → Option (Found Unit ts)
  | [] => none
  | t :: r => if t.kind = .keyword k then some ⟨(), r, shorter_tail t r⟩ else none

def atSymbol (s : Symbol) (ts : List Token) : Bool := ts.head?.any fun t => t.kind = .symbol s

def atKeyword (k : Keyword) (ts : List Token) : Bool := ts.head?.any fun t => t.kind = .keyword k

def word? : (ts : List Token) → Option (Found Text ts)
  | [] => none
  | t :: r =>
    match t.kind with
    | .word w => some ⟨w, r, shorter_tail t r⟩
    | _ => none

inductive Level where
  | disjunction
  | conjunction
  | inversion
  | comparison
  | bitOr
  | bitXor
  | bitAnd
  | shift
  | sum
  | product
  | sign
deriving DecidableEq

namespace Level

def next? : Level → Option Level
  | disjunction => some conjunction
  | conjunction => some inversion
  | inversion => some comparison
  | comparison => some bitOr
  | bitOr => some bitXor
  | bitXor => some bitAnd
  | bitAnd => some shift
  | shift => some sum
  | sum => some product
  | product => some sign
  | sign => none

def tighter : Level → Nat
  | disjunction => 10
  | conjunction => 9
  | inversion => 8
  | comparison => 7
  | bitOr => 6
  | bitXor => 5
  | bitAnd => 4
  | shift => 3
  | sum => 2
  | product => 1
  | sign => 0

theorem tighter_of_next? {l m : Level} (h : l.next? = some m) : m.tighter < l.tighter := by
  cases l <;> cases h <;> decide

/-- The operator of this level that stands before its operand, and the tokens after it. -/
def beforeOperand? (l : Level) (ts : List Token) : Option (Found Unit ts) :=
  match l with
  | inversion => afterKeyword? .not_ ts
  | sign => (afterSymbol? .plus ts).or ((afterSymbol? .minus ts).or (afterSymbol? .tilde ts))
  | _ => none

def afterComparison? (ts : List Token) : Option (Found Unit ts) :=
  match ts with
  | [] => none
  | t :: r =>
    match t.kind with
    | .symbol .comparison => some ⟨(), r, shorter_tail t r⟩
    | .keyword .in_ => some ⟨(), r, shorter_tail t r⟩
    | .keyword .is_ =>
      match afterKeyword? .not_ r with
      | some ⟨_, rest, h⟩ => some ⟨(), rest, shorter_cons t h⟩
      | none => some ⟨(), r, shorter_tail t r⟩
    | .keyword .not_ =>
      (afterKeyword? .in_ r).map fun ⟨_, rest, h⟩ => ⟨(), rest, shorter_cons t h⟩
    | _ => none

/-- Whether a symbol is an operator of this level between its operands. -/
def hasSymbol (l : Level) (s : Symbol) : Bool :=
  match l with
  | bitOr => s = .bar
  | bitXor => s = .caret
  | bitAnd => s = .ampersand
  | shift => s = .shift
  | sum => s = .plus || s = .minus
  | product => s = .star || s = .slash || s = .division || s = .at
  | _ => false

/-- What an operator makes of its operands: only a sum is kept. -/
def apply (s : Symbol) (left right : Expr) : Expr :=
  if s = .plus then .sum left right else .other

/-- The operator of this level that stands between its operands, as what it makes of them, and the
tokens after it. -/
def between? (l : Level) (ts : List Token) : Option (Found (Expr → Expr → Expr) ts) :=
  let other (f : Found Unit ts) : Found (Expr → Expr → Expr) ts :=
    ⟨fun _ _ => .other, f.rest, f.shorter⟩
  match l with
  | disjunction => (afterKeyword? .or_ ts).map other
  | conjunction => (afterKeyword? .and_ ts).map other
  | comparison => (afterComparison? ts).map other
  | l =>
    match ts with
    | [] => none
    | t :: r =>
      match t.kind with
      | .symbol s => if l.hasSymbol s then some ⟨apply s, r, shorter_tail t r⟩ else none
      | _ => none

end Level

end TypedQueries.Source
