import TypedQueries.Directive

/-!
# Templates

A query text is a sequence of pieces: the directives that begin at the least possible positions,
one after the other, and the characters between them. All uses of a query text go through its
pieces: listing the directives, replacing them, and locating them.
-/

namespace TypedQueries

/-- A piece of a query text: a character that belongs to no directive, or a directive with the
text it was read from. -/
inductive Piece where
  | char (c : Char)
  | directive (d : Directive) (source : Text)
deriving DecidableEq

namespace Piece

def source : Piece → Text
  | char c => [c]
  | directive _ s => s

def directive? : Piece → Option Directive
  | char _ => none
  | directive d _ => some d

end Piece

namespace Template

/-- The pieces of a query text, from left to right. -/
def pieces (t : Text) : List Piece :=
  match _h : Directive.read? t with
  | some (d, rest) => .directive d (t.take (t.length - rest.length)) :: pieces rest
  | none =>
    match t with
    | [] => []
    | c :: r => .char c :: pieces r
termination_by t.length
decreasing_by
  · exact Directive.length_of_read? ‹_›
  · simp

/-- The directives of a query text, in order of appearance; their positions in this list are
their indices. -/
def directives (t : Text) : List Directive := (pieces t).filterMap Piece.directive?

def indexed (t : Text) : List (Directive × Nat) := (directives t).zipIdx

/-- The query text with each directive replaced by `f` of it. -/
def replace (f : Directive → Text) (t : Text) : Text :=
  (pieces t).flatMap fun
    | .char c => [c]
    | .directive d _ => f d

/-- The pieces with the position at which each begins, when the first begins at `start`. -/
def locate (start : Nat) : List Piece → List (Nat × Piece)
  | [] => []
  | p :: ps => (start, p) :: locate (start + p.source.length) ps

def spans (t : Text) : List (Nat × Nat) :=
  (locate 0 (pieces t)).filterMap fun (start, p) =>
    p.directive?.map fun _ => (start, start + p.source.length)

end Template

end TypedQueries
