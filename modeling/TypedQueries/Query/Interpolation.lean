import TypedQueries.Template
import TypedQueries.Query.PlaceholderStyle
import TypedQueries.Query.Verb

/-!
# Interpolation

At run time the directives of a query text are replaced by the formats of its parameters, which
makes a text with one verb for each argument. Rendering then replaces the verbs by the
placeholders of a style. A text whose verbs and arguments differ in number is refused.
-/

namespace TypedQueries

/-- What the accessors of a parameter object return: a format and a value for each directive. -/
structure ParamValues (α : Type) where
  specs : List Text
  args : List α

/-- A text with format verbs and the arguments for them. -/
structure Query (α : Type) where
  text : Text
  args : List α

inductive InterpolationError where
  /-- There are more directives than formats. -/
  | missingSpec
  /-- There is no directive. -/
  | noDirectives
  /-- There is no directive, in a text that was promised to have one. -/
  | noDirectivesIn (text : Text)
deriving DecidableEq

namespace InterpolationError

/-- The wording of a fault; a text is shown up to its 25th character. -/
def message : InterpolationError → Text
  | missingSpec => "list index out of range"
  | noDirectives => "query doesn't use interpolation"
  | noDirectivesIn t => "query doesn't use interpolation: " ++ t.take 25

end InterpolationError

/-- A query whose verbs and arguments differ in number. -/
structure ArityMismatch where
  verbs : Nat
  args : Nat
deriving DecidableEq

def ArityMismatch.message (m : ArityMismatch) : Text :=
  "query has " ++ Text.ofNat m.verbs ++ " format verbs but " ++ Text.ofNat m.args ++ " arguments"

namespace Template

/-- The text of pieces in which the directives give way to the formats, in order; none when the
formats run out. -/
def fillSpecs : List Text → List Piece → Option Text
  | _, [] => some []
  | specs, .char c :: ps => (fillSpecs specs ps).map (c :: ·)
  | [], .directive .. :: _ => none
  | spec :: specs, .directive .. :: ps => (fillSpecs specs ps).map (spec ++ ·)

end Template

namespace Query

variable {α : Type}

/-- The query that a text and its parameters make. -/
def interpolate (text : Text) (params : ParamValues α) : Except InterpolationError (Query α) :=
  match Template.fillSpecs params.specs (Template.pieces text) with
  | none => .error .missingSpec
  | some filled =>
    if (Template.directives text).isEmpty then .error .noDirectives
    else .ok ⟨filled, params.args⟩

/-- Like `interpolate`, for a text that was promised to have directives: the fault of having none
names the text. -/
def interpolateAlways (text : Text) (params : ParamValues α) :
    Except InterpolationError (Query α) :=
  match interpolate text params with
  | .error .noDirectives => .error (.noDirectivesIn text)
  | r => r

/-- The text of pieces with placeholders for the verbs, the first of them at position `n`. -/
def place (placeholder : Placeholder) (n : Nat) : List FormatPiece → Text
  | [] => []
  | .char c :: ps => c :: place placeholder n ps
  | .percent :: ps => '%' :: place placeholder n ps
  | .verb _ :: ps => placeholder n ++ place placeholder (n + 1) ps

def verbCount (ps : List FormatPiece) : Nat :=
  ps.countP fun
    | .verb _ => true
    | _ => false

/-- The text of a query for a database driver, in which positions count from one. -/
def render (q : Query α) (placeholder : Placeholder) : Except ArityMismatch Text :=
  let pieces := FormatPiece.pieces q.text
  if verbCount pieces = q.args.length then .ok (place placeholder 1 pieces)
  else .error ⟨verbCount pieces, q.args.length⟩

end Query

end TypedQueries
