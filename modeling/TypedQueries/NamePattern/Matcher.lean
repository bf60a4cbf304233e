import TypedQueries.Text.CodePoint

/-!
# Matching names

Which names belong to queries is said by a pattern. What the written form of a pattern means is
for a matcher to say.
-/

namespace TypedQueries

/-- Why a written form is no pattern. -/
structure PatternFault where
  /-- The kind of the fault and its message, as they are shown. -/
  shown : Text
deriving DecidableEq

class NameMatcher where
  /-- The names that match as a whole, or why there is no such pattern. -/
  compile : CodedText → Except PatternFault (Text → Bool)

namespace NamePattern

/-- The written form of the usual pattern for the names of queries. -/
def usual : Text := ".*(Query|QUERY)(Fragment|_FRAGMENT)?[_0-9]*$"

variable [NameMatcher]

/-- The pattern of a written form; an empty one stands for the usual pattern. -/
def compile (form : CodedText) : Except PatternFault (Text → Bool) :=
  NameMatcher.compile (if form.isEmpty then usual else form)

def isQueryName (form : CodedText) (name : Text) : Except PatternFault Bool := do
  let isMatch ← compile form
  .ok (isMatch name)

end NamePattern

end TypedQueries
