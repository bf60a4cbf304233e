import TypedQueries.Value.Basic

/-!
# Problems

A problem keeps a run from starting. It is told with a stable code, what is known about it, and
what to do next.
-/

namespace TypedQueries

structure Problem where
  code : Text
  /-- What part of the setup it lies in. -/
  category : Text
  message : Text
  details : Value
  /-- What to do next, if that is known. -/
  remediation : Option Text

namespace Problem

/-- What is told about a problem under the names of its parts. -/
def entries (p : Problem) : List (Text × Value) :=
  let advice : List (Text × Value) :=
    match p.remediation with
    | some r => [("remediation", .text r)]
    | none => []
  ("code", .text p.code) :: ("category", .text p.category) :: ("message", .text p.message) ::
    ("details", p.details) :: advice

def lines (p : Problem) : List Text :=
  let advice : List Text :=
    match p.remediation with
    | some [] => []
    | some r => ["REMEDIATION: " ++ r]
    | none => []
  ("ERROR[" ++ p.code ++ "]: " ++ p.message) :: (advice ++ ["DETAILS: " ++ p.details.shown])

end Problem

end TypedQueries
