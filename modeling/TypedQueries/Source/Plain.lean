import TypedQueries.Source.Encoding
import TypedQueries.Source.Literal

/-!
# A plain release

The least of a release: it knows no names of characters and one encoding only, in which bytes are
written as escapes. It compares words as they are written and says nothing about what it refuses.
-/

namespace TypedQueries.Source.Plain

scoped instance : CharacterNames := ⟨fun _ => none⟩

/-- The names of the encoding in which bytes are written as escapes. -/
def escapeNames : List Text := ["unicode-escape", "unicodeescape"]

scoped instance : Release where
  decode? name bytes := do
    if escapeNames.contains (Encoding.plain name) then
      let t ← Literal.decode? false (Encoding.widen bytes)
      t.toText?
    else none
  normalForm w := w
  standIn _ := '\ufffd'
  refusesNull := false
  refuse _ := ⟨0, 0, []⟩
  complain _ := "<parse error>"

end TypedQueries.Source.Plain
