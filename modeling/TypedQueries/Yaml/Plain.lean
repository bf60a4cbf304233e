import TypedQueries.Yaml.Mark

/-!
# Plain scalars

A plain scalar has no quotes. It ends before a comment, before a colon that separates a key from
its value, where the indentation falls back, and inside brackets also at the characters that
brackets and their items are made of. Lines that it goes over are joined.
-/

namespace TypedQueries.Yaml

def flowIndicators : List Char := [',', '?', '[', ']', '\x7b', '\x7d']

/-- Whether a colon before `following` separates a key from its value. -/
def separatesValue (flow : Bool) (following : Char) : Bool :=
  isGap following || (flow && [',', '[', ']', '\x7b', '\x7d'].contains following)

/-- Whether a plain scalar is interrupted before `c`, which `following` comes after. -/
def interruptsPlain (flow : Bool) (c following : Char) : Bool :=
  isGap c || (c = ':' && separatesValue flow following) || (flow && flowIndicators.contains c)

def plainRun (flow : Bool) : (ms : List Mark) → Reached Text ms
  | [] => .none [] []
  | m :: r =>
    if interruptsPlain flow m.char (peek r) then .none [] (m :: r)
    else
      let ⟨t, rest, h⟩ := plainRun flow r
      ⟨m.char :: t, rest, Nat.le_succ_of_le h⟩

/-- What stands between two parts of a plain scalar. -/
structure PlainGap where
  /-- What it leaves in the scalar; nothing where the scalar cannot go on. -/
  text : Text
  /-- Whether a line ends in it. -/
  crossesLine : Bool

/-- The further empty lines of a gap; nothing is returned where a document ends or begins. -/
def plainBreaks (ms : List Mark) : Reached (Option Text) ms :=
  let ⟨_, rest, h⟩ := charsWhile (· = ' ') ms
  match lineBreak? rest with
  | none => ⟨some [], rest, h⟩
  | some ⟨b, after, hb⟩ =>
    have hlt : after.length < ms.length := Nat.lt_of_lt_of_le hb h
    if isAnyBoundary after then ⟨none, after, Nat.le_of_lt hlt⟩
    else
      let ⟨more, final, hf⟩ := plainBreaks after
      ⟨more.map (b :: ·), final, Nat.le_trans hf (Nat.le_of_lt hlt)⟩
termination_by ms.length

/-- What joined lines leave in a scalar: one line end is a blank, of several the first one goes. -/
def joinLines (first : Char) (others : Text) : Text :=
  (if first ≠ '\n' then [first] else if others = [] then [' '] else []) ++ others

def plainGap (ms : List Mark) : Reached PlainGap ms :=
  let ⟨blanks, rest, h⟩ := charsWhile (· = ' ') ms
  match lineBreak? rest with
  | none => ⟨⟨blanks, false⟩, rest, h⟩
  | some ⟨b, after, hb⟩ =>
    have hlt := shorter_of_atMost_of_shorter h hb
    have hle := atMost_of_shorter hlt
    if isAnyBoundary after then ⟨⟨[], true⟩, after, hle⟩
    else
      let ⟨others, final, hf⟩ := plainBreaks after
      let text :=
        match others with
        | some others => joinLines b others
        | none => []
      ⟨⟨text, true⟩, final, atMost_trans hle hf⟩

structure PlainScalar where
  text : Text
  /-- Whether the end of a line comes after it. -/
  endsLine : Bool

/-- Whether there is something at least in the column `indent`; the end of the document counts. -/
def reachesColumn (indent : Nat) : List Mark → Bool
  | [] => true
  | m :: _ => indent ≤ m.column

/-- A plain scalar, of which further lines are indented to the column `indent` at least. -/
def plainScalar? (flow : Bool) (indent : Nat) (ms : List Mark) : Option (Found PlainScalar ms) :=
  if peek ms = '#' then none
  else
    let ⟨run, rest, _⟩ := plainRun flow ms
    let ⟨gap, after, hg⟩ := plainGap rest
    if hlt : rest.length < ms.length then
      have hlt' : after.length < ms.length := Nat.lt_of_le_of_lt hg hlt
      let stop : Option (Found PlainScalar ms) := some ⟨⟨run, gap.crossesLine⟩, after, hlt'⟩
      if gap.text = [] || (!flow && !reachesColumn indent after) then stop
      else
        match plainScalar? flow indent after with
        | none => stop
        | some ⟨more, final, hf⟩ =>
          some ⟨⟨run ++ gap.text ++ more.text, more.endsLine⟩, final, Nat.lt_trans hf hlt'⟩
    else none
termination_by ms.length

end TypedQueries.Yaml
