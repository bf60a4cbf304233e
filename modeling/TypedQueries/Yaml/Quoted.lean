import TypedQueries.Text.CodePoint
import TypedQueries.Text.Digit
import TypedQueries.Yaml.Fault
import TypedQueries.Yaml.Plain

/-!
# Quoted scalars

Between single quotes only the quote itself has to be written in a special way, namely twice.
Between double quotes a backslash begins an escape. Lines are joined as in plain scalars, and a
document may neither begin nor end inside quotes.
-/

namespace TypedQueries.Yaml

def charEscapes : List (Char × Char) :=
  [('0', '\x00'), ('a', '\x07'), ('b', '\x08'), ('t', '\t'), ('\t', '\t'), ('n', '\n'),
   ('v', '\x0b'), ('f', '\x0c'), ('r', '\r'), ('e', '\x1b'), (' ', ' '), ('"', '"'),
   ('\\', '\\'), ('/', '/'), ('N', nextLine), ('_', '\u00a0'), ('L', '\u2028'), ('P', '\u2029')]

def hexEscapes : List (Char × Nat) := [('x', 2), ('u', 4), ('U', 8)]

def hexNumber? (n : Nat) : (count : Nat) → (ms : List Mark) → Option (Reached Nat ms)
  | 0, ms => some (.none n ms)
  | _ + 1, [] => none
  | count + 1, m :: r => do
    let d ← Text.hexValue? m.char
    let ⟨v, rest, h⟩ ← hexNumber? (16 * n + d) count r
    some ⟨v, rest, Nat.le_succ_of_le h⟩

def quotedBreaks (ms : List Mark) : Except Fault (Reached Text ms) :=
  if isAnyBoundary ms then .error .malformed
  else
    let ⟨_, rest, h⟩ := charsWhile isWhite ms
    match lineBreak? rest with
    | none => .ok ⟨[], rest, h⟩
    | some ⟨b, after, hb⟩ =>
      have hlt : after.length < ms.length := Nat.lt_of_lt_of_le hb h
      match quotedBreaks after with
      | .error e => .error e
      | .ok ⟨more, final, hf⟩ => .ok ⟨b :: more, final, Nat.le_trans hf (Nat.le_of_lt hlt)⟩
termination_by ms.length

/-- What blanks and line ends between words leave in a quoted scalar. -/
def quotedGap (ms : List Mark) : Except Fault (Reached Text ms) :=
  let ⟨blanks, rest, h⟩ := charsWhile isWhite ms
  match lineBreak? rest with
  | none => if rest.isEmpty then .error .malformed else .ok ⟨blanks, rest, h⟩
  | some ⟨b, after, hb⟩ => do
    let ⟨others, final, hf⟩ ← quotedBreaks after
    .ok ⟨joinLines b others, final, Nat.le_trans hf (Nat.le_of_lt (Nat.lt_of_lt_of_le hb h))⟩

/-- What an escape after its backslash stands for. -/
def quotedEscape (ms : List Mark) : Except Fault (Reached CodedText ms) :=
  match ms with
  | [] => .error .malformed
  | m :: r =>
    match charEscapes.lookup m.char with
    | some c => .ok ⟨[.char c], r, atMost_tail m r⟩
    | none =>
      match hexEscapes.lookup m.char with
      | some count =>
        match hexNumber? 0 count r with
        | none => .error .malformed
        | some ⟨n, rest, h⟩ =>
          match CodePoint.ofNat? n with
          | some c => .ok ⟨[c], rest, atMost_cons m h⟩
          | none => .error (.noCodePoint n)
      | none =>
        if isBreak m.char then do
          let ⟨more, rest, h⟩ ← quotedBreaks r
          .ok ⟨.ofText more, rest, atMost_cons m h⟩
        else .error .malformed

def quotedScalar (q : Char) (ms : List Mark) : Except Fault (Found CodedText ms) :=
  match ms with
  | [] => .error .malformed
  | m :: r =>
    if m.char = q then
      match r with
      | m' :: r' =>
        if q = '\'' && m'.char = '\'' then do
          let ⟨more, rest, h⟩ ← quotedScalar q r'
          .ok ⟨.char '\'' :: more, rest, Nat.lt_trans h (Nat.lt_succ_of_lt (Nat.lt_succ_self _))⟩
        else .ok ⟨[], m' :: r', Nat.lt_succ_self _⟩
      | [] => .ok ⟨[], [], Nat.lt_succ_self _⟩
    else if q = '"' && m.char = '\\' then
      match quotedEscape r with
      | .error e => .error e
      | .ok ⟨t, rest, h⟩ => do
        let ⟨more, final, hf⟩ ← quotedScalar q rest
        .ok ⟨t ++ more, final, Nat.lt_succ_of_le (Nat.le_of_lt (Nat.lt_of_lt_of_le hf h))⟩
    else if isGap m.char then
      match quotedGap (m :: r) with
      | .error e => .error e
      | .ok ⟨t, rest, _⟩ =>
        if hlt : rest.length < (m :: r).length then do
          let ⟨more, final, hf⟩ ← quotedScalar q rest
          .ok ⟨.ofText t ++ more, final, Nat.lt_trans hf hlt⟩
        else .error .malformed
    else do
      let ⟨more, rest, h⟩ ← quotedScalar q r
      .ok ⟨.char m.char :: more, rest, Nat.lt_succ_of_lt h⟩
termination_by ms.length
decreasing_by
  all_goals simp only [List.length_cons] at *
  all_goals omega

end TypedQueries.Yaml
