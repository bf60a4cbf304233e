import TypedQueries.Yaml.Fault
import TypedQueries.Yaml.Mark

/-!
# Block scalars

A block scalar stands on indented lines after a header. The literal style keeps line ends, the
folded style joins lines that begin with no blank. The header may say how far the lines are
indented and what becomes of the line ends after the last line.
-/

namespace TypedQueries.Yaml

/-- What becomes of the line ends after the last line. -/
inductive Chomping where
  /-- They all go. -/
  | strip
  /-- One stays. -/
  | clip
  /-- They all stay. -/
  | keep
deriving DecidableEq

/-- What the header of a block scalar says. -/
structure BlockHeader where
  chomping : Chomping
  /-- By how many columns the lines are indented further than what they belong to. -/
  increment : Option Nat

def chomping? (c : Char) : Option Chomping :=
  if c = '+' then some .keep else if c = '-' then some .strip else none

/-- What the signs and digits of a header say: at most one of each, in either order. -/
def blockHeader? (t : Text) : Option BlockHeader :=
  let increment? (c : Char) : Option Nat :=
    if '1' ≤ c && c ≤ '9' then some (c.toNat - '0'.toNat) else none
  match t with
  | [] => some ⟨.clip, none⟩
  | [c] =>
    match chomping? c, increment? c with
    | some k, _ => some ⟨k, none⟩
    | none, some n => some ⟨.clip, some n⟩
    | none, none => none
  | [c, d] =>
    match chomping? c, increment? d, chomping? d, increment? c with
    | some k, some n, _, _ => some ⟨k, some n⟩
    | _, _, some k, some n => some ⟨k, some n⟩
    | _, _, _, _ => none
  | _ => none

def skipToColumn (indent : Nat) : (ms : List Mark) → Reached Unit ms
  | [] => .none () []
  | m :: r =>
    if m.char = ' ' && m.column < indent then
      let ⟨_, rest, h⟩ := skipToColumn indent r
      ⟨(), rest, Nat.le_succ_of_le h⟩
    else .none () (m :: r)

/-- The ends of empty lines, with the blanks up to a column before them and after them. -/
def blockBreaks (indent : Nat) (ms : List Mark) : Reached Text ms :=
  let ⟨_, rest, h⟩ := skipToColumn indent ms
  match lineBreak? rest with
  | none => ⟨[], rest, h⟩
  | some ⟨b, after, hb⟩ =>
    have hlt : after.length < ms.length := Nat.lt_of_lt_of_le hb h
    let ⟨more, final, hf⟩ := blockBreaks indent after
    ⟨b :: more, final, Nat.le_trans hf (Nat.le_of_lt hlt)⟩
termination_by ms.length

/-- The ends of the empty lines before the first line, and how far the blanks among them reach. -/
def leadingBreaks : (ms : List Mark) → Reached (Text × Nat) ms
  | [] => .none ([], 0) []
  | m :: r =>
    if m.char = ' ' then
      let ⟨(breaks, reach), rest, h⟩ := leadingBreaks r
      ⟨(breaks, max reach (m.column + 1)), rest, Nat.le_succ_of_le h⟩
    else if isBreak m.char then
      let ⟨(breaks, reach), rest, h⟩ := leadingBreaks r
      ⟨((if separators.contains m.char then m.char else '\n') :: breaks, reach), rest,
        Nat.le_succ_of_le h⟩
    else .none ([], 0) (m :: r)

/-- The lines of a block scalar with what comes after them. -/
structure BlockBody where
  text : Text
  /-- The end of the last line. -/
  lastBreak : Text
  /-- The ends of the empty lines after it. -/
  breaks : Text

def isAtColumn (indent : Nat) : List Mark → Bool
  | [] => false
  | m :: _ => m.column = indent

/-- The lines of a block scalar from here on; `before` are the ends of empty lines before them. -/
def blockLines (folded : Bool) (indent : Nat) (before : Text) (ms : List Mark) :
    Reached BlockBody ms :=
  if isAtColumn indent ms then
    let ⟨line, rest, h⟩ := charsWhile (fun c => !isLineEnd c) ms
    let ⟨lastBreak, after, ha⟩ :=
      (match lineBreak? rest with
        | some ⟨b, after, hb⟩ => ⟨[b], after, Nat.le_of_lt hb⟩
        | none => .none [] rest : Reached Text rest)
    let ⟨breaks, next, hn⟩ := blockBreaks indent after
    have hle : next.length ≤ ms.length := Nat.le_trans hn (Nat.le_trans ha h)
    if _hlt : next.length < ms.length then
      if isAtColumn indent next then
        let joins := folded && lastBreak = ['\n'] && !isWhite (peek ms) && !isWhite (peek next)
        let joint := if joins then if breaks = [] then [' '] else [] else lastBreak
        let ⟨more, final, hf⟩ := blockLines folded indent breaks next
        ⟨{ more with text := before ++ line ++ joint ++ more.text }, final,
          Nat.le_trans hf hle⟩
      else ⟨⟨before ++ line, lastBreak, breaks⟩, next, hle⟩
    else .none ⟨[], [], before⟩ ms
  else .none ⟨[], [], before⟩ ms
termination_by ms.length

def BlockBody.chomp (b : BlockBody) : Chomping → Text
  | .strip => b.text
  | .clip => b.text ++ b.lastBreak
  | .keep => b.text ++ b.lastBreak ++ b.breaks

/-- A block scalar after the character that says its style; `level` is the least column of its
lines. -/
def blockScalar (folded : Bool) (level : Nat) (ms : List Mark) : Except Fault (Reached Text ms) :=
  let ⟨signs, rest, h⟩ := charsWhile (fun c => !isLineEnd c && c ≠ ' ') ms
  match blockHeader? signs, endOfLine? rest with
  | some header, some ⟨_, rest', h'⟩ =>
    let least := max level 1
    let start : Reached (Text × Nat) rest' :=
      match header.increment with
      | none =>
        let ⟨(breaks, reach), after, ha⟩ := leadingBreaks rest'
        ⟨(breaks, max least reach), after, ha⟩
      | some n =>
        let indent := least + n - 1
        let ⟨breaks, after, ha⟩ := blockBreaks indent rest'
        ⟨(breaks, indent), after, ha⟩
    let ⟨(breaks, indent), after, ha⟩ := start
    let ⟨body, final, hf⟩ := blockLines folded indent breaks after
    .ok ⟨body.chomp header.chomping, final,
      Nat.le_trans hf (Nat.le_trans ha (Nat.le_trans h' h))⟩
  | _, _ => .error .malformed

end TypedQueries.Yaml
