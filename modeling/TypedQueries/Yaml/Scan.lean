import TypedQueries.Yaml.Block
import TypedQueries.Yaml.Quoted
import TypedQueries.Yaml.Token

/-!
# From characters to tokens

Indentation begins and ends block collections. That something is a key shows only at the colon
after it, so each place where a key may begin is kept in mind until the colon comes or it is too
late; the tokens that make it a key are then put in at that place.
-/

namespace TypedQueries.Yaml

/-- A place where a key may begin. -/
structure KeyCandidate where
  /-- How many tokens come before it. -/
  position : Nat
  /-- Whether there has to be a key. -/
  required : Bool
  start : Mark

/-- How far a key may be from its colon. -/
def keySpan : Nat := 1024

def KeyCandidate.isStale (k : KeyCandidate) (here : Mark) : Bool :=
  k.start.line ≠ here.line || keySpan < here.index - k.start.index

/-- How far the tokens of a document have been found. -/
structure Scanner where
  tokens : List Token
  /-- One more than the column of the innermost block collection; zero outside of all. -/
  level : Nat
  /-- The levels of the block collections around it. -/
  outer : List Nat
  /-- The depth of brackets. -/
  depth : Nat
  /-- Whether a key may begin here. -/
  keyAllowed : Bool
  /-- The places where a key may begin, by their depth of brackets. -/
  candidates : List (Nat × KeyCandidate)

namespace Scanner

def initial : Scanner := ⟨[], 0, [], 0, true, []⟩

/-- Forgets the places that are too far away for a key. -/
def dropStale (s : Scanner) (here : Mark) : Except Fault Scanner :=
  let stale (c : Nat × KeyCandidate) : Bool := c.2.isStale here
  if s.candidates.any fun c => stale c && c.2.required then .error .malformed
  else .ok { s with candidates := s.candidates.filter fun c => !stale c }

def dropCandidate (s : Scanner) : Except Fault Scanner :=
  match s.candidates.lookup s.depth with
  | none => .ok s
  | some k =>
    if k.required then .error .malformed
    else .ok { s with candidates := s.candidates.filter fun c => c.1 ≠ s.depth }

/-- Keeps in mind that a key may begin here. -/
def saveCandidate (s : Scanner) (here : Mark) : Except Fault Scanner :=
  if s.keyAllowed then do
    let required := s.depth = 0 && s.level = here.column + 1
    let s ← s.dropCandidate
    .ok { s with candidates := (s.depth, ⟨s.tokens.length, required, here⟩) :: s.candidates }
  else .ok s

def push (s : Scanner) (t : Token) : Scanner := { s with tokens := s.tokens ++ [t] }

def insertAt (s : Scanner) (position : Nat) (t : Token) : Scanner :=
  { s with tokens := s.tokens.take position ++ t :: s.tokens.drop position }

/-- The ends of block collections down to a level, and the levels that remain. -/
def closed (target : Nat) : (level : Nat) → (outer : List Nat) → List Token × Nat × List Nat
  | level, [] => ([], level, [])
  | level, l :: outer =>
    if target < level then
      let (ends, rest) := closed target l outer
      (.blockEnd :: ends, rest)
    else ([], level, l :: outer)

def unwind (s : Scanner) (target : Nat) : Scanner :=
  let (ends, level, outer) := closed target s.level s.outer
  { s with tokens := s.tokens ++ ends, level := level, outer := outer }

/-- Whether a block collection in a column is a new one. -/
def opens (s : Scanner) (column : Nat) : Bool := s.level < column + 1

/-- The scanner inside a new block collection in a column. -/
def indent (s : Scanner) (column : Nat) : Scanner :=
  { s with outer := s.level :: s.outer, level := column + 1 }

/-- The scanner inside a block collection in a column, begun by a token if it is a new one. -/
def enter (s : Scanner) (column : Nat) (t : Token) : Scanner :=
  if s.opens column then (s.indent column).push t else s

def allowKey (s : Scanner) (allowed : Bool) : Scanner := { s with keyAllowed := allowed }

/-! ### Single tokens -/

def finish (s : Scanner) : Except Fault (List Token) := do
  let s ← (s.unwind 0).dropCandidate
  .ok s.tokens

def outermost (s : Scanner) (t : Token) : Except Fault Scanner := do
  let s ← (s.unwind 0).dropCandidate
  .ok ((s.allowKey false).push t)

def openBracket (s : Scanner) (here : Mark) (t : Token) : Except Fault Scanner := do
  let s ← s.saveCandidate here
  .ok ({ s with depth := s.depth + 1, keyAllowed := true }.push t)

def closeBracket (s : Scanner) (t : Token) : Except Fault Scanner := do
  let s ← s.dropCandidate
  if s.depth = 0 then .error .malformed
  else .ok ({ s with depth := s.depth - 1, keyAllowed := false }.push t)

def comma (s : Scanner) : Except Fault Scanner := do
  let s ← s.dropCandidate
  .ok ((s.allowKey true).push .flowEntry)

def hyphen (s : Scanner) (here : Mark) : Except Fault Scanner := do
  if s.depth = 0 && !s.keyAllowed then .error .malformed
  else
    let s := if s.depth = 0 then s.enter here.column .blockSequenceStart else s
    let s ← (s.allowKey true).dropCandidate
    .ok (s.push .blockEntry)

def questionMark (s : Scanner) (here : Mark) : Except Fault Scanner := do
  if s.depth = 0 && !s.keyAllowed then .error .malformed
  else
    let s := if s.depth = 0 then s.enter here.column .blockMappingStart else s
    let s ← (s.allowKey (s.depth = 0)).dropCandidate
    .ok (s.push .key)

/-- The colon before a value. If a key may have begun before it, that was one. -/
def colon (s : Scanner) (here : Mark) : Except Fault Scanner :=
  match s.candidates.lookup s.depth with
  | some k =>
    let s := { s with candidates := s.candidates.filter fun c => c.1 ≠ s.depth }
    let s := s.insertAt k.position .key
    let s :=
      if s.depth = 0 && s.opens k.start.column then
        (s.indent k.start.column).insertAt k.position .blockMappingStart
      else s
    .ok ((s.allowKey false).push .value)
  | none =>
    if s.depth = 0 && !s.keyAllowed then .error .malformed
    else
      let s := if s.depth = 0 then s.enter here.column .blockMappingStart else s
      .ok ((s.allowKey (s.depth = 0)).push .value)

/-- A token that may be the beginning of a key. -/
def keyLike (s : Scanner) (here : Mark) : Except Fault Scanner := do
  let s ← s.saveCandidate here
  .ok (s.allowKey false)

/-! ### The next token -/

/-- Whether a plain scalar may begin with `c`, which `following` comes after. -/
def beginsPlain (flow : Bool) (c following : Char) : Bool :=
  let special : List Char :=
    ['-', '?', ':', ',', '[', ']', '\x7b', '\x7d', '#', '&', '*', '!', '|', '>', '\'', '"', '%',
      '@', '\x60']
  (!isGap c && !special.contains c) ||
    (!isGap following && (c = '-' || (!flow && (c = '?' || c = ':'))))

/-- What is wrong with a token becomes a fault of the document. -/
def orMalformed {α : Type} : Option α → Except Fault α
  | some a => .ok a
  | none => .error .malformed

def next (s : Scanner) (m : Mark) (r : List Mark) : Except Fault (Found Scanner (m :: r)) :=
  let one (s : Except Fault Scanner) : Except Fault (Found Scanner (m :: r)) := do
    let s ← s
    .ok ⟨s, r, shorter_tail m r⟩
  let atStart := m.column = 0
  let flow := decide (0 < s.depth)
  let c := m.char
  if c = '%' && atStart then do
    let ⟨p, rest, h⟩ ← orMalformed (pragma? r)
    let s ← s.outermost (.pragma p)
    .ok ⟨s, rest, shorter_cons_of_atMost m h⟩
  else if atStart && isAnyBoundary (m :: r) then do
    let s ← s.outermost (if c = '-' then .documentStart else .documentEnd)
    let ⟨_, rest, h⟩ := Reached.drop 2 r
    .ok ⟨s, rest, shorter_cons_of_atMost m h⟩
  else if c = '[' then one (s.openBracket m .flowSequenceStart)
  else if c = '\x7b' then one (s.openBracket m .flowMappingStart)
  else if c = ']' then one (s.closeBracket .flowSequenceEnd)
  else if c = '\x7d' then one (s.closeBracket .flowMappingEnd)
  else if c = ',' then one s.comma
  else if c = '-' && isGap (peek r) then one (s.hyphen m)
  else if c = '?' && (flow || isGap (peek r)) then one (s.questionMark m)
  else if c = ':' && (flow || isGap (peek r)) then one (s.colon m)
  else if c = '*' || c = '&' then do
    let s ← s.keyLike m
    let ⟨n, rest, h⟩ ← orMalformed (anchorName? r)
    .ok ⟨s.push (if c = '*' then .alias n else .anchor n), rest, shorter_cons_of_atMost m h⟩
  else if c = '!' then do
    let s ← s.keyLike m
    let ⟨t, rest, h⟩ ← orMalformed (tagName? r)
    .ok ⟨s.push (.tag t), rest, shorter_cons_of_atMost m h⟩
  else if (c = '|' || c = '>') && !flow then do
    let s ← (s.allowKey true).dropCandidate
    let ⟨t, rest, h⟩ ← blockScalar (c = '>') s.level r
    .ok ⟨s.push (.scalar t false), rest, shorter_cons_of_atMost m h⟩
  else if c = '\'' || c = '"' then do
    let s ← s.keyLike m
    let ⟨t, rest, h⟩ ← quotedScalar c r
    .ok ⟨s.push (.scalar t false), rest, shorter_cons m h⟩
  else if beginsPlain flow c (peek r) then do
    let s ← s.keyLike m
    let ⟨p, rest, h⟩ ← orMalformed (plainScalar? flow s.level (m :: r))
    .ok ⟨(s.allowKey p.endsLine).push (.scalar p.text true), rest, h⟩
  else .error .malformed

def run (s : Scanner) (ms : List Mark) : Except Fault (List Token) :=
  let ⟨crossed, rest, h⟩ := toNextToken ms
  let s := if crossed && s.depth = 0 then s.allowKey true else s
  match rest, h with
  | [], _ => s.finish
  | m :: r, _h =>
    match s.dropStale m with
    | .error e => .error e
    | .ok s =>
      let s := if s.depth = 0 then s.unwind (m.column + 1) else s
      match s.next m r with
      | .error e => .error e
      | .ok ⟨s, rest, _h'⟩ => run s rest
termination_by ms.length

end Scanner

def tokens (t : Text) : Except Fault (List Token) :=
  if t.all isAdmissible then
    let body := if t.head? = some orderMark then t.drop 1 else t
    Scanner.initial.run (marksFrom 0 0 0 body)
  else .error .malformed

end TypedQueries.Yaml
