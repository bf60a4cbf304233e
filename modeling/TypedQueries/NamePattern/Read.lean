import TypedQueries.Found
import TypedQueries.NamePattern.Basic
import TypedQueries.NamePattern.Matcher
import TypedQueries.Text.Quoted

/-!
# Reading patterns

The written form of patterns: literal characters, classes in square brackets, escapes, groups,
alternatives and repetitions. Repetitions may be marked as reluctant, which makes no difference to
what is matched as a whole.
-/

namespace TypedQueries.NamePattern

inductive Fault where
  | unterminatedGroup
  | unterminatedSet
  | unbalancedBracket
  | nothingToRepeat
  | multipleRepeat
  | emptyRange
  | badEscape (escape : Text)
  | unfinishedEscape
  | badRange (first last : Text)
  | unknownExtension (mark : Text)
  | lateFlags
  | badReference (digits : Text)
deriving DecidableEq

/-- A fault and the position at which it is noticed. -/
structure ReadError where
  fault : Fault
  position : Nat
deriving DecidableEq

def Fault.message : Fault → Text
  | unterminatedGroup => "missing ), unterminated subpattern"
  | unterminatedSet => "unterminated character set"
  | unbalancedBracket => "unbalanced parenthesis"
  | nothingToRepeat => "nothing to repeat"
  | multipleRepeat => "multiple repeat"
  | emptyRange => "min repeat greater than max repeat"
  | badEscape e => "bad escape " ++ e
  | unfinishedEscape => "bad escape (end of pattern)"
  | badRange a b => "bad character range " ++ a ++ "-" ++ b
  | unknownExtension m => "unknown extension " ++ m
  | lateFlags => "global flags not at the start of the expression"
  | badReference ds => "invalid group reference " ++ ds

def ReadError.message (e : ReadError) : Text :=
  e.fault.message ++ " at position " ++ Text.ofNat e.position

/-- What holds for a whole pattern or a group. -/
structure Flags where
  /-- Upper and lower case make no difference. -/
  fold : Bool := false
  /-- A dot stands for line feeds too. -/
  dotAll : Bool := false
  /-- Each line has a start and an end. -/
  multiline : Bool := false

/-- A pattern that a repetition may follow, or why it may not. -/
structure Item where
  pattern : NamePattern
  /-- It is a condition on the position. -/
  isBoundary : Bool := false
  /-- It is a repetition itself. -/
  isLoop : Bool := false

/-- The pattern that items in a row make; they are given from the last on. -/
def sequence (items : List Item) : NamePattern :=
  items.foldl (fun p item => if p = .empty then item.pattern else .append item.pattern p) .empty

def positionOf (total : Nat) (t : Text) : Nat := total - t.length

def refuse {α : Type} (total : Nat) (t : Text) (f : Fault) : Except ReadError α :=
  .error ⟨f, positionOf total t⟩

/-! ### Escapes -/

inductive Escape where
  | char (c : Char)
  | part (p : CharSetPart)
  | boundary (b : Boundary)

/-- The escapes of one letter that mean the same everywhere. -/
def letterEscapes : List (Char × Escape) :=
  [('d', .part (.class_ .digit)), ('D', .part (.notClass .digit)), ('s', .part (.class_ .space)),
   ('S', .part (.notClass .space)), ('w', .part (.class_ .word)), ('W', .part (.notClass .word)),
   ('a', .char '\x07'), ('f', .char '\x0c'), ('n', .char '\n'), ('r', .char '\r'),
   ('t', .char '\t'), ('v', .char '\x0b')]

/-- The escapes of one letter that are conditions on the position. -/
def boundaryEscapes : List (Char × Escape) :=
  [('A', .boundary .start), ('Z', .boundary .absoluteFinish), ('b', .boundary .wordEdge),
   ('B', .boundary .noWordEdge)]

def hexNumber? (count : Nat) (ds : Text) : Option Nat :=
  if ds.length = count then
    (ds.mapM Text.hexValue?).map fun vs => vs.foldl (fun n v => 16 * n + v) 0
  else none

def readEscape (total : Nat) (inSet : Bool) (t : Text) : Except ReadError (Found Escape t) :=
  match t with
  | b :: c :: r =>
    let simple (e : Escape) : Except ReadError (Found Escape (b :: c :: r)) :=
      .ok ⟨e, r, Nat.lt_succ_of_lt (Nat.lt_succ_self _)⟩
    let numbered (count : Nat) : Except ReadError (Found Escape (b :: c :: r)) :=
      match hexNumber? count (r.take count) with
      | some n =>
        .ok ⟨.char (Char.ofNat n), r.drop count, by
          simp only [List.length_drop, List.length_cons]; omega⟩
      | none =>
        let digits := (r.take count).takeWhile fun d => (Text.hexValue? d).isSome
        refuse total (b :: c :: r) (.badEscape (b :: c :: digits))
    match letterEscapes.lookup c with
    | some e => simple e
    | none =>
      if c = 'x' then numbered 2
      else if c = 'u' then numbered 4
      else if c = 'U' then numbered 8
      else if c = 'b' && inSet then simple (.char '\x08')
      else
        match if inSet then none else boundaryEscapes.lookup c with
        | some e => simple e
        | none =>
          if c = '0' then simple (.char (Char.ofNat 0))
          else if Text.isAsciiDigit c && !inSet then
            refuse total (c :: r) (.badReference [c])
          else if Text.isAsciiLetter c || Text.isAsciiDigit c then
            refuse total (b :: c :: r) (.badEscape [b, c])
          else simple (.char c)
  | _ => refuse total t .unfinishedEscape

/-! ### Sets -/

/-- An element of a set: a character or a class, with the text it was read from. -/
def readElement (total : Nat) (t : Text) : Except ReadError (Found (CharSetPart × Text) t) :=
  match t with
  | [] => refuse total t .unterminatedSet
  | c :: r =>
    if c = '\\' then do
      let ⟨e, rest, h⟩ ← readEscape total true (c :: r)
      let part :=
        match e with
        | .char d => .range d d
        | .part p => p
        | .boundary _ => .range c c
      .ok ⟨(part, (c :: r).take ((c :: r).length - rest.length)), rest, h⟩
    else .ok ⟨(.range c c, [c]), r, shorter_tail c r⟩

/-- The range between two elements, both of which have to be characters. -/
def rangeOf? : CharSetPart → CharSetPart → Option CharSetPart
  | .range a _, .range b _ => if a ≤ b then some (.range a b) else none
  | _, _ => none

/-- The elements of a set and its closing bracket; `opening` is the position of its opening one. A
closing bracket that comes first is an element. -/
def readElements (total opening : Nat) (first : Bool) (t : Text) :
    Except ReadError (Found (List CharSetPart) t) :=
  match t with
  | [] => .error ⟨.unterminatedSet, opening⟩
  | c :: r =>
    if c = ']' && !first then .ok ⟨[], r, Nat.lt_succ_self _⟩
    else do
      let ⟨(a, source), r1, h1⟩ ← readElement total (c :: r)
      match Found.after? '-' r1 with
      | none =>
        let ⟨parts, rest, h⟩ ← readElements total opening false r1
        .ok ⟨a :: parts, rest, by omega⟩
      | some ⟨_, r2, h2⟩ =>
        if r2.isEmpty then .error ⟨.unterminatedSet, opening⟩
        else
          match Found.after? ']' r2 with
          | some ⟨_, rest, h⟩ => .ok ⟨[a, .range '-' '-'], rest, by omega⟩
          | none =>
            let ⟨(b, source'), r3, h3⟩ ← readElement total r2
            match rangeOf? a b with
            | none => refuse total (c :: r) (.badRange source source')
            | some part =>
              let ⟨parts, rest, h⟩ ← readElements total opening false r3
              .ok ⟨part :: parts, rest, by omega⟩
termination_by t.length
decreasing_by all_goals simp only [List.length_cons] at *; omega

/-- A set after its opening bracket, which stands at `opening`. -/
def readSet (total opening : Nat) (flags : Flags) (t : Text) :
    Except ReadError (Found NamePattern t) :=
  match t with
  | '^' :: r => do
    let ⟨parts, rest, h⟩ ← readElements total opening true r
    .ok ⟨.char ⟨parts, true, flags.fold⟩, rest, Nat.lt_succ_of_lt h⟩
  | t => do
    let ⟨parts, rest, h⟩ ← readElements total opening true t
    .ok ⟨.char ⟨parts, false, flags.fold⟩, rest, h⟩

/-! ### Repetitions -/

def number? (ds : Text) : Option Nat :=
  if ds.isEmpty then none else some (ds.foldl (fun n d => 10 * n + (d.toNat - 48)) 0)

/-- The bounds of a repetition in curly brackets, after the opening one; without an upper bound
there may be a comma. -/
def bounds? (t : Text) : Option (Found (Nat × Option Nat) t) := do
  let ⟨low, r, _h⟩ := Reached.while Text.isAsciiDigit t
  match r with
  | '}' :: rest =>
    if low.isEmpty then none
    else Found.leaving? ((number? low).getD 0, number? low) t rest
  | ',' :: r' =>
    let ⟨high, r'', _h'⟩ := Reached.while Text.isAsciiDigit r'
    match r'' with
    | '}' :: rest => Found.leaving? ((number? low).getD 0, number? high) t rest
    | _ => none
  | _ => none

/-- The repetition at the head of a text. -/
def repetition? (t : Text) : Option (Found (Nat × Option Nat) t) :=
  match t with
  | '*' :: r => some ⟨(0, none), r, Nat.lt_succ_self _⟩
  | '+' :: r => some ⟨(1, none), r, Nat.lt_succ_self _⟩
  | '?' :: r => some ⟨(0, some 1), r, Nat.lt_succ_self _⟩
  | '{' :: r => (bounds? r).map fun ⟨v, rest, h⟩ => ⟨v, rest, Nat.lt_succ_of_lt h⟩
  | _ => none

/-- Skips the mark of a reluctant repetition, if there is one. -/
def skipMark (t : Text) : Reached Unit t :=
  match t with
  | '?' :: r => ⟨(), r, Nat.le_succ _⟩
  | t => .none () t

/-- The items with the last one repeated; `t` begins with the repetition. -/
def repeatLast (total : Nat) (t after : Text) (least : Nat) (most : Option Nat) :
    List Item → Except ReadError (List Item)
  | [] => refuse total t .nothingToRepeat
  | item :: items =>
    if most.any (· < least) then refuse total after .emptyRange
    else if item.isBoundary then refuse total t .nothingToRepeat
    else if item.isLoop then refuse total t .multipleRepeat
    else .ok ({ pattern := .loop item.pattern least most, isLoop := true } :: items)

/-! ### Groups -/

def flagsOf? (flags : Flags) : Text → Option Flags
  | [] => some flags
  | 'i' :: r => flagsOf? { flags with fold := true } r
  | 's' :: r => flagsOf? { flags with dotAll := true } r
  | 'm' :: r => flagsOf? { flags with multiline := true } r
  | 'u' :: r => flagsOf? flags r
  | _ => none

/-- What kind of group begins, after its opening bracket. -/
inductive GroupKind where
  | plain (flags : Flags)
  | look (positive : Bool)

/-- The beginning of a group after its opening bracket. -/
def readGroupKind (total : Nat) (flags : Flags) (t : Text) :
    Except ReadError (Reached GroupKind t) :=
  match t with
  | '?' :: ':' :: r => .ok ⟨.plain flags, r, by simp only [List.length_cons]; omega⟩
  | '?' :: '=' :: r => .ok ⟨.look true, r, by simp only [List.length_cons]; omega⟩
  | '?' :: '!' :: r => .ok ⟨.look false, r, by simp only [List.length_cons]; omega⟩
  | '?' :: r =>
    let ⟨letters, r', h⟩ := Reached.while Text.isAsciiLetter r
    match flagsOf? flags letters, r', h with
    | some inner, ':' :: rest, h =>
      .ok ⟨.plain inner, rest, by simp only [List.length_cons] at *; omega⟩
    | some _, ')' :: _, _ => .error ⟨.lateFlags, positionOf total t - 1⟩
    | _, _, _ => refuse total t (.unknownExtension (t.take 2))
  | t => .ok (.none (.plain flags) t)

/-- The pattern of a boundary that a sign stands for. -/
def boundaryOf (b : Boundary) : Item := { pattern := .boundary b, isBoundary := true }

mutual

/-- Alternatives, up to a closing bracket or the end. -/
def readAlternatives (total : Nat) (flags : Flags) (t : Text) :
    Except ReadError (Reached NamePattern t) := do
  let ⟨items, r, h⟩ ← readItems total flags [] t
  match Found.after? '|' r with
  | none => .ok ⟨sequence items, r, h⟩
  | some ⟨_, r', h'⟩ =>
    let ⟨p, rest, h''⟩ ← readAlternatives total flags r'
    .ok ⟨.either (sequence items) p, rest, by omega⟩
termination_by 2 * t.length + 1
decreasing_by all_goals omega

/-- Items in a row after those in `done`, from the last on. -/
def readItems (total : Nat) (flags : Flags) (done : List Item) (t : Text) :
    Except ReadError (Reached (List Item) t) :=
  match t with
  | [] => .ok (.none done [])
  | c :: r =>
    if c = '|' || c = ')' then .ok (.none done (c :: r))
    else
      match repetition? (c :: r) with
      | some ⟨(least, most), r1, h1⟩ => do
        let items ← repeatLast total (c :: r) r least most done
        let ⟨_, r2, h2⟩ := skipMark r1
        let ⟨all, rest, h⟩ ← readItems total flags items r2
        .ok ⟨all, rest, by omega⟩
      | none =>
        if c = '(' then do
          let ⟨kind, r1, h1⟩ ← readGroupKind total flags r
          let inner :=
            match kind with
            | .plain f => f
            | .look _ => flags
          let ⟨p, r2, h2⟩ ← readAlternatives total inner r1
          match Found.after? ')' r2 with
          | none => refuse total (c :: r) .unterminatedGroup
          | some ⟨_, r3, h3⟩ =>
            let item : Item :=
              match kind with
              | .plain _ => { pattern := p }
              | .look positive => { pattern := .look p positive }
            let ⟨all, rest, h⟩ ← readItems total flags (item :: done) r3
            .ok ⟨all, rest, by simp only [List.length_cons] at *; omega⟩
        else if c = '[' then do
          let ⟨p, r1, h1⟩ ← readSet total (positionOf total (c :: r)) flags r
          let ⟨all, rest, h⟩ ← readItems total flags ({ pattern := p } :: done) r1
          .ok ⟨all, rest, by simp only [List.length_cons]; omega⟩
        else if c = '\\' then do
          let ⟨e, r1, h1⟩ ← readEscape total false (c :: r)
          let item : Item :=
            match e with
            | .char d => { pattern := .char (.single flags.fold d) }
            | .part p => { pattern := .char ⟨[p], false, flags.fold⟩ }
            | .boundary b => boundaryOf b
          let ⟨all, rest, h⟩ ← readItems total flags (item :: done) r1
          .ok ⟨all, rest, by simp only [List.length_cons] at *; omega⟩
        else do
          let item : Item :=
            if c = '.' then { pattern := .char (.dot flags.dotAll) }
            else if c = '^' then boundaryOf (if flags.multiline then .lineStart else .start)
            else if c = '$' then boundaryOf (if flags.multiline then .lineFinish else .finish)
            else { pattern := .char (.single flags.fold c) }
          let ⟨all, rest, h⟩ ← readItems total flags (item :: done) r
          .ok ⟨all, rest, Nat.le_succ_of_le h⟩
termination_by 2 * t.length
decreasing_by all_goals simp only [List.length_cons] at *; omega

end

/-- The flags that a pattern begins with, and the rest. -/
def leadingFlags (t : Text) : Flags × Text :=
  match t with
  | '(' :: '?' :: r =>
    match flagsOf? {} (r.takeWhile Text.isAsciiLetter), r.dropWhile Text.isAsciiLetter with
    | some flags, ')' :: rest => (flags, rest)
    | _, _ => ({}, t)
  | t => ({}, t)

def read (t : Text) : Except ReadError NamePattern := do
  let (flags, body) := leadingFlags t
  let ⟨p, rest, _⟩ ← readAlternatives t.length flags body
  if rest.isEmpty then .ok p else refuse t.length rest .unbalancedBracket

def ReadError.patternFault (e : ReadError) : PatternFault :=
  ⟨"error(" ++ Text.Quoted.encode e.message ++ ")"⟩

namespace Standard

/-- The matcher for the patterns that can be read here. Half of a surrogate pair stands in no name,
and neither does the character that takes its place. -/
scoped instance : NameMatcher where
  compile form :=
    match read form.replaced with
    | .ok p => .ok p.matchesAll
    | .error e => .error e.patternFault

end Standard

end TypedQueries.NamePattern
