import TypedQueries.Text.Utf8
import TypedQueries.Text.CodePoint
import TypedQueries.Yaml.Fault
import TypedQueries.Yaml.Mark

/-!
# Tokens

What a document is made of once its indentation has been understood: the beginnings and ends of
collections, indicators, scalars and what may be said about them. The readers here are those of
tokens that are no scalars.
-/

namespace TypedQueries.Yaml

/-- A line about the document that comes before it. -/
inductive Pragma where
  | version (major minor : Nat)
  /-- What a handle in a tag stands for. -/
  | tagHandle (handle expansion : Text)
  | other
deriving DecidableEq

structure TagName where
  /-- The handle, unless the tag is written in full. -/
  handle : Option Text
  suffix : Text
deriving DecidableEq

inductive Token where
  | pragma (p : Pragma)
  | documentStart
  | documentEnd
  | blockSequenceStart
  | blockMappingStart
  | blockEnd
  | flowSequenceStart
  | flowSequenceEnd
  | flowMappingStart
  | flowMappingEnd
  | blockEntry
  | flowEntry
  | key
  | value
  | alias (name : Text)
  | anchor (name : Text)
  | tag (name : TagName)
  /-- A scalar; whether it is plain decides what it can stand for. -/
  | scalar (text : CodedText) (plain : Bool)
deriving DecidableEq

def isNamePart (c : Char) : Bool :=
  Text.isAsciiLetter c || Text.isAsciiDigit c || c = '-' || c = '_'

def name? (ms : List Mark) : Option (Reached Text ms) :=
  match charsWhile isNamePart ms with
  | ⟨[], _, _⟩ => none
  | r => some r

def anchorName? (ms : List Mark) : Option (Reached Text ms) := do
  let ⟨n, rest, h⟩ ← name? ms
  let c := peek rest
  if isGap c || ['?', ':', ',', ']', '\x7d', '%', '@', '\x60'].contains c then
    some ⟨n, rest, h⟩
  else none

/-! ### Tags -/

/-- Whether a character other than a percent sign may stand in a tag. -/
def isTagPart (c : Char) : Bool :=
  isNamePart c || (";/?:@&=+$,.!~*'()[]" : String).toList.contains c

/-- A byte written as a percent sign and two hexadecimal digits. -/
def escapedByte? : (ms : List Mark) → Option (Found UInt8 ms)
  | p :: a :: b :: r =>
    if p.char = '%' then do
      let x ← Text.hexValue? a.char
      let y ← Text.hexValue? b.char
      some ⟨UInt8.ofNat (16 * x + y), r, by simp only [List.length_cons]; omega⟩
    else none
  | _ => none

/-- Escaped bytes, as many as there are. -/
def escapedBytes (ms : List Mark) : Reached Bytes ms :=
  match escapedByte? ms with
  | none => .none [] ms
  | some ⟨b, rest, h⟩ =>
    let ⟨more, final, hf⟩ := escapedBytes rest
    ⟨b :: more, final, Nat.le_trans hf (Nat.le_of_lt h)⟩
termination_by ms.length

def tagText? (ms : List Mark) : Option (Reached Text ms) :=
  match ms with
  | [] => some (.none [] [])
  | m :: r =>
    if isTagPart m.char then do
      let ⟨more, rest, h⟩ ← tagText? r
      some ⟨m.char :: more, rest, Nat.le_succ_of_le h⟩
    else if m.char = '%' then
      match escapedBytes (m :: r) with
      | ⟨bytes, rest, _⟩ =>
        if hlt : rest.length < (m :: r).length then do
          let t ← (Text.Utf8.decode bytes).toOption
          let ⟨more, final, hf⟩ ← tagText? rest
          some ⟨t ++ more, final, Nat.le_trans hf (Nat.le_of_lt hlt)⟩
        else none
    else some (.none [] (m :: r))
termination_by ms.length
decreasing_by
  all_goals simp only [List.length_cons] at *
  all_goals omega

/-- The characters of a tag, at least one. -/
def nonemptyTagText? (ms : List Mark) : Option (Reached Text ms) :=
  match tagText? ms with
  | some ⟨[], _, _⟩ => none
  | r => r

/-- A handle: an exclamation mark, which a name and another one may follow. -/
def tagHandle? (ms : List Mark) : Option (Found Text ms) :=
  match ms with
  | [] => none
  | m :: r =>
    if m.char ≠ '!' then none
    else if peek r = ' ' then some ⟨['!'], r, shorter_tail m r⟩
    else
      let ⟨n, rest, h⟩ := charsWhile isNamePart r
      match rest, h with
      | m' :: r', h =>
        have h' := shorter_of_cons_atMost m' h
        if m'.char = '!' then some ⟨'!' :: n ++ ['!'], r', shorter_cons m h'⟩
        else none
      | [], _ => none

/-- Whether a tag has a handle that is more than an exclamation mark: another one follows on the
same word. -/
def hasNamedHandle (ms : List Mark) : Bool :=
  (ms.takeWhile fun m => m.char ≠ ' ' && !isLineEnd m.char).any fun m => m.char = '!'

def tagName? (ms : List Mark) : Option (Reached TagName ms) := do
  let ⟨t, rest, h⟩ ←
    (if peek ms = '<' then
      match ms with
      | [] => none
      | _ :: r => do
        let ⟨suffix, rest, h⟩ ← nonemptyTagText? r
        match rest, h with
        | m' :: r', h =>
          if m'.char = '>' then
            some ⟨⟨none, suffix⟩, r', Nat.le_succ_of_le (Nat.le_of_succ_le h)⟩
          else none
        | [], _ => none
    else if isGap (peek ms) then some (.none ⟨none, ['!']⟩ ms)
    else if hasNamedHandle ms then do
      let ⟨n, rest, h⟩ := charsWhile isNamePart ms
      match rest, h with
      | m' :: r', h =>
        if m'.char = '!' then do
          let ⟨suffix, final, hf⟩ ← nonemptyTagText? r'
          some ⟨⟨some ('!' :: n ++ ['!']), suffix⟩, final,
            Nat.le_trans hf (Nat.le_of_succ_le h)⟩
        else none
      | [], _ => none
    else do
      let ⟨suffix, rest, h⟩ ← nonemptyTagText? ms
      some ⟨⟨some ['!'], suffix⟩, rest, h⟩ : Option (Reached TagName ms))
  if peek rest = ' ' || isLineEnd (peek rest) then some ⟨t, rest, h⟩ else none

/-! ### Pragmas -/

def number? (ms : List Mark) : Option (Reached Nat ms) :=
  match charsWhile Text.isAsciiDigit ms with
  | ⟨[], _, _⟩ => none
  | ⟨digits, rest, h⟩ =>
    some ⟨digits.foldl (fun n d => 10 * n + (d.toNat - '0'.toNat)) 0, rest, h⟩

def endsWord (ms : List Mark) : Bool := peek ms = ' ' || isLineEnd (peek ms)

def version? (ms : List Mark) : Option (Reached Pragma ms) := do
  let ⟨_, r₀, h₀⟩ := charsWhile (· = ' ') ms
  let ⟨major, r₁, h₁⟩ ← number? r₀
  match r₁, h₁ with
  | m :: r₂, h₁ =>
    if m.char = '.' then do
      let ⟨minor, r₃, h₃⟩ ← number? r₂
      if endsWord r₃ then
        some ⟨.version major minor, r₃,
          Nat.le_trans h₃ (Nat.le_trans (Nat.le_of_succ_le h₁) h₀)⟩
      else none
    else none
  | [], _ => none

def handleDefinition? (ms : List Mark) : Option (Reached Pragma ms) := do
  let ⟨_, r₀, h₀⟩ := charsWhile (· = ' ') ms
  let ⟨handle, r₁, h₁⟩ ← tagHandle? r₀
  if peek r₁ = ' ' then do
    let ⟨_, r₂, h₂⟩ := charsWhile (· = ' ') r₁
    let ⟨expansion, r₃, h₃⟩ ← nonemptyTagText? r₂
    if endsWord r₃ then
      some ⟨.tagHandle handle expansion, r₃,
        Nat.le_trans h₃ (Nat.le_trans h₂ (Nat.le_trans (Nat.le_of_lt h₁) h₀))⟩
    else none
  else none

def pragma? (ms : List Mark) : Option (Reached Pragma ms) := do
  let ⟨n, r₀, h₀⟩ ← name? ms
  if !endsWord r₀ then none
  else do
    let ⟨p, r₁, h₁⟩ ←
      (if n = "YAML".toList then version? r₀
      else if n = "TAG".toList then handleDefinition? r₀
      else
        let ⟨_, rest, h⟩ := charsWhile (fun c => !isLineEnd c) r₀
        some ⟨.other, rest, h⟩ : Option (Reached Pragma r₀))
    have h := atMost_trans h₀ h₁
    let ⟨_, r₂, h₂⟩ ← endOfLine? r₁
    some ⟨p, r₂, atMost_trans h h₂⟩

end TypedQueries.Yaml
