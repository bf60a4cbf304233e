import TypedQueries.Found
import TypedQueries.Yaml.Token

/-!
# Nodes

The tree that the tokens of a document describe: scalars, sequences and mappings, each perhaps with
an anchor and a tag, and aliases. Where a key or a value is missing there is an empty plain scalar.
-/

namespace TypedQueries.Yaml

structure Properties where
  anchor : Option Text
  /-- The tag in full. -/
  tag : Option Text
deriving DecidableEq

inductive Node where
  | alias (name : Text)
  | scalar (properties : Properties) (text : CodedText) (plain : Bool)
  | sequence (properties : Properties) (items : List Node)
  | mapping (properties : Properties) (pairs : List (Node × Node))

def Properties.none : Properties := ⟨.none, .none⟩

/-- What takes the place of a missing node. -/
def Node.empty : Node := .scalar .none [] true

abbrev Handles := List (Text × Text)

/-- What begins the tags of the usual kinds of values. -/
def coreTag : Text := "tag:yaml.org,2002:"

/-- What handles stand for if nothing else is said. -/
def usualHandles : Handles := [(['!'], ['!']), (['!', '!'], coreTag)]

def TagName.full? (handles : Handles) (t : TagName) : Option Text :=
  match t.handle with
  | none => some t.suffix
  | some h => (handles.lookup h).map (· ++ t.suffix)

/-- The properties at the head of some tokens: an anchor and a tag, in either order. -/
def properties? (handles : Handles) : (ts : List Token) → Option (Reached Properties ts)
  | .anchor a :: .tag t :: r => do
    let tag ← t.full? handles
    some ⟨⟨some a, some tag⟩, r, by simp only [List.length_cons]; omega⟩
  | .anchor a :: r => some ⟨⟨some a, none⟩, r, Nat.le_succ _⟩
  | .tag t :: .anchor a :: r => do
    let tag ← t.full? handles
    some ⟨⟨some a, some tag⟩, r, by simp only [List.length_cons]; omega⟩
  | .tag t :: r => do
    let tag ← t.full? handles
    some ⟨⟨none, some tag⟩, r, Nat.le_succ _⟩
  | ts => some (.none .none ts)

/-- Where a node stands, which decides what collections it can be. -/
inductive Place where
  /-- Inside brackets. -/
  | flow
  | block
  /-- As a key or value of a block mapping, where the items of a sequence need no further
  indentation. -/
  | entry
deriving DecidableEq

def startsWith (ends : List Token) : List Token → Bool
  | [] => true
  | t :: _ => ends.contains t

/-- The tokens before which an item of a block sequence is missing. -/
def itemEnds : List Token := [.blockEntry, .blockEnd]

/-- The tokens before which an item of a sequence without indentation is missing. -/
def looseItemEnds : List Token := [.blockEntry, .key, .value, .blockEnd]

/-- The tokens before which a part of a block mapping is missing. -/
def pairEnds : List Token := [.key, .value, .blockEnd]

/-- The tokens before which a key in brackets is missing. -/
def flowKeyEnds (close : Token) : List Token := [.value, .flowEntry, close]

/-- The tokens before which a value in brackets is missing. -/
def flowValueEnds (close : Token) : List Token := [.flowEntry, close]

def comma? (first : Bool) (ts : List Token) : Option (Reached Unit ts) :=
  if first then some (.none () ts)
  else
    match ts with
    | .flowEntry :: r => some ⟨(), r, Nat.le_succ _⟩
    | _ => none

mutual

/-- The node at the head of some tokens. -/
def node? (handles : Handles) (place : Place) (ts : List Token) : Option (Found Node ts) :=
  match ts with
  | .alias name :: r => some ⟨.alias name, r, Nat.lt_succ_self _⟩
  | ts => do
    let ⟨p, rest, h⟩ ← properties? handles ts
    let bare : Option (Found Node ts) :=
      if p = .none then none else Found.leaving? (.scalar p [] true) ts rest
    match rest, h with
    | .scalar t plain :: r, h => some ⟨.scalar p t plain, r, Nat.lt_of_succ_le h⟩
    | .flowSequenceStart :: r, h => do
      let ⟨items, final, hf⟩ ← flowItems? handles true r
      some ⟨.sequence p items, final, Nat.lt_trans hf (Nat.lt_of_succ_le h)⟩
    | .flowMappingStart :: r, h => do
      let ⟨pairs, final, hf⟩ ← flowPairs? handles true r
      some ⟨.mapping p pairs, final, Nat.lt_trans hf (Nat.lt_of_succ_le h)⟩
    | .blockSequenceStart :: r, h =>
      if place = .flow then bare
      else do
        let ⟨items, final, hf⟩ ← blockItems? handles r
        some ⟨.sequence p items, final, Nat.lt_trans hf (Nat.lt_of_succ_le h)⟩
    | .blockMappingStart :: r, h =>
      if place = .flow then bare
      else do
        let ⟨pairs, final, hf⟩ ← blockPairs? handles r
        some ⟨.mapping p pairs, final, Nat.lt_trans hf (Nat.lt_of_succ_le h)⟩
    | .blockEntry :: r, _ =>
      if place = .entry then do
        let ⟨items, final, _⟩ ← looseItems? handles (.blockEntry :: r)
        Found.leaving? (.sequence p items) ts final
      else bare
    | _, _ => bare
termination_by 3 * ts.length + 1
decreasing_by
  all_goals simp only [List.length_cons] at *
  all_goals omega

def blockItems? (handles : Handles) (ts : List Token) : Option (Found (List Node) ts) :=
  match ts with
  | .blockEnd :: r => some ⟨[], r, Nat.lt_succ_self _⟩
  | .blockEntry :: r =>
    if startsWith itemEnds r then do
      let ⟨items, final, hf⟩ ← blockItems? handles r
      some ⟨.empty :: items, final, Nat.lt_succ_of_lt hf⟩
    else do
      let ⟨n, rest, h⟩ ← node? handles .block r
      let ⟨items, final, hf⟩ ← blockItems? handles rest
      some ⟨n :: items, final, Nat.lt_succ_of_lt (Nat.lt_trans hf h)⟩
  | _ => none
termination_by 3 * ts.length
decreasing_by
  all_goals simp only [List.length_cons] at *
  all_goals omega

/-- The items of a sequence without indentation, as many as there are. -/
def looseItems? (handles : Handles) (ts : List Token) : Option (Reached (List Node) ts) :=
  match ts with
  | .blockEntry :: r =>
    if startsWith looseItemEnds r then do
      let ⟨items, final, hf⟩ ← looseItems? handles r
      some ⟨.empty :: items, final, Nat.le_succ_of_le hf⟩
    else do
      let ⟨n, rest, h⟩ ← node? handles .block r
      let ⟨items, final, hf⟩ ← looseItems? handles rest
      some ⟨n :: items, final, Nat.le_succ_of_le (Nat.le_trans hf (Nat.le_of_lt h))⟩
  | ts => some (.none [] ts)
termination_by 3 * ts.length
decreasing_by
  all_goals simp only [List.length_cons] at *
  all_goals omega

/-- A part of a block mapping: a node, or an empty one where it is missing. -/
def blockPart? (handles : Handles) (ts : List Token) : Option (Reached Node ts) :=
  if startsWith pairEnds ts then some (.none .empty ts)
  else do
    let f ← node? handles .entry ts
    some f.reached
termination_by 3 * ts.length + 2

/-- The pairs of a block mapping, up to and with its end. -/
def blockPairs? (handles : Handles) (ts : List Token) : Option (Found (List (Node × Node)) ts) :=
  match ts with
  | .blockEnd :: r => some ⟨[], r, Nat.lt_succ_self _⟩
  | .key :: r => do
    let ⟨k, rest, h⟩ ← blockPart? handles r
    match rest, h with
    | .value :: r', h => do
      let ⟨v, after, ha⟩ ← blockPart? handles r'
      let ⟨pairs, final, hf⟩ ← blockPairs? handles after
      some ⟨(k, v) :: pairs, final,
        Nat.lt_succ_of_lt (Nat.lt_of_lt_of_le hf (Nat.le_trans ha (Nat.le_of_succ_le h)))⟩
    | rest, h => do
      let ⟨pairs, final, hf⟩ ← blockPairs? handles rest
      some ⟨(k, .empty) :: pairs, final, Nat.lt_succ_of_lt (Nat.lt_of_lt_of_le hf h)⟩
  | _ => none
termination_by 3 * ts.length
decreasing_by
  all_goals simp only [List.length_cons] at *
  all_goals omega

/-- The value of a pair in brackets, which may be missing together with its colon. -/
def flowValue? (handles : Handles) (close : Token) (ts : List Token) : Option (Reached Node ts) :=
  match ts with
  | .value :: r =>
    if startsWith (flowValueEnds close) r then some ⟨.empty, r, Nat.le_succ _⟩
    else do
      let ⟨n, rest, h⟩ ← node? handles .flow r
      some ⟨n, rest, Nat.le_succ_of_le (Nat.le_of_lt h)⟩
  | ts => some (.none .empty ts)
termination_by 3 * ts.length
decreasing_by
  all_goals simp only [List.length_cons] at *
  all_goals omega

/-- A pair in brackets after the indicator of its key. -/
def flowPair? (handles : Handles) (close : Token) (ts : List Token) :
    Option (Reached (Node × Node) ts) := do
  let ⟨k, rest, h⟩ ←
    (if startsWith (flowKeyEnds close) ts then some (.none .empty ts)
    else (node? handles .flow ts).map Found.reached : Option (Reached Node ts))
  let ⟨v, final, hf⟩ ← flowValue? handles close rest
  some ⟨(k, v), final, Nat.le_trans hf h⟩
termination_by 3 * ts.length + 2
decreasing_by
  all_goals omega

def flowItems? (handles : Handles) (first : Bool) (ts : List Token) :
    Option (Found (List Node) ts) :=
  match ts with
  | .flowSequenceEnd :: r => some ⟨[], r, Nat.lt_succ_self _⟩
  | ts => do
    let ⟨_, rest, h⟩ ← comma? first ts
    match rest, h with
    | .flowSequenceEnd :: r, h => some ⟨[], r, Nat.lt_of_succ_le h⟩
    | .key :: r, h => do
      let ⟨pair, after, ha⟩ ← flowPair? handles .flowSequenceEnd r
      let ⟨items, final, hf⟩ ← flowItems? handles false after
      some ⟨.mapping .none [pair] :: items, final,
        Nat.lt_of_lt_of_le hf (Nat.le_trans ha (Nat.le_of_succ_le h))⟩
    | rest, h => do
      let ⟨n, after, ha⟩ ← node? handles .flow rest
      let ⟨items, final, hf⟩ ← flowItems? handles false after
      some ⟨n :: items, final, Nat.lt_of_lt_of_le hf (Nat.le_trans (Nat.le_of_lt ha) h)⟩
termination_by 3 * ts.length + 2
decreasing_by
  all_goals try simp only [List.length_cons] at *
  all_goals omega

/-- The pairs of a mapping in brackets, up to and with the closing one; commas stand between
them. -/
def flowPairs? (handles : Handles) (first : Bool) (ts : List Token) :
    Option (Found (List (Node × Node)) ts) :=
  match ts with
  | .flowMappingEnd :: r => some ⟨[], r, Nat.lt_succ_self _⟩
  | ts => do
    let ⟨_, rest, h⟩ ← comma? first ts
    match rest, h with
    | .flowMappingEnd :: r, h => some ⟨[], r, Nat.lt_of_succ_le h⟩
    | .key :: r, h => do
      let ⟨pair, after, ha⟩ ← flowPair? handles .flowMappingEnd r
      let ⟨pairs, final, hf⟩ ← flowPairs? handles false after
      some ⟨pair :: pairs, final,
        Nat.lt_of_lt_of_le hf (Nat.le_trans ha (Nat.le_of_succ_le h))⟩
    | rest, h => do
      let ⟨n, after, ha⟩ ← node? handles .flow rest
      let ⟨pairs, final, hf⟩ ← flowPairs? handles false after
      some ⟨(n, .empty) :: pairs, final,
        Nat.lt_of_lt_of_le hf (Nat.le_trans (Nat.le_of_lt ha) h)⟩
termination_by 3 * ts.length + 2
decreasing_by
  all_goals try simp only [List.length_cons] at *
  all_goals omega

end

/-! ### Documents -/

/-- The pragmas at the head of some tokens: the handles that they define, after those given. A
second version, a version that is not known and a second meaning of a handle are refused. -/
def pragmas? (versioned : Bool) (handles : Handles) : List Token → Option (Handles × List Token)
  | .pragma (.version major _) :: r =>
    if versioned || major ≠ 1 then none else pragmas? true handles r
  | .pragma (.tagHandle h expansion) :: r =>
    if (handles.lookup h).isSome then none else pragmas? versioned (handles ++ [(h, expansion)]) r
  | .pragma .other :: r => pragmas? versioned handles r
  | ts => some (handles, ts)

/-- Whether nothing is left after a document but marks of its end. -/
def isOver (ts : List Token) : Bool := ts.all (· = .documentEnd)

/-- The node of a document that has begun; it may be missing. -/
def content? (handles : Handles) (ts : List Token) : Option Node :=
  match ts with
  | [] => some .empty
  | .documentEnd :: r => if isOver r then some .empty else none
  | ts =>
    match node? handles .block ts with
    | some ⟨n, rest, _⟩ => if isOver rest then some n else none
    | none => none

def document? (ts : List Token) : Option (Option Node) :=
  match ts with
  | [] => some none
  | .documentStart :: r => (content? usualHandles r).map some
  | .pragma p :: r => do
    let (handles, rest) ← pragmas? false [] (.pragma p :: r)
    match rest with
    | .documentStart :: r => (content? (handles ++ usualHandles) r).map some
    | _ => none
  | .documentEnd :: _ => none
  | ts => (content? usualHandles ts).map some

end TypedQueries.Yaml
