import TypedQueries.Value.Basic

/-!
# JSON notation

Values are written in JSON notation over several lines, with two blanks more at each level. The
entries of a map stand in the order of their keys. Dates and moments are written as texts.
-/

namespace TypedQueries.Value.Json

def encodeChar (c : Char) : Text :=
  if c = '"' then ['\\', '"']
  else if c = '\\' then ['\\', '\\']
  else if c = '\n' then ['\\', 'n']
  else if c = '\r' then ['\\', 'r']
  else if c = '\t' then ['\\', 't']
  else if c.toNat = 8 then ['\\', 'b']
  else if c.toNat = 12 then ['\\', 'f']
  else if c.toNat < 32 then '\\' :: 'u' :: Text.hex 4 c.toNat
  else [c]

def encodePoint : CodePoint → Text
  | .char c => encodeChar c
  | .half n => CodePoint.halfEscape n

def quoted (t : CodedText) : Text := '"' :: t.flatMap encodePoint ++ ['"']

def number : Double → Text
  | .nan => "NaN"
  | .infinite negative => if negative then "-Infinity" else "Infinity"
  | d => d.text

def simple : Value → Text
  | null => "null"
  | bool b => if b then "true" else "false"
  | int n => Text.ofInt n
  | float d => number d
  | v => quoted v.written

def keyText : Value → Text
  | .text t => t.shown
  | v => simple v

def indentation (depth : Nat) : Text := List.replicate (2 * depth) ' '

/-- Items between brackets, each on a line of its own. -/
def bracketed (opening closing : Char) (depth : Nat) (items : List Text) : Text :=
  if items.isEmpty then [opening, closing]
  else
    opening :: '\n' ::
      (Text.join ",\n" (items.map (indentation (depth + 1) ++ ·)) ++
        '\n' :: indentation depth ++ [closing])

/-- The written forms of entries, in the order of their keys. -/
def sorted (entries : List (Text × Text)) : List Text :=
  (entries.mergeSort fun a b => Text.atMost a.1 b.1).map fun (k, v) => quoted k ++ ": " ++ v

mutual

def encode (depth : Nat) : Value → Text
  | list items => bracketed '[' ']' depth (encodeItems (depth + 1) items)
  | map entries => bracketed '\x7b' '\x7d' depth (sorted (encodeEntries (depth + 1) entries))
  | v => simple v

def encodeItems (depth : Nat) : List Value → List Text
  | [] => []
  | v :: vs => encode depth v :: encodeItems depth vs

/-- The keys of a map with the written forms of the values. -/
def encodeEntries (depth : Nat) : List (Value × Value) → List (Text × Text)
  | [] => []
  | (k, v) :: es => (keyText k, encode depth v) :: encodeEntries depth es

end

end TypedQueries.Value.Json

namespace TypedQueries.Value

def json (v : Value) : Text := Json.encode 0 v

end TypedQueries.Value
