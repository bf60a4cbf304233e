import TypedQueries.Settings.Basic
import TypedQueries.Text.Integer

/-!
# Arguments of the command line

Arguments are paths and options with values. The name of an option may be cut short as long as only
one option begins that way, and its value is the next word or follows an equals sign. The paths
stand next to each other; after two dashes alone every word is a path, whatever it begins with.
-/

namespace TypedQueries.CommandLine

inductive Format where
  | text
  | json
deriving DecidableEq

inductive Flag where
  | help
  | config
  | logLevel
  | workers
  | format
deriving DecidableEq

structure Request where
  paths : List Text := []
  config : Option Text := none
  logLevel : Option LogLevel := none
  workers : Option Int := none
  format : Format := .text
deriving DecidableEq

inductive Invocation where
  | help
  | generate (r : Request)
deriving DecidableEq

/-- Why a command line asks for nothing. -/
inductive UsageError where
  | ambiguous (given : Text) (spellings : List Text)
  | valueMissing (f : Flag)
  /-- A value for an option that takes none. -/
  | valueIgnored (f : Flag) (value : Text)
  | noInteger (f : Flag) (value : Text)
  | noChoice (f : Flag) (value : Text) (choices : List Text)
  | pathsMissing
  | unrecognized (words : List Text)
deriving DecidableEq

namespace Format

def name : Format → Text
  | text => "text"
  | json => "json"

def all : List Format := [text, json]

def ofName? (n : Text) : Option Format := all.find? fun f => f.name = n

end Format

namespace Flag

def spellings : List (Text × Flag) :=
  [("-h", help), ("--help", help), ("--config", config), ("--log-level", logLevel),
    ("--workers", workers), ("--format", format)]

/-- How an option is named in a message. -/
def label (f : Flag) : Text :=
  Text.join "/" ((spellings.filter fun e => e.2 = f).map (·.1))

end Flag

namespace UsageError

/-- The wording of a fault of the value of an option. -/
def about (f : Flag) (fault : Text) : Text := "argument " ++ f.label ++ ": " ++ fault

def message : UsageError → Text
  | ambiguous given spellings =>
    "ambiguous option: " ++ given ++ " could match " ++ Text.join ", " spellings
  | valueMissing f => about f "expected one argument"
  | valueIgnored f value => about f ("ignored explicit argument " ++ Text.Quoted.encode value)
  | noInteger f value => about f ("invalid int value: " ++ Text.Quoted.encode value)
  | noChoice f value choices =>
    about f <|
      "invalid choice: " ++ Text.Quoted.encode value ++ " (choose from " ++
        Text.join ", " (choices.map Text.Quoted.encode) ++ ")"
  | pathsMissing => "the following arguments are required: paths"
  | unrecognized words => "unrecognized arguments: " ++ Text.join " " words

end UsageError

/-! ### Words -/

/-- What a word of a command line is taken for. -/
inductive Word where
  /-- A path or a value. -/
  | plain (t : Text)
  /-- The two dashes after which every word is plain. -/
  | separator
  /-- An option, with the value that is written in the same word. -/
  | flag (f : Flag) (spelling : Text) (value : Option Text)
  /-- What looks like an option and is none. -/
  | unknown (t : Text)
deriving DecidableEq

namespace Word

def isNegativeNumber : Text → Bool
  | '-' :: t =>
    let body := if t.getLast? = some '\n' then t.dropLast else t
    match Text.splitOn '.' body with
    | [whole] => whole ≠ [] && whole.all Text.isDigit
    | [whole, fraction] => whole.all Text.isDigit && fraction ≠ [] && fraction.all Text.isDigit
    | _ => false
  | _ => false

/-- A word before its first equals sign, and what follows the sign if there is one. -/
def splitValue (t : Text) : Text × Option Text :=
  match t.dropWhile (· ≠ '=') with
  | [] => (t, none)
  | _ :: value => (t.takeWhile (· ≠ '='), some value)

/-- The options that a word can be short for. The value of a one-letter option may follow it
without an equals sign. -/
def candidates (t : Text) : List (Flag × Text × Option Text) :=
  if ("--" : Text).isPrefixOf t then
    let (start, value) := splitValue t
    (Flag.spellings.filter fun e => start.isPrefixOf e.1).map fun (s, f) => (f, s, value)
  else
    (Flag.spellings.filter fun e => e.1 = t.take 2).map fun (s, f) => (f, s, some (t.drop 2))

/-- What a word that is no name of an option is taken for, if not for an option. -/
def ofUnknown (t : Text) : Word :=
  if isNegativeNumber t || t.contains ' ' then plain t else unknown t

/-- What a word that begins with a dash is taken for. -/
def ofDashed (t : Text) : Except UsageError Word :=
  let (start, value) := splitValue t
  match Flag.spellings.lookup t, Flag.spellings.lookup start with
  | some f, _ => .ok (flag f t none)
  | none, some f => .ok (flag f start value)
  | none, none =>
    match candidates t with
    | [] => .ok (ofUnknown t)
    | [(f, spelling, value)] => .ok (flag f spelling value)
    | fs => .error (.ambiguous t (fs.map fun (_, spelling, _) => spelling))

def ofText (t : Text) : Except UsageError Word :=
  if t.head? = some '-' && t ≠ ['-'] then ofDashed t else .ok (plain t)

/-- What the words of a command line are taken for. -/
def ofTexts : List Text → Except UsageError (List Word)
  | [] => .ok []
  | t :: ts =>
    if t = ['-', '-'] then .ok (separator :: ts.map plain)
    else do
      let w ← ofText t
      let ws ← ofTexts ts
      .ok (w :: ws)

end Word

/-! ### Reading -/

def Request.set (r : Request) (f : Flag) (value : Text) : Except UsageError Request :=
  match f with
  | .help => .error (.valueIgnored f value)
  | .config => .ok { r with config := some value }
  | .logLevel =>
    match LogLevel.ofName? value with
    | some l => .ok { r with logLevel := some l }
    | none => .error (.noChoice f value (LogLevel.all.map LogLevel.name))
  | .workers =>
    match Text.Integer.read value with
    | .ok n => .ok { r with workers := some n }
    | .error _ => .error (.noInteger f value)
  | .format =>
    match Format.ofName? value with
    | some g => .ok { r with format := g }
    | none => .error (.noChoice f value (Format.all.map Format.name))

/-- What has been read of a command line. -/
structure Progress where
  request : Request := {}
  /-- Whether the paths have ended. -/
  closed : Bool := false
  /-- Words that nothing can be made of. -/
  extras : List Text := []

namespace Progress

/-- What has been read once an option comes; paths before it have ended. -/
def close (p : Progress) : Progress := { p with closed := p.closed || p.request.paths ≠ [] }

def addExtra (p : Progress) (t : Text) : Progress := { p with extras := p.extras ++ [t] }

/-- What has been read with a plain word that is not the value of an option. -/
def addPlain (p : Progress) (t : Text) : Progress :=
  if p.closed then p.addExtra t
  else { p with request := { p.request with paths := p.request.paths ++ [t] } }

def addSeparator (p : Progress) : Progress := if p.closed then p.addExtra ['-', '-'] else p

def finish (p : Progress) : Except UsageError Invocation :=
  if p.request.paths = [] then .error .pathsMissing
  else if p.extras = [] then .ok (.generate p.request)
  else .error (.unrecognized p.extras)

end Progress

/-- What is to be done about a call for help. Its letter may be repeated in the word. -/
def readHelp (spelling : Text) : Option Text → Except UsageError Invocation
  | none => .ok .help
  | some value =>
    let rest := if spelling = ['-', 'h'] then value.dropWhile (· = 'h') else value
    if value ≠ [] && rest = [] then .ok .help else .error (.valueIgnored .help rest)

def readWords (p : Progress) : List Word → Except UsageError Invocation
  | [] => p.finish
  | .plain t :: ws => readWords (p.addPlain t) ws
  | .separator :: ws => readWords p.addSeparator ws
  | .unknown t :: ws => readWords (p.close.addExtra t) ws
  | .flag .help spelling value :: _ => readHelp spelling value
  | .flag f _ (some value) :: ws => do
    let r ← p.request.set f value
    readWords { p.close with request := r } ws
  | .flag f _ none :: .plain value :: ws => do
    let r ← p.request.set f value
    readWords { p.close with request := r } ws
  | .flag f _ none :: _ => .error (.valueMissing f)

def Invocation.read (arguments : List Text) : Except UsageError Invocation := do
  let words ← Word.ofTexts arguments
  readWords {} words

end TypedQueries.CommandLine
