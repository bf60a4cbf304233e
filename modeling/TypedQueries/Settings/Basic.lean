import TypedQueries.NamePattern.Matcher
import TypedQueries.Text.Identifier
import TypedQueries.Text.Quoted

/-!
# Settings

The settings of a run. Their constraints belong to the type, so settings that exist are valid.
-/

namespace TypedQueries

inductive LogLevel where
  | debug
  | info
  | warning
  | error
deriving DecidableEq

namespace LogLevel

def name : LogLevel → Text
  | debug => "debug"
  | info => "info"
  | warning => "warning"
  | error => "error"

/-- The levels, the most talkative first. -/
def all : List LogLevel := [debug, info, warning, error]

def ofName? (n : CodedText) : Option LogLevel := all.find? fun l => (l.name : CodedText) = n

/-- The rank of a level: what has a higher one is more severe. -/
def rank : LogLevel → Nat
  | debug => 10
  | info => 20
  | warning => 30
  | error => 40

end LogLevel

structure Settings where
  logLevel : LogLevel
  /-- How many files are analysed at a time. -/
  workers : Nat
  /-- What class names of parameters end in. -/
  typeSuffix : Text
  /-- The module that generated code imports its marker from. -/
  runtimeModule : CodedText
  /-- The written form of the pattern for names of queries. -/
  namePattern : CodedText
  workers_pos : 0 < workers
  typeSuffix_isIdentifier : Text.isIdentifier typeSuffix = true
  dot_mem_runtimeModule : .char '.' ∈ runtimeModule

inductive SettingsError where
  | unknownLogLevel (given : CodedText)
  | tooFewWorkers
  | noIdentifier (given : CodedText)
  | undottedRuntime
deriving DecidableEq

namespace SettingsError

def message : SettingsError → Text
  | unknownLogLevel given =>
    "log_level must be one of " ++ Text.join ", " (LogLevel.all.map LogLevel.name) ++ ", got " ++
      Text.Quoted.encodeCoded given
  | tooFewWorkers => "workers must be >= 1"
  | noIdentifier given =>
    "type_suffix must be a valid identifier, got " ++ Text.Quoted.encodeCoded given
  | undottedRuntime =>
    "runtime_module must be a dotted module path, e.g. 'querygen.interpolate'"

end SettingsError

namespace Settings

/-- Values for settings that need not be valid. -/
structure Draft where
  logLevel : CodedText := LogLevel.info.name
  workers : Int := 8
  typeSuffix : CodedText := ("Params" : Text)
  runtimeModule : CodedText := ("querygen.interpolate" : Text)
  namePattern : CodedText := NamePattern.usual

/-- The settings with given values, or the first constraint that these violate. -/
def ofDraft (d : Draft) : Except SettingsError Settings :=
  match LogLevel.ofName? d.logLevel with
  | none => .error (.unknownLogLevel d.logLevel)
  | some level =>
    if hw : 0 < d.workers.toNat then
      match d.typeSuffix.toText? with
      | none => .error (.noIdentifier d.typeSuffix)
      | some suffix =>
        if hs : Text.isIdentifier suffix = true then
          if hr : .char '.' ∈ d.runtimeModule then
            .ok ⟨level, d.workers.toNat, suffix, d.runtimeModule, d.namePattern, hw, hs, hr⟩
          else .error .undottedRuntime
        else .error (.noIdentifier d.typeSuffix)
    else .error .tooFewWorkers

def draft (s : Settings) : Draft :=
  ⟨s.logLevel.name, s.workers, s.typeSuffix, s.runtimeModule, s.namePattern⟩

def usual : Settings :=
  ⟨.info, 8, "Params", ("querygen.interpolate" : Text), NamePattern.usual, by decide, by decide,
    by decide⟩

def runtimePackage (s : Settings) : CodedText :=
  match s.runtimeModule.splitLast? '.' with
  | some (package, _) => package
  | none => []

def runtimeName (s : Settings) : CodedText :=
  match s.runtimeModule.splitLast? '.' with
  | some (_, name) => name
  | none => []

/-- The settings with another level and another number of workers, where these are given. The
level is replaced and checked first. -/
def override (s : Settings) (logLevel : Option Text) (workers : Option Int) :
    Except SettingsError Settings := do
  let s ←
    match logLevel with
    | some l => ofDraft { s.draft with logLevel := l }
    | none => .ok s
  match workers with
  | some n => ofDraft { s.draft with workers := n }
  | none => .ok s

end Settings

end TypedQueries
