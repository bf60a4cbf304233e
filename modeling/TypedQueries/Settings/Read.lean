import TypedQueries.FileTree.Basic
import TypedQueries.Settings.Basic
import TypedQueries.Text.LowerCase
import TypedQueries.Text.Utf8
import TypedQueries.Value.Reader

/-!
# Reading settings

Settings are read from a document that is a map, or empty. What the map does not say is as usual,
and what it says besides does not matter. Values are made into texts and numbers first, in the
order of the settings, and checked afterwards.
-/

namespace TypedQueries

inductive SettingsReadError where
  | undecodable (e : Text.Utf8.DecodeError)
  | document (e : DocumentFault)
  | notAMap (kind : Text)
  /-- A value for a text with too long an integer in it. -/
  | unwritable
  | noInteger (e : Value.IntFault)
  | invalid (e : SettingsError)
deriving DecidableEq

def SettingsReadError.message : SettingsReadError → Text
  | undecodable e => e.message
  | document e => e.message
  | notAMap kind => "Config file must be a YAML mapping, got " ++ kind
  | unwritable =>
    "Exceeds the limit (" ++ Text.ofNat Text.Integer.maxDigits ++
      " digits) for integer string conversion; " ++
      "use sys.set_int_max_str_digits() to increase the limit"
  | noInteger e => e.message
  | invalid e => e.message

def Value.IntFault.kind : Value.IntFault → ErrorKind
  | notNumeric _ => .type
  | infinite => .overflow
  | notAnInteger _ => .value
  | nan => .value

def SettingsReadError.kind : SettingsReadError → ErrorKind
  | undecodable _ => .decoding
  | document e => e.kind
  | notAMap _ => .value
  | unwritable => .value
  | noInteger e => e.kind
  | invalid _ => .value

/-- Whether an error is reported as a fault of the file that settings were to be read from. -/
def SettingsReadError.isFaultOfFile (e : SettingsReadError) : Bool :=
  match e.kind with
  | .value => true
  | .decoding => true
  | .document => true
  | _ => false

namespace Settings

/-- The text of an entry, or the usual one where there is no such entry. -/
def textOf (entries : List (Value × Value)) (name : String) (default : CodedText) :
    Except SettingsReadError CodedText :=
  match Value.entry? name entries with
  | some v => if v.isWritable then .ok v.written else .error .unwritable
  | none => .ok default

def workersOf (entries : List (Value × Value)) (default : Int) : Except SettingsReadError Int :=
  match Value.entry? "workers" entries with
  | some v => v.toInt.mapError .noInteger
  | none => .ok default

def draftOf (entries : List (Value × Value)) : Except SettingsReadError Draft := do
  let u : Draft := {}
  let logLevel ← textOf entries "log_level" u.logLevel
  let workers ← workersOf entries u.workers
  let typeSuffix ← textOf entries "type_suffix" u.typeSuffix
  let runtimeModule ← textOf entries "runtime_module" u.runtimeModule
  let namePattern ← textOf entries "query_name_pattern" u.namePattern
  .ok ⟨logLevel.mapRuns Text.lower, workers, typeSuffix, runtimeModule, namePattern⟩

def ofMap (entries : List (Value × Value)) : Except SettingsReadError Settings := do
  let d ← draftOf entries
  (ofDraft d).mapError .invalid

def ofDocument : Value → Except SettingsReadError Settings
  | .null => .ok usual
  | .map entries => ofMap entries
  | v => .error (.notAMap v.kindName)

def ofFile [DocumentReader] (contents : Bytes) : Except SettingsReadError Settings := do
  let t ← (Text.Utf8.decode contents).mapError .undecodable
  let v ← (DocumentReader.read (Text.unifyLineEnds t)).mapError .document
  ofDocument v

end Settings

end TypedQueries
