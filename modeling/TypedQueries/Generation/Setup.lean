import TypedQueries.Generation.Basic
import TypedQueries.Problem
import TypedQueries.Settings.Read

/-!
# Setting up a run

A run starts with its settings, which come from a file and may be overridden, and with the packages
that its arguments select. What goes wrong here is a problem that the user can mend, save for a few
errors that are shown as they are.
-/

namespace TypedQueries

/-- What the user can mend before a run starts. -/
inductive SetupError where
  | settingsNotFound (path : Text)
  | settingsInvalid (path : Text) (e : SettingsReadError)
  /-- Overriding values that make no settings. -/
  | overrideInvalid (logLevel : Option Text) (workers : Option Int) (e : SettingsError)
  | pathNotFound (argument : Text)
  | noSources (arguments : List Text)
deriving DecidableEq

namespace SetupError

def code : SetupError → Text
  | settingsNotFound _ => "QUERYGEN_CONFIG_NOT_FOUND"
  | settingsInvalid _ _ => "QUERYGEN_CONFIG_INVALID"
  | overrideInvalid _ _ _ => "QUERYGEN_OPTION_INVALID"
  | pathNotFound _ => "QUERYGEN_PATH_NOT_FOUND"
  | noSources _ => "QUERYGEN_NO_SOURCES"

def message : SetupError → Text
  | settingsNotFound path => "Config not found: " ++ path
  | settingsInvalid path _ => "Invalid config: " ++ path
  | overrideInvalid _ _ e => e.message
  | pathNotFound argument => "Path not found: " ++ argument
  | noSources _ => "No Python files found"

def details : SetupError → Value
  | settingsNotFound path => .record [("path", .text path)]
  | settingsInvalid path e => .record [("path", .text path), ("error", .text e.message)]
  | overrideInvalid logLevel workers _ =>
    .record
      [("workers", (workers.map Value.int).getD .null),
        ("log_level", (logLevel.map fun (l : Text) => Value.text l).getD .null)]
  | pathNotFound argument => .record [("path", .text argument)]
  | noSources arguments => .record [("paths", .list (arguments.map fun (a : Text) => .text a))]

def remediation : SetupError → Text
  | settingsNotFound _ => "Verify the path is correct and the file exists."
  | settingsInvalid _ _ => "Fix the YAML file; see querygen --help for the supported keys."
  | overrideInvalid _ _ _ => "Pass --workers >= 1."
  | pathNotFound _ => "Pass existing Python files or directories."
  | noSources _ => "Pass at least one directory or .py file containing query constants."

def problem (e : SetupError) : Problem :=
  ⟨e.code, "config", e.message, e.details, some e.remediation⟩

end SetupError

/-- What is shown as it is, for want of a better wording. -/
inductive InternalError where
  /-- A null character in the path of an argument. -/
  | nullCharacter
  | settings (e : SettingsReadError)
  | interruption (e : Interruption)
deriving DecidableEq

/-- The name of a kind of fault of a file. -/
def FileFault.kindName : FileFault → Text
  | notFound => "FileNotFoundError"
  | alreadyExists => "FileExistsError"
  | notADirectory => "NotADirectoryError"
  | isADirectory => "IsADirectoryError"

namespace InternalError

/-- An error of a kind with a message. -/
def shownAs (kind : ErrorKind) (message : Text) : Text :=
  kind.name ++ "(" ++ Text.Quoted.encode message ++ ")"

def shown : InternalError → Text
  | nullCharacter => shownAs .value "embedded null byte"
  | settings e => shownAs e.kind e.message
  | interruption (.load .nullCharacter) =>
    shownAs .value "source code string cannot contain null bytes"
  | interruption (.load .endless) => "MemoryError()"
  | interruption (.file e) =>
    e.fault.kindName ++ "(" ++ Text.ofNat e.fault.number ++ ", " ++
      Text.Quoted.encode e.fault.reason ++ ")"
  | interruption (.emission e) => shownAs .position e.message

end InternalError

/-- Why a run ends without a report. -/
inductive Failure where
  | setup (e : SetupError)
  | internal (e : InternalError)
deriving DecidableEq

namespace Settings

/-- The file of settings that is read if no other one is named. -/
def usualFile : Text := "querygen.yaml"

def contents? (t : FileTree) (here : Path) (name : Text) : Option Bytes :=
  match (t.locate (here.join (.ofText name))).toOption.bind t.node? with
  | some (.file contents) => some contents
  | _ => none

variable [DocumentReader]

def ofNamed (t : FileTree) (here : Path) (name : Text) : Except Failure Settings :=
  match contents? t here name with
  | none => .error (.setup (.settingsNotFound name))
  | some contents =>
    (ofFile contents).mapError fun e =>
      if e.isFaultOfFile then .setup (.settingsInvalid name e) else .internal (.settings e)

/-- The settings of a run: those in the file that is named, or in the usual one if it is there. -/
def load (t : FileTree) (here : Path) (name : Option Text) : Except Failure Settings :=
  match name with
  | some name => ofNamed t here name
  | none => if (contents? t here usualFile).isSome then ofNamed t here usualFile else .ok usual

def loadWith (t : FileTree) (here : Path) (name logLevel : Option Text) (workers : Option Int) :
    Except Failure Settings := do
  let s ← load t here name
  (s.override logLevel workers).mapError fun e => .setup (.overrideInvalid logLevel workers e)

end Settings

def SelectionError.failure : SelectionError → Failure
  | notFound argument => .setup (.pathNotFound argument)
  | noSources arguments => .setup (.noSources arguments)
  | nullCharacter => .internal .nullCharacter

end TypedQueries
