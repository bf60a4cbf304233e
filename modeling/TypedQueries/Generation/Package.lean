import TypedQueries.Companion.Sync
import TypedQueries.Generation.Selection
import TypedQueries.Package.Load

/-!
# Generating the companions of a package

Loads the files of a directory, analyses the selected ones and brings their companions up to date.
A file that could not be loaded keeps its companion as it is. When the whole directory is selected,
companions that belong to no file any more go; when only some of its files are, no other companion
than theirs is touched.
-/

namespace TypedQueries

/-- The marker of generated classes as a package imports it. -/
def Settings.runtimeImport (s : Settings) (package : Text) : Companion.RuntimeImport :=
  ⟨s.runtimePackage, s.runtimeName, decide ((package : CodedText) = s.runtimePackage)⟩

/-- What a run works on in a directory. -/
structure Share where
  /-- The files that are no companions. -/
  sources : List Path
  /-- Those of them whose companions are brought up to date. -/
  targets : List Path
  /-- The companions that are there and may be changed. -/
  companions : List Path

namespace Share

def sourcesIn (t : FileTree) (d : Path) : List Path :=
  (t.modulesIn d).filter fun p => !Companion.isCompanion p

def companionsOf (t : FileTree) (targets : List Path) : List Path :=
  Path.sort ((targets.map Companion.pathOf).filter t.isFile).eraseDups

/-- What a run works on in a directory of which something is selected. -/
def ofSelection (t : FileTree) (d : Path) : Selection → Share
  | .whole =>
    ⟨sourcesIn t d, sourcesIn t d, (t.modulesIn d).filter Companion.isCompanion⟩
  | .files selected =>
    let targets := (sourcesIn t d).filter selected.contains
    ⟨sourcesIn t d, targets, companionsOf t targets⟩

end Share

inductive Interruption where
  | load (e : LoadStop)
  | file (e : FileError)
  | emission (e : Companion.EmissionError)
deriving DecidableEq

/-- The companions at some paths as they are, with what is logged about them. Reading stops at one
that cannot be read. -/
def loadCompanions [Source.Release] (t : FileTree) :
    List Path → List LogEntry × Except FileError (List Companion.Existing)
  | [] => ([], .ok [])
  | p :: ps =>
    match Companion.Existing.load t p with
    | .error e => ([], .error e)
    | .ok (c, entries) =>
      let (log, rest) := loadCompanions t ps
      (entries ++ log, rest.map (c :: ·))

/-- The result for a file that could not be loaded. -/
def FileResult.unloaded (p : Path) : FileResult := ⟨p, [], false, [], []⟩

/-- What a run over a package comes to. What it has written until an interruption stays. -/
structure PackageRun where
  tree : FileTree
  log : List LogEntry
  result : Except Interruption (List Diagnostic × Companion.Summary)

namespace Package

/-- The log entry for a package that has been loaded. -/
def announcement (p : Package) (d : Path) : LogEntry :=
  ⟨.debug, "querygen",
    "loaded package dir=" ++ d.text ++ " package=" ++ p.name ++ " files=" ++
      Text.ofNat p.files.entries.length⟩

def indexingLog (p : Package) (analysed : List Analysed) : List LogEntry :=
  (analysed.flatMap Analysed.consulted).eraseDups.filterMap fun m =>
    (p.files.get? m).map fun f =>
      ⟨.debug, "querygen.context", "indexing definitions path=" ++ f.path.text⟩

/-- The results for those of some files that are not in the package. -/
def unloaded (p : Package) (targets : List Path) : List FileResult :=
  (targets.filter fun f => !(p.files.values.map SourceFile.path).contains f).map .unloaded

end Package

namespace Loaded

variable [Source.Release] [NameMatcher]

/-- The diagnostics of a package for some of its files: first those from loading. -/
def diagnosticsFor (l : Loaded) (targets : List Path) (results : List FileResult) :
    List Diagnostic :=
  (l.diagnostics.filter fun d => targets.contains d.path) ++ results.flatMap FileResult.diagnostics

def generate (l : Loaded) (t : FileTree) (s : Settings) (d : Path) (share : Share) : PackageRun :=
  let package := l.package
  let analysed := package.analyse s (some share.targets)
  let results := analysed.map Analysed.result ++ package.unloaded share.targets
  let log := package.announcement d ::
    (package.indexingLog analysed ++ analysed.flatMap Analysed.log)
  match loadCompanions t share.companions with
  | (entries, .error e) => ⟨t, log ++ entries, .error (.file e)⟩
  | (entries, .ok existing) =>
    let companions : Companion.Companions := ⟨package.name, s.runtimeImport package.name⟩
    let run := companions.sync t existing results
    ⟨run.tree, log ++ entries ++ run.log,
      match run.result with
      | .error e => .error (.emission e)
      | .ok summary => .ok (l.diagnosticsFor share.targets results, summary)⟩

end Loaded

/-- Generates the companions of a directory of which something is selected. -/
def generatePackage [Source.Release] [NameMatcher] (t : FileTree) (s : Settings) (d : Path)
    (selection : Selection) : PackageRun :=
  let share := Share.ofSelection t d selection
  match Package.load t d share.sources with
  | .error e => ⟨t, [], .error (.load e)⟩
  | .ok l => l.generate t s d share

end TypedQueries
