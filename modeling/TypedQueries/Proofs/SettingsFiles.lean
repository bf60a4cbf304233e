import Mathlib
import TypedQueries.CommandLine.Basic
import TypedQueries.NamePattern.Read
import TypedQueries.Proofs.Results
import TypedQueries.Source.Plain
import TypedQueries.Yaml.Document

/-!
# Files of settings

A file of settings either makes settings, whose constraints belong to their type, or is reported as
the fault of its user, as long as the reader of documents finds nothing else wrong with it than that
it is no document. The number of workers is where that ends: it is asked of whatever value is
given for it, and a value of a kind that no integer can be asked of ends the run as an error from
within. So does an infinite number. The value of the level is written before, so an integer in it
that is too long to be written is what is reported then.
-/

namespace TypedQueries

namespace Value

/-- Whether a value is of a kind that stands for integers: a truth value, a number that is not
infinite, or a text, be it a numeral or not. -/
def canBeInteger : Value → Bool
  | bool _ => true
  | int _ => true
  | float (.infinite _) => false
  | float _ => true
  | text _ => true
  | _ => false

theorem toInt_of_canBeInteger {v : Value} (h : v.canBeInteger = true) {f : IntFault}
    (hf : v.toInt = .error f) : f.kind = .value := by
  cases v with
  | bool b => cases hf
  | int n => cases hf
  | float d =>
    cases d with
    | finite negative m e => cases hf
    | infinite negative => cases h
    | nan =>
      cases hf
      rfl
  | text t =>
    dsimp only [toInt] at hf
    cases htext : t.toText? with
    | none =>
      rw [htext] at hf
      cases hf
      rfl
    | some t =>
      rw [htext] at hf
      change (Text.Integer.read t).mapError IntFault.notAnInteger = .error f at hf
      cases hread : Text.Integer.read t with
      | ok n =>
        rw [hread] at hf
        cases hf
      | error fault =>
        rw [hread] at hf
        cases hf
        rfl
  | _ => cases h

theorem exists_toInt_of_not_canBeInteger {v : Value} (h : v.canBeInteger = false) :
    ∃ f, v.toInt = .error f ∧ (f.kind = .type ∨ f.kind = .overflow) := by
  cases v with
  | bool b => cases h
  | int n => cases h
  | float d =>
    cases d with
    | infinite negative => exact ⟨.infinite, rfl, .inr rfl⟩
    | _ => cases h
  | text t => cases h
  | _ => exact ⟨.notNumeric _, rfl, .inl rfl⟩

end Value

/-! ### Errors that escape -/

namespace SettingsReadError

theorem isFaultOfFile_of_value {e : SettingsReadError} (h : e.kind = .value) :
    e.isFaultOfFile = true := by
  unfold isFaultOfFile
  rw [h]

theorem isFaultOfFile_of_document {e : SettingsReadError} (h : e.kind = .document) :
    e.isFaultOfFile = true := by
  unfold isFaultOfFile
  rw [h]

theorem not_isFaultOfFile {e : SettingsReadError} (h : e.kind = .type ∨ e.kind = .overflow) :
    e.isFaultOfFile = false := by
  unfold isFaultOfFile
  rcases h with h | h <;> rw [h]

end SettingsReadError

section Escapes

variable {α β : Type}

/-- Whether reading settings ends in an error that is not reported as a fault of the file. -/
def Escapes (x : Except SettingsReadError α) : Prop := ∃ e, x = .error e ∧ e.isFaultOfFile = false

theorem not_escapes_ok (a : α) : ¬Escapes (.ok a : Except SettingsReadError α) := by
  rintro ⟨e, he, _⟩
  cases he

theorem escapes_error {e : SettingsReadError} :
    Escapes (.error e : Except SettingsReadError α) ↔ e.isFaultOfFile = false := by
  constructor
  · rintro ⟨e', he, hfault⟩
    cases he
    exact hfault
  · exact fun h => ⟨e, rfl, h⟩

theorem escapes_bind {x : Except SettingsReadError α} {f : α → Except SettingsReadError β} :
    Escapes (x >>= f) ↔ Escapes x ∨ ∃ a, x = .ok a ∧ Escapes (f a) := by
  cases x with
  | error e =>
    change Escapes (.error e) ↔ _
    simp [escapes_error]
  | ok a =>
    change Escapes (f a) ↔ _
    simp [not_escapes_ok]

theorem not_escapes_mapError {ε : Type} {x : Except ε α} {f : ε → SettingsReadError}
    (h : ∀ e, x = .error e → (f e).isFaultOfFile = true) : ¬Escapes (x.mapError f) := by
  cases x with
  | error e =>
    change ¬Escapes (.error (f e))
    rw [escapes_error, h e rfl]
    exact Bool.noConfusion
  | ok a => exact not_escapes_ok a

end Escapes

namespace Settings

variable {entries : List (Value × Value)}

/-- Whether the number of workers is asked of a value that no integer can be asked of, once the
value of the level has been written. -/
structure MisstatesWorkers (entries : List (Value × Value)) : Prop where
  level : ∀ v, Value.entry? "log_level" entries = some v → v.isWritable = true
  workers : ∃ v, Value.entry? "workers" entries = some v ∧ v.canBeInteger = false

theorem not_escapes_textOf (name : String) (default : CodedText) :
    ¬Escapes (textOf entries name default) := by
  unfold textOf
  split
  · split
    · exact not_escapes_ok _
    · rw [escapes_error]
      exact Bool.noConfusion
  · exact not_escapes_ok _

theorem exists_textOf_iff {name : String} {default : CodedText} :
    (∃ t, textOf entries name default = .ok t) ↔
      ∀ v, Value.entry? name entries = some v → v.isWritable = true := by
  unfold textOf
  cases Value.entry? name entries with
  | none => simp
  | some v => cases hv : v.isWritable <;> simp [hv]

theorem escapes_workersOf_iff {default : Int} :
    Escapes (workersOf entries default) ↔
      ∃ v, Value.entry? "workers" entries = some v ∧ v.canBeInteger = false := by
  unfold workersOf
  cases hentry : Value.entry? "workers" entries with
  | none => simp [not_escapes_ok]
  | some v =>
    cases hv : v.canBeInteger with
    | true =>
      have hreported : ¬Escapes (v.toInt.mapError SettingsReadError.noInteger) :=
        not_escapes_mapError fun f hf =>
          SettingsReadError.isFaultOfFile_of_value (Value.toInt_of_canBeInteger hv hf)
      simp [hreported, hv]
    | false =>
      obtain ⟨f, hf, hkind⟩ := Value.exists_toInt_of_not_canBeInteger hv
      have hescapes : Escapes (v.toInt.mapError SettingsReadError.noInteger) := by
        rw [hf]
        exact escapes_error.2 (SettingsReadError.not_isFaultOfFile hkind)
      simp [hescapes, hv]

theorem escapes_draftOf_iff : Escapes (draftOf entries) ↔ MisstatesWorkers entries := by
  unfold draftOf
  simp only [escapes_bind, not_escapes_textOf, escapes_workersOf_iff, not_escapes_ok, false_or,
    and_false, exists_const, or_false]
  constructor
  · rintro ⟨level, hlevel, hworkers⟩
    exact ⟨exists_textOf_iff.1 ⟨level, hlevel⟩, hworkers⟩
  · intro h
    obtain ⟨level, hlevel⟩ := exists_textOf_iff.2 h.level
    exact ⟨level, hlevel, h.workers⟩

theorem escapes_ofDocument_iff {v : Value} :
    Escapes (ofDocument v) ↔ ∃ entries, v = .map entries ∧ MisstatesWorkers entries := by
  cases v with
  | null => simp [ofDocument, not_escapes_ok]
  | map entries =>
    have hvalid : ∀ d, ¬Escapes ((ofDraft d).mapError SettingsReadError.invalid) :=
      fun d => not_escapes_mapError fun _ _ => rfl
    change Escapes (ofMap entries) ↔ _
    unfold ofMap
    simp [escapes_bind, escapes_draftOf_iff, hvalid]
  | _ => simp [ofDocument, escapes_error, SettingsReadError.isFaultOfFile, SettingsReadError.kind]

section Files

variable [DocumentReader] {contents : Bytes}

/-- Whether a file with these contents holds a map that misstates the number of workers. -/
def HoldsMisstatement (contents : Bytes) : Prop :=
  ∃ text entries, Text.Utf8.decode contents = .ok text ∧
    DocumentReader.read (Text.unifyLineEnds text) = .ok (.map entries) ∧ MisstatesWorkers entries

/-- Whether the reader finds a value in a file with these contents, or no document at all. -/
def IsReadOrRefused (contents : Bytes) : Prop :=
  ∀ text e, Text.Utf8.decode contents = .ok text →
    DocumentReader.read (Text.unifyLineEnds text) = .error e → e.kind = .document

theorem escapes_ofFile_iff (hreader : IsReadOrRefused contents) :
    Escapes (ofFile contents) ↔ HoldsMisstatement contents := by
  have hdecode : ¬Escapes ((Text.Utf8.decode contents).mapError SettingsReadError.undecodable) :=
    not_escapes_mapError fun _ _ => rfl
  unfold ofFile HoldsMisstatement
  rw [escapes_bind, or_iff_right hdecode]
  constructor
  · rintro ⟨text, htext, hescapes⟩
    have htext := eq_ok_of_mapError htext
    have hread : ¬Escapes
        ((DocumentReader.read (Text.unifyLineEnds text)).mapError SettingsReadError.document) :=
      not_escapes_mapError fun e he =>
        SettingsReadError.isFaultOfFile_of_document (hreader text e htext he)
    rw [escapes_bind, or_iff_right hread] at hescapes
    obtain ⟨v, hv, hescapes⟩ := hescapes
    obtain ⟨entries, rfl, hmisstates⟩ := escapes_ofDocument_iff.1 hescapes
    exact ⟨text, entries, htext, eq_ok_of_mapError hv, hmisstates⟩
  · rintro ⟨text, entries, htext, hv, hmisstates⟩
    refine ⟨text, by rw [htext]; rfl, escapes_bind.2 (.inr ⟨.map entries, by rw [hv]; rfl, ?_⟩)⟩
    exact escapes_ofDocument_iff.2 ⟨entries, rfl, hmisstates⟩

variable {t : FileTree} {here : Path} {name : Option Text}

theorem load_of_contents (h : contents? t here (name.getD usualFile) = some contents) :
    load t here name = (ofFile contents).mapError fun e =>
      if e.isFaultOfFile then .setup (.settingsInvalid (name.getD usualFile) e)
      else .internal (.settings e) := by
  cases name with
  | none =>
    change contents? t here usualFile = some contents at h
    simp only [load, h, Option.isSome_some, if_true, ofNamed, Option.getD_none]
  | some name =>
    change contents? t here name = some contents at h
    simp only [load, ofNamed, h, Option.getD_some]

end Files

end Settings

/-! ### Runs -/

namespace CommandLine.Request

section Runs

variable [DocumentReader] [Source.Release] [NameMatcher]
variable {t : FileTree} {here : Path} {r : Request} {contents : Bytes}

theorem perform_of_load {e : Failure} (h : Settings.load t here r.config = .error e) :
    r.perform t here = r.fail t [] e := by
  have hgeneration : r.generation t here = .error e := by
    unfold generation Settings.loadWith
    rw [h]
    rfl
  unfold perform
  rw [hgeneration]

/-- A run gets its settings from the file that it reads them from, or ends with a report that the
file is at fault. -/
def SettlesSettings (t : FileTree) (here : Path) (r : Request) : Prop :=
  let file := r.config.getD Settings.usualFile
  (∃ s, Settings.load t here r.config = .ok s) ∨
    ∃ e, Settings.load t here r.config = .error (.setup (.settingsInvalid file e)) ∧
      r.perform t here = r.fail t [] (.setup (.settingsInvalid file e))

/-- Whatever the file of settings holds, and however documents are read, a run gets settings from
it or reports it, unless it misstates the number of workers; then the run ends with an error from
within. Either way nothing is written when there are no settings. -/
theorem settlesSettings_iff
    (hthere : Settings.contents? t here (r.config.getD Settings.usualFile) = some contents)
    (hreader : Settings.IsReadOrRefused contents) :
    (r.SettlesSettings t here ↔ ¬Settings.HoldsMisstatement contents) ∧
      (Settings.HoldsMisstatement contents →
        ∃ e, r.perform t here = r.fail t [] (.internal (.settings e))) := by
  have hload := Settings.load_of_contents hthere
  rw [← Settings.escapes_ofFile_iff hreader]
  cases hfile : Settings.ofFile contents with
  | ok s =>
    rw [hfile] at hload
    exact ⟨iff_of_true (.inl ⟨s, hload⟩) (not_escapes_ok s), fun h => absurd h (not_escapes_ok s)⟩
  | error e =>
    rw [hfile, mapError_error] at hload
    rw [escapes_error]
    cases hfault : e.isFaultOfFile with
    | true =>
      rw [if_pos hfault] at hload
      have hreported : r.SettlesSettings t here := .inr ⟨e, hload, perform_of_load hload⟩
      exact ⟨iff_of_true hreported Bool.noConfusion, Bool.noConfusion⟩
    | false =>
      rw [hfault, if_neg Bool.noConfusion] at hload
      refine ⟨iff_of_false ?_ (not_not_intro rfl), fun _ => ⟨e, perform_of_load hload⟩⟩
      rintro (⟨s, hs⟩ | ⟨e', he', _⟩)
      · rw [hload] at hs
        cases hs
      · rw [hload] at he'
        cases he'

end Runs

section

open scoped Source.Plain NamePattern.Standard Yaml.Standard

/-! The settings of a run are in the one file below the root. -/

def wordSettings : Text := "\"workers\": \"x\""

def nullSettings : Text := "\"workers\":"

def settingsTree (settings : Text) : FileTree :=
  ⟨[(⟨.root, []⟩, .directory), (⟨.root, ["querygen.yaml"]⟩, .file (Text.Utf8.encode settings))]⟩

theorem contents_settingsTree (settings : Text) :
    Settings.contents? (settingsTree settings) ⟨.root, []⟩ Settings.usualFile =
      some (Text.Utf8.encode settings) := rfl

/-- Of workers that are told by a word that is no numeral, the run reports that it is none. -/
theorem settlesSettings_word :
    let t := settingsTree wordSettings
    let r : Request := { paths := ["app"] }
    (Settings.contents? t ⟨.root, []⟩ Settings.usualFile =
        some (Text.Utf8.encode wordSettings) ∧
      Settings.IsReadOrRefused (Text.Utf8.encode wordSettings)) ∧
      r.SettlesSettings t ⟨.root, []⟩ := by
  intro t r
  have hthere := contents_settingsTree wordSettings
  have hdecode : Text.Utf8.decode (Text.Utf8.encode wordSettings) =
      .ok wordSettings := by cbv
  have hread : DocumentReader.read (Text.unifyLineEnds wordSettings) =
      .ok (.map [(.text ("workers" : Text), .text ("x" : Text))]) := by cbv
  have hreader : Settings.IsReadOrRefused (Text.Utf8.encode wordSettings) := by
    intro text e htext he
    cases hdecode.symm.trans htext
    cases hread.symm.trans he
  refine ⟨⟨hthere, hreader⟩, (settlesSettings_iff (r := r) hthere hreader).1.2 ?_⟩
  rintro ⟨text, entries, htext, hentries, hmisstates⟩
  cases hdecode.symm.trans htext
  cases hread.symm.trans hentries
  obtain ⟨v, hv, hcan⟩ := hmisstates.workers
  cases hv
  cases hcan

/-- Of workers that are told by nothing at all, a well-formed file of settings makes an error from
within. -/
theorem not_settlesSettings_null :
    let t := settingsTree nullSettings
    let r : Request := { paths := ["app"] }
    Settings.contents? t ⟨.root, []⟩ Settings.usualFile =
        some (Text.Utf8.encode nullSettings) ∧
      DocumentReader.read (Text.unifyLineEnds nullSettings) =
        .ok (.map [(.text ("workers" : Text), .null)]) ∧
      ¬r.SettlesSettings t ⟨.root, []⟩ ∧ (r.perform t ⟨.root, []⟩).status = .internal := by
  intro t r
  have hthere : Settings.contents? t ⟨.root, []⟩ (r.config.getD Settings.usualFile) =
      some (Text.Utf8.encode nullSettings) := contents_settingsTree nullSettings
  have hdecode : Text.Utf8.decode (Text.Utf8.encode nullSettings) =
      .ok nullSettings := by cbv
  have hread : DocumentReader.read (Text.unifyLineEnds nullSettings) =
      .ok (.map [(.text ("workers" : Text), .null)]) := by cbv
  have hfile : Settings.ofFile (Text.Utf8.encode nullSettings) =
      .error (.noInteger (.notNumeric "NoneType")) := by
    unfold Settings.ofFile
    rw [hdecode]
    change ((DocumentReader.read _).mapError SettingsReadError.document >>=
      Settings.ofDocument) = _
    rw [hread]
    rfl
  have hload : Settings.load t ⟨.root, []⟩ r.config =
      .error (.internal (.settings (.noInteger (.notNumeric "NoneType")))) := by
    rw [Settings.load_of_contents hthere, hfile]
    rfl
  refine ⟨hthere, hread, ?_, by rw [perform_of_load hload]; rfl⟩
  rintro (⟨s, hs⟩ | ⟨e, he, _⟩)
  · cases hload.symm.trans hs
  · cases hload.symm.trans he

end

end CommandLine.Request

end TypedQueries
