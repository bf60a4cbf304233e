import Mathlib.Data.List.Permutation
import TypedQueries.Generation.Package
import TypedQueries.NamePattern.Read
import TypedQueries.Proofs.Applying
import TypedQueries.Proofs.Naming
import TypedQueries.Proofs.Planning
import TypedQueries.Proofs.Results
import TypedQueries.Proofs.Scanning
import TypedQueries.Source.Plain

/-!
# What a run over a package changes

A run changes no path but those that its plan decides on. These are the companions that were
listed and those of the files that were analysed, so they all lie in the directory of the package;
and a companion is not among them when the analysis of one of its files was not completed.
-/

namespace TypedQueries

namespace Companion

section Sync

variable {existing : List Existing} {results : List FileResult} {path : Path}

/-! ### Paths that stay as they are -/

theorem sync_node?_of_not_mem_plan (c : Companions) (t : FileTree)
    (h : path ∉ (plan existing results).map Planned.path) :
    (c.sync t existing results).tree.node? path = t.node? path := by
  rw [sync_tree]
  exact applyFrom_node?_of_not_mem h

theorem sync_node?_of_not_mem_destinations (c : Companions) (t : FileTree)
    (h : path ∉ destinations existing results) :
    (c.sync t existing results).tree.node? path = t.node? path := by
  refine sync_node?_of_not_mem_plan c t fun hmem => h ?_
  obtain ⟨g, hg, rfl⟩ := List.mem_map.1 hmem
  exact mem_destinations_of_settle (mem_plan.1 hg)

theorem isHeld_iff :
    isHeld results path = true ↔ ∃ r ∈ results, destination? r = some path ∧ r.ok = false := by
  simp only [isHeld, List.any_eq_true, mem_resultsFor, Bool.not_eq_true', and_assoc]

/-- A companion stays as it is when the analysis of one of its files was not completed. -/
theorem sync_node?_of_isHeld (c : Companions) (t : FileTree) (h : isHeld results path = true) :
    (c.sync t existing results).tree.node? path = t.node? path := by
  refine sync_node?_of_not_mem_plan c t fun hmem => ?_
  obtain ⟨g, hg, rfl⟩ := List.mem_map.1 hmem
  rw [(of_mem_plan hg).1] at h
  cases h

theorem eq_pathOf_of_destination? {r : FileResult} (h : destination? r = some path) :
    path = pathOf r.path := by
  rw [destination?] at h
  split at h
  · exact (Option.some.inj h).symm
  · cases h

end Sync

theorem path_of_load [Source.Release] {t : FileTree} {path : Path} {e : Existing}
    {log : List LogEntry} (h : Existing.load t path = .ok (e, log)) : e.path = path := by
  unfold Existing.load at h
  obtain ⟨contents, _, h⟩ := exists_of_bind h
  split at h
  · cases h
    rfl
  · cases h
    rfl

end Companion

open Companion

/-! ### The results of a run -/

/-- What a run makes of the files at some paths: the results of those that were loaded, and then
those of the others. -/
def Loaded.results [NameMatcher] (l : Loaded) (s : Settings) (targets : List Path) :
    List FileResult :=
  (l.package.analyse s (some targets)).map Analysed.result ++ l.package.unloaded targets

theorem path_analyseSafely [NameMatcher] (p : Package) (s : Settings) (f : SourceFile) :
    (p.analyseSafely s f).result.path = f.path := by
  rw [Package.analyseSafely]
  cases h : p.analyseFile s f with
  | error e => rfl
  | ok a =>
    unfold Package.analyseFile at h
    obtain ⟨queries, _, h⟩ := exists_of_bind h
    cases h
    rfl

theorem mem_sources_iff {p : Package} {paths : List Path} {f : SourceFile} :
    f ∈ p.sources (some paths) ↔
      f ∈ p.files.values ∧ isCompanion f.path = false ∧ f.path ∈ paths := by
  simp [Package.sources]

theorem path_mem_of_mem_results [NameMatcher] {l : Loaded} {s : Settings} {targets : List Path}
    {r : FileResult} (h : r ∈ l.results s targets) : r.path ∈ targets := by
  rcases List.mem_append.1 h with h | h
  · obtain ⟨a, ha, rfl⟩ := List.mem_map.1 h
    obtain ⟨f, hf, rfl⟩ := List.mem_map.1 ha
    rw [path_analyseSafely]
    exact (mem_sources_iff.1 hf).2.2
  · obtain ⟨f, hf, rfl⟩ := List.mem_map.1 h
    exact (List.mem_filter.1 hf).1

theorem unloaded_mem_results [NameMatcher] {l : Loaded} {s : Settings} {targets : List Path}
    {p : Path} (hp : p ∈ targets) (h : p ∉ l.package.files.values.map SourceFile.path) :
    FileResult.unloaded p ∈ l.results s targets := by
  refine List.mem_append_right _ (List.mem_map_of_mem (List.mem_filter.2 ⟨hp, ?_⟩))
  simpa using h

theorem analyseSafely_mem_results [NameMatcher] {l : Loaded} {s : Settings} {targets : List Path}
    {f : SourceFile} (hf : f ∈ l.package.files.values) (hcompanion : isCompanion f.path = false)
    (ht : f.path ∈ targets) : (l.package.analyseSafely s f).result ∈ l.results s targets :=
  List.mem_append_left _
    (List.mem_map_of_mem (List.mem_map_of_mem (mem_sources_iff.2 ⟨hf, hcompanion, ht⟩)))

/-! ### Files that were loaded -/

/-- A file is loaded just where its text is read as a module that has a name. -/
theorem sourceFile_load_eq_ok_iff [Source.Release] {t : FileTree} {p : Path} {f : SourceFile} :
    SourceFile.load t p = .ok (.ok f) ↔
      ∃ text statements module, t.readText p = .ok text ∧ readSource text = .ok (.ok statements) ∧
        ModuleName.ofPath? t p.collapsed = some module ∧ f = ⟨p, module, statements⟩ := by
  rw [SourceFile.load]
  cases t.readText p with
  | error fault => simp
  | ok text =>
    cases hread : readSource text with
    | error e => simp [hread, bind, Except.bind]
    | ok outcome =>
      cases outcome with
      | error r => simp [hread, bind, Except.bind]
      | ok statements =>
        simp only [hread, bind, Except.bind]
        cases ModuleName.ofPath? t p.collapsed <;> simp [hread, eq_comm]

theorem path_of_sourceFile_load [Source.Release] {t : FileTree} {p : Path} {f : SourceFile}
    (h : SourceFile.load t p = .ok (.ok f)) : f.path = p := by
  obtain ⟨_, _, _, _, _, _, rfl⟩ := sourceFile_load_eq_ok_iff.1 h
  rfl

theorem load_of_mem_loadFiles [Source.Release] {t : FileTree} {ps : List Path}
    {files : List SourceFile}
    {diagnostics : List Diagnostic} (h : loadFiles t ps = .ok (files, diagnostics)) :
    ∀ f ∈ files, SourceFile.load t f.path = .ok (.ok f) := by
  induction ps generalizing files diagnostics with
  | nil =>
    cases h
    simp
  | cons p ps ih =>
    unfold loadFiles at h
    obtain ⟨file, hload, h⟩ := exists_of_bind h
    obtain ⟨⟨more, moreDiagnostics⟩, hrest, h⟩ := exists_of_bind h
    cases file with
    | error fault =>
      cases h
      exact ih hrest
    | ok f =>
      cases h
      intro f' hf'
      rcases List.mem_cons.1 hf' with rfl | hf'
      · rwa [path_of_sourceFile_load hload]
      · exact ih hrest f' hf'

/-- What is in a table made of a list is one of its values. -/
theorem mem_of_mem_values_ofList {κ α : Type} [DecidableEq κ] {entries : List (κ × α)} {a : α}
    (h : a ∈ (Table.ofList entries).values) : a ∈ entries.map (·.2) := by
  obtain ⟨e, he, rfl⟩ := List.mem_map.1 h
  exact List.mem_map_of_mem (Table.mem_ofList he)

theorem packageLoad_eq_ok_iff [Source.Release] {t : FileTree} {d : Path} {paths : List Path}
    {l : Loaded} :
    Package.load t d paths = .ok l ↔
      ∃ files diagnostics name, loadFiles t (Path.sort paths) = .ok (files, diagnostics) ∧
        ModuleName.ofPackage? t d.collapsed = some name ∧
        l = ⟨.ofFiles d name files, diagnostics⟩ := by
  rw [Package.load]
  cases loadFiles t (Path.sort paths) with
  | error e => simp [bind, Except.bind]
  | ok loaded =>
    obtain ⟨files, diagnostics⟩ := loaded
    simp only [bind, Except.bind]
    cases ModuleName.ofPackage? t d.collapsed <;> simp [eq_comm]

theorem load_of_mem_package [Source.Release] {t : FileTree} {d : Path} {paths : List Path}
    {l : Loaded} (h : Package.load t d paths = .ok l) {f : SourceFile}
    (hf : f ∈ l.package.files.values) : SourceFile.load t f.path = .ok (.ok f) := by
  obtain ⟨files, diagnostics, name, hfiles, _, rfl⟩ := packageLoad_eq_ok_iff.1 h
  obtain ⟨e, he, rfl⟩ := List.mem_map.1 (mem_of_mem_values_ofList hf)
  obtain ⟨g, hg, rfl⟩ := List.mem_map.1 he
  exact load_of_mem_loadFiles hfiles g hg

/-! ### The tree after a run -/

theorem paths_of_loadCompanions [Source.Release] {t : FileTree} {ps : List Path}
    {log : List LogEntry}
    {existing : List Existing} (h : loadCompanions t ps = (log, .ok existing)) :
    existing.map Existing.path = ps := by
  induction ps generalizing log existing with
  | nil =>
    cases h
    rfl
  | cons p ps ih =>
    rw [loadCompanions] at h
    split at h
    · cases h
    · rename_i e entries hload
      cases hrest : loadCompanions t ps with
      | mk log' rest =>
        rw [hrest] at h
        cases rest with
        | error err => cases h
        | ok more =>
          cases h
          rw [List.map_cons, ih hrest, path_of_load hload]

/-- A run leaves the tree as it is, or brings the companions of its share up to date with the
results for its files. -/
theorem generate_tree [Source.Release] [NameMatcher] (l : Loaded) (t : FileTree) (s : Settings)
    (d : Path) (share : Share) : (l.generate t s d share).tree = t ∨
      ∃ (c : Companions) (existing : List Existing),
        existing.map Existing.path = share.companions ∧
          (l.generate t s d share).tree =
            (c.sync t existing (l.results s share.targets)).tree := by
  rw [Loaded.generate]
  cases hcompanions : loadCompanions t share.companions with
  | mk entries loaded =>
    cases loaded with
    | error e => exact .inl rfl
    | ok existing => exact .inr ⟨_, existing, paths_of_loadCompanions hcompanions, rfl⟩

theorem sources_ofSelection (t : FileTree) (d : Path) (selection : Selection) :
    (Share.ofSelection t d selection).sources = Share.sourcesIn t d := by
  cases selection <;> rfl

theorem generatePackage_of_load [Source.Release] [NameMatcher] {t : FileTree} {d : Path}
    {l : Loaded}
    (h : Package.load t d (Share.sourcesIn t d) = .ok l) (s : Settings) (selection : Selection) :
    generatePackage t s d selection = l.generate t s d (Share.ofSelection t d selection) := by
  unfold generatePackage
  dsimp only
  rw [sources_ofSelection, h]

theorem generatePackage_of_load_error [Source.Release] [NameMatcher] {t : FileTree} {d : Path}
    {e : LoadStop} (h : Package.load t d (Share.sourcesIn t d) = .error e) (s : Settings)
    (selection : Selection) :
    generatePackage t s d selection = ⟨t, [], .error (.load e)⟩ := by
  unfold generatePackage
  dsimp only
  rw [sources_ofSelection, h]

theorem generatePackage_tree [Source.Release] [NameMatcher] (t : FileTree) (s : Settings) (d : Path)
    (selection : Selection) : (generatePackage t s d selection).tree = t ∨
      ∃ (l : Loaded) (c : Companions) (existing : List Existing),
        Package.load t d (Share.sourcesIn t d) = .ok l ∧
          existing.map Existing.path = (Share.ofSelection t d selection).companions ∧
          (generatePackage t s d selection).tree =
            (c.sync t existing (l.results s (Share.ofSelection t d selection).targets)).tree := by
  cases hload : Package.load t d (Share.sourcesIn t d) with
  | error e =>
    rw [generatePackage_of_load_error hload]
    exact .inl rfl
  | ok l =>
    rw [generatePackage_of_load hload]
    rcases generate_tree l t s d (Share.ofSelection t d selection) with h | ⟨c, existing, hpaths, h⟩
    · exact .inl h
    · exact .inr ⟨l, c, existing, rfl, hpaths, h⟩

/-! ### Files that were not analysed -/

/-- A file of a directory whose analysis is not completed in a run: it cannot be loaded, or it is
in the package and its analysis fails. -/
def Unanalysed [Source.Release] [NameMatcher] (t : FileTree) (s : Settings) (d p : Path) : Prop :=
  (∃ fault, SourceFile.load t p = .ok (.error fault)) ∨
    ∃ l, Package.load t d (Share.sourcesIn t d) = .ok l ∧
      ∃ f ∈ l.package.files.values, f.path = p ∧ ∃ e, l.package.analyseFile s f = .error e

theorem mem_modulesIn_iff {t : FileTree} {d p : Path} :
    p ∈ t.modulesIn d ↔ p ∈ t.children d ∧ p.isModule = true := by
  rw [FileTree.modulesIn, Path.sort, List.mem_mergeSort, List.mem_filter]

theorem mem_sourcesIn_iff {t : FileTree} {d p : Path} :
    p ∈ Share.sourcesIn t d ↔ p ∈ t.children d ∧ p.isModule = true ∧ isCompanion p = false := by
  rw [Share.sourcesIn, List.mem_filter, mem_modulesIn_iff, Bool.not_eq_true', and_assoc]

theorem destination?_of_mem_sourcesIn {t : FileTree} {d : Path} {r : FileResult}
    (h : r.path ∈ Share.sourcesIn t d) : destination? r = some (pathOf r.path) := by
  obtain ⟨_, hmod, hcompanion⟩ := mem_sourcesIn_iff.1 h
  rw [Path.isModule, moduleEnding] at hmod
  rw [destination?, hmod, hcompanion]
  rfl

theorem exists_failed_result [Source.Release] [NameMatcher] {t : FileTree} {s : Settings}
    {d p : Path} {l : Loaded}
    (hload : Package.load t d (Share.sourcesIn t d) = .ok l) (hp : p ∈ Share.sourcesIn t d)
    (h : Unanalysed t s d p) :
    ∃ r ∈ l.results s (Share.sourcesIn t d), r.path = p ∧ r.ok = false := by
  rcases h with ⟨fault, hfault⟩ | ⟨l', hload', f, hf, rfl, e, he⟩
  · refine ⟨.unloaded p, unloaded_mem_results hp fun hmem => ?_, rfl, rfl⟩
    obtain ⟨f, hf, rfl⟩ := List.mem_map.1 hmem
    have hok := load_of_mem_package hload hf
    rw [hfault] at hok
    cases hok
  · obtain rfl : l' = l := Except.ok.inj (hload'.symm.trans hload)
    obtain ⟨_, _, hcompanion⟩ := mem_sourcesIn_iff.1 hp
    refine ⟨_, analyseSafely_mem_results hf hcompanion hp, path_analyseSafely _ s f, ?_⟩
    rw [Package.analyseSafely, he]

/-- A file whose analysis was not completed does not cost its companion. Whatever other results
there are about it, bringing companions up to date leaves it as it is when some result about it is
of such a file; so in a run over a directory the companion of each file that could not be loaded or
analysed is afterwards what it was before. -/
theorem unanalysed_keeps_companion [Source.Release] [NameMatcher] :
    (∀ (c : Companions) (t : FileTree) (existing : List Existing) (results : List FileResult)
        (path : Path), (∃ r ∈ results, r.ok = false ∧ destination? r = some path) →
        (c.sync t existing results).tree.node? path = t.node? path) ∧
      ∀ (t : FileTree) (s : Settings) (d p : Path), p ∈ Share.sourcesIn t d →
        Unanalysed t s d p →
        (generatePackage t s d .whole).tree.node? (pathOf p) = t.node? (pathOf p) := by
  constructor
  · rintro c t existing results path ⟨r, hr, hok, hdest⟩
    exact sync_node?_of_isHeld c t (isHeld_iff.2 ⟨r, hr, hdest, hok⟩)
  · intro t s d p hp h
    rcases generatePackage_tree t s d .whole with htree | ⟨l, c, existing, hload, _, htree⟩
    · rw [htree]
    · obtain ⟨r, hr, rfl, hok⟩ := exists_failed_result hload hp h
      rw [htree]
      exact sync_node?_of_isHeld c t
        (isHeld_iff.2 ⟨r, hr, destination?_of_mem_sourcesIn hp, hok⟩)

/-! A directory of two files for the cases below. -/

def appDir : Path := ⟨.root, ["app"]⟩

def appFile : Path := ⟨.root, ["app", "a.py"]⟩

def appCompanion : Path := ⟨.root, ["app", "a_query_gen.py"]⟩

/-- The directory with a file that cannot be decoded, whose companion is there. -/
def garbledTree : FileTree :=
  ⟨[(⟨.root, []⟩, .directory), (appDir, .directory), (appFile, .file [0xff]),
    (appCompanion, .file [])]⟩

section

open scoped Source.Plain NamePattern.Standard

theorem load_garbled : SourceFile.load garbledTree appFile =
    .ok (.error (.undecodable ⟨.invalidStart, 0, 1, 0xff⟩)) := by
  have htext : garbledTree.readText appFile =
      .error (.undecodable ⟨.invalidStart, 0, 1, 0xff⟩) := by decide +kernel
  rw [SourceFile.load, htext]

/-- Results for two files with the same companion, of which the first could not be loaded. -/
def garbledResults : List FileResult :=
  [.unloaded appFile, ⟨⟨.root, ["app", "a_query.py"]⟩, "a_query", true, [], []⟩]

/-- The companion of a file that cannot be decoded stays, also when a later file with the same
companion wants nothing. -/
theorem unanalysed_keeps_companion_garbled :
    (∃ r ∈ garbledResults, r.ok = false ∧ destination? r = some appCompanion) ∧
      (∀ (c : Companions) (existing : List Existing),
        (c.sync garbledTree existing garbledResults).tree.node? appCompanion = some (.file [])) ∧
      appFile ∈ Share.sourcesIn garbledTree appDir ∧ Unanalysed garbledTree .usual appDir appFile ∧
      (generatePackage garbledTree .usual appDir .whole).tree.node? (pathOf appFile) =
        some (.file []) := by
  have hfailed : ∃ r ∈ garbledResults, r.ok = false ∧ destination? r = some appCompanion :=
    ⟨.unloaded appFile, List.mem_cons_self, rfl, by decide⟩
  have hsource : appFile ∈ Share.sourcesIn garbledTree appDir := mem_sourcesIn_iff.2 (by decide)
  have hun : Unanalysed garbledTree .usual appDir appFile := .inl ⟨_, load_garbled⟩
  obtain ⟨hsync, hrun⟩ := unanalysed_keeps_companion
  refine ⟨hfailed, fun c existing => ?_, hsource, hun, ?_⟩
  · rw [hsync c garbledTree existing garbledResults appCompanion hfailed]
    decide
  · rw [hrun garbledTree .usual appDir appFile hsource hun]
    decide

end

/-! ### Where a run writes -/

/-- Whether all paths of a tree are made of names that can stand in directories. -/
def FileTree.IsProper (t : FileTree) : Prop := ∀ e ∈ t.entries, e.1.IsProper

instance (t : FileTree) : Decidable t.IsProper :=
  inferInstanceAs (Decidable (∀ e ∈ t.entries, e.1.IsProper))

theorem mem_children_iff {t : FileTree} {d p : Path} :
    p ∈ t.children d ↔ p ∈ t.entries.map (·.1) ∧ p.parts ≠ [] ∧ p.parent = d := by
  simp [FileTree.children]

theorem pathOf_of_mem_sourcesIn {t : FileTree} (ht : t.IsProper) {d p : Path}
    (hp : p ∈ Share.sourcesIn t d) :
    isCompanion (pathOf p) = true ∧ (pathOf p).parent = d := by
  obtain ⟨hchild, hmod, _⟩ := mem_sourcesIn_iff.1 hp
  obtain ⟨hmem, _, hparent⟩ := mem_children_iff.1 hchild
  obtain ⟨e, he, rfl⟩ := List.mem_map.1 hmem
  have hproper : e.1.IsProper := ht e he
  exact ⟨isCompanion_pathOf hproper hmod, (parent_pathOf hproper hmod).trans hparent⟩

theorem mem_of_mem_destinations [NameMatcher] {l : Loaded} {s : Settings} {targets : List Path}
    {existing : List Existing} {path : Path}
    (h : path ∈ destinations existing (l.results s targets)) :
    path ∈ existing.map Existing.path ∨ ∃ f ∈ targets, path = pathOf f := by
  rcases mem_destinations.1 h with h | h
  · exact .inl h
  · obtain ⟨r, hr, hdest⟩ := List.mem_filterMap.1 h
    exact .inr ⟨r.path, path_mem_of_mem_results hr, eq_pathOf_of_destination? hdest⟩

theorem mem_companionsOf {t : FileTree} {targets : List Path} {path : Path}
    (h : path ∈ Share.companionsOf t targets) : ∃ f ∈ targets, path = pathOf f := by
  rw [Share.companionsOf, Path.sort, List.mem_mergeSort, List.mem_eraseDups, List.mem_filter] at h
  obtain ⟨f, hf, rfl⟩ := List.mem_map.1 h.1
  exact ⟨f, hf, rfl⟩

/-- A run touches only companions. A path at which the tree is another one afterwards is that of a
companion that lies in the directory of the package; and when only some files of the directory are
selected, it is the companion of one of these. -/
theorem generatePackage_changes [Source.Release] [NameMatcher] {t : FileTree} {s : Settings}
    {d : Path} {selection : Selection} (ht : t.IsProper) {path : Path}
    (h : (generatePackage t s d selection).tree.node? path ≠ t.node? path) :
    isCompanion path = true ∧ path.parent = d ∧
      ∀ selected, selection = .files selected →
        ∃ f ∈ Share.sourcesIn t d, f ∈ selected ∧ path = pathOf f := by
  rcases generatePackage_tree t s d selection with htree | ⟨l, c, existing, _, hpaths, htree⟩
  · rw [htree] at h
    exact absurd rfl h
  rw [htree] at h
  have hdest : path ∈ existing.map Existing.path ∨
      ∃ f ∈ (Share.ofSelection t d selection).targets, path = pathOf f := by
    by_contra hno
    exact h (sync_node?_of_not_mem_destinations c t fun hmem => hno (mem_of_mem_destinations hmem))
  rw [hpaths] at hdest
  cases selection with
  | whole =>
    have hbeside : isCompanion path = true ∧ path.parent = d := by
      rcases hdest with hlisted | ⟨f, hf, rfl⟩
      · obtain ⟨hmodule, hcompanion⟩ := List.mem_filter.1 hlisted
        exact ⟨hcompanion, (mem_children_iff.1 (mem_modulesIn_iff.1 hmodule).1).2.2⟩
      · exact pathOf_of_mem_sourcesIn ht hf
    exact ⟨hbeside.1, hbeside.2, fun _ he => by cases he⟩
  | files selected =>
    have hfile : ∃ f ∈ (Share.sourcesIn t d).filter selected.contains, path = pathOf f := by
      rcases hdest with hlisted | hfile
      · exact mem_companionsOf hlisted
      · exact hfile
    obtain ⟨f, hf, rfl⟩ := hfile
    obtain ⟨hsource, hselected⟩ := List.mem_filter.1 hf
    have hbeside := pathOf_of_mem_sourcesIn ht hsource
    refine ⟨hbeside.1, hbeside.2, ?_⟩
    intro selected' he
    cases he
    exact ⟨f, hsource, by simpa using hselected, rfl⟩

def orphanTree : FileTree :=
  ⟨[(⟨.root, []⟩, .directory), (appDir, .directory), (appFile, .file []),
    (appCompanion, .file []), (⟨.root, ["app", "b_query_gen.py"]⟩, .file [])]⟩

theorem Source.readLines?_nil [Source.Release] : readLines? [] = some [] := by
  have hends : endLine [] = ['\n'] := rfl
  have hscan : scan? [] = some [] := by
    rw [scan?, hends, scanLines?_newline, scanLines?]
    rfl
  rw [readLines?, hscan]
  change statements? [] = some []
  rw [statements?]

theorem readSource_nil [Source.Release] : readSource [] = .ok (.ok []) := by
  have hmodule : Source.readModule? [] = some [] := Source.readLines?_nil
  rw [readSource, hmodule]
  rfl

theorem load_of_empty [Source.Release] {t : FileTree} {p : Path} {module : Text}
    (htext : t.readText p = .ok []) (hmodule : ModuleName.ofPath? t p.collapsed = some module) :
    SourceFile.load t p = .ok (.ok ⟨p, module, []⟩) :=
  sourceFile_load_eq_ok_iff.2 ⟨_, _, _, htext, readSource_nil, hmodule, rfl⟩

section

open scoped Source.Plain NamePattern.Standard

theorem load_orphan : SourceFile.load orphanTree appFile = .ok (.ok ⟨appFile, "a", []⟩) := by
  have htext : orphanTree.readText appFile = .ok [] := by decide +kernel
  exact load_of_empty htext (by decide)

theorem load_appCompanion :
    Existing.load orphanTree appCompanion = .ok (⟨appCompanion, .module []⟩, []) := by
  have hread : orphanTree.read appCompanion = .ok [] := by decide
  have hdecoded : Source.Encoding.decodeFile? [] = some [] := by decide +kernel
  have hstatements : readStatements? [] = some [] := by
    rw [readStatements?, hdecoded]
    exact Source.readLines?_nil
  have hstanding : Standing.ofContents [] = .module [] := by
    rw [Standing.ofContents, hstatements]
  unfold Existing.load
  rw [hread]
  simp only [bind, Except.bind, hstanding]

def orphanPackage : Package := .ofFiles appDir "app" [⟨appFile, "a", []⟩]

theorem results_orphan :
    Loaded.results ⟨orphanPackage, []⟩ .usual [appFile] =
      [⟨appFile, "a", true, [], []⟩] := by
  have hvalues : orphanPackage.files.values = [⟨appFile, "a", []⟩] := rfl
  have hsources : orphanPackage.sources (some [appFile]) = [⟨appFile, "a", []⟩] := by
    rw [Package.sources, hvalues]
    rfl
  have hanalysed : (orphanPackage.analyseSafely .usual ⟨appFile, "a", []⟩).result =
      ⟨appFile, "a", true, [], []⟩ := rfl
  simp only [Loaded.results, Package.analyse, Package.unloaded, hsources, hvalues, List.map_cons,
    hanalysed]
  rfl

theorem plan_orphan :
    plan [⟨appCompanion, .module []⟩] [⟨appFile, "a", true, [], []⟩] =
      [⟨appCompanion, .module [], [], some appFile⟩] := by
  have hplanned : (planned [⟨appCompanion, .module []⟩] [⟨appFile, "a", true, [], []⟩]).entries =
      [(appCompanion, ⟨appCompanion, .module [], [], some appFile⟩)] := rfl
  rw [plan, hplanned, List.mergeSort_singleton]
  rfl

/-- A run for the file deletes its companion. -/
theorem generatePackage_orphan :
    (generatePackage orphanTree .usual appDir (.files [appFile])).tree.node? appCompanion =
      none := by
  have hshare : Share.ofSelection orphanTree appDir (.files [appFile]) =
      ⟨[appFile], [appFile], [appCompanion]⟩ := by
    have hmodules : orphanTree.modulesIn appDir =
        [appFile, appCompanion, ⟨.root, ["app", "b_query_gen.py"]⟩] :=
      List.mergeSort_of_pairwise (by decide)
    have hsources : Share.sourcesIn orphanTree appDir = [appFile] := by
      rw [Share.sourcesIn, hmodules]
      rfl
    have hcompanions : Share.companionsOf orphanTree [appFile] = [appCompanion] :=
      List.mergeSort_singleton appCompanion
    rw [Share.ofSelection, hsources,
      show [appFile].filter [appFile].contains = [appFile] from rfl, hcompanions]
  have hload : Package.load orphanTree appDir [appFile] = .ok ⟨orphanPackage, []⟩ := by
    refine packageLoad_eq_ok_iff.2 ⟨_, [], "app", ?_, by decide, rfl⟩
    simp only [Path.sort, List.mergeSort_singleton, loadFiles, load_orphan]
    rfl
  have hlisted : loadCompanions orphanTree [appCompanion] =
      ([], .ok [⟨appCompanion, .module []⟩]) := by
    rw [loadCompanions, load_appCompanion]
    rfl
  have htree : ((Companions.mk ("app" : Text) (Settings.usual.runtimeImport "app")).sync orphanTree
      [⟨appCompanion, .module []⟩]
      (Loaded.results ⟨orphanPackage, []⟩ .usual [appFile])).tree.node? appCompanion =
        none := by
    rw [results_orphan, sync_tree, Companions.applyPlan, plan_orphan]
    rfl
  rw [generatePackage, hshare]
  dsimp only
  rw [hload]
  unfold Loaded.generate
  dsimp only
  rw [hlisted]
  exact htree

/-- The companion that goes when its file is selected is the one of that file. -/
theorem generatePackage_changes_orphan :
    let run := generatePackage orphanTree .usual appDir (.files [appFile])
    orphanTree.IsProper ∧ run.tree.node? appCompanion ≠ orphanTree.node? appCompanion ∧
      isCompanion appCompanion = true ∧ appCompanion.parent = appDir ∧
      ∃ f ∈ Share.sourcesIn orphanTree appDir, f ∈ [appFile] ∧ appCompanion = pathOf f := by
  intro run
  have hproper : orphanTree.IsProper := by decide
  have hthere : orphanTree.node? appCompanion = some (.file []) := by decide
  have hchanged : run.tree.node? appCompanion ≠ orphanTree.node? appCompanion := by
    rw [show run.tree.node? appCompanion = none from generatePackage_orphan, hthere]
    exact Option.some_ne_none _ ∘ Eq.symm
  obtain ⟨hcompanion, hparent, hselected⟩ := generatePackage_changes hproper hchanged
  exact ⟨hproper, hchanged, hcompanion, hparent, hselected _ rfl⟩

end

end TypedQueries
