import TypedQueries.Proofs.Completion

/-!
# Selecting a file of a directory

A run for one file of a directory does to its companion what a run over the whole directory does.
Both load the same package, and the file is analysed in it; the results for other files are about
other companions, unless one of them has the same companion. The companion is listed in both runs
just in case it is there, since a directory does not have the name of a module.
-/

namespace TypedQueries

open Companion

namespace FileTree

def NoModuleDirectories (t : FileTree) : Prop :=
  ∀ e ∈ t.entries, e.2 = .directory → e.1.isModule = false

instance (t : FileTree) : Decidable t.NoModuleDirectories :=
  inferInstanceAs (Decidable (∀ e ∈ t.entries, e.2 = .directory → e.1.isModule = false))

theorem NoModuleDirectories.isFile_iff {t : FileTree} (ht : t.NoModuleDirectories) {p : Path}
    (hp : p.isModule = true) : t.isFile p = true ↔ p ∈ t.entries.map (·.1) := by
  rw [FileTree.isFile_iff, ← exists_node?_iff]
  constructor
  · rintro ⟨contents, hnode⟩
    exact ⟨_, hnode⟩
  · rintro ⟨n, hnode⟩
    cases n with
    | file contents => exact ⟨contents, hnode⟩
    | directory =>
      have hname := ht (p, .directory) (mem_entries_of_node? hnode) rfl
      rw [hp] at hname
      cases hname

end FileTree

/-! ### What is settled for a companion -/

namespace Companion

theorem settle_congr {existing existing' : List Existing} {results results' : List FileResult}
    {path : Path} (hthere : existingAt? existing' path = existingAt? existing path)
    (hresults : resultsFor results' path = resultsFor results path) :
    settle existing' results' path = settle existing results path := by
  unfold settle isHeld
  rw [hthere, hresults]

/-- Companions listed from one tree are the same at a path that is in both listings or in none. -/
theorem IsListing.existingAt?_congr [Source.Release] {t : FileTree} {paths paths' : List Path}
    {existing existing' : List Existing} (h : IsListing t paths existing)
    (h' : IsListing t paths' existing') {path : Path}
    (hiff : path ∈ existing'.map Existing.path ↔ path ∈ existing.map Existing.path) :
    existingAt? existing' path = existingAt? existing path := by
  cases he : existingAt? existing path with
  | none =>
    rw [existingAt?_eq_none_iff] at he ⊢
    exact fun hmem => he (hiff.1 hmem)
  | some e =>
    obtain ⟨hmem, rfl⟩ := existingAt?_eq_some he
    cases he' : existingAt? existing' e.path with
    | none => exact absurd (hiff.2 (List.mem_map_of_mem hmem)) (existingAt?_eq_none_iff.1 he')
    | some e' =>
      obtain ⟨hmem', hpath⟩ := existingAt?_eq_some he'
      obtain ⟨log, hload⟩ := h.loaded e hmem
      obtain ⟨log', hload'⟩ := h'.loaded e' hmem'
      rw [hpath, hload] at hload'
      exact congrArg (some ·.1) (Except.ok.inj hload'.symm)

end Companion

/-! ### Shares -/

section Shares

variable {t : FileTree} {d f : Path} {selection : Selection}

theorem mem_sourcesIn_of_mem_targets (hf : f ∈ (Share.ofSelection t d selection).targets) :
    f ∈ Share.sourcesIn t d := by
  cases selection with
  | whole => exact hf
  | files selected => exact (List.mem_filter.1 hf).1

/-- A file is as often among the targets of a share as it is among the files of the directory. -/
theorem filter_targets (hf : f ∈ (Share.ofSelection t d selection).targets) :
    ((Share.ofSelection t d selection).targets.filter fun g => g = f) =
      (Share.sourcesIn t d).filter fun g => g = f := by
  cases selection with
  | whole => rfl
  | files selected =>
    have hselected : selected.contains f = true := (List.mem_filter.1 hf).2
    unfold Share.ofSelection
    dsimp only
    rw [List.filter_filter]
    apply List.filter_congr
    intro g _
    by_cases hg : g = f
    · rw [hg, hselected, Bool.and_true]
    · simp [hg]

theorem isFile_of_mem_companions (ht : t.NoModuleDirectories) (d : Path) (selection : Selection) :
    ∀ p ∈ (Share.ofSelection t d selection).companions, t.isFile p = true := by
  intro p hp
  cases selection with
  | whole =>
    obtain ⟨hchild, hmodule⟩ := mem_modulesIn_iff.1 (List.mem_filter.1 hp).1
    exact (ht.isFile_iff hmodule).2 (mem_children_iff.1 hchild).1
  | files selected =>
    unfold Share.ofSelection Share.companionsOf at hp
    dsimp only at hp
    rw [Path.sort, List.mem_mergeSort, List.mem_eraseDups] at hp
    exact (List.mem_filter.1 hp).2

theorem pathOf_mem_companions (hproper : t.IsProper)
    (hf : f ∈ (Share.ofSelection t d selection).targets) (hfile : t.isFile (pathOf f) = true) :
    pathOf f ∈ (Share.ofSelection t d selection).companions := by
  cases selection with
  | whole =>
    obtain ⟨hcompanion, hparent⟩ := pathOf_of_mem_sourcesIn hproper hf
    obtain ⟨hchild, hmodule, _⟩ := mem_sourcesIn_iff.1 hf
    obtain ⟨e, he, rfl⟩ := List.mem_map.1 (mem_children_iff.1 hchild).1
    have hpath : pathOf e.1 = e.1.parent.child (nameOf e.1.name) :=
      pathOf_eq_child (hproper e he) hmodule
    have hname : (pathOf e.1).isModule = true := by
      rw [hpath, Path.isModule, Path.name_child]
      exact isSuffixOf_nameOf e.1.name
    have hparts : (pathOf e.1).parts ≠ [] := by simp [hpath, Path.child]
    obtain ⟨contents, hnode⟩ := FileTree.isFile_iff.1 hfile
    refine List.mem_filter.2 ⟨mem_modulesIn_iff.2 ⟨mem_children_iff.2 ?_, hname⟩, hcompanion⟩
    exact ⟨FileTree.exists_node?_iff.1 ⟨_, hnode⟩, hparts, hparent⟩
  | files selected =>
    unfold Share.ofSelection Share.companionsOf
    dsimp only
    rw [Path.sort, List.mem_mergeSort, List.mem_eraseDups]
    exact List.mem_filter.2 ⟨List.mem_map_of_mem hf, hfile⟩

theorem exists_loadCompanions [Source.Release] {ps : List Path} (h : ∀ p ∈ ps, t.isFile p = true) :
    ∃ log existing, loadCompanions t ps = (log, .ok existing) := by
  induction ps with
  | nil => exact ⟨[], [], rfl⟩
  | cons p ps ih =>
    obtain ⟨e, entries, _, hload⟩ := exists_load (h p List.mem_cons_self)
    obtain ⟨log, existing, hrest⟩ := ih fun q hq => h q (List.mem_cons_of_mem p hq)
    refine ⟨entries ++ log, e :: existing, ?_⟩
    rw [loadCompanions, hload]
    dsimp only
    rw [hrest]
    rfl

end Shares

/-! ### Runs that return -/

theorem exists_load_of_files [Source.Release] {t : FileTree} {d : Path} {ps : List Path}
    (h : ∀ p ∈ ps, ∃ r, SourceFile.load t p = .ok r)
    (hname : ∃ name, ModuleName.ofPackage? t d.collapsed = some name) :
    ∃ l, Package.load t d ps = .ok l := by
  have hfiles : ∀ qs : List Path, (∀ q ∈ qs, ∃ r, SourceFile.load t q = .ok r) →
      ∃ r, loadFiles t qs = .ok r := by
    intro qs hqs
    induction qs with
    | nil => exact ⟨_, rfl⟩
    | cons q qs ih =>
      obtain ⟨file, hfile⟩ := hqs q List.mem_cons_self
      obtain ⟨rest, hrest⟩ := ih fun q' hq' => hqs q' (List.mem_cons_of_mem q hq')
      unfold loadFiles
      rw [hfile, hrest]
      cases file <;> exact ⟨_, rfl⟩
  obtain ⟨⟨files, diagnostics⟩, hr⟩ :=
    hfiles (Path.sort ps) fun q hq => h q (List.mem_mergeSort.1 hq)
  obtain ⟨name, hname⟩ := hname
  exact ⟨_, packageLoad_eq_ok_iff.2 ⟨files, diagnostics, name, hr, hname, rfl⟩⟩

/-- A run over a package returns when no directory has the name of a module, the package has a name,
and each of its files is loaded or left out. -/
theorem generatePackage_returns [Source.Release] [NameMatcher] {t : FileTree} {d : Path}
    (hdirs : t.NoModuleDirectories)
    (hfiles : ∀ p ∈ Share.sourcesIn t d, ∃ r, SourceFile.load t p = .ok r)
    (hname : ∃ name, ModuleName.ofPackage? t d.collapsed = some name) (s : Settings)
    (selection : Selection) : ∃ r, (generatePackage t s d selection).result = .ok r := by
  obtain ⟨l, hload⟩ := exists_load_of_files (d := d) hfiles hname
  obtain ⟨log, existing, hlisted⟩ :=
    exists_loadCompanions (isFile_of_mem_companions hdirs d selection)
  obtain ⟨_, summary, _, hresult⟩ := generate_of_listed hlisted l s d
  rw [generatePackage_of_load hload]
  exact ⟨_, hresult⟩

/-! ### The results about a companion -/

theorem filter_sources (p : Package) {targets : List Path} {f : Path} (hf : f ∈ targets) :
    ((p.sources (some targets)).filter fun g => g.path = f) = p.sources (some [f]) := by
  unfold Package.sources
  rw [List.filter_filter]
  apply List.filter_congr
  intro g _
  by_cases hg : g.path = f
  · simp [hg, hf]
  · simp [hg]

/-- The results for one file: those of its analyses, and that it could not be loaded. -/
theorem filter_results [NameMatcher] (l : Loaded) (s : Settings) {targets : List Path} {f : Path}
    (hf : f ∈ targets) :
    ((l.results s targets).filter fun r => r.path = f) =
      (l.package.analyse s (some [f])).map Analysed.result ++
        l.package.unloaded (targets.filter fun g => g = f) := by
  have hanalysed : ((l.package.analyse s (some targets)).map Analysed.result).filter
      (fun r => r.path = f) = (l.package.analyse s (some [f])).map Analysed.result := by
    unfold Package.analyse
    rw [← filter_sources l.package hf, List.map_map, List.map_map, List.filter_map]
    congr 1
    apply List.filter_congr
    intro g _
    simp [path_analyseSafely]
  have hunloaded : (l.package.unloaded targets).filter (fun r => r.path = f) =
      l.package.unloaded (targets.filter fun g => g = f) := by
    unfold Package.unloaded
    rw [List.filter_map, List.filter_filter, List.filter_filter]
    congr 1
    apply List.filter_congr
    intro g _
    exact Bool.and_comm _ _
  unfold Loaded.results
  rw [List.filter_append, hanalysed, hunloaded]

/-- The results about the companion of a file are those for the file, when no other file of the
directory has the same companion. -/
theorem resultsFor_pathOf [NameMatcher] {t : FileTree} {d f : Path} {l : Loaded} {s : Settings}
    {targets : List Path} (htargets : ∀ g ∈ targets, g ∈ Share.sourcesIn t d)
    (halone : ∀ g ∈ Share.sourcesIn t d, pathOf g = pathOf f → g = f) :
    resultsFor (l.results s targets) (pathOf f) =
      (l.results s targets).filter fun r => r.path = f := by
  unfold resultsFor
  apply List.filter_congr
  intro r hr
  have hsource := htargets r.path (path_mem_of_mem_results hr)
  rw [destination?_of_mem_sourcesIn hsource, decide_eq_decide, Option.some.injEq]
  constructor
  · exact halone r.path hsource
  · exact congrArg pathOf

/-! ### Two runs -/

section Runs

variable {t : FileTree} {s : Settings} {d f : Path} {selection selection' : Selection}

theorem existingAt?_pathOf [Source.Release] (hproper : t.IsProper)
    (hf : f ∈ (Share.ofSelection t d selection).targets)
    (hf' : f ∈ (Share.ofSelection t d selection').targets) {log log' : List LogEntry}
    {existing existing' : List Existing}
    (hlisted : loadCompanions t (Share.ofSelection t d selection).companions = (log, .ok existing))
    (hlisted' : loadCompanions t (Share.ofSelection t d selection').companions =
      (log', .ok existing')) :
    existingAt? existing' (pathOf f) = existingAt? existing (pathOf f) := by
  have hlist := isListing_of_loadCompanions hlisted
  have hlist' := isListing_of_loadCompanions hlisted'
  apply hlist.existingAt?_congr hlist'
  constructor
  · intro hmem
    rw [paths_of_loadCompanions hlisted]
    exact pathOf_mem_companions hproper hf (hlist'.isFile hmem)
  · intro hmem
    rw [paths_of_loadCompanions hlisted']
    exact pathOf_mem_companions hproper hf' (hlist.isFile hmem)

/-- Two runs over a directory that both take in a file leave the same at the path of its companion,
whatever else is selected, when no other file of the directory has that companion. -/
theorem generatePackage_node?_pathOf [Source.Release] [NameMatcher] (hproper : t.IsProper)
    (hdirs : t.NoModuleDirectories)
    (halone : ∀ g ∈ Share.sourcesIn t d, pathOf g = pathOf f → g = f)
    (hf : f ∈ (Share.ofSelection t d selection).targets)
    (hf' : f ∈ (Share.ofSelection t d selection').targets) :
    (generatePackage t s d selection').tree.node? (pathOf f) =
      (generatePackage t s d selection).tree.node? (pathOf f) := by
  cases hload : Package.load t d (Share.sourcesIn t d) with
  | error e => rw [generatePackage_of_load_error hload, generatePackage_of_load_error hload]
  | ok l =>
    obtain ⟨log, existing, hlisted⟩ :=
      exists_loadCompanions (isFile_of_mem_companions hdirs d selection)
    obtain ⟨log', existing', hlisted'⟩ :=
      exists_loadCompanions (isFile_of_mem_companions hdirs d selection')
    rw [generatePackage_of_load hload, generatePackage_of_load hload,
      (generate_of_listed hlisted l s d).1, (generate_of_listed hlisted' l s d).1]
    apply sync_node?_congr
    · exact fun r hr => emits_of_mem_results hr _
    · exact fun r hr => emits_of_mem_results hr _
    · rfl
    · exact fun _ => rfl
    · apply settle_congr
      · exact existingAt?_pathOf hproper hf hf' hlisted hlisted'
      · rw [resultsFor_pathOf (fun g => mem_sourcesIn_of_mem_targets) halone,
          resultsFor_pathOf (fun g => mem_sourcesIn_of_mem_targets) halone, filter_results l s hf,
          filter_results l s hf', filter_targets hf, filter_targets hf']

end Runs

/-- A run for one file of a directory agrees with the run over the directory on the companion of
that file, whatever is there before and whether or not the file can be loaded, when no other file
of the directory has the same companion. -/
theorem generatePackage_file_agrees [Source.Release] [NameMatcher] {t : FileTree} {s : Settings}
    {d f : Path}
    (hproper : t.IsProper) (hdirs : t.NoModuleDirectories) (hf : f ∈ Share.sourcesIn t d)
    (halone : ∀ g ∈ Share.sourcesIn t d, pathOf g = pathOf f → g = f) :
    (generatePackage t s d (.files [f])).tree.node? (pathOf f) =
      (generatePackage t s d .whole).tree.node? (pathOf f) := by
  have hselected : f ∈ (Share.ofSelection t d (.files [f])).targets :=
    List.mem_filter.2 ⟨hf, by simp⟩
  exact generatePackage_node?_pathOf hproper hdirs halone hf hselected

section

open scoped Source.Plain NamePattern.Standard

/-- The run over the directory deletes the companion of a file without queries, as the run for the
file does. -/
theorem generatePackage_file_agrees_orphan :
    orphanTree.IsProper ∧ orphanTree.NoModuleDirectories ∧
      appFile ∈ Share.sourcesIn orphanTree appDir ∧
      (∀ g ∈ Share.sourcesIn orphanTree appDir, pathOf g = pathOf appFile → g = appFile) ∧
      (generatePackage orphanTree .usual appDir .whole).tree.node? (pathOf appFile) = none := by
  have hproper : orphanTree.IsProper := by decide
  have hdirs : orphanTree.NoModuleDirectories := by decide
  have hsource : appFile ∈ Share.sourcesIn orphanTree appDir := mem_sourcesIn_iff.2 (by decide)
  have halone : ∀ g ∈ Share.sourcesIn orphanTree appDir, pathOf g = pathOf appFile →
      g = appFile := by
    have hchildren : ∀ g ∈ orphanTree.children appDir, pathOf g = pathOf appFile →
        isCompanion g = false → g = appFile := by decide
    intro g hg hpath
    obtain ⟨hchild, _, hcompanion⟩ := mem_sourcesIn_iff.1 hg
    exact hchildren g hchild hpath hcompanion
  have hcompanion : pathOf appFile = appCompanion := by decide
  refine ⟨hproper, hdirs, hsource, halone, ?_⟩
  rw [← generatePackage_file_agrees hproper hdirs hsource halone, hcompanion]
  exact generatePackage_orphan

end

end TypedQueries
