import TypedQueries.Package.Load
import TypedQueries.Proofs.Collisions
import TypedQueries.Proofs.Footprint
import TypedQueries.Proofs.ModuleNames
import TypedQueries.Proofs.Tables
import TypedQueries.Source.Plain

/-!
# What becomes of the files of a package

A file that can be loaded is one of the package, and any other has a diagnostic. Of two files whose
modules have one name the package has the later one only, so all files of a directory are placed
exactly if their modules have different names. No package comes of a directory for which the climb
through the packages around it has no end, nor, in some releases, of a file with a null character.
-/

namespace TypedQueries

open Source

/-! ### One file -/

namespace FileTree

/-- Whether the file at a path ends the loading of all: it can be decoded, there is a null character
in it, and the release does not refuse it for that. -/
def Stops [Release] (t : FileTree) (p : Path) : Prop :=
  Release.refusesNull = false ∧ ∃ text, t.readText p = .ok text ∧ '\x00' ∈ text

section File

variable [Release] {t : FileTree} {p : Path}

/-- The file at a path, if it can be loaded. -/
def loaded? (t : FileTree) (p : Path) : Option SourceFile :=
  match SourceFile.load t p with
  | .ok (.ok f) => some f
  | _ => none

/-- Why the file at a path is left out of its package, if it is. -/
def fault? (t : FileTree) (p : Path) : Option LoadFault :=
  match SourceFile.load t p with
  | .ok (.error fault) => some fault
  | _ => none

theorem exists_readSource_iff (text : Text) :
    (∃ outcome, readSource text = .ok outcome) ↔
      ¬(Release.refusesNull = false ∧ '\x00' ∈ text) := by
  unfold readSource
  by_cases hnull : '\x00' ∈ text
  · rw [if_pos (List.contains_iff_mem.2 hnull)]
    cases Release.refusesNull <;> simp [hnull]
  · rw [if_neg (mt List.contains_iff_mem.1 hnull)]
    cases readModule? text <;> simp [hnull]

/-- Only a null character keeps a file whose module has a name from being loaded or left out. -/
theorem exists_load_iff (hmodule : (ModuleName.ofPath? t p.collapsed).isSome = true) :
    (∃ r, SourceFile.load t p = .ok r) ↔ ¬t.Stops p := by
  obtain ⟨module, hmodule⟩ := Option.isSome_iff_exists.1 hmodule
  unfold SourceFile.load Stops
  cases htext : t.readText p with
  | error fault => simp
  | ok text =>
    have hsource := exists_readSource_iff text
    simp only [Except.ok.injEq, exists_eq_left', ← hsource]
    cases readSource text with
    | error e => simp [bind, Except.bind]
    | ok outcome =>
      cases outcome with
      | error r => simp [bind, Except.bind]
      | ok statements => simp [bind, Except.bind, hmodule]

theorem load_of_loaded? {f : SourceFile} (h : t.loaded? p = some f) :
    SourceFile.load t p = .ok (.ok f) := by
  unfold loaded? at h
  split at h
  · rename_i hload
    cases h
    exact hload
  · cases h

theorem path_of_loaded? {f : SourceFile} (h : t.loaded? p = some f) : f.path = p :=
  path_of_sourceFile_load (load_of_loaded? h)

theorem loaded?_or_fault? (h : ∃ r, SourceFile.load t p = .ok r) :
    (∃ f, t.loaded? p = some f ∧ t.fault? p = none) ∨
      ∃ fault, t.loaded? p = none ∧ t.fault? p = some fault := by
  obtain ⟨r, hload⟩ := h
  cases r with
  | ok f => exact .inl ⟨f, by rw [loaded?, hload], by rw [fault?, hload]⟩
  | error fault => exact .inr ⟨fault, by rw [loaded?, hload], by rw [fault?, hload]⟩

end File

end FileTree

/-! ### Several files -/

section Files

variable [Release] {t : FileTree} {ps : List Path}

def FileTree.diagnostic? (t : FileTree) (p : Path) : Option Diagnostic :=
  (t.fault? p).map fun fault => fault.diagnostic p

theorem loadFiles_eq (h : ∀ p ∈ ps, ∃ r, SourceFile.load t p = .ok r) :
    loadFiles t ps = .ok (ps.filterMap t.loaded?, ps.filterMap t.diagnostic?) := by
  induction ps with
  | nil => rfl
  | cons p ps ih =>
    have hrest := ih fun q hq => h q (List.mem_cons_of_mem p hq)
    obtain ⟨r, hload⟩ := h p List.mem_cons_self
    cases r with
    | ok f =>
      have hfile : t.loaded? p = some f := by rw [FileTree.loaded?, hload]
      have hnone : t.diagnostic? p = none := by
        rw [FileTree.diagnostic?, FileTree.fault?, hload]
        rfl
      rw [List.filterMap_cons_some hfile, List.filterMap_cons_none hnone, loadFiles, hload, hrest]
      rfl
    | error fault =>
      have hnone : t.loaded? p = none := by rw [FileTree.loaded?, hload]
      have hfault : t.diagnostic? p = some (fault.diagnostic p) := by
        rw [FileTree.diagnostic?, FileTree.fault?, hload]
        rfl
      rw [List.filterMap_cons_none hnone, List.filterMap_cons_some hfault, loadFiles, hload, hrest]
      rfl

theorem exists_load_of_loadFiles {r : List SourceFile × List Diagnostic}
    (h : loadFiles t ps = .ok r) : ∀ p ∈ ps, ∃ r, SourceFile.load t p = .ok r := by
  induction ps generalizing r with
  | nil => simp
  | cons p ps ih =>
    unfold loadFiles at h
    obtain ⟨file, hload, h⟩ := exists_of_bind h
    obtain ⟨rest, hrest, h⟩ := exists_of_bind h
    intro q hq
    rcases List.mem_cons.1 hq with rfl | hq
    · exact ⟨file, hload⟩
    · exact ih hrest q hq

/-- A package that was loaded is made of the files that can be loaded, with a diagnostic for each
of the others. -/
theorem packageLoad_iff {d : Path} {l : Loaded} :
    Package.load t d ps = .ok l ↔
      (∀ p ∈ ps, ∃ r, SourceFile.load t p = .ok r) ∧
        ∃ name, ModuleName.ofPackage? t d.collapsed = some name ∧
          l = ⟨.ofFiles d name ((Path.sort ps).filterMap t.loaded?),
            (Path.sort ps).filterMap t.diagnostic?⟩ := by
  rw [packageLoad_eq_ok_iff]
  constructor
  · rintro ⟨files, diagnostics, name, hfiles, hname, rfl⟩
    have hload := exists_load_of_loadFiles hfiles
    rw [loadFiles_eq hload] at hfiles
    cases hfiles
    exact ⟨fun p hp => hload p (List.mem_mergeSort.2 hp), name, hname, rfl⟩
  · rintro ⟨hload, name, hname, rfl⟩
    exact ⟨_, _, name, loadFiles_eq fun p hp => hload p (List.mem_mergeSort.1 hp), hname, rfl⟩

end Files

/-! ### Where each file is placed -/

namespace Loaded

def filesAt (l : Loaded) (p : Path) : Nat := (l.package.files.values.map SourceFile.path).count p

def diagnosticsAt (l : Loaded) (p : Path) : Nat := (l.diagnostics.map Diagnostic.path).count p

/-- Whether a path is that of one file and of no diagnostic, or of one diagnostic and no file. -/
def Places (l : Loaded) (p : Path) : Prop :=
  (l.filesAt p = 1 ∧ l.diagnosticsAt p = 0) ∨ (l.filesAt p = 0 ∧ l.diagnosticsAt p = 1)

end Loaded

section Places

variable [Release] {t : FileTree} {d p q : Path} {ps : List Path} {l : Loaded}

theorem module_of_sourceFile_load {f : SourceFile} (h : SourceFile.load t p = .ok (.ok f)) :
    ModuleName.ofPath? t p.collapsed = some f.module := by
  obtain ⟨_, _, module, _, _, hmodule, rfl⟩ := sourceFile_load_eq_ok_iff.1 h
  exact hmodule

theorem FileTree.path_of_diagnostic? {b : Diagnostic} (h : t.diagnostic? p = some b) :
    b.path = p := by
  obtain ⟨fault, _, rfl⟩ := Option.map_eq_some_iff.1 h
  rfl

omit [Release] in
/-- What is made of paths has each path as often as it is made of it. -/
theorem count_filterMap_path {β : Type} {f : Path → Option β} {path : β → Path}
    (hpath : ∀ p b, f p = some b → path b = p) (hps : ps.Nodup) (hp : p ∈ ps) :
    ((ps.filterMap f).map path).count p = if (f p).isSome then 1 else 0 := by
  rw [map_filterMap_eq_filter hpath]
  split
  · rename_i h
    rw [List.count_filter (p := fun p => (f p).isSome) h, List.count_eq_one_of_mem hps hp]
  · rename_i h
    exact List.count_eq_zero.2 fun hmem => h (List.mem_filter.1 hmem).2

omit [Release] in
theorem nodup_sort (h : ps.Nodup) : (Path.sort ps).Nodup :=
  (List.mergeSort_perm ps Path.atMost).nodup_iff.2 h

theorem diagnosticsAt_eq (hps : ps.Nodup) (hl : Package.load t d ps = .ok l) (hp : p ∈ ps) :
    l.diagnosticsAt p = if (t.fault? p).isSome then 1 else 0 := by
  obtain ⟨-, name, -, rfl⟩ := packageLoad_iff.1 hl
  rw [Loaded.diagnosticsAt, count_filterMap_path (fun _ _ => FileTree.path_of_diagnostic?)
    (nodup_sort hps) (List.mem_mergeSort.2 hp), FileTree.diagnostic?, Option.isSome_map]

/-- No two files that can be loaded have one module name. -/
def DistinctModules (t : FileTree) (ps : List Path) : Prop :=
  ∀ p ∈ ps, ∀ q ∈ ps, (t.loaded? p).isSome → (t.loaded? q).isSome →
    ModuleName.ofPath? t p.collapsed = ModuleName.ofPath? t q.collapsed → p = q

/-- With distinct module names, the files of a package are those that can be loaded. -/
theorem values_ofFiles {name : Text} (hps : ps.Nodup) (hdistinct : DistinctModules t ps) :
    (Package.ofFiles d name (ps.filterMap t.loaded?)).files.values = ps.filterMap t.loaded? := by
  have hfiles : (ps.filterMap t.loaded?).Nodup := by
    refine hps.filterMap fun p q f hp hq => ?_
    rw [← FileTree.path_of_loaded? hp, ← FileTree.path_of_loaded? hq]
  have hmodules : (((ps.filterMap t.loaded?).map fun f => (f.module, f)).map Prod.fst).Nodup := by
    rw [List.map_map]
    refine hfiles.map_on fun f hf g hg heq => ?_
    obtain ⟨p, hp, hpf⟩ := List.mem_filterMap.1 hf
    obtain ⟨q, hq, hqg⟩ := List.mem_filterMap.1 hg
    have hmodule : f.module = g.module := heq
    obtain rfl := hdistinct p hp q hq (by simp [hpf]) (by simp [hqg]) <| by
      rw [module_of_sourceFile_load (FileTree.load_of_loaded? hpf),
        module_of_sourceFile_load (FileTree.load_of_loaded? hqg), hmodule]
    exact Option.some.inj (hpf.symm.trans hqg)
  rw [Package.ofFiles, Table.values, Table.entries_ofList hmodules, List.map_map]
  exact List.map_id _

theorem DistinctModules.sort (h : DistinctModules t ps) : DistinctModules t (Path.sort ps) :=
  fun p hp q hq => h p (List.mem_mergeSort.1 hp) q (List.mem_mergeSort.1 hq)

/-- With distinct module names, each file of a package that was loaded is placed. -/
theorem places_of_distinct (hps : ps.Nodup) (hdistinct : DistinctModules t ps)
    (hl : Package.load t d ps = .ok l) (hp : p ∈ ps) : l.Places p := by
  have hfiles : l.filesAt p = if (t.loaded? p).isSome then 1 else 0 := by
    obtain ⟨-, name, -, rfl⟩ := packageLoad_iff.1 hl
    rw [Loaded.filesAt, values_ofFiles (nodup_sort hps) hdistinct.sort,
      count_filterMap_path (fun _ _ => FileTree.path_of_loaded?) (nodup_sort hps)
        (List.mem_mergeSort.2 hp)]
  have hdiagnostics := diagnosticsAt_eq hps hl hp
  rw [Loaded.Places, hfiles, hdiagnostics]
  rcases FileTree.loaded?_or_fault? ((packageLoad_iff.1 hl).1 p hp) with
    ⟨f, hf, hfault⟩ | ⟨fault, hf, hfault⟩
  · exact .inl (by simp [hf, hfault])
  · exact .inr (by simp [hf, hfault])

theorem module_of_mem_package (hl : Package.load t d ps = .ok l) {module : Text} {f : SourceFile}
    (h : (module, f) ∈ l.package.files.entries) : module = f.module := by
  obtain ⟨-, name, -, rfl⟩ := packageLoad_iff.1 hl
  obtain ⟨g, _, heq⟩ := List.mem_map.1 (Table.mem_ofList h)
  obtain ⟨rfl, rfl⟩ := Prod.mk.inj heq
  rfl

theorem mem_entries_of_places (hps : ps.Nodup) (hl : Package.load t d ps = .ok l) (hp : p ∈ ps)
    (hloaded : (t.loaded? p).isSome) (hplaced : l.Places p) :
    ∃ f module, (module, f) ∈ l.package.files.entries ∧ f.path = p ∧
      ModuleName.ofPath? t p.collapsed = some module := by
  have hdiagnostics := diagnosticsAt_eq hps hl hp
  rcases FileTree.loaded?_or_fault? ((packageLoad_iff.1 hl).1 p hp) with
    ⟨f, hf, hfault⟩ | ⟨fault, hf, hfault⟩
  · rw [hfault] at hdiagnostics
    have hone : l.filesAt p = 1 := by
      rcases hplaced with h | h
      · exact h.1
      · rw [hdiagnostics] at h
        cases h.2
    have hmem : p ∈ l.package.files.values.map SourceFile.path :=
      List.count_pos_iff.1 (by rw [← Loaded.filesAt, hone]; exact Nat.one_pos)
    obtain ⟨g, hg, hpath⟩ := List.mem_map.1 hmem
    have hmodule := module_of_sourceFile_load (load_of_mem_package hl hg)
    rw [hpath] at hmodule
    obtain ⟨⟨module, g⟩, hentry, rfl⟩ := List.mem_map.1 hg
    rw [← module_of_mem_package hl hentry] at hmodule
    exact ⟨g, module, hentry, hpath, hmodule⟩
  · rw [hf] at hloaded
    cases hloaded

theorem distinct_of_places (hps : ps.Nodup) (hl : Package.load t d ps = .ok l)
    (hplaced : ∀ p ∈ ps, l.Places p) : DistinctModules t ps := by
  intro p hp q hq hploaded hqloaded heq
  obtain ⟨f, module, hf, rfl, hmodule⟩ := mem_entries_of_places hps hl hp hploaded (hplaced p hp)
  obtain ⟨g, module', hg, rfl, hmodule'⟩ := mem_entries_of_places hps hl hq hqloaded (hplaced q hq)
  obtain rfl : module = module' :=
    Option.some.inj (hmodule.symm.trans (heq.trans hmodule'))
  have hnodup : (l.package.files.entries.map Prod.fst).Nodup := by
    obtain ⟨-, name, -, rfl⟩ := packageLoad_iff.1 hl
    exact Table.nodup_ofList _
  have hsame := List.inj_on_of_nodup_map hnodup hf hg rfl
  rw [(Prod.mk.inj hsame).2]

/-- No two files that can be loaded have one stem; the initial file, which bears the name of the
package, is left out. -/
def DistinctStems (t : FileTree) (ps : List Path) : Prop :=
  ∀ p ∈ ps, ∀ q ∈ ps, (t.loaded? p).isSome → (t.loaded? q).isSome →
    p.name ≠ Path.initName → q.name ≠ Path.initName → p.stem = q.stem → p = q

theorem distinctModules_iff (hentry : ∀ p ∈ ps, IsEntry t d p)
    (hend : ¬ModuleName.IsEndless t d.collapsed) :
    DistinctModules t ps ↔ DistinctStems t ps := by
  refine forall₂_congr fun p hp => forall₂_congr fun q hq => forall₂_congr fun _ _ => ?_
  rw [ModuleName.ofPath?_eq_iff (hentry p hp) (hentry q hq) hend]
  constructor
  · exact fun h hpinit hqinit hstem => h (.inr ⟨hpinit, hqinit, hstem⟩)
  · rintro h (heq | ⟨hpinit, hqinit, hstem⟩)
    · exact heq
    · exact h hpinit hqinit hstem

omit [Release] in
/-- Names that end as those of modules do, and are more than the ending, are told apart by their
stems. -/
theorem IsEntry.eq_of_stem_eq (hp : IsEntry t d p) (hq : IsEntry t d q)
    (hpmodule : moduleEnding <:+ p.name ∧ p.name ≠ moduleEnding)
    (hqmodule : moduleEnding <:+ q.name ∧ q.name ≠ moduleEnding) (hstem : p.stem = q.stem) :
    p = q := by
  rw [← Companion.stemOf_name hpmodule.1 hpmodule.2,
    ← Companion.stemOf_name hqmodule.1 hqmodule.2] at hstem
  have hname : p.name = q.name := by
    rw [← Companion.stemOf_append hpmodule.1, hstem, Companion.stemOf_append hqmodule.1]
  rw [Path.eq_child_of_name_ne_nil hp.isPart.1, Path.eq_child_of_name_ne_nil hq.isPart.1,
    hp.parent, hq.parent, hname]

theorem distinctStems_of_modules (hentry : ∀ p ∈ ps, IsEntry t d p)
    (hmodule : ∀ p ∈ ps, moduleEnding <:+ p.name ∧ p.name ≠ moduleEnding) :
    DistinctStems t ps := fun p hp q hq _ _ _ _ hstem =>
  (hentry p hp).eq_of_stem_eq (hentry q hq) (hmodule p hp) (hmodule q hq) hstem

omit [Release] in
/-- All modules of a directory have names, or none has. -/
theorem IsEntry.isSome_ofPath?_iff (h : IsEntry t d p) :
    (ModuleName.ofPath? t p.collapsed).isSome = true ↔ ¬ModuleName.IsEndless t d.collapsed := by
  rw [h.collapsed_eq, ModuleName.isSome_ofPath?_child, ← ModuleName.around?_eq_none_iff,
    ← Option.ne_none_iff_isSome]

omit [Release] in
theorem isSome_ofPackage?_iff :
    (ModuleName.ofPackage? t d.collapsed).isSome = true ↔ ¬ModuleName.IsEndless t d.collapsed := by
  rw [ModuleName.ofPackage?, ModuleName.isSome_ofPath?_child, ← ModuleName.around?_eq_none_iff,
    ← Option.ne_none_iff_isSome]

theorem exists_packageLoad_iff (hentry : ∀ p ∈ ps, IsEntry t d p) :
    (∃ l, Package.load t d ps = .ok l) ↔
      (∀ p ∈ ps, ¬t.Stops p) ∧ ¬ModuleName.IsEndless t d.collapsed := by
  constructor
  · rintro ⟨l, hl⟩
    obtain ⟨hload, name, hname, -⟩ := packageLoad_iff.1 hl
    have hend := isSome_ofPackage?_iff.1 (Option.isSome_of_mem hname)
    refine ⟨fun p hp => ?_, hend⟩
    exact (FileTree.exists_load_iff ((hentry p hp).isSome_ofPath?_iff.2 hend)).1 (hload p hp)
  · rintro ⟨hstops, hend⟩
    obtain ⟨name, hname⟩ := Option.isSome_iff_exists.1 (isSome_ofPackage?_iff.2 hend)
    refine ⟨_, packageLoad_iff.2 ⟨fun p hp => ?_, name, hname, rfl⟩⟩
    exact (FileTree.exists_load_iff ((hentry p hp).isSome_ofPath?_iff.2 hend)).2 (hstops p hp)

end Places

/-- Loading files of a directory comes to a package exactly if the packages around the directory
have an end and no file stops it with a null character, whatever else is wrong with them. Then each
of the paths is that of one file of the package or of one diagnostic exactly if no two files that
can be loaded have one stem, as always with names that end in that of modules and are more than this
ending. -/
theorem load_places_iff [Release] {t : FileTree} {d : Path} {ps : List Path} (hps : ps.Nodup)
    (hentry : ∀ p ∈ ps, IsEntry t d p) :
    ((∃ l, Package.load t d ps = .ok l) ↔
        (∀ p ∈ ps, ¬t.Stops p) ∧ ¬ModuleName.IsEndless t d.collapsed) ∧
      (∀ l, Package.load t d ps = .ok l → ((∀ p ∈ ps, l.Places p) ↔ DistinctStems t ps)) ∧
      ((∀ p ∈ ps, moduleEnding <:+ p.name ∧ p.name ≠ moduleEnding) → DistinctStems t ps) := by
  refine ⟨exists_packageLoad_iff hentry, fun l hl => ?_, distinctStems_of_modules hentry⟩
  obtain ⟨-, hend⟩ := (exists_packageLoad_iff hentry).1 ⟨l, hl⟩
  rw [← distinctModules_iff hentry hend]
  exact ⟨distinct_of_places hps hl,
    fun hdistinct p hp => places_of_distinct hps hdistinct hl hp⟩

section

open scoped Source.Plain

def mixedTree : FileTree :=
  ⟨[(⟨.root, []⟩, .directory), (appDir, .directory),
    (appDir.child Path.initName, .file []), (appDir.child "a.py", .file [0xff]),
    (appDir.child "b.py", .directory)]⟩

def mixedPaths : List Path :=
  [appDir.child Path.initName, appDir.child "a.py", appDir.child "b.py"]

theorem not_stops_of_isOk {t : FileTree} {p : Path} (h : (t.readText p).isOk = false) :
    ¬t.Stops p := by
  rintro ⟨-, text, htext, -⟩
  rw [htext] at h
  cases h

theorem not_stops_of_empty {t : FileTree} {p : Path} (h : t.readText p = .ok []) :
    ¬t.Stops p := by
  rintro ⟨-, text, htext, hnull⟩
  rw [h] at htext
  cases htext
  cases hnull

theorem not_isEndless_of_root {t : FileTree} {d : Path}
    (h : t.contains ⟨d.anchor, [Path.initName]⟩ = false) : ¬ModuleName.IsEndless t d := by
  intro hall
  rw [← List.nil_append [Path.initName], hall [] List.nil_prefix] at h
  cases h

/-- The initial file is loaded, and each of the others has a diagnostic. -/
theorem load_places_mixed :
    (mixedPaths.Nodup ∧ ∀ p ∈ mixedPaths, IsEntry mixedTree appDir p) ∧
      ∃ l, Package.load mixedTree appDir mixedPaths = .ok l ∧ ∀ p ∈ mixedPaths, l.Places p := by
  have hps : mixedPaths.Nodup := by decide
  have hentry : ∀ p ∈ mixedPaths, IsEntry mixedTree appDir p := by decide
  have hall := load_places_iff hps hentry
  have hstops : ∀ p ∈ mixedPaths, ¬mixedTree.Stops p := by
    intro p hp
    simp only [mixedPaths, List.mem_cons, List.not_mem_nil, or_false] at hp
    rcases hp with rfl | rfl | rfl
    · exact not_stops_of_empty (by decide +kernel)
    · exact not_stops_of_isOk (by decide +kernel)
    · exact not_stops_of_isOk (by decide +kernel)
  obtain ⟨l, hl⟩ := hall.1.2 ⟨hstops, not_isEndless_of_root (by decide)⟩
  exact ⟨⟨hps, hentry⟩, l, hl, (hall.2.1 l hl).2 (hall.2.2 (by decide))⟩

def namelessTree : FileTree :=
  ⟨[(⟨.root, []⟩, .directory), (appDir, .directory), (appDir.child Path.initName, .file []),
    (appDir.child ".py", .file []), (appDir.child ".py.py", .file [])]⟩

def namelessPaths : List Path :=
  [appDir.child Path.initName, appDir.child ".py", appDir.child ".py.py"]

/-- Of two empty files with one stem, one is neither in the package nor reported. -/
theorem load_does_not_place :
    (namelessPaths.Nodup ∧ ∀ p ∈ namelessPaths, IsEntry namelessTree appDir p) ∧
      ∃ l, Package.load namelessTree appDir namelessPaths = .ok l ∧
        ¬∀ p ∈ namelessPaths, l.Places p := by
  have hps : namelessPaths.Nodup := by decide
  have hentry : ∀ p ∈ namelessPaths, IsEntry namelessTree appDir p := by decide
  have hempty : ∀ p ∈ namelessPaths, namelessTree.readText p = .ok [] := by
    intro p hp
    simp only [namelessPaths, List.mem_cons, List.not_mem_nil, or_false] at hp
    rcases hp with rfl | rfl | rfl <;> decide +kernel
  obtain ⟨l, hl⟩ := (exists_packageLoad_iff hentry).2
    ⟨fun p hp => not_stops_of_empty (hempty p hp), not_isEndless_of_root (by decide)⟩
  refine ⟨⟨hps, hentry⟩, l, hl, fun hplaced => ?_⟩
  have hloaded : ∀ p ∈ namelessPaths, (namelessTree.loaded? p).isSome := by
    intro p hp
    obtain ⟨module, hmodule⟩ := Option.isSome_iff_exists.1
      ((hentry p hp).isSome_ofPath?_iff.2 (not_isEndless_of_root (by decide)))
    rw [FileTree.loaded?, load_of_empty (hempty p hp) hmodule]
    rfl
  have hsame := distinct_of_places hps hl hplaced (appDir.child ".py") (by decide)
    (appDir.child ".py.py") (by decide) (hloaded _ (by decide)) (hloaded _ (by decide)) (by decide)
  exact absurd hsame (by decide)

end

end TypedQueries
