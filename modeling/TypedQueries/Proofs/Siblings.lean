import TypedQueries.Proofs.Constancy
import TypedQueries.Proofs.Loading
import TypedQueries.Proofs.RelativeImports
import TypedQueries.Proofs.Resolution

/-!
# Imports from beside a file

The modules of a package are named along the directories above them, and an import with one dot is
resolved along the name of the module that it stands in. Both come to the same name for a file in
the same directory, be the importing file the initial one or not, and at any depth, unless the climb
along the directories has no end. So a constant or a module that a file imports from beside it is
found in the file that was loaded from there. A type is not where a third file has a dot in its
stem, so that it bears the name of the module with that of the type behind it.
-/

namespace TypedQueries

open Text Source

/-! ### Names -/

namespace ModuleName

variable {t : FileTree} {d f g : Path} {module package : Text}

theorem ofPackage?_eq {ws : List Text} (hinit : t.contains (d.child Path.initName) = true)
    (haround : around? t d = some ws) : ofPackage? t d = some (join ['.'] ws) := by
  have hws : ws ≠ [] := by
    rintro rfl
    exact around?_ne_some_nil hinit haround
  obtain ⟨vs, w, rfl⟩ := (List.eq_nil_or_concat' ws).resolve_left hws
  rw [ofPackage?, ofPath?_child_of_concat haround (by rw [if_pos rfl, List.append_nil]),
    join_concat]

/-- A module that is no initial file is named after its package and its stem. -/
theorem ofPath?_child_of_package {name : Text} (hinit : t.contains (d.child Path.initName) = true)
    (hpackage : ofPackage? t d = some package) (hname : name ≠ Path.initName) :
    ofPath? t (d.child name) = some (package ++ '.' :: (Path.splitName name).1) := by
  have hsome : (around? t d).isSome = true := by
    rw [← isSome_ofPath?_child Path.initName, ← ofPackage?, hpackage]
    rfl
  obtain ⟨ws, haround⟩ := Option.isSome_iff_exists.1 hsome
  rw [ofPackage?_eq hinit haround, Option.some.injEq] at hpackage
  subst hpackage
  have hws : ws ≠ [] := by
    rintro rfl
    exact around?_ne_some_nil hinit haround
  obtain ⟨vs, w, rfl⟩ := (List.eq_nil_or_concat' ws).resolve_left hws
  rw [ofPath?_child haround hname, join_concat]
  simp

theorem exists_ofPackage? (hf : IsEntry t d f) (hmodule : ofPath? t f.collapsed = some module) :
    ∃ package, ofPackage? t d.collapsed = some package :=
  Option.isSome_iff_exists.1 <| isSome_ofPackage?_iff.2 <|
    hf.isSome_ofPath?_iff.1 (Option.isSome_of_mem hmodule)

/-- The imports of a file start from the package that its directory is, whichever file it is. -/
theorem packageOf_ofPath? (hinit : t.contains (d.collapsed.child Path.initName) = true)
    (hf : IsEntry t d f) (hdot : '.' ∉ f.stem) (hmodule : ofPath? t f.collapsed = some module)
    (hpackage : ofPackage? t d.collapsed = some package) :
    packageOf module (decide (f.name = Path.initName)) = splitOn '.' package := by
  rw [hf.collapsed_eq] at hmodule
  rw [packageOf]
  by_cases hname : f.name = Path.initName
  · rw [hname] at hmodule
    cases hmodule.symm.trans hpackage
    rw [decide_eq_true hname, if_pos rfl]
  · rw [ofPath?_child_of_package hinit hpackage hname, Option.some.injEq] at hmodule
    rw [decide_eq_false hname, if_neg Bool.false_ne_true, ← hmodule, splitOn_append_sep,
      ← Path.stem, splitOn_of_not_mem hdot, List.dropLast_concat]

/-- An import with one dot from what lies beside a file has the name of that module. -/
theorem resolveImport_stem (hinit : t.contains (d.collapsed.child Path.initName) = true)
    (hf : IsEntry t d f) (hg : IsEntry t d g) (hdot : '.' ∉ f.stem)
    (hname : g.name ≠ Path.initName) (hmodule : ofPath? t f.collapsed = some module) :
    ofPath? t g.collapsed =
      some (resolveImport module (decide (f.name = Path.initName)) 1 (some g.stem)) := by
  obtain ⟨package, hpackage⟩ := exists_ofPackage? hf hmodule
  have hstem : (some g.stem).getD [] ≠ [] := Path.stem_ne_nil hg.isPart.1
  rw [resolveImport_succ, packageOf_ofPath? hinit hf hdot hmodule hpackage, climb_zero,
    join_append '.' (splitOn_ne_nil '.' _) (given_ne_nil hstem), join_splitOn, join_given,
    hg.collapsed_eq, ofPath?_child_of_package hinit hpackage hname]
  rfl

/-- An import with one dot and no name has that of the package, which stands before the stem in the
name of each of its modules. -/
theorem resolveImport_none (hinit : t.contains (d.collapsed.child Path.initName) = true)
    (hf : IsEntry t d f) (hg : IsEntry t d g) (hdot : '.' ∉ f.stem)
    (hname : g.name ≠ Path.initName) (hmodule : ofPath? t f.collapsed = some module) :
    ofPath? t g.collapsed =
      some (resolveImport module (decide (f.name = Path.initName)) 1 none ++ '.' :: g.stem) := by
  obtain ⟨package, hpackage⟩ := exists_ofPackage? hf hmodule
  have hnone : resolveImport module (decide (f.name = Path.initName)) 1 none = package := by
    rw [resolveImport_succ, packageOf_ofPath? hinit hf hdot hmodule hpackage, climb_zero]
    exact (congrArg _ (List.append_nil _)).trans (join_splitOn '.' _)
  rw [hnone, hg.collapsed_eq, ofPath?_child_of_package hinit hpackage hname]
  rfl

end ModuleName

/-! ### Files of a package -/

/-- Whether the paths lead to modules of a directory. -/
def AreModules (t : FileTree) (d : Path) (ps : List Path) : Prop :=
  ∀ p ∈ ps, IsEntry t d p ∧ moduleEnding <:+ p.name

section Loaded

variable {t : FileTree} {d p : Path} {ps : List Path}

theorem name_ne_moduleEnding (hdot : '.' ∉ p.stem) : p.name ≠ moduleEnding := by
  intro hname
  rw [Path.stem, hname] at hdot
  exact hdot (by decide)

/-- Among the modules of a directory, one without a dot in its stem has a name that no other one
has. -/
theorem eq_of_module_eq (hps : AreModules t d ps) {q : Path} (hp : p ∈ ps) (hq : q ∈ ps)
    (hdot : '.' ∉ p.stem) {module : Text}
    (hpmodule : ModuleName.ofPath? t p.collapsed = some module)
    (hqmodule : ModuleName.ofPath? t q.collapsed = some module) : p = q := by
  have hpentry := (hps p hp).1
  have hqentry := (hps q hq).1
  have hend := hpentry.isSome_ofPath?_iff.1 (Option.isSome_of_mem hpmodule)
  rcases (ModuleName.ofPath?_eq_iff hpentry hqentry hend).1 (hpmodule.trans hqmodule.symm) with
    heq | ⟨-, -, hstem⟩
  · exact heq
  · exact hpentry.eq_of_stem_eq hqentry ⟨(hps p hp).2, name_ne_moduleEnding hdot⟩
      ⟨(hps q hq).2, name_ne_moduleEnding (hstem ▸ hdot)⟩ hstem

theorem get?_module_of_load [Release] {l : Loaded} {f : SourceFile} (hps : AreModules t d ps)
    (hl : Package.load t d ps = .ok l) (hp : p ∈ ps) (hdot : '.' ∉ p.stem)
    (hload : SourceFile.load t p = .ok (.ok f)) : l.package.files.get? f.module = some f := by
  obtain ⟨-, name, -, rfl⟩ := packageLoad_iff.1 hl
  have hloaded : t.loaded? p = some f := by rw [FileTree.loaded?, hload]
  have hcontains := (Table.contains_ofList
    (((Path.sort ps).filterMap t.loaded?).map fun f => (f.module, f)) f.module).2 <| by
      rw [List.map_map]
      exact List.mem_map.2
        ⟨f, List.mem_filterMap.2 ⟨p, List.mem_mergeSort.2 hp, hloaded⟩, rfl⟩
  obtain ⟨g, hg⟩ := Option.isSome_iff_exists.1 hcontains
  obtain ⟨g', hg', hpair⟩ := List.mem_map.1 (Table.mem_ofList (Table.mem_of_get? hg))
  obtain ⟨hmodule, rfl⟩ := Prod.mk.inj hpair
  obtain ⟨q, hq, hqloaded⟩ := List.mem_filterMap.1 hg'
  have hqload := FileTree.load_of_loaded? hqloaded
  have hpmodule := module_of_sourceFile_load hload
  rw [← hmodule] at hpmodule
  obtain rfl := eq_of_module_eq hps hp (List.mem_mergeSort.1 hq) hdot hpmodule
    (module_of_sourceFile_load hqload)
  rw [hloaded] at hqloaded
  cases hqloaded
  exact hg

end Loaded

/-- Whether the index of a file has a name for a member of what an import refers to. -/
def SourceFile.Imports (f : SourceFile) (level : Nat) (source : Option Text) (member name : Text) :
    Prop :=
  f.index.imports.get? name =
    some ⟨ModuleName.resolveImport f.module (f.path.name = Path.initName) level source,
      some member⟩

namespace Package

variable {p : Package} {f g : SourceFile} {stem : Text}

/-- What a file imports with one dot from a module of this stem is what it is in the file `g`. -/
structure FindsBeside (p : Package) (f : SourceFile) (stem : Text) (g : SourceFile) : Prop where
  /-- A constant has the text that it has there. -/
  constant : ∀ name member start start', f.Imports 1 (some stem) member name →
    f.index.values.get? name = none →
    (p.fold [] f.module (.name name start)).value = (p.fold [] g.module (.name member start')).value
  /-- The module itself is found, and its constants have the texts that they have there. -/
  module : ∀ name, f.Imports 1 none stem name → p.importedModule? f.module name = some g.module ∧
    ∀ field start start', (p.fold [] f.module (.attribute (.name name start) field)).value =
      (p.fold [] g.module (.name field start')).value
  /-- A type is what it is there, unless another module goes by that name. -/
  type : ∀ name member, f.Imports 1 (some stem) member name →
    p.ownType? ⟨f.module, name⟩ = none → p.isOther ⟨f.module, name⟩ = false →
    (p.lookup f.module name).result =
      if p.isLoaded (g.module ++ '.' :: member) then some (.nonType name)
      else (p.lookup g.module member).result

theorem fold_imported {k : Key} {module name : Text}
    (h : p.definition? ⟨module, name⟩ = some (.member k)) (start start' : Position) :
    (p.fold [] module (.name name start)).value =
      (p.fold [] k.module (.name k.name start')).value := by
  apply Option.ext
  intro text
  rw [fold_eq_some_iff, fold_eq_some_iff, eval_name_iff, h]
  constructor
  · rintro (⟨_, hvalue, _⟩ | ⟨_, hmember, heval⟩)
    · cases hvalue
    · cases hmember
      exact heval.moved start'
  · exact fun heval => .inr ⟨k, rfl, heval.moved start⟩

/-- A name that is imported as another one is the type that this one is. -/
theorem lookup_imported {module name : Text} {k : Key} (h : p.ImportedAs ⟨module, name⟩ k) :
    (p.lookup module name).result = (p.lookup k.module k.name).result := by
  have hresolves : ∀ j o, (p.lookupFrom [] j).result = some o ↔ p.Resolves j o := fun j o =>
    ⟨resolves_of_lookupFrom [] j, fun hr => hr.lookupFrom fun i hi => absurd hi List.not_mem_nil⟩
  obtain ⟨hown, hother, himport, hpath, hmodule⟩ := h
  apply Option.ext
  intro o
  rw [lookup, lookup, hresolves, hresolves]
  refine ⟨fun hr => ?_, .member hown hother himport hpath hmodule⟩
  cases hr with
  | own hown' => cases hown.symm.trans hown'
  | other _ hother' => cases hother.symm.trans hother'
  | module _ _ himport' hmodule' =>
    cases himport.symm.trans himport'
    rcases hmodule' with hnone | hpath'
    · cases hnone
    · cases hpath.symm.trans hpath'
  | member _ _ himport' _ _ hr =>
    cases himport.symm.trans himport'
    exact hr
  | outside _ _ himport' _ hmodule' =>
    cases himport.symm.trans himport'
    cases hmodule.symm.trans hmodule'
  | builtin _ _ himport' _ => cases himport.symm.trans himport'

theorem lookup_module {module name target member : Text}
    (hown : p.ownType? ⟨module, name⟩ = none) (hother : p.isOther ⟨module, name⟩ = false)
    (himport : p.import? ⟨module, name⟩ = some ⟨target, some member⟩)
    (hpath : p.isLoaded (target ++ '.' :: member) = true) :
    (p.lookup module name).result = some (.nonType name) := by
  rw [lookup, lookupFrom_result List.not_mem_nil, hown, hother, himport]
  simp only [hpath]
  rfl

/-- A file finds what it imports from beside it when imports with one dot lead to the name of the
module there. -/
theorem findsBeside_of_resolveImport (hf : p.files.get? f.module = some f)
    (hg : p.files.get? g.module = some g)
    (hstem : ModuleName.resolveImport f.module (f.path.name = Path.initName) 1 (some stem) =
      g.module)
    (hnone : ModuleName.resolveImport f.module (f.path.name = Path.initName) 1 none ++
      '.' :: stem = g.module) : p.FindsBeside f stem g := by
  have hindex : p.index? f.module = some f.index := index?_of_get? hf
  have hloaded : p.isLoaded g.module = true := by
    rw [isLoaded, Table.contains, hg]
    rfl
  constructor
  · intro name member start start' himport hvalue
    rw [SourceFile.Imports, hstem] at himport
    exact fold_imported (k := ⟨g.module, member⟩)
      (definition?_eq_member_iff.2 ⟨_, hindex, hvalue, himport, hloaded⟩) start start'
  · intro name himport
    have hmodule : p.importedModule? f.module name = some g.module :=
      importedModule?_eq_some_iff.2 ⟨_, hindex, _, himport, by rwa [← hnone] at hloaded, hnone⟩
    refine ⟨hmodule, fun field start start' => ?_⟩
    rw [fold_qualified hmodule, fold_name]
  · intro name member himport hown hother
    rw [SourceFile.Imports, hstem] at himport
    have himport' : p.import? ⟨f.module, name⟩ = some ⟨g.module, some member⟩ := by
      rw [import?, hindex]
      exact himport
    by_cases hpath : p.isLoaded (g.module ++ '.' :: member) = true
    · rw [if_pos hpath]
      exact lookup_module hown hother himport' hpath
    · rw [if_neg hpath]
      exact lookup_imported (k := ⟨g.module, member⟩)
        ⟨hown, hother, himport', Bool.eq_false_iff.2 hpath, hloaded⟩

end Package

/-! ### Files of one directory -/

/-- In a package, imports with one dot agree with the names of modules, if there are any: none of
them has a name just where the climb along the directories has no end, and otherwise the module
beside a file has the name that an import from it has, and also the name that an import of it from
the package has. Where both are loaded, with other modules of the directory, the file there is found
under that name. What is imported from it is what it is there, but for a type with whose name behind
its own another module goes by. -/
theorem siblings_agree [Release] {t : FileTree} {d f g : Path}
    (hinit : t.contains (d.collapsed.child Path.initName) = true) (hf : IsEntry t d f)
    (hg : IsEntry t d g) (hfdot : '.' ∉ f.stem) (hgdot : '.' ∉ g.stem)
    (hname : g.name ≠ Path.initName) :
    let isPackage := decide (f.name = Path.initName)
    (ModuleName.ofPath? t f.collapsed = none ↔ ModuleName.IsEndless t d.collapsed) ∧
      ∀ module, ModuleName.ofPath? t f.collapsed = some module →
        ModuleName.ofPath? t g.collapsed =
            some (ModuleName.resolveImport module isPackage 1 (some g.stem)) ∧
          ModuleName.ofPath? t g.collapsed =
            some (ModuleName.resolveImport module isPackage 1 none ++ '.' :: g.stem) ∧
          ∀ ps l gs, AreModules t d ps → Package.load t d ps = .ok l → g ∈ ps →
            SourceFile.load t g = .ok (.ok gs) →
            l.package.files.get? (ModuleName.resolveImport module isPackage 1 (some g.stem)) =
                some gs ∧
              ∀ fs, f ∈ ps → SourceFile.load t f = .ok (.ok fs) →
                l.package.FindsBeside fs g.stem gs := by
  intro isPackage
  constructor
  · rw [← Option.not_isSome_iff_eq_none, hf.isSome_ofPath?_iff, not_not]
  intro module hmodule
  have hstem := ModuleName.resolveImport_stem hinit hf hg hfdot hname hmodule
  have hnone := ModuleName.resolveImport_none hinit hf hg hfdot hname hmodule
  refine ⟨hstem, hnone, ?_⟩
  intro ps l gs hps hl hgps hgload
  have hgmodule := module_of_sourceFile_load hgload
  have hfound := get?_module_of_load hps hl hgps hgdot hgload
  rw [hgmodule, Option.some.injEq] at hstem hnone
  refine ⟨hstem ▸ hfound, fun fs hfps hfload => ?_⟩
  obtain rfl : module = fs.module :=
    Option.some.inj (hmodule.symm.trans (module_of_sourceFile_load hfload))
  have hpath := path_of_sourceFile_load hfload
  apply Package.findsBeside_of_resolveImport (get?_module_of_load hps hl hfps hfdot hfload) hfound
  · rw [hpath]
    exact hstem.symm
  · rw [hpath]
    exact hnone.symm

section

open scoped Source.Plain

def innerDir : Path := ⟨.root, ["lib", "app"]⟩

def nestedTree : FileTree :=
  ⟨[(⟨.root, []⟩, .directory), (innerDir.parent, .directory),
    (innerDir.parent.child Path.initName, .file []), (innerDir, .directory),
    (innerDir.child Path.initName, .file []), (innerDir.child "a.py", .file []),
    (innerDir.child "b.py", .file [])]⟩

/-- What a file of the inner package imports from beside it is sought under the full name of the
module there, and the module is loaded under that name. -/
theorem siblings_agree_nested :
    let f := innerDir.child "a.py"
    let g := innerDir.child "b.py"
    (nestedTree.contains (innerDir.collapsed.child Path.initName) = true ∧
      IsEntry nestedTree innerDir f ∧ IsEntry nestedTree innerDir g ∧ '.' ∉ f.stem ∧
      '.' ∉ g.stem ∧ g.name ≠ Path.initName) ∧
    ModuleName.ofPath? nestedTree f.collapsed = some "lib.app.a" ∧
      ModuleName.ofPath? nestedTree g.collapsed =
        some (ModuleName.resolveImport "lib.app.a" false 1 (some "b")) ∧
      ModuleName.ofPath? nestedTree g.collapsed =
        some (ModuleName.resolveImport "lib.app.a" false 1 none ++ ['.', 'b']) ∧
      AreModules nestedTree innerDir [f, g] ∧
      ∃ l, Package.load nestedTree innerDir [f, g] = .ok l ∧
        l.package.files.get? "lib.app.b" = some ⟨g, "lib.app.b", []⟩ := by
  intro f g
  have hinit : nestedTree.contains (innerDir.collapsed.child Path.initName) = true := by decide
  have hf : IsEntry nestedTree innerDir f := by decide
  have hg : IsEntry nestedTree innerDir g := by decide
  have hfdot : '.' ∉ f.stem := by decide
  have hgdot : '.' ∉ g.stem := by decide
  have hname : g.name ≠ Path.initName := by decide
  have hmodule : ModuleName.ofPath? nestedTree f.collapsed = some "lib.app.a" := by decide
  have hsibling : ModuleName.ofPath? nestedTree g.collapsed = some "lib.app.b" := by decide
  obtain ⟨hstem, hnone, hfound⟩ :=
    (siblings_agree hinit hf hg hfdot hgdot hname).2 _ hmodule
  have hps : AreModules nestedTree innerDir [f, g] := by
    unfold AreModules
    decide
  have hempty : ∀ p ∈ [f, g], nestedTree.readText p = .ok [] := by
    intro p hp
    simp only [List.mem_cons, List.not_mem_nil, or_false] at hp
    rcases hp with rfl | rfl <;> decide +kernel
  obtain ⟨l, hl⟩ := (exists_packageLoad_iff fun p hp => (hps p hp).1).2
    ⟨fun p hp => not_stops_of_empty (hempty p hp), not_isEndless_of_root (by decide)⟩
  exact ⟨⟨hinit, hf, hg, hfdot, hgdot, hname⟩, hmodule, hstem, hnone, hps, l, hl,
    (hfound _ _ _ hps hl (by simp) (load_of_empty (hempty g (by simp)) hsibling)).1⟩

def shadowTree : FileTree :=
  ⟨[(⟨.root, []⟩, .directory), (appDir, .directory), (appDir.child Path.initName, .file []),
    (appDir.child "f.py", .file (Text.Utf8.encode "from .g import T\n")),
    (appDir.child "g.T.py", .file []),
    (appDir.child "g.py", .file (Text.Utf8.encode "class T(int): pass\n"))]⟩

def shadowPaths : List Path :=
  [appDir.child Path.initName, appDir.child "f.py", appDir.child "g.T.py", appDir.child "g.py"]

def shadowFiles : List SourceFile := shadowPaths.filterMap shadowTree.loaded?

def shadowPackage : Package := .ofFiles appDir "app" shadowFiles

theorem load_shadowTree : ∃ diagnostics,
    Package.load shadowTree appDir shadowPaths = .ok ⟨shadowPackage, diagnostics⟩ := by
  have hsort : Path.sort shadowPaths = shadowPaths := List.mergeSort_of_pairwise (by decide)
  have hloaded : ∀ p ∈ shadowPaths, (shadowTree.loaded? p).isSome = true := by decide +kernel
  refine ⟨_, packageLoad_iff.2 ⟨fun p hp => ?_, "app", by decide, by rw [hsort]; rfl⟩⟩
  obtain ⟨f, hf⟩ := Option.isSome_iff_exists.1 (hloaded p hp)
  exact ⟨_, FileTree.load_of_loaded? hf⟩

/-- A type that is imported from beside a file is no type there, for a third file bears the name of
its module and its own. -/
theorem sibling_type_shadowed :
    let f := appDir.child "f.py"
    let g := appDir.child "g.py"
    (shadowTree.contains (appDir.collapsed.child Path.initName) = true ∧
      IsEntry shadowTree appDir f ∧ IsEntry shadowTree appDir g ∧ '.' ∉ f.stem ∧
      '.' ∉ g.stem ∧ g.name ≠ Path.initName ∧ AreModules shadowTree appDir shadowPaths ∧
      f ∈ shadowPaths ∧ g ∈ shadowPaths) ∧
    ∃ l fs gs, Package.load shadowTree appDir shadowPaths = .ok l ∧
      SourceFile.load shadowTree f = .ok (.ok fs) ∧
      SourceFile.load shadowTree g = .ok (.ok gs) ∧ fs.Imports 1 (some g.stem) "T" "T" ∧
      (l.package.lookup gs.module "T").result = some (.ofKind "T" (some .int)) ∧
      (l.package.lookup fs.module "T").result = some (.nonType "T") := by
  intro f g
  have hps : AreModules shadowTree appDir shadowPaths := by
    unfold AreModules
    decide
  have hf : ∃ fs, shadowTree.loaded? f = some fs ∧
      (fs.module, fs.index.imports.get? "T") = (("app.f" : Text), some ⟨"app.g", some "T"⟩) :=
    Option.map_eq_some_iff.1 (by decide +kernel)
  have hg : ∃ gs, shadowTree.loaded? g = some gs ∧ gs.module = "app.g" :=
    Option.map_eq_some_iff.1 (by decide +kernel)
  obtain ⟨fs, hfs, hfacts⟩ := hf
  obtain ⟨hfmodule, himport⟩ := Prod.mk.inj hfacts
  obtain ⟨gs, hgs, hgmodule⟩ := hg
  obtain ⟨diagnostics, hl⟩ := load_shadowTree
  refine ⟨⟨by decide, by decide, by decide, by decide, by decide, by decide, hps, by decide,
    by decide⟩, _, fs, gs, hl, FileTree.load_of_loaded? hfs, FileTree.load_of_loaded? hgs, ?_, ?_,
    ?_⟩
  · rw [SourceFile.Imports, himport, hfmodule, FileTree.path_of_loaded? hfs]
    decide
  · have hown : shadowPackage.ownType? ⟨"app.g", "T"⟩ = some (.ofKind "T" (some .int)) := by
      decide +kernel
    rw [hgmodule, Package.lookup, Package.lookupFrom_result List.not_mem_nil, hown]
  · have himport' : shadowPackage.import? ⟨"app.f", "T"⟩ = some ⟨"app.g", some "T"⟩ := by
      decide +kernel
    rw [hfmodule]
    change (shadowPackage.lookup "app.f" "T").result = _
    exact Package.lookup_module (by decide +kernel) (by decide +kernel) himport'
      (by decide +kernel)

end

end TypedQueries
