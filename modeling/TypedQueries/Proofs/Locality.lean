import TypedQueries.NamePattern.Read
import TypedQueries.Package.Analysis
import TypedQueries.Proofs.Evaluation

/-!
# What an analysis depends on

Folding and looking up types consult the module that they start from and those that it reaches
through imports, and ask of no other name whether it is a loaded module. So the analysis of a file
is the same in two packages that agree on what the file reaches, however they differ elsewhere.
-/

namespace TypedQueries

open Source

namespace Package

/-! ### The modules that a module reaches -/

/-- A name that a loaded module imports something by: that of a module, or that of one of its
members, which may be a module too. -/
def Imports (p : Package) (module target : Text) : Prop :=
  ∃ idx, p.index? module = some idx ∧
    ∃ name t, idx.imports.get? name = some t ∧ (target = t.module ∨ target = t.path)

/-- What a module reaches through imports, itself included. -/
def Reaches (p : Package) : Text → Text → Prop := Relation.ReflTransGen p.Imports

/-- Two packages have the same file for a module, or both have none. -/
def AgreeOn (p q : Package) (module : Text) : Prop :=
  (p.files.get? module).map (fun f => (f.path, f.statements)) =
    (q.files.get? module).map fun f => (f.path, f.statements)

theorem module_of_get?_ofFiles {d : Path} {name module : Text} {files : List SourceFile}
    {f : SourceFile} (h : (ofFiles d name files).files.get? module = some f) :
    f.module = module := by
  obtain ⟨g, _, he⟩ := List.mem_map.1 (Table.mem_ofList (Table.mem_of_get? h))
  obtain ⟨hmodule, rfl⟩ := Prod.mk.inj he
  exact hmodule

/-- Packages whose files lie under the names of their modules agree only on equal files. -/
theorem AgreeOn.get?_eq {d d' : Path} {name name' module : Text} {files files' : List SourceFile}
    (h : AgreeOn (ofFiles d name files) (ofFiles d' name' files') module) :
    (ofFiles d' name' files').files.get? module = (ofFiles d name files).files.get? module := by
  unfold AgreeOn at h
  cases hp : (ofFiles d name files).files.get? module with
  | none =>
    rw [hp, Option.map_none] at h
    exact Option.map_eq_none_iff.1 h.symm
  | some f =>
    rw [hp, Option.map_some] at h
    obtain ⟨f', hq, he⟩ := Option.map_eq_some_iff.1 h.symm
    obtain ⟨hpath, hstatements⟩ := Prod.mk.inj he
    have hmodule : f'.module = f.module :=
      (module_of_get?_ofFiles hq).trans (module_of_get?_ofFiles hp).symm
    rw [hq]
    cases f
    cases f'
    cases hpath
    cases hstatements
    cases hmodule
    rfl

section Agreement

variable {p q : Package} {start : Text}

/-- Of what a module reaches in the first package, both have the same files. -/
def AgreeFrom (p q : Package) (start : Text) : Prop :=
  ∀ module, p.Reaches start module → q.files.get? module = p.files.get? module

theorem AgreeFrom.index? (h : AgreeFrom p q start) {module : Text} (hm : p.Reaches start module) :
    q.index? module = p.index? module := by
  unfold Package.index?
  rw [h module hm]

theorem AgreeFrom.isLoaded (h : AgreeFrom p q start) {module : Text}
    (hm : p.Reaches start module) : q.isLoaded module = p.isLoaded module := by
  unfold Package.isLoaded Table.contains
  rw [h module hm]

theorem Reaches.module {module name : Text} {idx : DefinitionIndex} {t : ImportTarget}
    (hm : p.Reaches start module) (hi : p.index? module = some idx)
    (ht : idx.imports.get? name = some t) : p.Reaches start t.module :=
  hm.tail ⟨idx, hi, name, t, ht, .inl rfl⟩

theorem Reaches.path {module name : Text} {idx : DefinitionIndex} {t : ImportTarget}
    (hm : p.Reaches start module) (hi : p.index? module = some idx)
    (ht : idx.imports.get? name = some t) : p.Reaches start t.path :=
  hm.tail ⟨idx, hi, name, t, ht, .inr rfl⟩

/-! ### Folding -/

theorem AgreeFrom.importedModule? (h : AgreeFrom p q start) {module : Text}
    (hm : p.Reaches start module) (w : Text) :
    q.importedModule? module w = p.importedModule? module w := by
  apply Option.ext
  intro target
  rw [importedModule?_eq_some_iff, importedModule?_eq_some_iff, h.index? hm]
  refine exists_congr fun idx => and_congr_right fun hi => ?_
  refine exists_congr fun t => and_congr_right fun ht => ?_
  rw [h.isLoaded (hm.path hi ht)]

theorem reaches_importedModule {module w target : Text} (hm : p.Reaches start module)
    (h : p.importedModule? module w = some target) : p.Reaches start target := by
  obtain ⟨idx, hi, t, ht, _, rfl⟩ := importedModule?_eq_some_iff.1 h
  exact hm.path hi ht

theorem AgreeFrom.definition? (h : AgreeFrom p q start) {k : Key}
    (hk : p.Reaches start k.module) : q.definition? k = p.definition? k := by
  unfold Package.definition?
  rw [h.index? hk]
  cases hi : p.index? k.module with
  | none => rfl
  | some idx =>
    simp only [Option.bind_some]
    cases idx.values.get? k.name with
    | some e => rfl
    | none =>
      cases ht : idx.imports.get? k.name with
      | none => rfl
      | some t =>
        simp only [Option.bind_some]
        rw [h.isLoaded (hk.module hi ht)]

theorem AgreeFrom.consulting (h : AgreeFrom p q start) {module : Text}
    (hm : p.Reaches start module) : q.consulting module = p.consulting module := by
  unfold Package.consulting
  rw [h.isLoaded hm]

/-- A fold is the same in packages that agree on what its module reaches. -/
theorem AgreeFrom.fold (h : AgreeFrom p q start) :
    (∀ inProgress module e, p.Reaches start module →
      q.fold inProgress module e = p.fold inProgress module e) ∧
      ∀ inProgress (k : Key), p.Reaches start k.module →
        q.foldName inProgress k = p.foldName inProgress k := by
  refine fold.mutual_induct p
    (fun inProgress module e => p.Reaches start module →
      q.fold inProgress module e = p.fold inProgress module e)
    (fun inProgress k => p.Reaches start k.module →
      q.foldName inProgress k = p.foldName inProgress k)
    ?text ?sum ?name ?unknown ?qualified ?other ?absent ?present
  case text =>
    intro inProgress module v _
    rw [Package.fold, Package.fold]
  case sum =>
    intro inProgress module l r ihl ihr hm
    rw [Package.fold, Package.fold, ihl hm, ihr hm]
  case name =>
    intro inProgress module w position ih hm
    rw [fold_name, fold_name]
    exact ih hm
  case unknown =>
    intro inProgress module w position field hno hm
    have hno' := (h.importedModule? hm w).trans hno
    rw [Package.fold, Package.fold, hno, hno', h.consulting hm]
  case qualified =>
    intro inProgress module w position field target ht ih hm
    have ht' := (h.importedModule? hm w).trans ht
    rw [fold_qualified ht, fold_qualified ht', ih (reaches_importedModule hm ht), h.consulting hm]
  case other =>
    intro inProgress module e htext hsum hname hqualified _
    rw [Package.fold, Package.fold] <;> assumption
  case absent =>
    intro inProgress k hi hk
    have hp : p.isLoaded k.module = false := by rw [isLoaded_eq, hi]; rfl
    rw [foldName_eq, foldName_eq, h.isLoaded hk, hp]
    rfl
  case present =>
    intro inProgress k idx hi ihvalue ihmember hk
    rw [foldName_eq, foldName_eq, h.isLoaded hk, h.definition? hk]
    by_cases hprogress : k ∈ inProgress
    · simp only [hprogress, if_true]
    · simp only [hprogress, if_false]
      cases hdef : p.definition? k with
      | none => rfl
      | some definition =>
        cases definition with
        | value e =>
          obtain ⟨idx', hi', hv⟩ := definition?_eq_value_iff.1 hdef
          cases hi.symm.trans hi'
          simp only [ihvalue hprogress e hv hk]
        | member target =>
          obtain ⟨idx', hi', _, ht, _⟩ := definition?_eq_member_iff.1 hdef
          cases hi.symm.trans hi'
          simp only [ihmember hprogress target.module target.name ht (hk.module hi ht)]

/-! ### Looking up types -/

/-- What a name of a module that is consulted for it is as a type, when an import from a loaded
module is followed by `follow`. -/
def lookupIn (p : Package) (idx : DefinitionIndex) (name : Text) (follow : Key → Lookup) : Lookup :=
  match idx.types.get? name with
  | some o => ⟨some o, []⟩
  | none =>
    if idx.values.contains name || idx.others.contains name then ⟨some (.nonType name), []⟩
    else
      match idx.imports.get? name with
      | none => ⟨builtin? name, []⟩
      | some ⟨_, none⟩ => ⟨some (.nonType name), []⟩
      | some ⟨target, some member⟩ =>
        if p.isLoaded (target ++ '.' :: member) then ⟨some (.nonType name), []⟩
        else if p.isLoaded target then follow ⟨target, member⟩
        else ⟨some (.ofKind name none), []⟩

theorem lookupFrom_eq (p : Package) (seen : List Key) (k : Key) :
    p.lookupFrom seen k =
      if k ∈ seen then ⟨none, []⟩
      else
        match p.index? k.module with
        | none => ⟨builtin? k.name, []⟩
        | some idx =>
          let l := p.lookupIn idx k.name (p.lookupFrom (k :: seen))
          ⟨l.result, k.module :: l.consulted⟩ := by
  rw [lookupFrom]
  by_cases hk : k ∈ seen
  · simp only [hk, if_true, dite_true]
  · simp only [hk, if_false, dite_false]
    split
    · rename_i hi
      simp only [hi]
    · rename_i idx hi
      simp only [hi, lookupIn]
      cases idx.types.get? k.name with
      | some o => rfl
      | none =>
        by_cases hother : (idx.values.contains k.name || idx.others.contains k.name) = true
        · simp only [hother, if_true]
        · simp only [hother, Bool.false_eq_true, if_false]
          split
          · rename_i ht
            simp [ht]
          · rename_i ht
            simp [ht]
          · rename_i target member ht
            by_cases hmember : p.isLoaded (target ++ '.' :: member) = true
            · simp [ht, hmember]
            · by_cases hl : p.isLoaded target = true
              · simp [ht, hmember, hl]
              · simp [ht, hmember, hl]

/-- What is looked up for a name depends on what is looked up for the name that it is imported
as. -/
theorem lookup_induction {P : List Key → Key → Prop}
    (step : ∀ seen k, (∀ idx target member, k ∉ seen → p.index? k.module = some idx →
      idx.imports.get? k.name = some ⟨target, some member⟩ → P (k :: seen) ⟨target, member⟩) →
      P seen k) (seen : List Key) (k : Key) : P seen k := by
  induction hn : p.remaining seen using Nat.strongRecOn generalizing seen k with
  | _ n ih =>
    subst hn
    apply step
    intro idx target member hk hi ht
    exact ih _ (remaining_cons_lt (mem_keys_of_import hi ht) hk) _ _ rfl

theorem AgreeFrom.lookupFrom (h : AgreeFrom p q start) (seen : List Key) (k : Key) :
    p.Reaches start k.module → q.lookupFrom seen k = p.lookupFrom seen k := by
  refine @lookup_induction p
    (fun seen k => p.Reaches start k.module → q.lookupFrom seen k = p.lookupFrom seen k) ?_ seen k
  intro seen k ih hk
  rw [lookupFrom_eq, lookupFrom_eq, h.index? hk]
  by_cases hseen : k ∈ seen
  · simp only [hseen, if_true]
  · simp only [hseen, if_false]
    cases hi : p.index? k.module with
    | none => rfl
    | some idx =>
      have hin : q.lookupIn idx k.name (q.lookupFrom (k :: seen)) =
          p.lookupIn idx k.name (p.lookupFrom (k :: seen)) := by
        unfold lookupIn
        cases idx.types.get? k.name with
        | some o => rfl
        | none =>
          cases ht : idx.imports.get? k.name with
          | none => rfl
          | some t =>
            obtain ⟨target, member⟩ := t
            cases member with
            | none => rfl
            | some member =>
              have hpath : q.isLoaded (target ++ '.' :: member) =
                  p.isLoaded (target ++ '.' :: member) := h.isLoaded (hk.path hi ht)
              have hmodule : q.isLoaded target = p.isLoaded target :=
                h.isLoaded (hk.module hi ht)
              simp only [hpath, hmodule, ih idx target member hseen hi ht (hk.module hi ht)]
      simp only [hin]

theorem AgreeFrom.lookup (h : AgreeFrom p q start) {module : Text} (hm : p.Reaches start module)
    (name : Text) : q.lookup module name = p.lookup module name :=
  h.lookupFrom [] ⟨module, name⟩ hm

/-! ### Analysing -/

theorem AgreeFrom.analyseQuery (h : AgreeFrom p q start) (suffix : Text) (c : QueryConstant) :
    q.analyseQuery suffix start c = p.analyseQuery suffix start c := by
  have hlookup : q.lookup start = p.lookup start := funext fun name => h.lookup .refl name
  have hresolver : q.resolver start = p.resolver start := by
    unfold Package.resolver
    rw [hlookup]
  unfold Package.analyseQuery
  rw [h.fold.1 _ _ _ .refl, hresolver, hlookup]

theorem AgreeFrom.analyseFile [NameMatcher] {f : SourceFile} (h : AgreeFrom p q f.module)
    (s : Settings) :
    q.analyseFile s f = p.analyseFile s f := by
  unfold Package.analyseFile
  simp only [h.analyseQuery]

end Agreement

/-- The analysis of a file depends only on what the file reaches through imports. Of two packages
that have the same files there, with the same paths and statements, each makes the same of the file:
the same sets and diagnostics, and the same log. -/
theorem analyseFile_of_agreeOn [NameMatcher] {d d' : Path} {name name' : Text}
    {files files' : List SourceFile} {module : Text} {f : SourceFile} (s : Settings)
    (hf : (ofFiles d name files).files.get? module = some f)
    (hagree : ∀ m, (ofFiles d name files).Reaches module m →
      AgreeOn (ofFiles d name files) (ofFiles d' name' files') m) :
    ∃ f', (ofFiles d' name' files').files.get? module = some f' ∧
      (ofFiles d' name' files').analyseFile s f' = (ofFiles d name files).analyseFile s f := by
  have hmodule : f.module = module := module_of_get?_ofFiles hf
  have hsame : AgreeFrom (ofFiles d name files) (ofFiles d' name' files') f.module := by
    intro m hm
    rw [hmodule] at hm
    exact (hagree m hm).get?_eq
  refine ⟨f, ?_, hsame.analyseFile s⟩
  rw [← hf]
  exact (hagree module .refl).get?_eq

/-! Two packages with a file that imports a part of its query, for the case below. -/

def queryFile : SourceFile :=
  ⟨⟨.root, ["app", "a.py"]⟩, "a",
    [⟨.importNames 0 (some "b") [⟨"FRAGMENT", none⟩], 1⟩,
      ⟨.assign [.name "A_QUERY" ⟨2, 0⟩] (.sum (.text "SELECT ") (.name "FRAGMENT" ⟨2, 22⟩)), 2⟩]⟩

def fragmentFile : SourceFile :=
  ⟨⟨.root, ["app", "b.py"]⟩, "b", [⟨.assign [.name "FRAGMENT" ⟨1, 0⟩] (.text "{{ id : int }}"), 1⟩]⟩

def strayFile : SourceFile :=
  ⟨⟨.root, ["app", "c.py"]⟩, "c",
    [⟨.importNames 0 (some "a") [⟨"A_QUERY", some "FRAGMENT"⟩], 1⟩,
      ⟨.assign [.name "C_QUERY" ⟨2, 0⟩] (.name "FRAGMENT" ⟨2, 10⟩), 2⟩]⟩

def smallFiles : List SourceFile := [queryFile, fragmentFile]

/-- The files with the stray one, in another order. -/
def largeFiles : List SourceFile := [strayFile, fragmentFile, queryFile]

theorem reaches_smallFiles {m : Text}
    (h : (ofFiles ⟨.root, ["app"]⟩ "app" smallFiles).Reaches "a" m) :
    m ∈ (["a", "b", "b.FRAGMENT"] : List Text) := by
  have himports : queryFile.index.imports.entries =
      [(("FRAGMENT" : Text), ⟨"b", some "FRAGMENT"⟩)] := rfl
  induction h with
  | refl => decide
  | tail _ hstep ih =>
    obtain ⟨idx, hi, name, t, ht, htarget⟩ := hstep
    have hentry := Table.mem_of_get? ht
    simp only [List.mem_cons, List.not_mem_nil, or_false] at ih
    rcases ih with rfl | rfl | rfl
    · cases hi
      rw [himports] at hentry
      cases List.mem_singleton.1 hentry
      rcases htarget with rfl | rfl <;> decide
    · cases hi
      cases hentry
    · cases hi

section

open scoped NamePattern.Standard

/-- A file that is not reached makes no difference, nor do the order of the files and the name of
the package. -/
theorem analyseFile_of_agreeOn_stray :
    ∃ f', (ofFiles ⟨.root, ["lib"]⟩ "lib" largeFiles).files.get? "a" = some f' ∧
      (ofFiles ⟨.root, ["lib"]⟩ "lib" largeFiles).analyseFile .usual f' =
        (ofFiles ⟨.root, ["app"]⟩ "app" smallFiles).analyseFile .usual queryFile := by
  refine @analyseFile_of_agreeOn _ ⟨.root, ["app"]⟩ ⟨.root, ["lib"]⟩ "app" "lib" smallFiles
    largeFiles "a" queryFile .usual rfl fun m hm => ?_
  have hmem := reaches_smallFiles hm
  simp only [List.mem_cons, List.not_mem_nil, or_false] at hmem
  rcases hmem with rfl | rfl | rfl <;> rfl

end

end Package

end TypedQueries
