import Mathlib.Data.List.Find
import Mathlib.Data.List.Induction
import Mathlib.Data.List.Nodup
import Mathlib.Data.List.Permutation
import TypedQueries.NamePattern.Read
import TypedQueries.Package.Analysis
import TypedQueries.Proofs.Faults
import TypedQueries.Proofs.Results

/-!
# What each query constant comes to

The analysis of a file takes its query constants in order. Each of them adds to the result what it
would come to if the file had nothing else in it, except that a set whose class name is taken gives
way to a diagnostic. A constant without a set takes no class name.
-/

namespace TypedQueries

open Source

/-- Whether a written form is that of a pattern, or empty. -/
def NamePattern.IsValid [NameMatcher] (form : CodedText) : Prop :=
  ∃ isMatch, NamePattern.compile form = .ok isMatch

/-- The file with the assignment of one constant as its only statement. -/
def SourceFile.only (file : SourceFile) (q : QueryConstant) : SourceFile :=
  { file with statements := [⟨.assign [.name q.name q.start] q.value, q.line⟩] }

/-- What a constant has added to the result of its file. -/
structure Part where
  query : QueryConstant
  sets : List ParamSet
  diagnostics : List Diagnostic

/-- The sets and diagnostics that a constant of a file has by itself: nothing without a text or
without directives, the diagnostics of the first fault of its directives, or else its set. -/
inductive ComesTo (p : Package) (s : Settings) (file : SourceFile) (q : QueryConstant) :
    List ParamSet → List Diagnostic → Prop where
  | unknown (h : (p.fold [⟨file.module, q.name⟩] file.module q.value).value = none) :
      ComesTo p s file q [] []
  | plain (text : Text)
      (htext : (p.fold [⟨file.module, q.name⟩] file.module q.value).value = some text)
      (h : Template.directives text = []) : ComesTo p s file q [] []
  | unformattable (text field typeName : Text)
      (htext : (p.fold [⟨file.module, q.name⟩] file.module q.value).value = some text)
      (h : (ParamSet.ofDirectives (p.resolver file.module) q.name s.typeSuffix
        (Template.directives text)).result = .error (.unformattableType field typeName)) :
      ComesTo p s file q []
        [⟨file.path, q.start.line, q.start.column + 1,
          "ill-formed interpolation: " ++ ("cannot automatically format type: " ++ typeName),
          .error⟩,
         ⟨file.path, q.start.line, q.start.column + 1,
          "cannot handle type " ++ typeName ++ " of interpolation variable " ++ field ++
            "; it should be a basic type (int, str) or have a basic type as its underlying type",
          .error⟩,
         ⟨file.path, q.start.line, q.start.column + 1,
          "HINT: " ++ ("you can specify a custom format specifier using " ++
            "\x7b\x7bfieldName : type : %d\x7d\x7d syntax"), .hint⟩]
  | faulty (text : Text) (e : DirectiveError)
      (htext : (p.fold [⟨file.module, q.name⟩] file.module q.value).value = some text)
      (h : (ParamSet.ofDirectives (p.resolver file.module) q.name s.typeSuffix
        (Template.directives text)).result = .error e)
      (he : ∀ field typeName, e ≠ .unformattableType field typeName) :
      ComesTo p s file q []
        [⟨file.path, q.start.line, q.start.column + 1,
          "ill-formed interpolation: " ++ e.message, .error⟩]
  | wanted (text : Text) (set : ParamSet)
      (htext : (p.fold [⟨file.module, q.name⟩] file.module q.value).value = some text)
      (h : (ParamSet.ofDirectives (p.resolver file.module) q.name s.typeSuffix
        (Template.directives text)).result = .ok (some set)) :
      ComesTo p s file q [set] []

/-- The sets and diagnostics of a file that has one constant alone, in the same package. -/
def AnalysedAlone [NameMatcher] (p : Package) (s : Settings) (file : SourceFile) (q : QueryConstant)
    (sets : List ParamSet) (diagnostics : List Diagnostic) : Prop :=
  ∃ a, p.analyseFile s (file.only q) = .ok a ∧ a.result.wanted = sets ∧
    a.result.diagnostics = diagnostics

/-- What a constant adds after those before it: what it has alone, if its class name is free, and
otherwise the diagnostic that names the constant whose set has it. -/
inductive Part.Follows [NameMatcher] (p : Package) (s : Settings) (file : SourceFile)
    (before : List Part) :
    Part → Prop where
  | free {q : QueryConstant} {sets : List ParamSet} {diagnostics : List Diagnostic}
      (halone : AnalysedAlone p s file q sets diagnostics)
      (h : ∀ set ∈ sets, ∀ b ∈ before, ∀ earlier ∈ b.sets, earlier.typeName ≠ set.typeName) :
      Follows p s file before ⟨q, sets, diagnostics⟩
  | taken {q : QueryConstant} {set earlier : ParamSet} {b : Part}
      (halone : AnalysedAlone p s file q [set] []) (hb : b ∈ before) (hearlier : earlier ∈ b.sets)
      (h : earlier.typeName = set.typeName) :
      Follows p s file before
        ⟨q, [],
          [⟨file.path, q.start.line, q.start.column + 1,
            "parameter type " ++ set.typeName ++ " of " ++ q.name ++
              " is already generated for " ++ b.query.name ++ "; rename one of the queries",
            .error⟩]⟩

/-- The constants of a file account for the result of its analysis. -/
structure Accounts [NameMatcher] (p : Package) (s : Settings) (file : SourceFile)
    (parts : List Part) (r : FileResult) : Prop where
  completed : r.ok = true
  discovered : QueryConstant.discover s.namePattern file.statements = .ok (parts.map Part.query)
  wanted : r.wanted = parts.flatMap Part.sets
  diagnostics : r.diagnostics = parts.flatMap Part.diagnostics
  follows : ∀ before part after, parts = before ++ part :: after → part.Follows p s file before
  alone : ∀ part ∈ parts, ∃ sets diagnostics,
    AnalysedAlone p s file part.query sets diagnostics ∧
      ComesTo p s file part.query sets diagnostics
  distinct : (r.wanted.map ParamSet.typeName).Nodup

/-! ### A constant by itself -/

namespace Outcome

def sets : Outcome → List ParamSet
  | .wanted set => [set]
  | _ => []

def diagnostics (path : Path) (q : QueryConstant) : Outcome → List Diagnostic
  | .faulty e => q.faultDiagnostics path e
  | _ => []

end Outcome

section Alone

variable {p : Package} {s : Settings} {file : SourceFile} {q : QueryConstant}

theorem faultDiagnostics_of_ne {path : Path} {e : DirectiveError}
    (h : ∀ field typeName, e ≠ .unformattableType field typeName) :
    q.faultDiagnostics path e =
      [⟨path, q.start.line, q.start.column + 1, "ill-formed interpolation: " ++ e.message,
        .error⟩] := by
  cases e with
  | unformattableType field typeName => exact absurd rfl (h field typeName)
  | _ => rfl

theorem formatHint_eq : DirectiveError.formatHint =
    "you can specify a custom format specifier using " ++
      "\x7b\x7bfieldName : type : %d\x7d\x7d syntax" := by decide

theorem faultDiagnostics_unformattable (q : QueryConstant) (path : Path) (field typeName : Text) :
    q.faultDiagnostics path (.unformattableType field typeName) =
      [⟨path, q.start.line, q.start.column + 1,
        "ill-formed interpolation: " ++ ("cannot automatically format type: " ++ typeName),
        .error⟩,
       ⟨path, q.start.line, q.start.column + 1,
        "cannot handle type " ++ typeName ++ " of interpolation variable " ++ field ++
          "; it should be a basic type (int, str) or have a basic type as its underlying type",
        .error⟩,
       ⟨path, q.start.line, q.start.column + 1,
        "HINT: " ++ ("you can specify a custom format specifier using " ++
          "\x7b\x7bfieldName : type : %d\x7d\x7d syntax"), .hint⟩] := by
  rw [← formatHint_eq]
  rfl

theorem directives_eq_nil {resolve : Resolver} {name suffix : Text} {ds : List Directive}
    (h : (ParamSet.ofDirectives resolve name suffix ds).result = .ok none) : ds = [] := by
  rcases ParamSet.Builder.firstFault_or_sound resolve ds with ⟨i, e, hfault⟩ | hsound
  · rw [ParamSet.ofDirectives_of_firstFault hfault] at h
    cases h
  · rw [ParamSet.ofDirectives_of_sound hsound] at h
    by_contra hds
    simp [hds] at h

theorem comesTo_of_outcome {o : Outcome}
    (ho : (p.analyseQuery s.typeSuffix file.module q).outcome = o) :
    ComesTo p s file q o.sets (o.diagnostics file.path q) := by
  unfold Package.analyseQuery at ho
  cases htext : (p.fold [⟨file.module, q.name⟩] file.module q.value).value with
  | none =>
    simp only [htext] at ho
    subst ho
    exact .unknown htext
  | some text =>
    simp only [htext] at ho
    cases hbuilt : (ParamSet.ofDirectives (p.resolver file.module) q.name s.typeSuffix
        (Template.directives text)).result with
    | error e =>
      simp only [hbuilt] at ho
      subst ho
      by_cases he : ∃ field typeName, e = .unformattableType field typeName
      · obtain ⟨field, typeName, rfl⟩ := he
        rw [Outcome.diagnostics, faultDiagnostics_unformattable]
        exact .unformattable text field typeName htext hbuilt
      · have hne : ∀ field typeName, e ≠ .unformattableType field typeName :=
          fun field typeName heq => he ⟨field, typeName, heq⟩
        rw [Outcome.diagnostics, faultDiagnostics_of_ne hne]
        exact .faulty text e htext hbuilt hne
    | ok set? =>
      simp only [hbuilt] at ho
      cases set? with
      | none =>
        subst ho
        exact .plain text htext (directives_eq_nil hbuilt)
      | some set =>
        subst ho
        exact .wanted text set htext hbuilt

/-- With a pattern, the constants are the candidates whose names match it. -/
theorem discover_eq [NameMatcher] {form : CodedText} {isMatch : Text → Bool}
    (h : NamePattern.compile form = .ok isMatch) (statements : List Statement) :
    QueryConstant.discover form statements =
      .ok ((statements.flatMap fun st => QueryConstant.candidates st.kind).filter fun q =>
        isMatch q.name) := by
  have hname : ∀ q : QueryConstant,
      NamePattern.isQueryName form q.name = .ok (isMatch q.name) := by
    intro q
    rw [NamePattern.isQueryName, h]
    rfl
  exact filterM_of_ok hname _

end Alone

/-! ### A constant among others -/

def FileProgress.part (path : Path) (f : FileProgress) (q : QueryConstant) : Outcome → Part
  | .wanted set =>
    match f.owner? set.typeName with
    | none => ⟨q, [set], []⟩
    | some owner => ⟨q, [], [q.duplicateDiagnostic path set.typeName owner]⟩
  | o => ⟨q, o.sets, o.diagnostics path q⟩

section Progress

variable {f : FileProgress} {path : Path} {q : QueryConstant}

@[simp] theorem query_part (o : Outcome) : (f.part path q o).query = q := by
  unfold FileProgress.part
  split
  · split <;> rfl
  · rfl

theorem part_free {set : ParamSet} (h : f.owner? set.typeName = none) :
    f.part path q (.wanted set) = ⟨q, [set], []⟩ := by
  rw [FileProgress.part, h]

theorem part_taken {set : ParamSet} {owner : Text} (h : f.owner? set.typeName = some owner) :
    f.part path q (.wanted set) =
      ⟨q, [], [q.duplicateDiagnostic path set.typeName owner]⟩ := by
  rw [FileProgress.part, h]

/-- The owner of a class name depends on the sets alone. -/
theorem owner?_mk (diagnostics : List Diagnostic) (log : List LogEntry) (consulted : List Text)
    (typeName : Text) :
    (FileProgress.mk f.wanted diagnostics log consulted).owner? typeName = f.owner? typeName := rfl

theorem part_empty (path : Path) (q : QueryConstant) (o : Outcome) :
    FileProgress.empty.part path q o = ⟨q, o.sets, o.diagnostics path q⟩ := by
  cases o <;> rfl

theorem wanted_add (a : QueryAnalysis) :
    (f.add path q a).wanted =
      f.wanted ++ (f.part path q a.outcome).sets.map fun set => (set, q.name) := by
  obtain ⟨o, folding, consulted⟩ := a
  cases o with
  | wanted set =>
    simp only [FileProgress.add, FileProgress.part, owner?_mk]
    cases f.owner? set.typeName with
    | none => rfl
    | some owner => exact (List.append_nil _).symm
  | _ => exact (List.append_nil _).symm

theorem diagnostics_add (a : QueryAnalysis) :
    (f.add path q a).diagnostics =
      f.diagnostics ++ (f.part path q a.outcome).diagnostics := by
  obtain ⟨o, folding, consulted⟩ := a
  cases o with
  | faulty e => rfl
  | wanted set =>
    simp only [FileProgress.add, FileProgress.part, owner?_mk]
    cases f.owner? set.typeName with
    | none => exact (List.append_nil _).symm
    | some owner => rfl
  | _ => exact (List.append_nil _).symm

theorem owner?_eq_none_iff {typeName : Text} :
    f.owner? typeName = none ↔ ∀ entry ∈ f.wanted, entry.1.typeName ≠ typeName := by
  simp [FileProgress.owner?]

theorem exists_of_owner? {typeName owner : Text} (h : f.owner? typeName = some owner) :
    ∃ set, (set, owner) ∈ f.wanted ∧ set.typeName = typeName := by
  obtain ⟨⟨set, name⟩, hfind, rfl⟩ := Option.map_eq_some_iff.1 h
  exact ⟨set, List.mem_of_find?_eq_some hfind, by simpa using List.find?_some hfind⟩

theorem sets_part (f : FileProgress) (path : Path) (q : QueryConstant) (o : Outcome) :
    (f.part path q o).sets = [] ∨
      ∃ set, (f.part path q o).sets = [set] ∧ f.owner? set.typeName = none := by
  cases o with
  | wanted set =>
    cases howner : f.owner? set.typeName with
    | none => exact .inr ⟨set, by rw [part_free howner], howner⟩
    | some owner => exact .inl (by rw [part_taken howner])
  | _ => exact .inl rfl

theorem outcome_of_mem_part {o : Outcome} {set : ParamSet} (h : set ∈ (f.part path q o).sets) :
    o = .wanted set := by
  cases o with
  | wanted own =>
    cases howner : f.owner? own.typeName with
    | none =>
      rw [part_free howner] at h
      rw [List.mem_singleton.1 h]
    | some owner =>
      rw [part_taken howner] at h
      cases h
  | _ => cases h

end Progress

section Run

variable [NameMatcher] {p : Package} {s : Settings} {file : SourceFile}

theorem analysedAlone {q : QueryConstant}
    (hq : QueryConstant.discover s.namePattern (file.only q).statements = .ok [q]) {o : Outcome}
    (ho : (p.analyseQuery s.typeSuffix file.module q).outcome = o) :
    AnalysedAlone p s file q o.sets (o.diagnostics file.path q) := by
  let f := FileProgress.empty.add file.path q (p.analyseQuery s.typeSuffix file.module q)
  have hpart := part_empty file.path q o
  refine ⟨⟨⟨file.path, file.module, true, f.wanted.map (·.1), f.diagnostics⟩, f.log, f.consulted⟩,
    ?_, ?_, ?_⟩
  · rw [Package.analyseFile, hq]
    rfl
  · simp only [f, wanted_add, ho, hpart]
    simp [FileProgress.empty, Function.comp_def]
  · simp only [f, diagnostics_add, ho, hpart]
    simp [FileProgress.empty]

/-- What has been gathered from the constants so far. -/
structure Gathered (p : Package) (s : Settings) (file : SourceFile) (parts : List Part)
    (f : FileProgress) : Prop where
  wanted : f.wanted = parts.flatMap fun part => part.sets.map fun set => (set, part.query.name)
  diagnostics : f.diagnostics = parts.flatMap Part.diagnostics
  follows : ∀ before part after, parts = before ++ part :: after → part.Follows p s file before
  distinct : ((parts.flatMap Part.sets).map ParamSet.typeName).Nodup

theorem gathered_empty : Gathered p s file [] .empty where
  wanted := rfl
  diagnostics := rfl
  follows := by
    intro before part after h
    simp at h
  distinct := List.nodup_nil

theorem Gathered.mem_wanted {parts : List Part} {f : FileProgress} (h : Gathered p s file parts f)
    {set : ParamSet} {name : Text} :
    (set, name) ∈ f.wanted ↔ ∃ b ∈ parts, set ∈ b.sets ∧ b.query.name = name := by
  rw [h.wanted]
  simp

theorem Gathered.follows_part {parts : List Part} {f : FileProgress}
    (h : Gathered p s file parts f) {q : QueryConstant}
    (hq : QueryConstant.discover s.namePattern (file.only q).statements = .ok [q]) {o : Outcome}
    (ho : (p.analyseQuery s.typeSuffix file.module q).outcome = o) :
    (f.part file.path q o).Follows p s file parts := by
  have halone := analysedAlone hq ho
  cases o with
  | wanted set =>
    cases howner : f.owner? set.typeName with
    | none =>
      -- an earlier set with this class name would have made its constant the owner
      rw [part_free howner]
      refine .free halone fun set' hset b hb earlier hearlier heq => ?_
      cases List.mem_singleton.1 hset
      exact owner?_eq_none_iff.1 howner (earlier, b.query.name)
        (h.mem_wanted.2 ⟨b, hb, hearlier, rfl⟩) heq
    | some owner =>
      obtain ⟨earlier, hmem, hname⟩ := exists_of_owner? howner
      obtain ⟨b, hb, hearlier, rfl⟩ := h.mem_wanted.1 hmem
      rw [part_taken howner]
      exact .taken halone hb hearlier hname
  | _ => exact .free halone fun set hset => absurd hset List.not_mem_nil

theorem Gathered.distinct_part {parts : List Part} {f : FileProgress}
    (h : Gathered p s file parts f) (q : QueryConstant) (o : Outcome) :
    (((parts ++ [f.part file.path q o]).flatMap Part.sets).map ParamSet.typeName).Nodup := by
  rw [List.flatMap_append, List.flatMap_singleton, List.map_append]
  rcases sets_part f file.path q o with hnone | ⟨set, hone, hfree⟩
  · rw [hnone, List.map_nil, List.append_nil]
    exact h.distinct
  · rw [hone, List.map_singleton]
    refine List.nodup_append.2 ⟨h.distinct, List.nodup_singleton _, ?_⟩
    intro name hname name' hname' heq
    obtain ⟨earlier, hearlier, rfl⟩ := List.mem_map.1 hname
    obtain ⟨b, hb, hset⟩ := List.mem_flatMap.1 hearlier
    exact owner?_eq_none_iff.1 hfree (earlier, b.query.name)
      (h.mem_wanted.2 ⟨b, hb, hset, rfl⟩) (heq.trans (List.mem_singleton.1 hname'))

theorem Gathered.add {parts : List Part} {f : FileProgress} (h : Gathered p s file parts f)
    {q : QueryConstant}
    (hq : QueryConstant.discover s.namePattern (file.only q).statements = .ok [q]) :
    let a := p.analyseQuery s.typeSuffix file.module q
    Gathered p s file (parts ++ [f.part file.path q a.outcome]) (f.add file.path q a) := by
  intro a
  refine ⟨?_, ?_, ?_, h.distinct_part q a.outcome⟩
  · rw [wanted_add, h.wanted]
    simp
  · rw [diagnostics_add, h.diagnostics]
    simp
  · -- the last part of the longer list is the new one, and any other stands where it stood
    intro before part after hsplit
    rcases List.eq_nil_or_concat after with rfl | ⟨rest, last, rfl⟩
    · obtain ⟨rfl, hlast⟩ := List.append_inj' hsplit rfl
      cases hlast
      exact h.follows_part hq rfl
    · have hinit : parts = before ++ part :: rest := by
        rw [List.concat_eq_append, ← List.cons_append, ← List.append_assoc] at hsplit
        exact (List.append_inj' hsplit rfl).1
      exact h.follows before part rest hinit

/-- The constants of a file, in order, each have a part in what is gathered from all of them. -/
theorem gathered_foldl {queries : List QueryConstant}
    (hqueries : ∀ q ∈ queries,
      QueryConstant.discover s.namePattern (file.only q).statements = .ok [q]) :
    ∃ parts, parts.map Part.query = queries ∧
      Gathered p s file parts (queries.foldl
        (fun f q => f.add file.path q (p.analyseQuery s.typeSuffix file.module q)) .empty) := by
  induction queries using List.reverseRecOn with
  | nil => exact ⟨[], rfl, gathered_empty⟩
  | append_singleton queries q ih =>
    obtain ⟨parts, hparts, hgathered⟩ :=
      ih fun q' hq' => hqueries q' (List.mem_append_left _ hq')
    rw [List.foldl_append, List.foldl_cons, List.foldl_nil]
    refine ⟨_, ?_, hgathered.add (hqueries q (by simp))⟩
    rw [List.map_append, hparts, List.map_singleton, query_part]

end Run

namespace Package

/-- With a pattern for the names, the analysis of a file is completed, and its constants account for
its result: in order, each adds what it has alone, or the one diagnostic for a class name that the
set of an earlier one has. The class names of the result are distinct. -/
theorem analyseFile_accounts [NameMatcher] (p : Package) (s : Settings) (file : SourceFile)
    (h : NamePattern.IsValid s.namePattern) :
    ∃ a parts, p.analyseFile s file = .ok a ∧ Accounts p s file parts a.result := by
  obtain ⟨isMatch, hmatch⟩ := h
  let queries := (file.statements.flatMap fun st => QueryConstant.candidates st.kind).filter
    fun q => isMatch q.name
  have hdiscovered : QueryConstant.discover s.namePattern file.statements = .ok queries :=
    discover_eq hmatch file.statements
  have hsingle : ∀ q ∈ queries,
      QueryConstant.discover s.namePattern (file.only q).statements = .ok [q] := by
    intro q hq
    rw [discover_eq hmatch]
    simp [SourceFile.only, QueryConstant.candidates, (List.mem_filter.1 hq).2]
  obtain ⟨parts, hparts, hgathered⟩ := gathered_foldl (p := p) hsingle
  let f : FileProgress := queries.foldl
    (fun f q => f.add file.path q (p.analyseQuery s.typeSuffix file.module q)) .empty
  have hwanted : f.wanted.map (·.1) = parts.flatMap Part.sets := by
    rw [hgathered.wanted, List.map_flatMap]
    simp [Function.comp_def]
  refine ⟨⟨⟨file.path, file.module, true, f.wanted.map (·.1), f.diagnostics⟩, f.log, f.consulted⟩,
    parts, ?_, ?_⟩
  · rw [analyseFile, hdiscovered]
    rfl
  · refine ⟨rfl, ?_, hwanted, hgathered.diagnostics, hgathered.follows, ?_, ?_⟩
    · rw [hdiscovered, hparts]
    · intro part hpart
      have hq : part.query ∈ queries := hparts ▸ List.mem_map_of_mem hpart
      exact ⟨_, _, analysedAlone (hsingle part.query hq) rfl, comesTo_of_outcome rfl⟩
    · rw [hwanted]
      exact hgathered.distinct

/-- A file with two queries whose parameters would have the same class. -/
def claimedTwice : SourceFile where
  path := ⟨.root, ["app", "q.py"]⟩
  module := "app.q"
  statements :=
    [⟨.assign [.name "A_QUERY" ⟨1, 0⟩] (.text "\x7b\x7ba : int\x7d\x7d"), 1⟩,
     ⟨.assign [.name "AQuery" ⟨2, 0⟩] (.text "\x7b\x7bb : str\x7d\x7d"), 2⟩]

def claimedTwicePackage : Package := ofFiles ⟨.root, ["app"]⟩ "app" [claimedTwice]

section

open scoped NamePattern.Standard

theorem isValid_usual : NamePattern.IsValid Settings.usual.namePattern := by
  have hok : (NamePattern.compile Settings.usual.namePattern).isOk = true := by decide +kernel
  rw [NamePattern.IsValid]
  cases hcompile : NamePattern.compile Settings.usual.namePattern with
  | error e =>
    rw [hcompile] at hok
    cases hok
  | ok isMatch => exact ⟨isMatch, rfl⟩

/-- Of the two queries the first has its set, and the second has none. -/
theorem analyseFile_accounts_claimedTwice :
    NamePattern.IsValid Settings.usual.namePattern ∧
      ∃ a parts, claimedTwicePackage.analyseFile Settings.usual claimedTwice = .ok a ∧
        Accounts claimedTwicePackage Settings.usual claimedTwice parts a.result ∧
        parts.map (fun part => part.query.name) = ["A_QUERY", "AQuery"] ∧
        a.result.wanted.map ParamSet.typeName = ["AQueryParams"] := by
  obtain ⟨a, parts, ha, haccounts⟩ :=
    analyseFile_accounts claimedTwicePackage Settings.usual claimedTwice isValid_usual
  refine ⟨isValid_usual, a, parts, ha, haccounts, ?_, ?_⟩
  · have hnames : (QueryConstant.discover Settings.usual.namePattern claimedTwice.statements).map
        (List.map QueryConstant.name) = .ok ["A_QUERY", "AQuery"] := by
      decide +kernel
    rw [haccounts.discovered] at hnames
    simpa [Except.map, Function.comp_def] using hnames
  · have hwanted : (claimedTwicePackage.analyseFile Settings.usual claimedTwice).map
        (fun a => a.result.wanted.map ParamSet.typeName) = .ok ["AQueryParams"] := by
      decide +kernel
    rw [ha] at hwanted
    exact Except.ok.inj hwanted

end

end Package

end TypedQueries
