import Mathlib.Data.List.Basic
import TypedQueries.Proofs.Completion
import TypedQueries.Proofs.Evaluation
import TypedQueries.Proofs.Rebinding

/-!
# Queries as others see them

A query is analysed from the expression of its own assignment, and other constants see it through
the index of its module. The two come to the same text when this assignment is the only one that
gives the name a value. A name with several values is no constant for the index, although parameters
are generated for it: a reference to it has the text of an import or none.
-/

namespace TypedQueries

open Source

namespace DefinitionIndex

def valuesOf (ss : List Statement) (name : Text) : List Expr :=
  ((ss.flatMap fun s => givenValues s.kind).filter fun g => g.1 = name).map Prod.snd

theorem mem_valuesOf {ss : List Statement} {n : Text} {e : Expr} :
    e ∈ valuesOf ss n ↔ (n, e) ∈ ss.flatMap fun s => givenValues s.kind := by
  rw [valuesOf, List.mem_map]
  constructor
  · rintro ⟨⟨_, _⟩, hg, rfl⟩
    obtain ⟨hmem, hname⟩ := List.mem_filter.1 hg
    rwa [← of_decide_eq_true hname]
  · intro h
    exact ⟨(n, e), List.mem_filter.2 ⟨h, decide_eq_true rfl⟩, rfl⟩

theorem length_valuesOf (ss : List Statement) (n : Text) :
    (valuesOf ss n).length = timesValued ss n := by
  rw [valuesOf, List.length_map, timesValued, ← map_fst_givenValues, List.count, List.countP_map,
    ← List.countP_eq_length_filter]
  exact List.countP_congr fun _ _ => by simp

/-- The value of a name in an index is the one value that the statements give it. -/
theorem get?_values_iff {module : Text} {isPackage : Bool} {ss : List Statement} {n : Text}
    {e : Expr} :
    (ofStatements module isPackage ss).values.get? n = some e ↔ valuesOf ss n = [e] := by
  have hvalue {e : Expr} (h : (ofStatements module isPackage ss).values.get? n = some e) :
      valuesOf ss n = [e] := by
    have hcontains : (ofStatements module isPackage ss).values.contains n = true := by
      rw [Table.contains, h]
      rfl
    have hlength : (valuesOf ss n).length = 1 := by
      rw [length_valuesOf]
      exact contains_values_iff.1 hcontains
    have hmem : e ∈ valuesOf ss n := by
      rw [mem_valuesOf, ← assigned_statements module isPackage]
      rw [ofStatements, values_ofBindings] at h
      exact (List.mem_filter.1 (Table.mem_ofList (Table.mem_of_get? h))).1
    obtain ⟨e', he'⟩ := List.length_eq_one_iff.1 hlength
    rw [he'] at hmem ⊢
    rw [List.mem_singleton.1 hmem]
  refine ⟨hvalue, fun h => ?_⟩
  have hcontains : (ofStatements module isPackage ss).values.contains n = true := by
    rw [contains_values_iff, ← length_valuesOf, h]
    rfl
  obtain ⟨e', he'⟩ := Option.isSome_iff_exists.1 hcontains
  rw [he', ← List.singleton_inj.1 ((hvalue he').symm.trans h)]

/-! ### Discovered assignments -/

theorem eq_of_ofAssigned {e e' : Expr} (h : ofAssigned e = .value e') : e' = e := by
  unfold ofAssigned at h
  split at h
  · cases h
  · split at h
    · cases h
    · exact (Binding.value.inj h).symm

theorem eq_of_ofAnnotated {declared e e' : Expr} (h : ofAnnotated declared e = .value e') :
    e' = e := by
  unfold ofAnnotated at h
  split at h
  · cases h
  · split at h
    · cases h
    · exact (Binding.value.inj h).symm

theorem assignment?_of_candidate {k : StatementKind} {q : QueryConstant}
    (h : q ∈ QueryConstant.candidates k) :
    ∃ targets b, assignment? k = some (targets, b) ∧ q.name ∈ targets.filterMap targetName? ∧
      ∀ e, b = .value e → e = q.value := by
  unfold QueryConstant.candidates at h
  split at h
  · rename_i targets value
    obtain ⟨t, ht, hq⟩ := List.mem_filterMap.1 h
    cases t with
    | name w start =>
      cases hq
      exact ⟨targets, _, rfl, List.mem_filterMap.2 ⟨_, ht, rfl⟩, fun e he => eq_of_ofAssigned he⟩
    | _ => cases hq
  · rename_i w start declared value
    obtain rfl := List.mem_singleton.1 h
    exact ⟨_, _, rfl, List.mem_singleton_self w, fun e he => eq_of_ofAnnotated he⟩
  · cases h

theorem givenValues_of_candidate {k : StatementKind} {q : QueryConstant}
    (h : q ∈ QueryConstant.candidates k) (hvalued : q.name ∉ otherwiseBound k) :
    (q.name, q.value) ∈ givenValues k := by
  obtain ⟨targets, b, hk, hname, hvalue⟩ := assignment?_of_candidate h
  cases b with
  | value e =>
    rw [givenValues, hk, hvalue e rfl]
    exact List.mem_map_of_mem hname
  | _ =>
    rw [otherwiseBound, hk, (of_assignment? hk).1] at hvalued
    obtain ⟨t, ht, hw⟩ := List.mem_filterMap.1 hname
    exact absurd (List.mem_flatMap.2 ⟨t, ht, mem_names hw⟩) hvalued

/-- When every statement that binds the name of a query gives it a value, the value that the query
is analysed from is among them. -/
theorem mem_valuesOf_of_candidate {ss : List Statement} {q : QueryConstant}
    (h : ∃ s ∈ ss, q ∈ QueryConstant.candidates s.kind) (honly : OnlyValued ss q.name) :
    q.value ∈ valuesOf ss q.name := by
  obtain ⟨s, hs, hq⟩ := h
  exact mem_valuesOf.2 (List.mem_flatMap.2 ⟨s, hs, givenValues_of_candidate hq (honly s hs)⟩)

end DefinitionIndex

namespace Package

open DefinitionIndex

/-! ### What a reference sees -/

variable {p : Package} {text : Text}

/-- Whether a text is what every reference to a name comes to: in the module of the name, where the
name is imported, and where its module is. -/
structure SeenAs (p : Package) (k : Key) (text : Text) : Prop where
  own : ∀ start, (p.fold [] k.module (.name k.name start)).value = some text
  imported : ∀ module w start, p.definition? ⟨module, w⟩ = some (.member k) →
    (p.fold [] module (.name w start)).value = some text
  qualified : ∀ module w start, p.importedModule? module w = some k.module →
    (p.fold [] module (.attribute (.name w start) k.name)).value = some text

theorem Eval.moved {module w : Text} {start : Position} (h : p.Eval module (.name w start) text)
    (start' : Position) : p.Eval module (.name w start') text := by
  cases h with
  | value hindex hvalue he => exact .value hindex hvalue he
  | member hindex hvalue himport hloaded he => exact .member hindex hvalue himport hloaded he

theorem eval_name_iff {module w : Text} {start : Position} :
    p.Eval module (.name w start) text ↔
      (∃ e, p.definition? ⟨module, w⟩ = some (.value e) ∧ p.Eval module e text) ∨
        ∃ k, p.definition? ⟨module, w⟩ = some (.member k) ∧
          p.Eval k.module (.name k.name start) text := by
  constructor
  · intro h
    cases h with
    | value hindex hvalue he =>
      exact .inl ⟨_, definition?_eq_value_iff.2 ⟨_, hindex, hvalue⟩, he⟩
    | @member _ _ target member _ _ _ _ hindex hvalue himport hloaded he =>
      exact .inr ⟨⟨target, member⟩,
        definition?_eq_member_iff.2 ⟨_, hindex, hvalue, himport, hloaded⟩, he.moved start⟩
  · rintro (⟨e, hdef, he⟩ | ⟨k, hdef, he⟩)
    · obtain ⟨_, hindex, hvalue⟩ := definition?_eq_value_iff.1 hdef
      exact .value hindex hvalue he
    · obtain ⟨_, hindex, hvalue, himport, hloaded⟩ := definition?_eq_member_iff.1 hdef
      exact .member hindex hvalue himport hloaded he

theorem seenAs_iff {k : Key} (start : Position) :
    p.SeenAs k text ↔ p.Eval k.module (.name k.name start) text := by
  refine ⟨fun h => fold_eq_some_iff.1 (h.own start), fun h => ?_⟩
  have hany : ∀ start, p.Eval k.module (.name k.name start) text := h.moved
  refine ⟨fun start => fold_eq_some_iff.2 (hany start), fun module w start hdef => ?_,
    fun module w start hmodule => ?_⟩
  · exact fold_eq_some_iff.2 (eval_name_iff.2 (.inr ⟨k, hdef, hany start⟩))
  · obtain ⟨idx, hindex, t, himport, hloaded, hpath⟩ := importedModule?_eq_some_iff.1 hmodule
    rw [← hpath] at hany
    exact fold_eq_some_iff.2 (.qualified hindex himport hloaded (hany start))

/-! ### Queries -/

/-- Whether a set is made of the directives in the text of a query constant of a file. -/
structure BuiltFrom [NameMatcher] (p : Package) (s : Settings) (file : SourceFile)
    (q : QueryConstant) (text : Text) (set : ParamSet) : Prop where
  discovered : ∃ queries,
    QueryConstant.discover s.namePattern file.statements = .ok queries ∧ q ∈ queries
  folds : (p.fold [⟨file.module, q.name⟩] file.module q.value).value = some text
  built : (ParamSet.ofDirectives (p.resolver file.module) q.name s.typeSuffix
    (Template.directives text)).result = .ok (some set)

variable {s : Settings} {file : SourceFile}

theorem BuiltFrom.candidate [NameMatcher] {q : QueryConstant} {set : ParamSet}
    (h : p.BuiltFrom s file q text set) :
    ∃ st ∈ file.statements, q ∈ QueryConstant.candidates st.kind := by
  obtain ⟨queries, hqueries, hq⟩ := h.discovered
  exact List.mem_flatMap.1 (mem_of_filterM hqueries hq)

theorem exists_builtFrom [NameMatcher] {a : Analysed} (h : p.analyseFile s file = .ok a)
    {set : ParamSet} (hset : set ∈ a.result.wanted) : ∃ q text, p.BuiltFrom s file q text set := by
  obtain ⟨queries, hqueries, q, hq, houtcome⟩ := exists_query_of_mem_wanted h hset
  obtain ⟨text, htext, hbuilt⟩ := built_of_analyseQuery houtcome
  exact ⟨q, text, ⟨queries, hqueries, hq⟩, htext, hbuilt⟩

section File

variable (hfile : p.files.get? file.module = some file)

include hfile

theorem definition?_eq_value_iff_valuesOf {n : Text} {e : Expr} :
    p.definition? ⟨file.module, n⟩ = some (.value e) ↔ valuesOf file.statements n = [e] := by
  rw [definition?_eq_value_iff, ← get?_values_iff]
  simp only [index?_of_get? hfile, Option.some.injEq, exists_eq_left']
  rfl

theorem definition?_eq_member_iff_valuesOf {n : Text} {k : Key} :
    p.definition? ⟨file.module, n⟩ = some (.member k) ↔
      timesValued file.statements n ≠ 1 ∧
        file.index.imports.get? n = some ⟨k.module, some k.name⟩ ∧ p.isLoaded k.module = true := by
  have hnone : file.index.values.get? n = none ↔ timesValued file.statements n ≠ 1 := by
    rw [← Option.not_isSome_iff_eq_none, ← Table.contains, SourceFile.index, contains_values_iff]
  rw [definition?_eq_member_iff]
  simp only [index?_of_get? hfile, Option.some.injEq, exists_eq_left', hnone]

/-- A reference to a query whose set is generated comes to the text that the set was made of exactly
if the name is given one value and this has the text, or else if the name is imported and what it is
imported as comes to the text. So it does when the value is the one that the query was analysed
from. When every statement that binds the name gives it a value, it does exactly if the name is
bound once. -/
theorem query_seenAs_iff [NameMatcher] {a : Analysed} (ha : p.analyseFile s file = .ok a) :
    (∀ set ∈ a.result.wanted, ∃ q text, p.BuiltFrom s file q text set) ∧
    ∀ q text set, p.BuiltFrom s file q text set →
      (valuesOf file.statements q.name = [q.value] → p.SeenAs ⟨file.module, q.name⟩ text) ∧
      (p.SeenAs ⟨file.module, q.name⟩ text ↔
        (∃ e, valuesOf file.statements q.name = [e] ∧ p.Eval file.module e text) ∨
        (timesValued file.statements q.name ≠ 1 ∧ ∃ k : Key,
          file.index.imports.get? q.name = some ⟨k.module, some k.name⟩ ∧
          p.isLoaded k.module = true ∧ p.SeenAs k text)) ∧
      (OnlyValued file.statements q.name →
        (p.SeenAs ⟨file.module, q.name⟩ text ↔ timesBound file.statements q.name = 1)) := by
  refine ⟨fun set hset => exists_builtFrom ha hset, fun q text set hbuilt => ?_⟩
  have hiff : p.SeenAs ⟨file.module, q.name⟩ text ↔
      (∃ e, valuesOf file.statements q.name = [e] ∧ p.Eval file.module e text) ∨
      (timesValued file.statements q.name ≠ 1 ∧ ∃ k : Key,
        file.index.imports.get? q.name = some ⟨k.module, some k.name⟩ ∧
        p.isLoaded k.module = true ∧ p.SeenAs k text) := by
    rw [seenAs_iff q.start, eval_name_iff]
    simp only [definition?_eq_value_iff_valuesOf hfile, definition?_eq_member_iff_valuesOf hfile,
      ← seenAs_iff q.start, and_assoc, exists_and_left]
  have honce : valuesOf file.statements q.name = [q.value] →
      p.SeenAs ⟨file.module, q.name⟩ text := fun h =>
    hiff.2 (.inl ⟨q.value, h, eval_of_fold.1 _ _ _ _ hbuilt.folds⟩)
  refine ⟨honce, hiff, fun honly => ?_⟩
  rw [timesBound_eq_iff.2 honly, ← length_valuesOf]
  constructor
  · intro h
    rcases hiff.1 h with ⟨e, hvalues, _⟩ | ⟨_, k, himport, _⟩
    · rw [hvalues]
      rfl
    · -- an import would bind the name otherwise
      have himported : file.index.imports.contains q.name = true := by
        rw [Table.contains, himport]
        rfl
      exact absurd honly (not_onlyValued_of_import himported)
  · intro hlength
    obtain ⟨e, he⟩ := List.length_eq_one_iff.1 hlength
    have hmem := mem_valuesOf_of_candidate hbuilt.candidate honly
    rw [he] at hmem
    rw [List.mem_singleton.1 hmem] at honce
    exact honce he

end File

def parameterText : Text := "\x7b\x7ba : int\x7d\x7d"

def parameterQuery : QueryConstant := ⟨"A_QUERY", ⟨1, 0⟩, .text parameterText⟩

def parameterSet : ParamSet := ⟨"AQueryParams", [⟨"a", "int", [⟨0, "%d"⟩]⟩]⟩

/-- A file with the query and a further assignment to a name. -/
def queryThen (name : Text) : SourceFile where
  path := ⟨.root, ["app", "q.py"]⟩
  module := "app.q"
  statements :=
    [⟨.assign [.name parameterQuery.name parameterQuery.start] parameterQuery.value, 1⟩,
     ⟨.assign [.name name ⟨2, 0⟩] (.text "SELECT 1"), 2⟩]

def queryThenPackage (name : Text) : Package := ofFiles ⟨.root, ["app"]⟩ "app" [queryThen name]

section

open scoped NamePattern.Standard

/-- When another name is assigned, a reference to the query has the text that its parameters were
generated for. -/
theorem query_seenAs_assigned_once :
    (queryThenPackage "PART").files.get? "app.q" = some (queryThen "PART") ∧
      (∃ a, (queryThenPackage "PART").analyseFile Settings.usual (queryThen "PART") = .ok a ∧
        a.result.wanted = [parameterSet]) ∧
      ((queryThenPackage "PART").fold [] "app.q" (.name "A_QUERY" ⟨2, 7⟩)).value =
        some parameterText := by
  have hfile : (queryThenPackage "PART").files.get? "app.q" = some (queryThen "PART") := rfl
  have hwanted : ((queryThenPackage "PART").analyseFile Settings.usual (queryThen "PART")).map
      (fun a => a.result.wanted) = .ok [parameterSet] := by
    decide +kernel
  obtain ⟨a, ha, hset⟩ := exists_of_map hwanted
  obtain ⟨isMatch, hcompile⟩ := isValid_usual
  have hmatches : isMatch parameterQuery.name = true := by
    have hname : NamePattern.isQueryName Settings.usual.namePattern parameterQuery.name =
        .ok true := by decide +kernel
    rw [NamePattern.isQueryName, hcompile] at hname
    exact Except.ok.inj hname
  have hdiscovered : ∃ qs, QueryConstant.discover Settings.usual.namePattern
      (queryThen "PART").statements = .ok qs ∧ parameterQuery ∈ qs :=
    ⟨_, discover_eq hcompile _, List.mem_filter.2 ⟨List.mem_cons_self, hmatches⟩⟩
  have hbuilt : (queryThenPackage "PART").BuiltFrom Settings.usual (queryThen "PART") parameterQuery
      parameterText parameterSet :=
    ⟨hdiscovered, fold_text_value .., by decide +kernel⟩
  obtain ⟨_, _, hiff⟩ := (query_seenAs_iff hfile ha).2 _ _ _ hbuilt
  exact ⟨hfile, ⟨a, ha, hset⟩, ((hiff (by decide)).2 (by decide)).own ⟨2, 7⟩⟩

/-- When the name of the query is assigned again, its parameters are generated all the same, but a
reference to it has no text. -/
theorem query_not_seenAs_assigned_twice :
    (queryThenPackage "A_QUERY").files.get? "app.q" = some (queryThen "A_QUERY") ∧
      ((queryThenPackage "A_QUERY").analyseFile Settings.usual (queryThen "A_QUERY")).map
        (fun a => (a.result.wanted, a.result.diagnostics.length)) = .ok ([parameterSet], 0) ∧
      ∀ start,
        ((queryThenPackage "A_QUERY").fold [] "app.q" (.name "A_QUERY" start)).value = none := by
  have hfile : (queryThenPackage "A_QUERY").files.get? "app.q" = some (queryThen "A_QUERY") := rfl
  refine ⟨hfile, by decide +kernel, fun start => ?_⟩
  rw [fold_name]
  exact foldName_value_eq_none (definition?_eq_none hfile (by decide) (by decide)) []

end

end Package

end TypedQueries
