import TypedQueries.Proofs.Convergence
import TypedQueries.Proofs.Footprint
import TypedQueries.Proofs.Occurrences
import TypedQueries.Proofs.Outcomes
import TypedQueries.Proofs.Results

/-!
# Runs that come to their end

Bringing companions up to date ends early only when there are parameter sets that cannot be
emitted. An analysis wants no such sets: each is made of the directives of a query, and these fill
all its slots. So a run over the results of an analysis decides on each companion by itself, and
what is at a path afterwards depends only on what was there and on what is settled for it.
-/

namespace TypedQueries

namespace Companion

/-! ### Parameter sets that can be emitted -/

theorem emits_of_slots {c : Companions} {wanted : List ParamSet}
    (h : ∀ p ∈ wanted, ∃ ss, slots p = .ok ss) : Emits c wanted :=
  exists_emit_of_slots h _

theorem slots_of_ofDirectives {resolve : Resolver} {queryName suffix : Text}
    {ds : List Directive} {p : ParamSet}
    (h : (ParamSet.ofDirectives resolve queryName suffix ds).result = .ok (some p)) :
    ∃ ss, slots p = .ok ss := by
  obtain ⟨us, rfl, _, _, hindex, _⟩ := ParamSet.ofDirectives_eq_some h
  exact ⟨_, (ParamSet.slots_gather hindex).2⟩

end Companion

open Companion

/-! ### What an analysis wants -/

theorem built_of_analyseQuery {p : Package} {suffix module : Text} {q : QueryConstant}
    {w : ParamSet} (h : (p.analyseQuery suffix module q).outcome = .wanted w) :
    ∃ text, (p.fold [⟨module, q.name⟩] module q.value).value = some text ∧
      (ParamSet.ofDirectives (p.resolver module) q.name suffix
        (Template.directives text)).result = .ok (some w) := by
  unfold Package.analyseQuery at h
  dsimp only at h
  split at h
  · cases h
  · rename_i text htext
    dsimp only at h
    split at h
    · cases h
    · cases h
    · rename_i hbuilt
      cases h
      exact ⟨text, htext, hbuilt⟩

theorem FileProgress.mem_wanted_add {path : Path} {f : FileProgress} {q : QueryConstant}
    {a : QueryAnalysis} {w : ParamSet × Text} (h : w ∈ (f.add path q a).wanted) :
    w ∈ f.wanted ∨ a.outcome = .wanted w.1 := by
  rw [wanted_add, List.mem_append] at h
  refine h.imp_right fun hpart => ?_
  obtain ⟨set, hset, rfl⟩ := List.mem_map.1 hpart
  exact outcome_of_mem_part hset

/-- A set that is gathered from constants was there before or is the outcome of one of them. -/
theorem FileProgress.outcome_of_mem_wanted {path : Path} {analyse : QueryConstant → QueryAnalysis}
    {queries : List QueryConstant} {f : FileProgress} {w : ParamSet × Text}
    (h : w ∈ (queries.foldl (fun f q => f.add path q (analyse q)) f).wanted) :
    w ∈ f.wanted ∨ ∃ q ∈ queries, (analyse q).outcome = .wanted w.1 := by
  induction queries generalizing f with
  | nil => exact .inl h
  | cons q queries ih =>
    rcases ih h with hw | ⟨q', hq', houtcome⟩
    · exact (mem_wanted_add hw).imp_right fun houtcome => ⟨q, List.mem_cons_self, houtcome⟩
    · exact .inr ⟨q', List.mem_cons_of_mem q hq', houtcome⟩

theorem exists_query_of_mem_wanted [NameMatcher] {p : Package} {s : Settings} {file : SourceFile}
    {a : Analysed} (h : p.analyseFile s file = .ok a) {w : ParamSet} (hw : w ∈ a.result.wanted) :
    ∃ queries, QueryConstant.discover s.namePattern file.statements = .ok queries ∧
      ∃ q ∈ queries, (p.analyseQuery s.typeSuffix file.module q).outcome = .wanted w := by
  unfold Package.analyseFile at h
  obtain ⟨queries, hqueries, h⟩ := exists_of_bind h
  cases h
  obtain ⟨e, he, rfl⟩ := List.mem_map.1 hw
  rcases FileProgress.outcome_of_mem_wanted he with hempty | houtcome
  · cases hempty
  · exact ⟨queries, hqueries, houtcome⟩

theorem slots_of_analyseFile [NameMatcher] {p : Package} {s : Settings} {file : SourceFile}
    {a : Analysed}
    (h : p.analyseFile s file = .ok a) : ∀ w ∈ a.result.wanted, ∃ ss, slots w = .ok ss := by
  intro w hw
  obtain ⟨_, _, _, _, houtcome⟩ := exists_query_of_mem_wanted h hw
  obtain ⟨_, _, hbuilt⟩ := built_of_analyseQuery houtcome
  exact slots_of_ofDirectives hbuilt

/-- What is wanted for a file of a package can be emitted, whether or not it could be loaded and
analysed. -/
theorem emits_of_mem_results [NameMatcher] {l : Loaded} {s : Settings} {targets : List Path}
    {r : FileResult} (h : r ∈ l.results s targets) (c : Companions) : Emits c r.wanted := by
  rcases List.mem_append.1 h with h | h
  · obtain ⟨a, ha, rfl⟩ := List.mem_map.1 h
    obtain ⟨f, _, rfl⟩ := List.mem_map.1 ha
    unfold Package.analyseSafely
    split
    · rename_i a hfile
      exact emits_of_slots (slots_of_analyseFile hfile)
    · exact emits_nil c
  · obtain ⟨f, _, rfl⟩ := List.mem_map.1 h
    exact emits_nil c

/-! ### One path of a run -/

namespace Companion

section Path

variable {c : Companions} {existing existing' : List Existing} {results results' : List FileResult}
  {path : Path}

theorem emits_lastWanted_of_results (hemits : ∀ r ∈ results, Emits c r.wanted) (path : Path) :
    Emits c (lastWanted results path) := by
  unfold lastWanted
  cases hlast : (resultsFor results path).getLast? with
  | none => exact emits_nil c
  | some r => exact hemits r (mem_resultsFor.1 (List.mem_of_getLast? hlast)).1

theorem becomes_of_results (hemits : ∀ r ∈ results, Emits c r.wanted) {g : Planned}
    (hg : g ∈ plan existing results) (t : FileTree) :
    ∃ node outcome, c.becomeIn t g = .ok (node, outcome) := by
  obtain ⟨_, hwanted, _⟩ := of_mem_plan hg
  have h : Emits c g.wanted := hwanted ▸ emits_lastWanted_of_results hemits g.path
  exact h.becomes t

theorem exists_summary_of_results (hemits : ∀ r ∈ results, Emits c r.wanted) (t : FileTree)
    (existing : List Existing) : ∃ summary, (c.sync t existing results).result = .ok summary := by
  rw [sync_result]
  refine exists_summary (nodup_plan existing results) fun g hg => ?_
  obtain ⟨node, outcome, hbecome⟩ := becomes_of_results hemits hg t
  exact ⟨_, hbecome⟩

/-- A path at which nothing is planned stays as it is; any other comes to what its entry does to the
tree as it was at first. -/
theorem sync_node? (hemits : ∀ r ∈ results, Emits c r.wanted) (t : FileTree)
    (existing : List Existing) (path : Path) :
    (settle existing results path = none ∧
      (c.sync t existing results).tree.node? path = t.node? path) ∨
    ∃ g outcome, settle existing results path = some g ∧ g.path = path ∧
      c.becomeIn t g = .ok ((c.sync t existing results).tree.node? path, outcome) := by
  cases hsettle : settle existing results path with
  | none =>
    refine .inl ⟨rfl, sync_node?_of_not_mem_plan c t fun hmem => ?_⟩
    obtain ⟨g, hg, rfl⟩ := List.mem_map.1 hmem
    rw [mem_plan.1 hg] at hsettle
    cases hsettle
  | some g =>
    obtain rfl : g.path = path := path_of_settle hsettle
    obtain ⟨summary, hrun⟩ := exists_summary_of_results hemits t existing
    rw [sync_result] at hrun
    obtain ⟨outcome, hbecome⟩ := (applyFrom_ok (nodup_plan existing results) hrun).1 g
      (mem_plan.2 hsettle)
    refine .inr ⟨g, outcome, rfl, rfl, ?_⟩
    rw [sync_tree]
    exact hbecome

/-- Two runs, over trees that agree on a path and on which paths are directories, leave the same at
the path when the same is settled for it. -/
theorem sync_node?_congr {t t' : FileTree} (hemits : ∀ r ∈ results, Emits c r.wanted)
    (hemits' : ∀ r ∈ results', Emits c r.wanted) (hnode : t'.node? path = t.node? path)
    (hdir : ∀ p, t'.isDirectory p = t.isDirectory p)
    (hsettle : settle existing' results' path = settle existing results path) :
    (c.sync t' existing' results').tree.node? path =
      (c.sync t existing results).tree.node? path := by
  rcases sync_node? hemits t existing path with ⟨hnone, hsame⟩ | ⟨g, outcome, hsome, rfl, hbecome⟩
  · rcases sync_node? hemits' t' existing' path with ⟨_, hsame'⟩ | ⟨g', _, hsome', _⟩
    · rw [hsame', hnode, hsame]
    · rw [hsettle, hnone] at hsome'
      cases hsome'
  · rcases sync_node? hemits' t' existing' g.path with
      ⟨hnone', _⟩ | ⟨g', outcome', hsome', _, hbecome'⟩
    · rw [hsettle, hsome] at hnone'
      cases hnone'
    · obtain rfl : g = g' := Option.some.inj (hsome.symm.trans (hsettle.symm.trans hsome'))
      rw [becomeIn_congr hnode hdir, hbecome] at hbecome'
      exact (congrArg Prod.fst (Except.ok.inj hbecome')).symm

end Path

end Companion

/-! ### Runs over a package -/

theorem isListing_of_loadCompanions [Source.Release] {t : FileTree} {ps : List Path}
    {log : List LogEntry}
    {existing : List Existing} (h : loadCompanions t ps = (log, .ok existing)) :
    IsListing t ps existing := by
  refine ⟨?_, fun path hpath _ => (paths_of_loadCompanions h).symm ▸ hpath⟩
  induction ps generalizing log existing with
  | nil =>
    cases h
    simp
  | cons p ps ih =>
    rw [loadCompanions] at h
    split at h
    · cases h
    · rename_i e entries hload
      cases hrest : loadCompanions t ps with
      | mk log' rest =>
        rw [hrest] at h
        cases rest with
        | error err => cases h
        | ok more =>
          cases h
          intro e' he'
          rcases List.mem_cons.1 he' with rfl | he'
          · exact ⟨entries, path_of_load hload ▸ hload⟩
          · exact ih hrest e' he'

def Loaded.companions (l : Loaded) (s : Settings) : Companions :=
  ⟨l.package.name, s.runtimeImport l.package.name⟩

/-- When the companions of its share can be listed, a run over a package comes to its end: it
brings them up to date with the results for its files. -/
theorem generate_of_listed [Source.Release] [NameMatcher] {t : FileTree} {share : Share}
    {log : List LogEntry}
    {existing : List Existing} (h : loadCompanions t share.companions = (log, .ok existing))
    (l : Loaded) (s : Settings) (d : Path) :
    let results := l.results s share.targets
    let sync := (l.companions s).sync t existing results
    (l.generate t s d share).tree = sync.tree ∧ ∃ summary, sync.result = .ok summary ∧
      (l.generate t s d share).result =
        .ok (l.diagnosticsFor share.targets results, summary) := by
  intro results sync
  obtain ⟨summary, hsummary⟩ : ∃ summary, sync.result = .ok summary :=
    exists_summary_of_results (fun r hr => emits_of_mem_results hr (l.companions s)) t existing
  unfold Loaded.generate
  dsimp only
  rw [h]
  refine ⟨rfl, summary, hsummary, ?_⟩
  dsimp only
  split
  · rename_i e herror
    cases herror.symm.trans hsummary
  · rename_i summary' hreturned
    obtain rfl : summary' = summary := Except.ok.inj (hreturned.symm.trans hsummary)
    rfl

end TypedQueries
