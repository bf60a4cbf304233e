import TypedQueries.Package.Analysis
import TypedQueries.Proofs.Evaluation

/-!
# Cycles that are reported

A fold reports a cycle when it meets a name whose text is being sought. The names that are being
sought lead to each other, from the query on, so such a name lies on a cycle of references, and what
meets one has no text. A name that is only met several times is not reported.
-/

namespace TypedQueries

open Source

namespace Package

/-- References where a query has those of the expression `e`, whatever its name stands for in the
index of its module. Only references that a fold follows are among them: those of an import only
where there is no value and where a loaded module is imported from. -/
def RefersWith (p : Package) (query : Key) (e : Expr) (k target : Key) : Prop :=
  if k = query then target ∈ p.mentions query.module e else p.RefersTo k target

/-- A name that the query leads to, and that leads back to itself. -/
structure OnCycle (p : Package) (query : Key) (e : Expr) (k : Key) : Prop where
  reached : Relation.TransGen (p.RefersWith query e) query k
  returns : Relation.TransGen (p.RefersWith query e) k k

/-- The names in progress are the query and names on the way from it to some targets. -/
structure LeadsTo (p : Package) (query : Key) (e : Expr) (inProgress targets : List Key) :
    Prop where
  begins : query ∈ inProgress
  leads : ∀ j ∈ inProgress, ∀ target ∈ targets,
    Relation.TransGen (p.RefersWith query e) j target

variable {p : Package} {query : Key} {e : Expr} {inProgress targets : List Key}

theorem leadsTo_query : p.LeadsTo query e [query] (p.mentions query.module e) where
  begins := List.mem_singleton_self query
  leads := by
    intro j hj target ht
    rw [List.mem_singleton.1 hj]
    exact .single (by rwa [RefersWith, if_pos rfl])

theorem LeadsTo.mono {targets' : List Key} (h : p.LeadsTo query e inProgress targets)
    (hsub : ∀ target ∈ targets', target ∈ targets) : p.LeadsTo query e inProgress targets' :=
  ⟨h.begins, fun j hj target ht => h.leads j hj target (hsub target ht)⟩

theorem LeadsTo.step {k : Key} (h : p.LeadsTo query e inProgress [k]) (hk : k ∉ inProgress)
    (ht : ∀ target ∈ targets, p.RefersTo k target) :
    p.LeadsTo query e (k :: inProgress) targets where
  begins := List.mem_cons_of_mem k h.begins
  leads := by
    have hne : k ≠ query := fun heq => hk (heq ▸ h.begins)
    have hedge : ∀ target ∈ targets, p.RefersWith query e k target := by
      intro target hmem
      rw [RefersWith, if_neg hne]
      exact ht target hmem
    intro j hj target hmem
    rcases List.mem_cons.1 hj with rfl | hj
    · exact .single (hedge target hmem)
    · exact (h.leads j hj k (List.mem_singleton_self k)).tail (hedge target hmem)

theorem LeadsTo.onCycle {k : Key} (h : p.LeadsTo query e inProgress [k]) (hk : k ∈ inProgress) :
    p.OnCycle query e k where
  reached := h.leads query h.begins k (List.mem_singleton_self k)
  returns := h.leads k hk k (List.mem_singleton_self k)

/-! ### Where a cycle is met -/

/-- A cycle that a sum meets is one that its left side meets, or one that its right side meets
after the left one has given a text. -/
theorem cyclic_of_sum {module : Text} {l r : Expr} {k : Key}
    (h : .cyclic k ∈ (p.fold inProgress module (.sum l r)).events) :
    .cyclic k ∈ (p.fold inProgress module l).events ∨
      .cyclic k ∈ (p.fold inProgress module r).events := by
  rw [fold, append] at h
  split at h
  · exact .inl h
  · exact List.mem_append.1 h

theorem cyclic_of_qualified {module w field target : Text} {start : Position} {k : Key}
    (ht : p.importedModule? module w = some target)
    (h : .cyclic k ∈ (p.fold inProgress module (.attribute (.name w start) field)).events) :
    .cyclic k ∈ (p.foldName inProgress ⟨target, field⟩).events := by
  rw [fold_qualified ht] at h
  refine (List.mem_append.1 h).resolve_left fun hconsulting => ?_
  rw [consulting] at hconsulting
  split at hconsulting <;> simp at hconsulting

theorem not_cyclic_of_unknown {module : Text} {d : Expr} {k : Key}
    (hfold : p.fold inProgress module d = ⟨none, []⟩ ∨
      p.fold inProgress module d = ⟨none, p.consulting module⟩) :
    .cyclic k ∉ (p.fold inProgress module d).events := by
  rcases hfold with hfold | hfold
  · simp [hfold]
  · rw [hfold, consulting]
    split <;> simp

theorem mem_events_entering {j k : Key} {f : Folding} (h : .cyclic k ∈ (entering j f).events) :
    .cyclic k ∈ f.events := by
  simpa [entering] using h

/-- A cycle that is met for a name is the name itself, if that is in progress, or else a cycle that
is met for its definition. -/
theorem cyclic_of_name {j k : Key} (h : .cyclic k ∈ (p.foldName inProgress j).events) :
    j ∈ inProgress ∧ k = j ∨
      j ∉ inProgress ∧
        ((∃ d, p.definition? j = some (.value d) ∧
            .cyclic k ∈ (p.fold (j :: inProgress) j.module d).events) ∨
          ∃ target, p.definition? j = some (.member target) ∧
            .cyclic k ∈ (p.foldName (j :: inProgress) target).events) := by
  rw [foldName_eq] at h
  split at h
  · have h := (List.mem_cons.1 h).resolve_left (by simp)
    split at h
    · rename_i hj
      exact .inl ⟨hj, by simpa using h⟩
    · rename_i hj
      refine .inr ⟨hj, ?_⟩
      split at h
      · cases h
      · rename_i d hdef
        exact .inl ⟨d, hdef, mem_events_entering h⟩
      · rename_i target hdef
        exact .inr ⟨target, hdef, mem_events_entering h⟩
  · cases h

theorem value_of_cyclic {p : Package} {k : Key} :
    (∀ inProgress module d, .cyclic k ∈ (p.fold inProgress module d).events →
      (p.fold inProgress module d).value = none) ∧
      ∀ inProgress j, .cyclic k ∈ (p.foldName inProgress j).events →
        (p.foldName inProgress j).value = none := by
  refine @fold_induction p
    (fun inProgress module d => .cyclic k ∈ (p.fold inProgress module d).events →
      (p.fold inProgress module d).value = none)
    (fun inProgress j => .cyclic k ∈ (p.foldName inProgress j).events →
      (p.foldName inProgress j).value = none) ?text ?sum ?name ?qualified ?unknown ?definition
  case text =>
    intro inProgress module v h
    rw [fold] at h
    cases h
  case sum =>
    intro inProgress module l r ihl ihr h
    rw [fold_sum_value]
    rcases cyclic_of_sum h with h | h
    · rw [ihl h]
      rfl
    · rw [ihr h]
      exact Option.bind_eq_none_iff.2 fun _ _ => rfl
  case name =>
    intro inProgress module w start ih h
    rw [fold_name] at h ⊢
    exact ih h
  case qualified =>
    intro inProgress module w start field target ht ih h
    rw [fold_qualified ht]
    exact ih (cyclic_of_qualified ht h)
  case unknown =>
    intro inProgress module d _ hfold h
    exact absurd h (not_cyclic_of_unknown hfold)
  case definition =>
    intro inProgress j ihvalue ihmember h
    rcases cyclic_of_name h with ⟨hj, _⟩ | ⟨hj, ⟨d, hdef, h⟩ | ⟨target, hdef, h⟩⟩
    · rw [foldName_eq, if_pos hj]
      split <;> rfl
    · rw [foldName_value hj, hdef]
      exact ihvalue d hj hdef h
    · rw [foldName_value hj, hdef]
      exact ihmember target hj hdef h

/-- As long as the names in progress lead to what is folded, each cycle that is met is one. -/
theorem onCycle_of_cyclic (p : Package) (query : Key) (e : Expr) (k : Key) :
    (∀ inProgress module d, p.LeadsTo query e inProgress (p.mentions module d) →
      .cyclic k ∈ (p.fold inProgress module d).events → p.OnCycle query e k) ∧
      ∀ inProgress j, p.LeadsTo query e inProgress [j] →
        .cyclic k ∈ (p.foldName inProgress j).events → p.OnCycle query e k := by
  refine @fold_induction p
    (fun inProgress module d => p.LeadsTo query e inProgress (p.mentions module d) →
      .cyclic k ∈ (p.fold inProgress module d).events → p.OnCycle query e k)
    (fun inProgress j => p.LeadsTo query e inProgress [j] →
      .cyclic k ∈ (p.foldName inProgress j).events → p.OnCycle query e k)
    ?text ?sum ?name ?qualified ?unknown ?definition
  case text =>
    intro inProgress module v _ h
    rw [fold] at h
    cases h
  case sum =>
    intro inProgress module l r ihl ihr hleads h
    rcases cyclic_of_sum h with h | h
    · exact ihl (hleads.mono fun _ ht => List.mem_append_left _ ht) h
    · exact ihr (hleads.mono fun _ ht => List.mem_append_right _ ht) h
  case name =>
    intro inProgress module w start ih hleads h
    rw [fold_name] at h
    exact ih hleads h
  case qualified =>
    intro inProgress module w start field target ht ih hleads h
    have hmentions : p.mentions module (.attribute (.name w start) field) = [⟨target, field⟩] := by
      simp [mentions, ht]
    rw [hmentions] at hleads
    exact ih hleads (cyclic_of_qualified ht h)
  case unknown =>
    intro inProgress module d _ hfold _ h
    exact absurd h (not_cyclic_of_unknown hfold)
  case definition =>
    intro inProgress j ihvalue ihmember hleads h
    rcases cyclic_of_name h with ⟨hj, rfl⟩ | ⟨hj, ⟨d, hdef, h⟩ | ⟨target, hdef, h⟩⟩
    · exact hleads.onCycle hj
    · exact ihvalue d hj hdef (hleads.step hj fun _ => (refersTo_of_value hdef).2) h
    · refine ihmember target hj hdef (hleads.step hj fun _ ht => ?_) h
      exact (refersTo_of_member hdef).2 (List.mem_singleton.1 ht)

/-! ### Queries -/

theorem log_eq_nil_iff {f : Folding} : f.log = [] ↔ ∀ k, .cyclic k ∉ f.events := by
  rw [Folding.log, List.filterMap_eq_nil_iff]
  constructor
  · intro h k hk
    cases h _ hk
  · intro h event hevent
    cases event with
    | cyclic k => exact absurd hevent (h k)
    | _ => rfl

/-- A reported cycle is never a false one. Each name that is reported while a query is folded lies
on a cycle of references that the query leads to, and the query has no text then. So a query that
leads to no cycle is folded without any report, however often it meets the same name. -/
theorem cyclic_on_cycle (p : Package) (query : Key) (e : Expr) :
    (∀ k, .cyclic k ∈ (p.fold [query] query.module e).events →
      p.OnCycle query e k ∧ (p.fold [query] query.module e).value = none) ∧
      ((¬∃ k, p.OnCycle query e k) → (p.fold [query] query.module e).log = []) := by
  have hcycle : ∀ k, .cyclic k ∈ (p.fold [query] query.module e).events → p.OnCycle query e k :=
    fun k => (onCycle_of_cyclic p query e k).1 [query] query.module e leadsTo_query
  refine ⟨fun k h => ⟨hcycle k h, ?_⟩, fun hno => ?_⟩
  · exact value_of_cyclic.1 [query] query.module e h
  · exact log_eq_nil_iff.2 fun k h => hno ⟨k, hcycle k h⟩

/-- A package with one module, of a query and a part. -/
def queryAndPart (query part : Expr) : Package :=
  ofFiles ⟨.root, ["app"]⟩ "app" [⟨⟨.root, ["app", "q.py"]⟩, "app.q",
    [⟨.assign [.name "A_QUERY" ⟨1, 0⟩] query, 1⟩, ⟨.assign [.name "PART" ⟨2, 0⟩] part, 2⟩]⟩]

def queryKey : Key := ⟨"app.q", "A_QUERY"⟩

def partKey : Key := ⟨"app.q", "PART"⟩

/-- The part as the query names it. -/
def partName : Expr := .name "PART" ⟨1, 10⟩

/-- The query and the part refer to each other. -/
def crossed : Package := queryAndPart partName (.name "A_QUERY" ⟨2, 7⟩)

/-- The query is the part twice. -/
def shared : Package := queryAndPart (.sum partName partName) (.text "x")

theorem cyclic_crossed :
    .cyclic queryKey ∈ (crossed.fold [queryKey] queryKey.module partName).events := by
  have hpart : crossed.definition? partKey = some (.value (.name "A_QUERY" ⟨2, 7⟩)) := rfl
  have hquery : crossed.isLoaded queryKey.module = true := by decide
  have hmodule : crossed.isLoaded partKey.module = true := hquery
  have hback : .cyclic queryKey ∈ (crossed.foldName [partKey, queryKey] queryKey).events := by
    rw [foldName_eq, if_pos hquery, if_pos (by decide)]
    simp
  have hname : crossed.fold [queryKey] queryKey.module partName =
      crossed.foldName [queryKey] partKey := fold_name ..
  rw [hname, foldName_eq, if_pos hmodule, if_neg (by decide), hpart]
  simp only [fold_name, entering]
  exact List.mem_cons_of_mem _ (List.mem_cons_of_mem _ (List.mem_append_left _ hback))

theorem not_onCycle_shared (k : Key) : ¬shared.OnCycle queryKey (.sum partName partName) k := by
  have hpart : shared.definition? partKey = some (.value (.text "x")) := rfl
  have hfirst : ∀ j, shared.RefersWith queryKey (.sum partName partName) queryKey j →
      j = partKey := by
    intro j hj
    rw [RefersWith, if_pos rfl] at hj
    simpa [partName, mentions, queryKey, partKey] using hj
  have hlast : ∀ j, ¬shared.RefersWith queryKey (.sum partName partName) partKey j := by
    intro j hj
    rw [RefersWith, if_neg (by decide), refersTo_of_value hpart] at hj
    cases hj
  have hreached : ∀ j, Relation.TransGen
      (shared.RefersWith queryKey (.sum partName partName)) queryKey j → j = partKey := by
    intro j hj
    induction hj with
    | single h => exact hfirst _ h
    | tail _ h ih => exact absurd (ih ▸ h) (hlast _)
  intro h
  obtain ⟨j, hj, _⟩ := Relation.TransGen.head'_iff.1 h.returns
  exact hlast j (hreached k h.reached ▸ hj)

/-- The query that refers to itself by way of its part is reported and has no text; the query that
is its part twice is not reported. -/
theorem cyclic_on_cycle_query_and_part :
    (.cyclic queryKey ∈ (crossed.fold [queryKey] queryKey.module partName).events ∧
      crossed.OnCycle queryKey partName queryKey ∧
      (crossed.fold [queryKey] queryKey.module partName).value = none) ∧
    (¬∃ k, shared.OnCycle queryKey (.sum partName partName) k) ∧
      (shared.fold [queryKey] queryKey.module (.sum partName partName)).log = [] := by
  have hno : ¬∃ k, shared.OnCycle queryKey (.sum partName partName) k :=
    not_exists.2 not_onCycle_shared
  exact ⟨⟨cyclic_crossed, (cyclic_on_cycle crossed queryKey partName).1 queryKey cyclic_crossed⟩,
    hno, (cyclic_on_cycle shared queryKey (.sum partName partName)).2 hno⟩

end Package

end TypedQueries
