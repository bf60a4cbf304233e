import TypedQueries.Proofs.Indexing
import TypedQueries.Proofs.References

/-!
# Names that are bound again

An index counts how often a name is given a value. A statement may bind a name in other ways:
as a part of a pattern, as a type, with an operator, by an import or by a definition. These the
count leaves out, so a name with a value in the index is bound once exactly if no statement binds
it in such a way.
-/

namespace TypedQueries

open Source

namespace DefinitionIndex

/-! ### What a statement binds -/

/-- The names that a statement binds, as often as it binds them. A declaration without a value
binds none, and the names that an import of all names brings are not known. -/
def boundNames : StatementKind → List Text
  | .assign targets _ => targets.flatMap Target.names
  | .annotated target _ (some _) => target.names
  | .annotated _ _ none => []
  | .augmented target => target.names
  | .importModules modules => modules.map fun m => m.boundAs.getD (topName m.path)
  | .importNames _ _ names => names.map fun n => n.boundAs.getD n.name
  | .classDefinition name _ => [name]
  | .functionDefinition name => [name]
  | .expression _ => []
  | .other => []

/-- How often the statements of a module bind a name. -/
def timesBound (ss : List Statement) (name : Text) : Nat :=
  (ss.flatMap fun s => boundNames s.kind).count name

/-- The targets of an assignment with or without an annotation, and what it binds a name to. -/
def assignment? : StatementKind → Option (List Target × Binding)
  | .assign targets e => some (targets, ofAssigned e)
  | .annotated target declared (some e) => some ([target], ofAnnotated declared e)
  | _ => none

def patternNames : Target → List Text
  | .pattern ns => ns
  | _ => []

/-- The names that a statement gives a value, which are targets by themselves. -/
def valuedNames (k : StatementKind) : List Text :=
  match assignment? k with
  | some (targets, .value _) => targets.filterMap targetName?
  | _ => []

def givenValues (k : StatementKind) : List (Text × Expr) :=
  match assignment? k with
  | some (targets, .value e) => (targets.filterMap targetName?).map fun w => (w, e)
  | _ => []

/-- The names that a statement binds without giving them a value. The parts of a pattern are among
them, because the value of an assignment is not the value of its parts. -/
def otherwiseBound (k : StatementKind) : List Text :=
  match assignment? k with
  | some (targets, .value _) => targets.flatMap patternNames
  | _ => boundNames k

/-- How often the statements of a module give a name a value. -/
def timesValued (ss : List Statement) (name : Text) : Nat :=
  (ss.flatMap fun s => valuedNames s.kind).count name

/-- No statement of a module binds a name without giving it a value. -/
def OnlyValued (ss : List Statement) (name : Text) : Prop :=
  ∀ s ∈ ss, name ∉ otherwiseBound s.kind

instance (ss : List Statement) (name : Text) : Decidable (OnlyValued ss name) :=
  inferInstanceAs (Decidable (∀ s ∈ ss, name ∉ otherwiseBound s.kind))

/-- An assignment binds the names of its targets, and the index takes those that are targets by
themselves. -/
theorem of_assignment? {k : StatementKind} {targets : List Target} {b : Binding}
    (h : assignment? k = some (targets, b)) :
    boundNames k = targets.flatMap Target.names ∧
      ∀ module isPackage,
        bindings module isPackage k = (targets.filterMap targetName?).map fun w => (w, b) := by
  unfold assignment? at h
  split at h
  · obtain ⟨rfl, rfl⟩ := Prod.mk.inj (Option.some.inj h)
    exact ⟨rfl, fun _ _ => rfl⟩
  · rename_i target declared e
    obtain ⟨rfl, rfl⟩ := Prod.mk.inj (Option.some.inj h)
    refine ⟨(List.flatMap_singleton _ _).symm, fun _ _ => ?_⟩
    rw [bindings]
    cases hw : targetName? target <;> simp [hw]
  · cases h

theorem mem_names {t : Target} {w : Text} (h : targetName? t = some w) : w ∈ t.names := by
  cases t with
  | name v start => exact List.mem_singleton.2 (Option.some.inj h).symm
  | place => cases h
  | pattern ns => cases h

theorem count_names (t : Target) (n : Text) :
    t.names.count n = (targetName? t).toList.count n + (patternNames t).count n := by
  cases t <;> simp [Target.names, targetName?, patternNames]

theorem count_flatMap_names (targets : List Target) (n : Text) :
    (targets.flatMap Target.names).count n =
      (targets.filterMap targetName?).count n + (targets.flatMap patternNames).count n := by
  induction targets with
  | nil => rfl
  | cons t targets ih =>
    have hhead : ((t :: targets).filterMap targetName?).count n =
        (targetName? t).toList.count n + (targets.filterMap targetName?).count n := by
      cases h : targetName? t <;> simp [h, List.count_cons, Nat.add_comm]
    rw [List.flatMap_cons, List.flatMap_cons, List.count_append, List.count_append, ih, hhead,
      count_names]
    omega

theorem count_boundNames (k : StatementKind) (n : Text) :
    (boundNames k).count n = (valuedNames k).count n + (otherwiseBound k).count n := by
  rw [valuedNames, otherwiseBound]
  split
  · rename_i targets e h
    rw [(of_assignment? h).1, count_flatMap_names]
  · simp

theorem timesBound_eq (ss : List Statement) (n : Text) :
    timesBound ss n = timesValued ss n + (ss.flatMap fun s => otherwiseBound s.kind).count n := by
  rw [timesBound, timesValued]
  induction ss with
  | nil => rfl
  | cons s ss ih =>
    simp only [List.flatMap_cons, List.count_append, ih, count_boundNames]
    omega

theorem timesBound_eq_iff {ss : List Statement} {n : Text} :
    timesBound ss n = timesValued ss n ↔ OnlyValued ss n := by
  have hnone : (ss.flatMap fun s => otherwiseBound s.kind).count n = 0 ↔ OnlyValued ss n := by
    rw [List.count_eq_zero]
    simp [OnlyValued]
  rw [← hnone, timesBound_eq]
  omega

/-! ### What the index takes up -/

theorem mem_boundNames {module : Text} {isPackage : Bool} {k : StatementKind} {n : Text}
    {b : Binding} (h : (n, b) ∈ bindings module isPackage k) : n ∈ boundNames k := by
  cases hk : assignment? k with
  | some a =>
    obtain ⟨targets, b'⟩ := a
    rw [(of_assignment? hk).2] at h
    obtain ⟨w, hw, heq⟩ := List.mem_map.1 h
    obtain ⟨t, ht, hname⟩ := List.mem_filterMap.1 hw
    rw [(of_assignment? hk).1]
    refine List.mem_flatMap.2 ⟨t, ht, ?_⟩
    rw [← (Prod.mk.inj heq).1]
    exact mem_names hname
  | none =>
    cases k with
    | importModules modules =>
      obtain ⟨m, hm, heq⟩ := List.mem_map.1 h
      refine List.mem_map.2 ⟨m, hm, ?_⟩
      cases hb : m.boundAs <;> rw [hb] at heq <;> exact (Prod.mk.inj heq).1
    | importNames level source names =>
      obtain ⟨m, hm, heq⟩ := List.mem_map.1 h
      exact List.mem_map.2 ⟨m, hm, (Prod.mk.inj heq).1⟩
    | classDefinition name bases =>
      exact List.mem_singleton.2 (Prod.mk.inj (List.mem_singleton.1 h)).1
    | functionDefinition name =>
      exact List.mem_singleton.2 (Prod.mk.inj (List.mem_singleton.1 h)).1
    | assign targets e => cases hk
    | annotated target declared value =>
      cases value with
      | none => cases h
      | some e => cases hk
    | _ => cases h

/-- What the index takes from a statement other than as a value is bound otherwise. -/
theorem mem_otherwiseBound {module : Text} {isPackage : Bool} {k : StatementKind} {n : Text}
    {b : Binding} (h : (n, b) ∈ bindings module isPackage k) (hb : ∀ e, b ≠ .value e) :
    n ∈ otherwiseBound k := by
  rw [otherwiseBound]
  split
  · rename_i targets e hk
    rw [(of_assignment? hk).2] at h
    obtain ⟨_, _, heq⟩ := List.mem_map.1 h
    exact absurd (Prod.mk.inj heq).2.symm (hb e)
  · exact mem_boundNames h

theorem assigned_bindings (module : Text) (isPackage : Bool) (k : StatementKind) :
    assigned (bindings module isPackage k) = givenValues k := by
  cases hk : assignment? k with
  | some a =>
    obtain ⟨targets, b⟩ := a
    rw [(of_assignment? hk).2, givenValues, hk, assigned, List.filterMap_map]
    cases b with
    | value e => exact congrFun List.filterMap_eq_map _
    | _ => simp
  | none =>
    rw [givenValues, hk]
    cases k with
    | assign targets e => cases hk
    | annotated target declared value =>
      cases value with
      | none => rfl
      | some e => cases hk
    | importModules modules =>
      simp only [bindings, assigned, List.filterMap_map, List.filterMap_eq_nil_iff]
      intro m _
      cases hb : m.boundAs <;> simp [hb]
    | importNames level source names => simp [bindings, assigned]
    | _ => rfl

theorem assigned_statements (module : Text) (isPackage : Bool) (ss : List Statement) :
    assigned (ss.flatMap fun s => bindings module isPackage s.kind) =
      ss.flatMap fun s => givenValues s.kind := by
  rw [assigned, List.filterMap_flatMap]
  exact congrArg ss.flatMap (funext fun s => assigned_bindings module isPackage s.kind)

theorem map_fst_givenValues (ss : List Statement) :
    (ss.flatMap fun s => givenValues s.kind).map Prod.fst =
      ss.flatMap fun s => valuedNames s.kind := by
  rw [List.map_flatMap]
  refine congrArg ss.flatMap (funext fun s => ?_)
  rw [givenValues, valuedNames]
  split
  · rw [List.map_map]
    exact List.map_id'' (fun _ => rfl) _
  · rfl

theorem timesAssigned_eq (module : Text) (isPackage : Bool) (ss : List Statement) (n : Text) :
    timesAssigned (ss.flatMap fun s => bindings module isPackage s.kind) n = timesValued ss n := by
  rw [timesValued, ← map_fst_givenValues, timesAssigned, assigned_statements, List.count,
    List.countP_map]
  exact List.countP_congr fun _ _ => by simp

theorem contains_values_iff {module : Text} {isPackage : Bool} {ss : List Statement} {n : Text} :
    (ofStatements module isPackage ss).values.contains n = true ↔ timesValued ss n = 1 := by
  rw [← timesAssigned_eq module isPackage, ofStatements, values_ofBindings, Table.contains_ofList]
  generalize (ss.flatMap fun s => bindings module isPackage s.kind) = bs
  constructor
  · intro h
    obtain ⟨⟨_, e⟩, he, rfl⟩ := List.mem_map.1 h
    simpa using (List.mem_filter.1 he).2
  · intro h
    obtain ⟨⟨_, e⟩, he, heq⟩ := List.countP_pos_iff.1 (show 0 < timesAssigned bs n by omega)
    obtain rfl : _ = n := by simpa using heq
    exact List.mem_map.2 ⟨_, List.mem_filter.2 ⟨he, by simpa using h⟩, rfl⟩

theorem not_onlyValued_of_import {module : Text} {isPackage : Bool} {ss : List Statement} {n : Text}
    (h : (ofStatements module isPackage ss).imports.contains n = true) : ¬OnlyValued ss n := by
  rw [ofStatements, imports_ofBindings, Table.contains_ofList] at h
  obtain ⟨⟨_, t⟩, ht, rfl⟩ := List.mem_map.1 h
  obtain ⟨⟨w, b⟩, hb, heq⟩ := List.mem_filterMap.1 ht
  obtain ⟨s, hs, hbs⟩ := List.mem_flatMap.1 hb
  cases b with
  | imported t' =>
    cases heq
    exact fun hall => hall s hs (mem_otherwiseBound hbs (by simp))
  | _ => cases heq

end DefinitionIndex

namespace Package

open DefinitionIndex

variable {p : Package} {module n : Text} {f : SourceFile}

theorem index?_of_get? (hf : p.files.get? module = some f) : p.index? module = some f.index := by
  rw [index?, hf]
  rfl

/-- A name that is not given exactly one value and is not imported either has no definition. -/
theorem definition?_eq_none (hf : p.files.get? module = some f)
    (hvalued : timesValued f.statements n ≠ 1) (himported : f.index.imports.contains n ≠ true) :
    p.definition? ⟨module, n⟩ = none := by
  have hvalue : f.index.values.get? n = none := by
    rw [← Option.not_isSome_iff_eq_none]
    exact fun h => hvalued (contains_values_iff.1 h)
  have himport : f.index.imports.get? n = none := by
    rw [← Option.not_isSome_iff_eq_none]
    exact himported
  rw [definition?, index?_of_get? hf]
  simp [hvalue, himport]

theorem foldName_value_eq_none {k : Key} (hk : p.definition? k = none) (inProgress : List Key) :
    (p.foldName inProgress k).value = none := by
  by_cases hprogress : k ∈ inProgress
  · rw [foldName_eq, if_pos hprogress]
    split <;> rfl
  · rw [foldName_value hprogress, hk]

/-- A name has a value in the index of its module exactly if it is given a value once, whatever else
binds it. Such a name is bound once exactly if no statement binds it otherwise. A name that no
statement binds otherwise has no text when it is bound several times, or never. -/
theorem values_bound_once_iff (hf : p.files.get? module = some f) :
    (f.index.values.contains n = true ↔ timesValued f.statements n = 1) ∧
      (f.index.values.contains n = true →
        (timesBound f.statements n = 1 ↔ OnlyValued f.statements n)) ∧
      (OnlyValued f.statements n → timesBound f.statements n ≠ 1 →
        ∀ inProgress, (p.foldName inProgress ⟨module, n⟩).value = none) := by
  refine ⟨contains_values_iff, fun hvalue => ?_, fun honly hbound => ?_⟩
  · rw [← timesBound_eq_iff, contains_values_iff.1 hvalue]
  · rw [timesBound_eq_iff.2 honly] at hbound
    have himported : f.index.imports.contains n ≠ true := fun h => not_onlyValued_of_import h honly
    exact foldName_value_eq_none (definition?_eq_none hf hbound himported)

def partQuery (first second : StatementKind) : SourceFile where
  path := ⟨.root, ["app", "q.py"]⟩
  module := "app.q"
  statements :=
    [⟨first, 1⟩, ⟨second, 2⟩, ⟨.assign [.name "X_QUERY" ⟨3, 0⟩] (.name "PART" ⟨3, 10⟩), 3⟩]

def partPackage (first second : StatementKind) : Package :=
  ofFiles ⟨.root, ["app"]⟩ "app" [partQuery first second]

def assignPart (t : Text) : StatementKind := .assign [.name "PART" ⟨1, 0⟩] (.text t)

/-- After two assignments to the part, the query is a constant and the part is not. -/
theorem values_bound_once_assigned_twice :
    let f := partQuery (assignPart "a") (assignPart "b")
    let p := partPackage (assignPart "a") (assignPart "b")
    (f.index.values.contains "X_QUERY" = true ∧ timesBound f.statements "X_QUERY" = 1) ∧
      timesBound f.statements "PART" = 2 ∧
      (p.foldName [] ⟨"app.q", "PART"⟩).value = none := by
  intro f p
  have hfile : p.files.get? "app.q" = some f := rfl
  have hquery : f.index.values.contains "X_QUERY" = true :=
    (values_bound_once_iff hfile).1.2 (by decide)
  have hpart : timesBound f.statements "PART" = 2 := by decide
  refine ⟨⟨hquery, ((values_bound_once_iff hfile).2.1 hquery).2 (by decide)⟩, hpart, ?_⟩
  exact (values_bound_once_iff hfile).2.2 (by decide) (by rw [hpart]; decide) []

/-- A part that is assigned and then joined with more is bound twice, but its first text is taken
for the query. -/
theorem not_values_bound_once_augmented :
    let f := partQuery (assignPart "a") (.augmented (.name "PART" ⟨2, 0⟩))
    let p := partPackage (assignPart "a") (.augmented (.name "PART" ⟨2, 0⟩))
    f.index.values.contains "PART" = true ∧ timesBound f.statements "PART" = 2 ∧
      (p.foldName [] ⟨"app.q", "PART"⟩).value = some ("a" : Text) ∧
      (p.foldName [] ⟨"app.q", "X_QUERY"⟩).value = some ("a" : Text) := by
  intro f p
  have hpart : p.definition? ⟨"app.q", "PART"⟩ = some (.value (.text "a")) := rfl
  have hquery : p.definition? ⟨"app.q", "X_QUERY"⟩ = some (.value (.name "PART" ⟨3, 10⟩)) := rfl
  refine ⟨by decide, by decide, ?_, ?_⟩
  · simp only [foldName_value List.not_mem_nil, hpart, fold]
  · rw [foldName_value List.not_mem_nil, hquery]
    simp only [fold]
    rw [foldName_value (by decide), hpart]
    simp only [fold]

end Package

end TypedQueries
