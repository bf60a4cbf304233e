import TypedQueries.Proofs.References

/-!
# The texts of constants

A relation says which text an expression has as seen from a module, with no regard to the order in
which names are looked up or to names whose texts are being sought. Folding finds this text where
there is one: the names that it gives up on lie on cycles, and what has a text depends on none.
-/

namespace TypedQueries

open Source

def ImportTarget.path (t : ImportTarget) : Text :=
  match t.member with
  | none => t.module
  | some member => t.module ++ '.' :: member

namespace Package

/-- The text of an expression as seen from a module. It depends on no names in progress; where a
name stands makes no difference. -/
inductive Eval (p : Package) : Text → Expr → Text → Prop where
  | text {module v : Text} : Eval p module (.text v) v
  | sum {module a b : Text} {l r : Expr} : Eval p module l a → Eval p module r b →
      Eval p module (.sum l r) (a ++ b)
  | value {module w s : Text} {start : Position} {idx : DefinitionIndex} {e : Expr} :
      p.index? module = some idx → idx.values.get? w = some e → Eval p module e s →
      Eval p module (.name w start) s
  | member {module w target member s : Text} {start start' : Position} {idx : DefinitionIndex} :
      p.index? module = some idx → idx.values.get? w = none →
      idx.imports.get? w = some ⟨target, some member⟩ → p.isLoaded target = true →
      Eval p target (.name member start') s → Eval p module (.name w start) s
  | qualified {module w field s : Text} {start start' : Position} {idx : DefinitionIndex}
      {t : ImportTarget} :
      p.index? module = some idx → idx.imports.get? w = some t → p.isLoaded t.path = true →
      Eval p t.path (.name field start') s → Eval p module (.attribute (.name w start) field) s

theorem importedModule?_eq_some_iff {p : Package} {module w target : Text} :
    p.importedModule? module w = some target ↔
      ∃ idx, p.index? module = some idx ∧ ∃ t, idx.imports.get? w = some t ∧
        p.isLoaded t.path = true ∧ t.path = target := by
  have heq : p.importedModule? module w =
      (p.index? module).bind fun idx => (idx.imports.get? w).bind fun t =>
        if p.isLoaded t.path then some t.path else none := by
    rw [importedModule?, ← Option.bind_assoc]
    cases (p.index? module).bind fun idx => idx.imports.get? w with
    | none => rfl
    | some t => rfl
  simp [heq, Option.bind_eq_some_iff]

/-! ### What has a text is grounded -/

/-- From a name that an expression with a text mentions, every chain of references ends. -/
theorem Eval.grounded {p : Package} {module s : Text} {e : Expr} (h : p.Eval module e s) :
    ∀ k ∈ p.mentions module e, p.Grounded k := by
  induction h with
  | text =>
    intro k hk
    cases hk
  | sum _ _ ihl ihr =>
    intro k hk
    rcases List.mem_append.1 hk with hk | hk
    · exact ihl k hk
    · exact ihr k hk
  | @value module w s start idx e hi hv _ ih =>
    intro k hk
    rw [List.mem_singleton.1 hk]
    have hdef : p.definition? ⟨module, w⟩ = some (.value e) :=
      definition?_eq_value_iff.2 ⟨idx, hi, hv⟩
    exact Acc.intro _ fun target ht => ih target ((refersTo_of_value hdef).1 ht)
  | @member module w target member s start start' idx hi hv ht hl _ ih =>
    intro k hk
    rw [List.mem_singleton.1 hk]
    have hdef : p.definition? ⟨module, w⟩ = some (.member ⟨target, member⟩) :=
      definition?_eq_member_iff.2 ⟨idx, hi, hv, ht, hl⟩
    refine Acc.intro _ fun target' ht' => ih target' ?_
    exact List.mem_singleton.2 ((refersTo_of_member hdef).1 ht')
  | @qualified module w field s start start' idx t hi ht hl _ ih =>
    intro k hk
    have htarget : p.importedModule? module w = some t.path :=
      importedModule?_eq_some_iff.2 ⟨idx, hi, t, ht, hl, rfl⟩
    exact ih k (by simpa [mentions, htarget] using hk)

/-! ### Folding finds the texts -/

theorem fold_text_value (p : Package) (inProgress : List Key) (module v : Text) :
    (p.fold inProgress module (.text v)).value = some v := by
  rw [fold]

theorem fold_sum_value (p : Package) (inProgress : List Key) (module : Text) (l r : Expr) :
    (p.fold inProgress module (.sum l r)).value =
      (p.fold inProgress module l).value.bind fun a =>
        (p.fold inProgress module r).value.map (a ++ ·) := by
  rw [fold, append]
  cases h : (p.fold inProgress module l).value <;> simp [h]

theorem fold_name (p : Package) (inProgress : List Key) (module w : Text) (start : Position) :
    p.fold inProgress module (.name w start) = p.foldName inProgress ⟨module, w⟩ := by
  rw [fold]

theorem fold_qualified {p : Package} {module w target : Text}
    (h : p.importedModule? module w = some target) (inProgress : List Key) (start : Position)
    (field : Text) :
    p.fold inProgress module (.attribute (.name w start) field) =
      ⟨(p.foldName inProgress ⟨target, field⟩).value,
        p.consulting module ++ (p.foldName inProgress ⟨target, field⟩).events⟩ := by
  rw [fold, h]

/-- Whatever the names in progress are, a fold gives no text but that of the expression. -/
theorem eval_of_fold {p : Package} :
    (∀ inProgress module e s, (p.fold inProgress module e).value = some s → p.Eval module e s) ∧
      ∀ inProgress (k : Key) s, (p.foldName inProgress k).value = some s →
        ∀ start, p.Eval k.module (.name k.name start) s := by
  refine @fold_induction p
    (fun inProgress module e => ∀ s, (p.fold inProgress module e).value = some s →
      p.Eval module e s)
    (fun inProgress k => ∀ s, (p.foldName inProgress k).value = some s →
      ∀ start, p.Eval k.module (.name k.name start) s) ?text ?sum ?name ?qualified ?unknown
    ?definition
  case text =>
    intro inProgress module v s h
    obtain rfl := Option.some.inj ((fold_text_value ..).symm.trans h)
    exact .text
  case sum =>
    intro inProgress module l r ihl ihr s h
    rw [fold_sum_value, Option.bind_eq_some_iff] at h
    obtain ⟨a, ha, h⟩ := h
    obtain ⟨b, hb, rfl⟩ := Option.map_eq_some_iff.1 h
    exact .sum (ihl a ha) (ihr b hb)
  case name =>
    intro inProgress module w start ih s h
    rw [fold_name] at h
    exact ih s h start
  case qualified =>
    intro inProgress module w start field target ht ih s h
    rw [fold_qualified ht] at h
    obtain ⟨idx, hi, t, himport, hl, rfl⟩ := importedModule?_eq_some_iff.1 ht
    exact .qualified hi himport hl (ih s h start)
  case unknown =>
    intro inProgress module e _ hfold s h
    rcases hfold with hfold | hfold <;> rw [hfold] at h <;> cases h
  case definition =>
    intro inProgress k ihvalue ihmember s h start
    rw [foldName_eq] at h
    split at h
    · split at h
      · cases h
      · rename_i hk
        split at h
        · cases h
        · rename_i e hdef
          obtain ⟨idx, hi, hv⟩ := definition?_eq_value_iff.1 hdef
          exact .value hi hv (ihvalue e hk hdef s h)
        · rename_i target hdef
          obtain ⟨idx, hi, hv, ht, hl⟩ := definition?_eq_member_iff.1 hdef
          exact .member hi hv ht hl (ihmember target hk hdef s h start)
    · cases h

/-- An expression with a text folds to it, as long as no name in progress can be reached from
those that the expression mentions. -/
theorem Eval.fold {p : Package} {module s : Text} {e : Expr} (h : p.Eval module e s)
    {inProgress : List Key}
    (hprogress : ∀ j ∈ inProgress, ∀ k ∈ p.mentions module e,
      ¬Relation.ReflTransGen p.RefersTo k j) :
    (p.fold inProgress module e).value = some s := by
  induction h generalizing inProgress with
  | text => exact fold_text_value ..
  | sum hl hr ihl ihr =>
    rw [fold_sum_value, ihl fun j hj k hk => hprogress j hj k (List.mem_append_left _ hk),
      ihr fun j hj k hk => hprogress j hj k (List.mem_append_right _ hk)]
    rfl
  | @value module w s start idx e hi hv he ih =>
    have hdef : p.definition? ⟨module, w⟩ = some (.value e) :=
      definition?_eq_value_iff.2 ⟨idx, hi, hv⟩
    have hmem : ⟨module, w⟩ ∈ p.mentions module (.name w start) := List.mem_singleton.2 rfl
    have hground : p.Grounded ⟨module, w⟩ := (Eval.value hi hv he).grounded _ hmem
    have hclear := fun j hj => hprogress j hj _ hmem
    have hk : ⟨module, w⟩ ∉ inProgress := fun hk => hclear _ hk .refl
    rw [fold_name, foldName_value hk, hdef]
    exact ih fun j hj k hk => not_reach_of_acc hground hclear ((refersTo_of_value hdef).2 hk) j hj
  | @member module w target member s start start' idx hi hv ht hl he ih =>
    have hdef : p.definition? ⟨module, w⟩ = some (.member ⟨target, member⟩) :=
      definition?_eq_member_iff.2 ⟨idx, hi, hv, ht, hl⟩
    have hmem : ⟨module, w⟩ ∈ p.mentions module (.name w start) := List.mem_singleton.2 rfl
    have hground : p.Grounded ⟨module, w⟩ := (Eval.member hi hv ht hl he).grounded _ hmem
    have hclear := fun j hj => hprogress j hj _ hmem
    have hk : ⟨module, w⟩ ∉ inProgress := fun hk => hclear _ hk .refl
    have hfold := @ih (⟨module, w⟩ :: inProgress) fun j hj k hk =>
      not_reach_of_acc hground hclear ((refersTo_of_member hdef).2 (List.mem_singleton.1 hk)) j hj
    rw [fold_name] at hfold
    rw [fold_name, foldName_value hk, hdef]
    exact hfold
  | @qualified module w field s start start' idx t hi ht hl he ih =>
    have htarget : p.importedModule? module w = some t.path :=
      importedModule?_eq_some_iff.2 ⟨idx, hi, t, ht, hl, rfl⟩
    rw [fold_qualified htarget]
    have hfold := @ih inProgress fun j hj k hk => hprogress j hj k (by
      simpa [mentions, htarget] using hk)
    rwa [fold_name] at hfold

end Package

/-! ### Names in progress -/

namespace FoldEvent

theorem replay_append (inProgress : List Key) (es fs : List FoldEvent) :
    replay inProgress (es ++ fs) = replay (replay inProgress es) fs := by
  rw [replay, List.foldl_append]
  rfl

theorem replay_consulting (p : Package) (module : Text) (inProgress : List Key) :
    replay inProgress (p.consulting module) = inProgress := by
  rw [Package.consulting]
  split <;> rfl

theorem replay_entering {inProgress : List Key} {k : Key} {f : Folding} (hk : k ∉ inProgress)
    (h : replay (k :: inProgress) f.events = k :: inProgress) :
    replay inProgress (Package.entering k f).events = inProgress := by
  have hevents : (Package.entering k f).events = [.entered k] ++ (f.events ++ [.left k]) := rfl
  have hentered : replay inProgress [.entered k] = k :: inProgress := by simp [replay, apply, hk]
  rw [hevents, replay_append, hentered, replay_append, h]
  have hne : ∀ j ∈ inProgress, j ≠ k := fun j hj he => hk (he ▸ hj)
  simpa [replay, apply] using hne

end FoldEvent

namespace Package

open FoldEvent

/-- What is in progress after a fold is what was in progress before. -/
theorem replay_fold {p : Package} :
    (∀ inProgress module e, replay inProgress (p.fold inProgress module e).events = inProgress) ∧
      ∀ inProgress (k : Key), replay inProgress (p.foldName inProgress k).events = inProgress := by
  refine @fold_induction p
    (fun inProgress module e =>
      replay inProgress (p.fold inProgress module e).events = inProgress)
    (fun inProgress k => replay inProgress (p.foldName inProgress k).events = inProgress)
    ?text ?sum ?name ?qualified ?unknown ?definition
  case text =>
    intro inProgress module v
    rw [fold]
    rfl
  case sum =>
    intro inProgress module l r ihl ihr
    rw [fold, append]
    split
    · exact ihl
    · rw [replay_append, ihl, ihr]
  case name =>
    intro inProgress module w start ih
    rwa [fold_name]
  case qualified =>
    intro inProgress module w start field target ht ih
    rw [fold_qualified ht, replay_append, replay_consulting, ih]
  case unknown =>
    intro inProgress module e _ hfold
    rcases hfold with hfold | hfold
    · rw [hfold]
      rfl
    · rw [hfold, replay_consulting]
  case definition =>
    intro inProgress k ihvalue ihmember
    have hconsulted : ∀ es, replay inProgress (.consulted k.module :: es) = replay inProgress es :=
      fun es => rfl
    rw [foldName_eq]
    split
    · rw [hconsulted]
      split
      · rfl
      · rename_i hk
        split
        · rfl
        · rename_i e hdef
          exact replay_entering hk (ihvalue e hk hdef)
        · rename_i target hdef
          exact replay_entering hk (ihmember target hk hdef)
    · rfl

/-! ### The whole of folding -/

theorem fold_eq_some_iff {p : Package} {module s : Text} {e : Expr} :
    (p.fold [] module e).value = some s ↔ p.Eval module e s := by
  constructor
  · exact eval_of_fold.1 [] module e s
  · intro h
    exact h.fold fun j hj => absurd hj List.not_mem_nil

/-- Folding is sound and complete, and leaves no trace. With no names in progress, a fold gives a
text exactly when it is the text of the expression, and gives none when there is no such text,
whatever cycles the definitions and the imports of the package form. Whichever names were in
progress before a fold are in progress after it. -/
theorem fold_iff_eval (p : Package) (module : Text) (e : Expr) :
    (∀ s, (p.fold [] module e).value = some s ↔ p.Eval module e s) ∧
      ((p.fold [] module e).value = none ↔ ∀ s, ¬p.Eval module e s) ∧
      ∀ inProgress, replay inProgress (p.fold inProgress module e).events = inProgress := by
  refine ⟨fun s => fold_eq_some_iff, ?_, fun inProgress => replay_fold.1 inProgress module e⟩
  rw [Option.eq_none_iff_forall_ne_some]
  exact forall_congr' fun s => not_congr fold_eq_some_iff

end Package

end TypedQueries
