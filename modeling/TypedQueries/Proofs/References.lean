import TypedQueries.Package.Folding
import Mathlib.Logic.Relation

/-!
# References between names

The names of a package form a graph: a name refers to the names in the expression that defines it,
or to the name that it is imported as. A fold follows this graph; its equations and its induction
are stated here in terms of it.
-/

namespace TypedQueries

open Source

/-! ### Chains that come to an end -/

section Chains

variable {α : Type} {r : α → α → Prop} {a b : α}

/-- What every chain from comes to an end lies on no cycle. -/
theorem not_transGen_of_acc (h : Acc (fun b a => r a b) a) : ¬Relation.TransGen r a a := by
  induction h with
  | intro a _ ih =>
    intro hcycle
    obtain ⟨b, hfirst, hback⟩ := Relation.TransGen.head'_iff.1 hcycle
    exact ih b hfirst (Relation.TransGen.tail' hback hfirst)

/-- Where every chain comes to an end, a step leads away from what has been passed, and from where
it is made. -/
theorem not_reach_of_acc {passed : List α} (ha : Acc (fun b a => r a b) a)
    (hpassed : ∀ c ∈ passed, ¬Relation.ReflTransGen r a c) (hb : r a b) :
    ∀ c ∈ a :: passed, ¬Relation.ReflTransGen r b c := by
  intro c hc hreach
  rcases List.mem_cons.1 hc with rfl | hc
  · exact not_transGen_of_acc ha (Relation.TransGen.head' hb hreach)
  · exact hpassed c hc (Relation.ReflTransGen.head hb hreach)

end Chains

namespace Package

/-! ### The graph -/

/-- What the text of a name is sought in. -/
inductive Definition where
  /-- The expression that gives the name its value. -/
  | value (e : Expr)
  /-- The name, in a loaded module, that it is imported as. -/
  | member (k : Key)

/-- What the text of a name is sought in; a value comes before an import. -/
def definition? (p : Package) (k : Key) : Option Definition :=
  (p.index? k.module).bind fun idx =>
    match idx.values.get? k.name with
    | some e => some (.value e)
    | none =>
      (idx.imports.get? k.name).bind fun t => t.member.bind fun member =>
        if p.isLoaded t.module then some (.member ⟨t.module, member⟩) else none

/-- The names that an expression of a module mentions. -/
def mentions (p : Package) (module : Text) : Expr → List Key
  | .sum l r => p.mentions module l ++ p.mentions module r
  | .name w _ => [⟨module, w⟩]
  | .attribute (.name w _) field =>
    ((p.importedModule? module w).map fun target => ⟨target, field⟩).toList
  | _ => []

def referents (p : Package) (k : Key) : List Key :=
  match p.definition? k with
  | none => []
  | some (.value e) => p.mentions k.module e
  | some (.member target) => [target]

def RefersTo (p : Package) (k target : Key) : Prop := target ∈ p.referents k

/-- Every chain of references from the name comes to an end. -/
def Grounded (p : Package) (k : Key) : Prop := Acc (fun target k => p.RefersTo k target) k

theorem isLoaded_eq (p : Package) (module : Text) :
    p.isLoaded module = (p.index? module).isSome := by
  simp [isLoaded, index?, Table.contains]

theorem definition?_eq_value_iff {p : Package} {k : Key} {e : Expr} :
    p.definition? k = some (.value e) ↔
      ∃ idx, p.index? k.module = some idx ∧ idx.values.get? k.name = some e := by
  rw [definition?, Option.bind_eq_some_iff]
  refine exists_congr fun idx => and_congr_right fun _ => ?_
  cases idx.values.get? k.name with
  | some e' => simp
  | none => simp [Option.bind_eq_some_iff]

theorem definition?_eq_member_iff {p : Package} {k target : Key} :
    p.definition? k = some (.member target) ↔
      ∃ idx, p.index? k.module = some idx ∧ idx.values.get? k.name = none ∧
        idx.imports.get? k.name = some ⟨target.module, some target.name⟩ ∧
        p.isLoaded target.module = true := by
  rw [definition?, Option.bind_eq_some_iff]
  refine exists_congr fun idx => and_congr_right fun _ => ?_
  cases idx.values.get? k.name with
  | some e => simp
  | none =>
    simp only [Option.bind_eq_some_iff, true_and]
    constructor
    · rintro ⟨⟨module, member⟩, ht, name, rfl, h⟩
      split at h
      · rename_i hl
        cases h
        exact ⟨ht, hl⟩
      · cases h
    · rintro ⟨ht, hl⟩
      exact ⟨_, ht, _, rfl, if_pos hl⟩

theorem refersTo_of_value {p : Package} {k target : Key} {e : Expr}
    (h : p.definition? k = some (.value e)) :
    p.RefersTo k target ↔ target ∈ p.mentions k.module e := by
  simp [RefersTo, referents, h]

theorem refersTo_of_member {p : Package} {k member target : Key}
    (h : p.definition? k = some (.member member)) : p.RefersTo k target ↔ target = member := by
  simp [RefersTo, referents, h]

/-! ### Folding along the graph -/

theorem foldName_eq (p : Package) (inProgress : List Key) (k : Key) :
    p.foldName inProgress k =
      if p.isLoaded k.module then
        let f : Folding :=
          if k ∈ inProgress then ⟨none, [.cyclic k]⟩
          else
            match p.definition? k with
            | none => ⟨none, []⟩
            | some (.value e) => entering k (p.fold (k :: inProgress) k.module e)
            | some (.member target) => entering k (p.foldName (k :: inProgress) target)
        ⟨f.value, .consulted k.module :: f.events⟩
      else ⟨none, []⟩ := by
  rw [foldName, isLoaded_eq]
  split
  · rename_i hi
    simp [hi]
  · rename_i idx hi
    by_cases hk : k ∈ inProgress
    · simp [hi, hk]
    simp only [hi, hk, Option.isSome_some, if_true, if_false, dite_false, definition?,
      Option.bind_some]
    split
    · rename_i e hv
      simp [hv]
    · rename_i hv
      split
      · rename_i target member ht
        by_cases hl : p.isLoaded target = true
        · simp [hv, ht, hl]
        · simp [hv, ht, hl]
      · rename_i hno
        cases ht : idx.imports.get? k.name with
        | none => simp [hv]
        | some t =>
          obtain ⟨target, member⟩ := t
          cases member with
          | none => simp [hv]
          | some member => exact absurd ht (hno target member)

theorem foldName_value {p : Package} {inProgress : List Key} {k : Key}
    (hprogress : k ∉ inProgress) :
    (p.foldName inProgress k).value =
      match p.definition? k with
      | none => none
      | some (.value e) => (p.fold (k :: inProgress) k.module e).value
      | some (.member target) => (p.foldName (k :: inProgress) target).value := by
  rw [foldName_eq, if_neg hprogress]
  split
  · split <;> rfl
  · rename_i hl
    have hno : p.definition? k = none := by
      rw [isLoaded_eq, Option.not_isSome_iff_eq_none] at hl
      simp [definition?, hl]
    rw [hno]

/-- The texts that folding an expression or a name depends on, one level down. An expression that
is not followed further mentions no name; a name leads to what its text is sought in, which is
folded with the name in progress. -/
theorem fold_induction {p : Package} {P : List Key → Text → Expr → Prop} {Q : List Key → Key → Prop}
    (text : ∀ inProgress module v, P inProgress module (.text v))
    (sum : ∀ inProgress module l r, P inProgress module l → P inProgress module r →
      P inProgress module (.sum l r))
    (name : ∀ inProgress module w start, Q inProgress ⟨module, w⟩ →
      P inProgress module (.name w start))
    (qualified : ∀ inProgress module w start field target,
      p.importedModule? module w = some target → Q inProgress ⟨target, field⟩ →
      P inProgress module (.attribute (.name w start) field))
    (unknown : ∀ inProgress module e, p.mentions module e = [] →
      (p.fold inProgress module e = ⟨none, []⟩ ∨
        p.fold inProgress module e = ⟨none, p.consulting module⟩) → P inProgress module e)
    (definition : ∀ inProgress k,
      (∀ e, k ∉ inProgress → p.definition? k = some (.value e) →
        P (k :: inProgress) k.module e) →
      (∀ target, k ∉ inProgress → p.definition? k = some (.member target) →
        Q (k :: inProgress) target) → Q inProgress k) :
    (∀ inProgress module e, P inProgress module e) ∧ ∀ inProgress k, Q inProgress k := by
  refine fold.mutual_induct p P Q text sum name ?_ ?_ ?_ ?_ ?_
  · intro inProgress module w start field h
    refine unknown inProgress module _ ?_ (.inr ?_)
    · simp [mentions, h]
    · rw [fold, h]
  · intro inProgress module w start field target h hq
    exact qualified inProgress module w start field target h hq
  · intro inProgress module e htext hsum hname hqualified
    refine unknown inProgress module e ?_ (.inl ?_)
    · rw [mentions] <;> assumption
    · rw [fold] <;> assumption
  · intro inProgress k hi
    have hno : p.definition? k = none := by simp [definition?, hi]
    refine definition inProgress k (fun e _ he => ?_) fun target _ ht => ?_
    · rw [hno] at he
      cases he
    · rw [hno] at ht
      cases ht
  · intro inProgress k idx hi hvalue hmember
    refine definition inProgress k (fun e hk he => ?_) fun target hk ht => ?_
    · obtain ⟨idx', hi', hv⟩ := definition?_eq_value_iff.1 he
      cases hi.symm.trans hi'
      exact hvalue hk e hv
    · obtain ⟨idx', hi', _, ht, _⟩ := definition?_eq_member_iff.1 ht
      cases hi.symm.trans hi'
      exact hmember hk _ _ ht

end Package

end TypedQueries
