import TypedQueries.Proofs.Locality

/-!
# What names are as types

A relation says what a name of a module is as a type, by rules of which the first that fits counts.
Only an import from a loaded module leads on, to the name that is imported there, so a name has at
most one chain of imports. Looking up a name follows this chain, and gives up only on one that does
not end.
-/

namespace TypedQueries

open Source

namespace Package

/-! ### Rules -/

/-- The type of its own that a module has under a name. -/
def ownType? (p : Package) (k : Key) : Option TypeObject :=
  (p.index? k.module).bind fun idx => idx.types.get? k.name

/-- Whether a name of a module is a value, or is anything else that is no type. -/
def isOther (p : Package) (k : Key) : Bool :=
  (p.index? k.module).any fun idx => idx.values.contains k.name || idx.others.contains k.name

/-- What a name of a module is imported as. -/
def import? (p : Package) (k : Key) : Option ImportTarget :=
  (p.index? k.module).bind fun idx => idx.imports.get? k.name

/-- What a name of a module is as a type. A name that nothing binds, as every name of a module that
is not loaded, may still be a builtin type. -/
inductive Resolves (p : Package) : Key → TypeObject → Prop where
  | own {k : Key} {o : TypeObject} : p.ownType? k = some o → Resolves p k o
  | other {k : Key} : p.ownType? k = none → p.isOther k = true → Resolves p k (.nonType k.name)
  | module {k : Key} {t : ImportTarget} : p.ownType? k = none → p.isOther k = false →
      p.import? k = some t → t.member = none ∨ p.isLoaded t.path = true →
      Resolves p k (.nonType k.name)
  | member {k : Key} {target member : Text} {o : TypeObject} :
      p.ownType? k = none → p.isOther k = false → p.import? k = some ⟨target, some member⟩ →
      p.isLoaded (target ++ '.' :: member) = false → p.isLoaded target = true →
      Resolves p ⟨target, member⟩ o → Resolves p k o
  | outside {k : Key} {target member : Text} :
      p.ownType? k = none → p.isOther k = false → p.import? k = some ⟨target, some member⟩ →
      p.isLoaded (target ++ '.' :: member) = false → p.isLoaded target = false →
      Resolves p k (.ofKind k.name none)
  | builtin {k : Key} {o : TypeObject} : p.ownType? k = none → p.isOther k = false →
      p.import? k = none → builtin? k.name = some o → Resolves p k o

/-! ### Chains of imports -/

/-- A name is what another one is in the loaded module that it is imported from. -/
def ImportedAs (p : Package) (k target : Key) : Prop :=
  p.ownType? k = none ∧ p.isOther k = false ∧
    p.import? k = some ⟨target.module, some target.name⟩ ∧
    p.isLoaded (target.module ++ '.' :: target.name) = false ∧ p.isLoaded target.module = true

theorem Resolves.acc {p : Package} {k : Key} {o : TypeObject} (h : p.Resolves k o) :
    Acc (fun target k => p.ImportedAs k target) k := by
  induction h with
  | own hown =>
    refine Acc.intro _ fun target ht => ?_
    cases hown.symm.trans ht.1
  | other _ hother =>
    refine Acc.intro _ fun target ht => ?_
    cases hother.symm.trans ht.2.1
  | module _ _ himport hmodule =>
    refine Acc.intro _ fun target ht => ?_
    obtain ⟨_, _, himport', hpath, _⟩ := ht
    cases himport.symm.trans himport'
    rcases hmodule with hmodule | hmodule
    · cases hmodule
    · cases hmodule.symm.trans hpath
  | member _ _ himport _ _ _ ih =>
    refine Acc.intro _ fun target ht => ?_
    cases himport.symm.trans ht.2.2.1
    exact ih
  | outside _ _ himport _ hmodule =>
    refine Acc.intro _ fun target ht => ?_
    obtain ⟨_, _, himport', _, hmodule'⟩ := ht
    cases himport.symm.trans himport'
    cases hmodule.symm.trans hmodule'
  | builtin _ _ himport _ =>
    refine Acc.intro _ fun target ht => ?_
    cases himport.symm.trans ht.2.2.1

/-! ### Looking up along the chain -/

/-- A name that has not been looked up yet is decided by the first rule that fits. -/
theorem lookupFrom_result {p : Package} {seen : List Key} {k : Key} (hk : k ∉ seen) :
    (p.lookupFrom seen k).result =
      match p.ownType? k with
      | some o => some o
      | none =>
        if p.isOther k then some (.nonType k.name)
        else
          match p.import? k with
          | none => builtin? k.name
          | some ⟨_, none⟩ => some (.nonType k.name)
          | some ⟨target, some member⟩ =>
            if p.isLoaded (target ++ '.' :: member) then some (.nonType k.name)
            else if p.isLoaded target then (p.lookupFrom (k :: seen) ⟨target, member⟩).result
            else some (.ofKind k.name none) := by
  rw [lookupFrom_eq, if_neg hk, ownType?, isOther, import?]
  cases p.index? k.module with
  | none => rfl
  | some idx =>
    simp only [lookupIn, Option.bind_some, Option.any_some]
    cases idx.types.get? k.name with
    | some o => rfl
    | none =>
      dsimp only
      split
      · rfl
      · cases idx.imports.get? k.name with
        | none => rfl
        | some t =>
          obtain ⟨target, member⟩ := t
          cases member with
          | none => rfl
          | some member =>
            dsimp only
            split
            · rfl
            · split <;> rfl

/-- What is found for a name is what the name is, whatever has been looked up before. -/
theorem resolves_of_lookupFrom {p : Package} {o : TypeObject} (seen : List Key) (k : Key) :
    (p.lookupFrom seen k).result = some o → p.Resolves k o := by
  -- a name that has been looked up is given up, so only rules that fit lead to a result
  refine @lookup_induction p
    (fun seen k => (p.lookupFrom seen k).result = some o → p.Resolves k o) ?_ seen k
  intro seen k ih h
  by_cases hk : k ∈ seen
  · rw [lookupFrom_eq, if_pos hk] at h
    cases h
  rw [lookupFrom_result hk] at h
  split at h
  · rename_i hown
    cases h
    exact .own hown
  · rename_i hown
    split at h
    · rename_i hother
      cases h
      exact .other hown hother
    · rename_i hother
      have hother := Bool.eq_false_iff.2 hother
      split at h
      · rename_i himport
        exact .builtin hown hother himport h
      · rename_i himport
        cases h
        exact .module hown hother himport (.inl rfl)
      · rename_i target member himport
        split at h
        · rename_i hpath
          cases h
          exact .module hown hother himport (.inr hpath)
        · rename_i hpath
          have hpath := Bool.eq_false_iff.2 hpath
          split at h
          · rename_i hmodule
            obtain ⟨idx, hi, ht⟩ := Option.bind_eq_some_iff.1 himport
            exact .member hown hother himport hpath hmodule (ih idx target member hk hi ht h)
          · rename_i hmodule
            cases h
            exact .outside hown hother himport hpath (Bool.eq_false_iff.2 hmodule)

/-- What a name is, is found, as long as nothing that has been looked up is on its chain. -/
theorem Resolves.lookupFrom {p : Package} {k : Key} {o : TypeObject} (h : p.Resolves k o)
    {seen : List Key} (hseen : ∀ j ∈ seen, ¬Relation.ReflTransGen p.ImportedAs k j) :
    (p.lookupFrom seen k).result = some o := by
  induction h generalizing seen with
  | own hown => rw [lookupFrom_result fun hk => hseen _ hk .refl, hown]
  | other hown hother => rw [lookupFrom_result fun hk => hseen _ hk .refl, hown, hother]; rfl
  | @module k t hown hother himport hmodule =>
    rw [lookupFrom_result fun hk => hseen _ hk .refl, hown, hother, himport]
    obtain ⟨target, member⟩ := t
    cases member with
    | none => rfl
    | some member =>
      have hpath := hmodule.resolve_left (by simp)
      exact if_pos hpath
  | member hown hother himport hpath hmodule htarget ih =>
    have hstep : p.ImportedAs _ ⟨_, _⟩ := ⟨hown, hother, himport, hpath, hmodule⟩
    -- the name itself joins those looked up, and its chain would not end if it came back to it
    have hend := (Resolves.member hown hother himport hpath hmodule htarget).acc
    rw [lookupFrom_result fun hk => hseen _ hk .refl, hown, hother, himport]
    simp only [hpath, hmodule, Bool.false_eq_true, if_false, if_true]
    exact ih (not_reach_of_acc hend hseen hstep)
  | outside hown hother himport hpath hmodule =>
    rw [lookupFrom_result fun hk => hseen _ hk .refl, hown, hother, himport]
    simp only [hpath, hmodule, Bool.false_eq_true, if_false]
  | builtin hown hother himport hbuiltin =>
    rw [lookupFrom_result fun hk => hseen _ hk .refl, hown, hother, himport]
    exact hbuiltin

/-- Looking up a name finds exactly what the name is by the rules, through imports of any length
and whatever names they are given on the way. It finds nothing exactly when the name is nothing by
the rules, as when its imports form a cycle. -/
theorem lookup_iff_resolves (p : Package) (module name : Text) :
    (∀ o, (p.lookup module name).result = some o ↔ p.Resolves ⟨module, name⟩ o) ∧
      ((p.lookup module name).result = none ↔ ∀ o, ¬p.Resolves ⟨module, name⟩ o) := by
  have hiff : ∀ o, (p.lookup module name).result = some o ↔ p.Resolves ⟨module, name⟩ o := by
    intro o
    constructor
    · exact resolves_of_lookupFrom [] ⟨module, name⟩
    · intro h
      exact h.lookupFrom fun j hj => absurd hj List.not_mem_nil
  refine ⟨hiff, ?_⟩
  rw [Option.eq_none_iff_forall_ne_some]
  exact forall_congr' fun o => not_congr (hiff o)

end Package

end TypedQueries
