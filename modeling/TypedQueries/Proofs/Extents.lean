import Mathlib
import Std.Tactic.Do
import TypedQueries.Proofs.Consumption

/-!
# Where statements stand

A statement of a module that has no body is read from tokens that stand next to each other among
those of the module, and it ends on the line of the last of them.
-/

namespace TypedQueries.Source

open Std.Do

set_option mvcgen.warning false

/-- Whether a statement without a body is read from the tokens `used` and `last` of a module, behind
which the tokens `after` follow. -/
structure Occupies (ts : List Token) (s : Statement) (used : List Token) (last : Token)
    (after : List Token) : Prop where
  isSuffix : used ++ last :: after <:+ ts
  reads : ∃ h, simpleStatement? (used ++ last :: after) = some ⟨s.kind, after, h⟩
  notLayout : last.kind.isLayout = false
  ends : last.lastLine = s.lastLine

/-- Whether a statement may be one with a body; of such a statement the tokens are not kept. -/
def StatementKind.mayHaveBody : StatementKind → Bool
  | other => true
  | classDefinition .. => true
  | functionDefinition .. => true
  | _ => false

/-- Whether a statement is read from tokens among `ts`, unless it may have a body. -/
def IsAmong (ts : List Token) (s : Statement) : Prop :=
  s.kind.mayHaveBody = true ∨ ∃ used last after, Occupies ts s used last after

theorem IsAmong.of_isSuffix {ts rest : List Token} {s : Statement} (h : IsAmong rest s)
    (hrest : rest <:+ ts) : IsAmong ts s := by
  rcases h with h | ⟨used, last, after, hs⟩
  · exact .inl h
  · exact .inr ⟨used, last, after, hs.isSuffix.trans hrest, hs.reads, hs.notLayout, hs.ends⟩

/-- A statement without a body ends on the line of the last token that is read. -/
theorem exists_occupies {ts : List Token} {f : Found StatementKind ts}
    (h : simpleStatement? ts = some f) :
    ∃ used last, Occupies ts ⟨f.value, lastLine ts f.rest⟩ used last f.rest := by
  obtain ⟨us, hts, hlayout⟩ := of_triple (simpleStatement?_leaves ts) h
  obtain ⟨kind, rest, hshorter⟩ := f
  dsimp only at hts ⊢
  rcases List.eq_nil_or_concat' us with rfl | ⟨used, last, rfl⟩
  · exact absurd (congrArg List.length hts) (Nat.ne_of_gt hshorter)
  have hline : lastLine ts rest = last.lastLine := by
    rw [lastLine, hts, List.length_append, Nat.add_sub_cancel, List.take_left,
      List.filter_eq_self.2 fun u hu => by simp [hlayout u hu], List.getLast?_concat]
  rw [List.append_assoc, List.singleton_append] at hts
  subst hts
  exact ⟨used, last, List.suffix_rfl, ⟨hshorter, h⟩, hlayout last (by simp), hline.symm⟩

/-! ### Lines of statements -/

grind_pattern List.IsSuffix.trans => l₁ <:+ l₂, l₂ <:+ l₃
grind_pattern List.suffix_cons => a :: l

attribute [grind .] List.suffix_rfl
attribute [grind →] Leaves.isSuffix
attribute [grind →] IsAmong.of_isSuffix

section Lines

variable {ts : List Token}

@[spec]
theorem simpleStatement?_spec :
    ⦃⌜True⌝⦄ simpleStatement? ts
      ⦃⇓? f => ⌜f.rest <:+ ts ∧ IsAmong ts ⟨f.value, lastLine ts f.rest⟩⌝⦄ := by
  apply triple_of_forall
  intro f h
  obtain ⟨used, last, hs⟩ := exists_occupies h
  exact ⟨(of_triple (simpleStatement?_leaves ts) h).isSuffix, .inr ⟨used, last, f.rest, hs⟩⟩

@[grind →]
theorem afterLine?_suffix {f : Found Unit ts} (h : afterLine? ts = some f) : f.rest <:+ ts := by
  cases ts with
  | nil => cases h
  | cons t r =>
    rw [afterLine?] at h
    grind

@[grind →]
theorem afterKind?_suffix {k : TokenKind} {f : Found Unit ts} (h : afterKind? k ts = some f) :
    f.rest <:+ ts := by
  cases ts with
  | nil => cases h
  | cons t r =>
    rw [afterKind?] at h
    grind

@[spec]
theorem afterLine?_spec : ⦃⌜True⌝⦄ afterLine? ts ⦃⇓? f => ⌜f.rest <:+ ts⌝⦄ :=
  triple_of_forall fun _ => afterLine?_suffix

@[spec]
theorem afterKind?_spec (k : TokenKind) : ⦃⌜True⌝⦄ afterKind? k ts ⦃⇓? f => ⌜f.rest <:+ ts⌝⦄ :=
  triple_of_forall fun _ => afterKind?_suffix

@[spec]
theorem afterWord?_spec (w : Text) : ⦃⌜True⌝⦄ afterWord? w ts ⦃⇓? f => ⌜f.rest <:+ ts⌝⦄ :=
  afterKind?_spec (.word w)

end Lines

theorem simpleLine?_spec (ts : List Token) :
    ⦃⌜True⌝⦄ simpleLine? ts ⦃⇓? f => ⌜f.rest <:+ ts ∧ ∀ s ∈ f.value, IsAmong ts s⌝⦄ := by
  unfold simpleLine?
  mvcgen [simpleLine?_spec]
  all_goals grind -linarith
termination_by ts.length
decreasing_by all_goals grind -linarith

/-! ### Headers -/

theorem condition?_leaves (ts : List Token) :
    ⦃⌜True⌝⦄ condition? ts ⦃⇓? f => ⌜Leaves ts f.rest⌝⦄ := by
  unfold condition?
  mvcgen [item?_leaves]

theorem entered?_leaves (ts : List Token) :
    ⦃⌜True⌝⦄ entered? ts ⦃⇓? f => ⌜Leaves ts f.rest⌝⦄ := by
  unfold entered?
  mvcgen [expression?_leaves, place?_leaves]
  all_goals grind -linarith

theorem enteredList?_leaves (trailing : Bool) (ts : List Token) :
    ⦃⌜True⌝⦄ enteredList? trailing ts ⦃⇓? f => ⌜Leaves ts f.rest⌝⦄ := by
  unfold enteredList?
  mvcgen [enteredList?_leaves, entered?_leaves]
  all_goals grind -linarith
termination_by ts.length
decreasing_by all_goals grind -linarith

theorem bracketed_leaves (ts : List Token) :
    ⦃⌜True⌝⦄ withHeader?.bracketed ts ⦃⇓? f => ⌜Leaves ts f.rest⌝⦄ := by
  unfold withHeader?.bracketed
  mvcgen [enteredList?_leaves]
  all_goals grind -linarith

theorem withHeader?_leaves (ts : List Token) :
    ⦃⌜True⌝⦄ withHeader? ts ⦃⇓? f => ⌜Leaves ts f.rest⌝⦄ := by
  have hbracketed : ∀ f, withHeader?.bracketed ts = some f → Leaves ts f.rest :=
    fun f => of_triple (bracketed_leaves ts)
  unfold withHeader?
  mvcgen [enteredList?_leaves]
  all_goals grind -linarith

theorem forHeader?_leaves (ts : List Token) :
    ⦃⌜True⌝⦄ forHeader? ts ⦃⇓? f => ⌜Leaves ts f.rest⌝⦄ := by
  unfold forHeader?
  mvcgen [items?_leaves, targets?_leaves]
  all_goals grind -linarith

theorem conditionHeader?_leaves (ts : List Token) :
    ⦃⌜True⌝⦄ conditionHeader? ts ⦃⇓? f => ⌜Leaves ts f.rest⌝⦄ := by
  unfold conditionHeader?
  mvcgen [condition?_leaves]
  all_goals grind -linarith

theorem classHeader?_leaves (ts : List Token) :
    ⦃⌜True⌝⦄ classHeader? ts ⦃⇓? f => ⌜Leaves ts f.rest⌝⦄ := by
  unfold classHeader?
  mvcgen [arguments?_leaves]
  all_goals grind -linarith

theorem functionHeader?_leaves (ts : List Token) :
    ⦃⌜True⌝⦄ functionHeader? ts ⦃⇓? f => ⌜Leaves ts f.rest⌝⦄ := by
  unfold functionHeader?
  mvcgen [parameters?_leaves]
  all_goals grind -linarith

theorem subject?_leaves (ts : List Token) :
    ⦃⌜True⌝⦄ subject? ts ⦃⇓? f => ⌜Leaves ts f.rest⌝⦄ := by
  unfold subject?
  mvcgen [items?_leaves]
  all_goals grind -linarith

theorem caseHeader?_leaves (ts : List Token) :
    ⦃⌜True⌝⦄ caseHeader? ts ⦃⇓? f => ⌜Leaves ts f.rest⌝⦄ := by
  unfold caseHeader?
  mvcgen [conditionHeader?_leaves, openPattern?_leaves]
  all_goals grind -linarith

theorem handlerHeader?_leaves (open_ : Bool) (ts : List Token) :
    ⦃⌜True⌝⦄ handlerHeader? open_ ts ⦃⇓? f => ⌜Leaves ts f.rest⌝⦄ := by
  unfold handlerHeader?
  mvcgen [expression?_leaves, alias?_leaves]
  all_goals grind -linarith

/-! ### Statements with a body -/

mutual

theorem statement?_spec (ts : List Token) :
    ⦃⌜True⌝⦄ statement? ts ⦃⇓? f => ⌜f.rest <:+ ts ∧ ∀ s ∈ f.value, IsAmong ts s⌝⦄ := by
  match ts with
  | [] =>
    unfold statement?
    mvcgen
  | t :: r =>
    have hcases : ∀ f, cases? r = some f → f.rest <:+ r := fun f => of_triple (cases?_suffix r)
    unfold statement?
    mvcgen [simpleLine?_spec, branches?_suffix, loop?_suffix, bodied?_suffix, attempt?_suffix,
      definition?_spec, decorated?_spec, cases?_suffix, conditionHeader?_leaves, forHeader?_leaves,
      withHeader?_leaves]
    all_goals grind -linarith [IsAmong, StatementKind.mayHaveBody]
termination_by 10 * ts.length + 5
decreasing_by all_goals grind -linarith

theorem definition?_spec (ts : List Token) :
    ⦃⌜True⌝⦄ definition? ts ⦃⇓? f => ⌜f.rest <:+ ts ∧ ∀ s ∈ f.value, IsAmong ts s⌝⦄ := by
  unfold definition?
  mvcgen [classHeader?_leaves, functionHeader?_leaves, block?_suffix]
  all_goals grind -linarith [IsAmong, StatementKind.mayHaveBody]
termination_by 10 * ts.length + 3
decreasing_by all_goals grind -linarith

theorem decorated?_spec (ts : List Token) :
    ⦃⌜True⌝⦄ decorated? ts ⦃⇓? f => ⌜f.rest <:+ ts ∧ ∀ s ∈ f.value, IsAmong ts s⌝⦄ := by
  unfold decorated?
  mvcgen [condition?_leaves, definition?_spec, decorated?_spec]
  all_goals grind -linarith [IsAmong, StatementKind.mayHaveBody]
termination_by 10 * ts.length + 4
decreasing_by all_goals grind -linarith

theorem block?_suffix (ts : List Token) :
    ⦃⌜True⌝⦄ block? ts ⦃⇓? f => ⌜f.rest <:+ ts⌝⦄ := by
  unfold block?
  mvcgen [indented?_suffix, simpleLine?_spec]
  all_goals grind -linarith
termination_by 10 * ts.length + 2
decreasing_by all_goals grind -linarith

theorem indented?_suffix (ts : List Token) :
    ⦃⌜True⌝⦄ indented? ts ⦃⇓? f => ⌜f.rest <:+ ts⌝⦄ := by
  unfold indented?
  mvcgen [indented?_suffix, statement?_spec]
  all_goals grind -linarith
termination_by 10 * ts.length + 6
decreasing_by all_goals grind -linarith

theorem bodied?_suffix (header? : (ts : List Token) → Option (Found Unit ts))
    (hheader : ∀ ts, ⦃⌜True⌝⦄ header? ts ⦃⇓? f => ⌜Leaves ts f.rest⌝⦄) (ts : List Token) :
    ⦃⌜True⌝⦄ bodied? header? ts ⦃⇓? f => ⌜f.rest <:+ ts⌝⦄ := by
  unfold bodied?
  mvcgen [block?_suffix, hheader]
  all_goals grind -linarith
termination_by 10 * ts.length + 1
decreasing_by all_goals grind -linarith

theorem loop?_suffix (header? : (ts : List Token) → Option (Found Unit ts))
    (hheader : ∀ ts, ⦃⌜True⌝⦄ header? ts ⦃⇓? f => ⌜Leaves ts f.rest⌝⦄) (ts : List Token) :
    ⦃⌜True⌝⦄ loop? header? ts ⦃⇓? f => ⌜f.rest <:+ ts⌝⦄ := by
  unfold loop?
  mvcgen [bodied?_suffix, otherwise?_suffix, hheader]
  all_goals grind -linarith
termination_by 10 * ts.length + 2
decreasing_by all_goals grind -linarith

theorem otherwise?_suffix (ts : List Token) :
    ⦃⌜True⌝⦄ otherwise? ts ⦃⇓? f => ⌜f.rest <:+ ts⌝⦄ := by
  unfold otherwise?
  mvcgen [bodied?_suffix]
  all_goals grind -linarith
termination_by 10 * ts.length
decreasing_by all_goals grind -linarith

theorem branches?_suffix (ts : List Token) :
    ⦃⌜True⌝⦄ branches? ts ⦃⇓? f => ⌜f.rest <:+ ts⌝⦄ := by
  unfold branches?
  mvcgen [bodied?_suffix, otherwise?_suffix, branches?_suffix, conditionHeader?_leaves]
  all_goals grind -linarith
termination_by 10 * ts.length + 2
decreasing_by all_goals grind -linarith

theorem attempt?_suffix (ts : List Token) :
    ⦃⌜True⌝⦄ attempt? ts ⦃⇓? f => ⌜f.rest <:+ ts⌝⦄ := by
  unfold attempt?
  mvcgen [bodied?_suffix, otherwise?_suffix, handlers?_suffix]
  all_goals grind -linarith
termination_by 10 * ts.length + 2
decreasing_by all_goals grind -linarith

theorem handlers?_suffix (starred : Bool) (ts : List Token) :
    ⦃⌜True⌝⦄ handlers? starred ts ⦃⇓? f => ⌜f.rest <:+ ts⌝⦄ := by
  unfold handlers?
  mvcgen [bodied?_suffix, handlers?_suffix, handlerHeader?_leaves]
  all_goals grind -linarith
termination_by 10 * ts.length
decreasing_by all_goals grind -linarith

theorem cases?_suffix (ts : List Token) :
    ⦃⌜True⌝⦄ cases? ts ⦃⇓? f => ⌜f.rest <:+ ts⌝⦄ := by
  unfold cases?
  mvcgen [caseList?_suffix, subject?_leaves]
  all_goals grind -linarith
termination_by 10 * ts.length
decreasing_by all_goals grind -linarith

theorem caseList?_suffix (ts : List Token) :
    ⦃⌜True⌝⦄ caseList? ts ⦃⇓? f => ⌜f.rest <:+ ts⌝⦄ := by
  unfold caseList?
  mvcgen [bodied?_suffix, caseList?_suffix, caseHeader?_leaves]
  all_goals grind -linarith
termination_by 10 * ts.length
decreasing_by all_goals grind -linarith

end

theorem isAmong_statements? {ts : List Token} {ss : List Statement} (h : statements? ts = some ss) :
    ∀ s ∈ ss, IsAmong ts s := by
  match ts with
  | [] =>
    rw [statements?] at h
    cases h
    simp
  | t :: r =>
    rw [statements?] at h
    obtain ⟨f, hf, h⟩ := Option.bind_eq_some_iff.1 h
    obtain ⟨more, hmore, h⟩ := Option.bind_eq_some_iff.1 h
    cases h
    obtain ⟨hrest, hvalue⟩ := of_triple (statement?_spec (t :: r)) hf
    have ih := isAmong_statements? hmore
    intro s hs
    rcases List.mem_append.1 hs with hs | hs
    · exact hvalue s hs
    · exact (ih s hs).of_isSuffix hrest
termination_by ts.length
decreasing_by exact f.shorter

end TypedQueries.Source
