import Mathlib
import Std.Tactic.Do
import TypedQueries.Source.Statement.Read

/-!
# What readers leave

A reader of an expression, of a pattern or of a simple statement takes tokens from the head of a
list and leaves the others as they are, and none of the tokens that it takes shows the layout. Each
reader has one lemma that says so; a reader that calls others is taken through by their lemmas.
-/

namespace TypedQueries.Source

open Std.Do

set_option mvcgen.warning false

/-- Whether `rest` is what is left of `ts` when some tokens have been taken from its head, none of
which shows the layout. -/
def Leaves (ts rest : List Token) : Prop :=
  ∃ used, ts = used ++ rest ∧ ∀ u ∈ used, u.kind.isLayout = false

namespace Leaves

variable {a b c r : List Token} {t : Token}

@[grind .]
theorem refl (ts : List Token) : Leaves ts ts := ⟨[], rfl, by simp⟩

theorem trans (h : Leaves a b) (h' : Leaves b c) : Leaves a c := by
  obtain ⟨us, rfl, hus⟩ := h
  obtain ⟨vs, rfl, hvs⟩ := h'
  refine ⟨us ++ vs, (List.append_assoc us vs c).symm, ?_⟩
  intro u hu
  rcases List.mem_append.1 hu with hu | hu
  · exact hus u hu
  · exact hvs u hu

theorem tail (h : t.kind.isLayout = false) : Leaves (t :: r) r := ⟨[t], rfl, by simpa using h⟩

theorem isSuffix (h : Leaves a b) : b <:+ a := by
  obtain ⟨us, rfl, _⟩ := h
  exact List.suffix_append us b

end Leaves

grind_pattern Leaves.trans => Leaves a b, Leaves b c
grind_pattern Leaves.tail => t :: r

attribute [grind =] TokenKind.isLayout

/-! ### Readers -/

section Readers

variable {α β ι : Type} {items rest : List ι}

theorem length_rest_lt (f : Found α items) : f.rest.length < items.length := f.shorter

theorem length_rest_le (f : Reached α items) : f.rest.length ≤ items.length := f.atMost

grind_pattern length_rest_lt => f.rest
grind_pattern length_rest_le => f.rest

@[simp, grind =]
theorem rest_none (a : α) : (Reached.none a items).rest = items := rfl

@[simp, grind =]
theorem rest_reached (f : Found α items) : f.reached.rest = f.rest := rfl

@[spec]
theorem some_spec {a : α} {Q : PostCond α (.except PUnit .pure)} : ⦃Q.1 a⦄ (some a) ⦃Q⦄ :=
  Triple.pure a (by simp)

@[spec]
theorem map_spec {x : Option α} {f : α → β} {P : Assertion (.except PUnit .pure)}
    {Q : PostCond β (.except PUnit .pure)} (h : ⦃P⦄ x ⦃(fun a => Q.1 (f a), Q.2)⦄) :
    ⦃P⦄ x.map f ⦃Q⦄ := by
  cases x with
  | none => exact h
  | some a => exact h

theorem triple_of_forall {x : Option α} {p : α → Prop} (h : ∀ a, x = some a → p a) :
    ⦃⌜True⌝⦄ x ⦃⇓? a => ⌜p a⌝⦄ := by
  cases x with
  | none => exact fun _ => trivial
  | some a => exact fun _ => h a rfl

theorem of_triple {x : Option α} {p : α → Prop} (h : ⦃⌜True⌝⦄ x ⦃⇓? a => ⌜p a⌝⦄) {a : α}
    (ha : x = some a) : p a := by
  subst ha
  exact h trivial

@[spec]
theorem leaving?_spec {a : α} :
    ⦃⌜True⌝⦄ Found.leaving? a items rest ⦃⇓? f => ⌜f.rest = rest⌝⦄ := by
  apply triple_of_forall
  intro f hf
  unfold Found.leaving? at hf
  split at hf
  · cases hf
    rfl
  · cases hf

end Readers

/-! ### Single tokens -/

section Tokens

variable {ts : List Token}

@[grind →]
theorem afterSymbol?_leaves {s : Symbol} {f : Found Unit ts} (h : afterSymbol? s ts = some f) :
    Leaves ts f.rest := by
  cases ts with
  | nil => cases h
  | cons t r =>
    rw [afterSymbol?] at h
    grind

@[grind →]
theorem afterKeyword?_leaves {k : Keyword} {f : Found Unit ts}
    (h : afterKeyword? k ts = some f) : Leaves ts f.rest := by
  cases ts with
  | nil => cases h
  | cons t r =>
    rw [afterKeyword?] at h
    grind

@[grind →]
theorem word?_leaves {f : Found Text ts} (h : word? ts = some f) : Leaves ts f.rest := by
  cases ts with
  | nil => cases h
  | cons t r =>
    rw [word?] at h
    grind

@[spec]
theorem afterSymbol?_spec (s : Symbol) :
    ⦃⌜True⌝⦄ afterSymbol? s ts ⦃⇓? f => ⌜Leaves ts f.rest⌝⦄ :=
  triple_of_forall fun _ => afterSymbol?_leaves

@[spec]
theorem afterKeyword?_spec (k : Keyword) :
    ⦃⌜True⌝⦄ afterKeyword? k ts ⦃⇓? f => ⌜Leaves ts f.rest⌝⦄ :=
  triple_of_forall fun _ => afterKeyword?_leaves

@[spec]
theorem word?_spec : ⦃⌜True⌝⦄ word? ts ⦃⇓? f => ⌜Leaves ts f.rest⌝⦄ :=
  triple_of_forall fun _ => word?_leaves

@[grind →]
theorem argumentName?_leaves {f : Found Text ts} (h : argumentName? ts = some f) :
    Leaves ts f.rest := by
  have hspec : ⦃⌜True⌝⦄ argumentName? ts ⦃⇓? f => ⌜Leaves ts f.rest⌝⦄ := by
    rw [argumentName?]
    mvcgen
    grind -linarith
  exact of_triple hspec h

end Tokens

/-! ### Operators -/

namespace Level

variable {ts : List Token}

attribute [grind →] tighter_of_next?

theorem tighter_le (l : Level) : l.tighter ≤ 10 := by cases l <;> decide

grind_pattern tighter_le => l.tighter

@[grind →]
theorem beforeOperand?_leaves {l : Level} {f : Found Unit ts}
    (h : l.beforeOperand? ts = some f) : Leaves ts f.rest := by
  unfold beforeOperand? at h
  grind [Option.or_eq_some_iff]

theorem afterComparison?_leaves {f : Found Unit ts} (h : afterComparison? ts = some f) :
    Leaves ts f.rest := by
  cases ts with
  | nil => cases h
  | cons t r =>
    rw [afterComparison?] at h
    grind [Option.map_eq_some_iff]

@[grind →]
theorem between?_leaves {l : Level} {f : Found (Expr → Expr → Expr) ts}
    (h : l.between? ts = some f) : Leaves ts f.rest := by
  unfold between? at h
  grind [afterComparison?_leaves, Option.map_eq_some_iff]

end Level

/-! ### Expressions -/

-- what is made of the parts that were read takes no tokens

@[spec]
theorem combine?_spec (parts : List LiteralPart) :
    ⦃⌜True⌝⦄ combine? parts ⦃⇓? _ => ⌜True⌝⦄ := triple_of_forall fun _ _ => trivial

@[spec]
theorem ofExpr?_spec (e : Expr) : ⦃⌜True⌝⦄ Target.ofExpr? e ⦃⇓? _ => ⌜True⌝⦄ :=
  triple_of_forall fun _ _ => trivial

@[spec]
theorem single?_spec (e : Expr) : ⦃⌜True⌝⦄ Target.single? e ⦃⇓? _ => ⌜True⌝⦄ :=
  triple_of_forall fun _ _ => trivial

-- The induction is the one along which the readers call each other. Its hypothesis is cleared
-- before the lengths are compared, for `grind` would look into it; `-linarith` keeps `grind` from
-- searching each type for an order.

mutual

theorem atom?_leaves (ts : List Token) :
    ⦃⌜True⌝⦄ atom? ts ⦃⇓? f => ⌜Leaves ts f.rest⌝⦄ := by
  match ts with
  | [] =>
    unfold atom?
    mvcgen
  | t :: r =>
    unfold atom?
    mvcgen [strings?_leaves, grouped?_leaves, displayed?_leaves, entries?_leaves]
    all_goals grind -linarith
termination_by 30 * ts.length + 2
decreasing_by
  all_goals
    repeat (rename ∀ _, InvImage (· < ·) _ _ _ → _ => ih; clear ih)
    grind -linarith

theorem strings?_leaves (ts : List Token) :
    ⦃⌜True⌝⦄ strings? ts ⦃⇓? f => ⌜Leaves ts f.rest⌝⦄ := by
  match ts with
  | [] =>
    unfold strings?
    mvcgen
  | t :: r =>
    unfold strings?
    mvcgen [literals?_leaves]
    all_goals grind -linarith
termination_by 30 * ts.length + 1
decreasing_by
  all_goals
    repeat (rename ∀ _, InvImage (· < ·) _ _ _ → _ => ih; clear ih)
    grind -linarith

theorem literals?_leaves (ts : List Token) :
    ⦃⌜True⌝⦄ literals? ts ⦃⇓? f => ⌜Leaves ts f.rest⌝⦄ := by
  match ts with
  | [] =>
    unfold literals?
    mvcgen
    all_goals grind -linarith
  | t :: r =>
    unfold literals?
    mvcgen [literals?_leaves, placeholders?_leaves]
    all_goals grind -linarith
termination_by 30 * ts.length
decreasing_by
  all_goals
    repeat (rename ∀ _, InvImage (· < ·) _ _ _ → _ => ih; clear ih)
    grind -linarith

theorem placeholders?_leaves (ts : List Token) :
    ⦃⌜True⌝⦄ placeholders? ts ⦃⇓? f => ⌜Leaves ts f.rest⌝⦄ := by
  unfold placeholders?
  mvcgen [placeholders?_leaves, grouped?_leaves]
  all_goals grind -linarith
termination_by 30 * ts.length
decreasing_by
  all_goals
    repeat (rename ∀ _, InvImage (· < ·) _ _ _ → _ => ih; clear ih)
    grind -linarith

theorem grouped?_leaves (b : Bracket) (ts : List Token) :
    ⦃⌜True⌝⦄ grouped? b ts ⦃⇓? f => ⌜Leaves ts f.rest⌝⦄ := by
  unfold grouped?
  mvcgen [clauses?_leaves, items?_leaves, yield?_leaves]
  all_goals grind -linarith
termination_by 30 * ts.length + 24
decreasing_by
  all_goals
    repeat (rename ∀ _, InvImage (· < ·) _ _ _ → _ => ih; clear ih)
    grind -linarith

theorem displayed?_leaves (ts : List Token) :
    ⦃⌜True⌝⦄ displayed? ts ⦃⇓? f => ⌜Leaves ts f.rest⌝⦄ := by
  unfold displayed?
  mvcgen [clauses?_leaves, items?_leaves]
  all_goals grind -linarith
termination_by 30 * ts.length + 24
decreasing_by
  all_goals
    repeat (rename ∀ _, InvImage (· < ·) _ _ _ → _ => ih; clear ih)
    grind -linarith

theorem entries?_leaves (ts : List Token) :
    ⦃⌜True⌝⦄ entries? ts ⦃⇓? f => ⌜Leaves ts f.rest⌝⦄ := by
  unfold entries?
  mvcgen [entry?_leaves, moreEntries?_leaves, clauses?_leaves]
  all_goals grind -linarith
termination_by 30 * ts.length + 26
decreasing_by
  all_goals
    repeat (rename ∀ _, InvImage (· < ·) _ _ _ → _ => ih; clear ih)
    grind -linarith

theorem entry?_leaves (ts : List Token) :
    ⦃⌜True⌝⦄ entry? ts ⦃⇓? f => ⌜Leaves ts f.rest⌝⦄ := by
  unfold entry?
  mvcgen [operation?_leaves, expression?_leaves, item?_leaves]
  all_goals grind -linarith
termination_by 30 * ts.length + 20
decreasing_by
  all_goals
    repeat (rename ∀ _, InvImage (· < ·) _ _ _ → _ => ih; clear ih)
    grind -linarith

theorem moreEntries?_leaves (first : Entry) (ts : List Token) :
    ⦃⌜True⌝⦄ moreEntries? first ts ⦃⇓? f => ⌜Leaves ts f.rest⌝⦄ := by
  unfold moreEntries?
  mvcgen [entry?_leaves, moreEntries?_leaves]
  all_goals grind -linarith
termination_by 30 * ts.length + 24
decreasing_by
  all_goals
    repeat (rename ∀ _, InvImage (· < ·) _ _ _ → _ => ih; clear ih)
    grind -linarith

theorem clauses?_leaves (ts : List Token) :
    ⦃⌜True⌝⦄ clauses? ts ⦃⇓? f => ⌜Leaves ts f.rest⌝⦄ := by
  unfold clauses?
  mvcgen [clauses?_leaves, clause?_leaves]
  all_goals grind -linarith
termination_by 30 * ts.length + 1
decreasing_by
  all_goals
    repeat (rename ∀ _, InvImage (· < ·) _ _ _ → _ => ih; clear ih)
    grind -linarith

theorem clause?_leaves (ts : List Token) :
    ⦃⌜True⌝⦄ clause? ts ⦃⇓? f => ⌜Leaves ts f.rest⌝⦄ := by
  unfold clause?
  mvcgen [conditions?_leaves, targets?_leaves, operation?_leaves]
  all_goals grind -linarith
termination_by 30 * ts.length
decreasing_by
  all_goals
    repeat (rename ∀ _, InvImage (· < ·) _ _ _ → _ => ih; clear ih)
    grind -linarith

theorem conditions?_leaves (ts : List Token) :
    ⦃⌜True⌝⦄ conditions? ts ⦃⇓? f => ⌜Leaves ts f.rest⌝⦄ := by
  unfold conditions?
  mvcgen [conditions?_leaves, operation?_leaves]
  all_goals grind -linarith
termination_by 30 * ts.length
decreasing_by
  all_goals
    repeat (rename ∀ _, InvImage (· < ·) _ _ _ → _ => ih; clear ih)
    grind -linarith

theorem targets?_leaves (ts : List Token) :
    ⦃⌜True⌝⦄ targets? ts ⦃⇓? f => ⌜Leaves ts f.rest⌝⦄ := by
  unfold targets?
  mvcgen [places?_leaves]
termination_by 30 * ts.length + 6
decreasing_by
  all_goals
    repeat (rename ∀ _, InvImage (· < ·) _ _ _ → _ => ih; clear ih)
    grind -linarith

theorem places?_leaves (ts : List Token) :
    ⦃⌜True⌝⦄ places? ts ⦃⇓? f => ⌜Leaves ts f.rest⌝⦄ := by
  unfold places?
  mvcgen [places?_leaves, place?_leaves]
  all_goals grind -linarith
termination_by 30 * ts.length + 5
decreasing_by
  all_goals
    repeat (rename ∀ _, InvImage (· < ·) _ _ _ → _ => ih; clear ih)
    grind -linarith

theorem place?_leaves (ts : List Token) :
    ⦃⌜True⌝⦄ place? ts ⦃⇓? f => ⌜Leaves ts f.rest⌝⦄ := by
  unfold place?
  mvcgen [primary?_leaves]
  all_goals grind -linarith
termination_by 30 * ts.length + 4
decreasing_by
  all_goals
    repeat (rename ∀ _, InvImage (· < ·) _ _ _ → _ => ih; clear ih)
    grind -linarith

theorem primary?_leaves (ts : List Token) :
    ⦃⌜True⌝⦄ primary? ts ⦃⇓? f => ⌜Leaves ts f.rest⌝⦄ := by
  unfold primary?
  mvcgen [atom?_leaves, trailers?_leaves]
  all_goals grind -linarith
termination_by 30 * ts.length + 3
decreasing_by
  all_goals
    repeat (rename ∀ _, InvImage (· < ·) _ _ _ → _ => ih; clear ih)
    grind -linarith

theorem trailers?_leaves (e : Expr) (ts : List Token) :
    ⦃⌜True⌝⦄ trailers? e ts ⦃⇓? f => ⌜Leaves ts f.rest⌝⦄ := by
  match ts with
  | [] =>
    unfold trailers?
    mvcgen
    all_goals grind -linarith
  | t :: r =>
    unfold trailers?
    mvcgen [trailers?_leaves, callArguments?_leaves, slices?_leaves]
    all_goals grind -linarith
termination_by 30 * ts.length
decreasing_by
  all_goals
    repeat (rename ∀ _, InvImage (· < ·) _ _ _ → _ => ih; clear ih)
    grind -linarith

theorem callArguments?_leaves (ts : List Token) :
    ⦃⌜True⌝⦄ callArguments? ts ⦃⇓? f => ⌜Leaves ts f.rest⌝⦄ := by
  unfold callArguments?
  mvcgen [arguments?_leaves]
  all_goals grind -linarith
termination_by 30 * ts.length + 25
decreasing_by
  all_goals
    repeat (rename ∀ _, InvImage (· < ·) _ _ _ → _ => ih; clear ih)
    grind -linarith

theorem arguments?_leaves (sole : Bool) (stage : ArgumentStage) (ts : List Token) :
    ⦃⌜True⌝⦄ arguments? sole stage ts ⦃⇓? f => ⌜Leaves ts f.rest⌝⦄ := by
  unfold arguments?
  mvcgen [clauses?_leaves, arguments?_leaves, argument?_leaves]
  all_goals grind -linarith
termination_by 30 * ts.length + 24
decreasing_by
  all_goals
    repeat (rename ∀ _, InvImage (· < ·) _ _ _ → _ => ih; clear ih)
    grind -linarith

theorem argument?_leaves (stage : ArgumentStage) (ts : List Token) :
    ⦃⌜True⌝⦄ argument? stage ts ⦃⇓? f => ⌜Leaves ts f.rest⌝⦄ := by
  unfold argument?
  mvcgen [expression?_leaves, item?_leaves]
  all_goals grind -linarith
termination_by 30 * ts.length + 22
decreasing_by
  all_goals
    repeat (rename ∀ _, InvImage (· < ·) _ _ _ → _ => ih; clear ih)
    grind -linarith

theorem slices?_leaves (ts : List Token) :
    ⦃⌜True⌝⦄ slices? ts ⦃⇓? f => ⌜Leaves ts f.rest⌝⦄ := by
  unfold slices?
  mvcgen [slices?_leaves, slice?_leaves]
  all_goals grind -linarith
termination_by 30 * ts.length + 24
decreasing_by
  all_goals
    repeat (rename ∀ _, InvImage (· < ·) _ _ _ → _ => ih; clear ih)
    grind -linarith

theorem slice?_leaves (ts : List Token) :
    ⦃⌜True⌝⦄ slice? ts ⦃⇓? f => ⌜Leaves ts f.rest⌝⦄ := by
  unfold slice?
  mvcgen [bounds?_leaves, expression?_leaves, item?_leaves]
  all_goals grind -linarith
termination_by 30 * ts.length + 22
decreasing_by
  all_goals
    repeat (rename ∀ _, InvImage (· < ·) _ _ _ → _ => ih; clear ih)
    grind -linarith

theorem bounds?_leaves (ts : List Token) :
    ⦃⌜True⌝⦄ bounds? ts ⦃⇓? f => ⌜Leaves ts f.rest⌝⦄ := by
  unfold bounds?
  mvcgen [bound?_leaves]
  all_goals grind -linarith
termination_by 30 * ts.length + 1
decreasing_by
  all_goals
    repeat (rename ∀ _, InvImage (· < ·) _ _ _ → _ => ih; clear ih)
    grind -linarith

theorem bound?_leaves (ts : List Token) :
    ⦃⌜True⌝⦄ bound? ts ⦃⇓? f => ⌜Leaves ts f.rest⌝⦄ := by
  unfold bound?
  mvcgen [expression?_leaves]
  all_goals grind -linarith
termination_by 30 * ts.length + 20
decreasing_by
  all_goals
    repeat (rename ∀ _, InvImage (· < ·) _ _ _ → _ => ih; clear ih)
    grind -linarith

theorem power?_leaves (ts : List Token) :
    ⦃⌜True⌝⦄ power? ts ⦃⇓? f => ⌜Leaves ts f.rest⌝⦄ := by
  unfold power?
  mvcgen [primary?_leaves, operation?_leaves]
  all_goals grind -linarith
termination_by 30 * ts.length + 4
decreasing_by
  all_goals
    repeat (rename ∀ _, InvImage (· < ·) _ _ _ → _ => ih; clear ih)
    grind -linarith

theorem operation?_leaves (l : Level) (ts : List Token) :
    ⦃⌜True⌝⦄ operation? l ts ⦃⇓? f => ⌜Leaves ts f.rest⌝⦄ := by
  unfold operation?
  mvcgen [power?_leaves, operation?_leaves, operations?_leaves]
  all_goals grind -linarith
termination_by 30 * ts.length + 5 + l.tighter
decreasing_by
  all_goals
    repeat (rename ∀ _, InvImage (· < ·) _ _ _ → _ => ih; clear ih)
    grind -linarith

theorem operations?_leaves (l : Level) (e : Expr) (ts : List Token) :
    ⦃⌜True⌝⦄ operations? l e ts ⦃⇓? f => ⌜Leaves ts f.rest⌝⦄ := by
  unfold operations?
  mvcgen [operation?_leaves, operations?_leaves]
  all_goals grind -linarith
termination_by 30 * ts.length
decreasing_by
  all_goals
    repeat (rename ∀ _, InvImage (· < ·) _ _ _ → _ => ih; clear ih)
    grind -linarith

theorem expression?_leaves (ts : List Token) :
    ⦃⌜True⌝⦄ expression? ts ⦃⇓? f => ⌜Leaves ts f.rest⌝⦄ := by
  unfold expression?
  mvcgen [operation?_leaves, expression?_leaves, parameters?_leaves]
  all_goals grind -linarith
termination_by 30 * ts.length + 17
decreasing_by
  all_goals
    repeat (rename ∀ _, InvImage (· < ·) _ _ _ → _ => ih; clear ih)
    grind -linarith

theorem item?_leaves (named : Bool) (ts : List Token) :
    ⦃⌜True⌝⦄ item? named ts ⦃⇓? f => ⌜Leaves ts f.rest⌝⦄ := by
  unfold item?
  mvcgen [operation?_leaves, expression?_leaves]
  all_goals grind -linarith
termination_by 30 * ts.length + 18
decreasing_by
  all_goals
    repeat (rename ∀ _, InvImage (· < ·) _ _ _ → _ => ih; clear ih)
    grind -linarith

theorem items?_leaves (named : Bool) (ts : List Token) :
    ⦃⌜True⌝⦄ items? named ts ⦃⇓? f => ⌜Leaves ts f.rest⌝⦄ := by
  unfold items?
  mvcgen [item?_leaves, items?_leaves]
  all_goals grind -linarith
termination_by 30 * ts.length + 20
decreasing_by
  all_goals
    repeat (rename ∀ _, InvImage (· < ·) _ _ _ → _ => ih; clear ih)
    grind -linarith

theorem yield?_leaves (ts : List Token) :
    ⦃⌜True⌝⦄ yield? ts ⦃⇓? f => ⌜Leaves ts f.rest⌝⦄ := by
  unfold yield?
  mvcgen [expression?_leaves, items?_leaves]
  all_goals grind -linarith
termination_by 30 * ts.length
decreasing_by
  all_goals
    repeat (rename ∀ _, InvImage (· < ·) _ _ _ → _ => ih; clear ih)
    grind -linarith

theorem parameters?_leaves (annotated : Bool) (stage : ParameterStage) (ts : List Token) :
    ⦃⌜True⌝⦄ parameters? annotated stage ts ⦃⇓? f => ⌜Leaves ts f.rest⌝⦄ := by
  unfold parameters?
  mvcgen [expression?_leaves, parametersAfter?_leaves, parameterType?_leaves]
  all_goals grind -linarith
termination_by 30 * ts.length + 1
decreasing_by
  all_goals
    repeat (rename ∀ _, InvImage (· < ·) _ _ _ → _ => ih; clear ih)
    grind -linarith

theorem parametersAfter?_leaves (annotated : Bool) (stage : ParameterStage) (ts r : List Token)
    (h : r.length < ts.length) (hr : Leaves ts r) :
    ⦃⌜True⌝⦄ parametersAfter? annotated stage ts r h ⦃⇓? f => ⌜Leaves ts f.rest⌝⦄ := by
  unfold parametersAfter?
  mvcgen [parameters?_leaves]
  all_goals grind -linarith
termination_by 30 * r.length
decreasing_by
  all_goals
    repeat (rename ∀ _, InvImage (· < ·) _ _ _ → _ => ih; clear ih)
    grind -linarith

theorem parameterType?_leaves (annotated star : Bool) (ts : List Token) :
    ⦃⌜True⌝⦄ parameterType? annotated star ts ⦃⇓? f => ⌜Leaves ts f.rest⌝⦄ := by
  unfold parameterType?
  mvcgen [operation?_leaves, expression?_leaves]
  all_goals grind -linarith
termination_by 30 * ts.length
decreasing_by
  all_goals
    repeat (rename ∀ _, InvImage (· < ·) _ _ _ → _ => ih; clear ih)
    grind -linarith

end

/-! ### Patterns -/

theorem captured?_leaves (ts : List Token) :
    ⦃⌜True⌝⦄ captured? ts ⦃⇓? f => ⌜Leaves ts f.rest⌝⦄ := by
  unfold captured?
  mvcgen

theorem signedNumber?_leaves (ts : List Token) :
    ⦃⌜True⌝⦄ signedNumber? ts ⦃⇓? f => ⌜Leaves ts f.rest⌝⦄ := by
  apply triple_of_forall
  intro f hf
  unfold signedNumber? at hf
  grind -linarith

theorem numberPattern?_leaves (ts : List Token) :
    ⦃⌜True⌝⦄ numberPattern? ts ⦃⇓? f => ⌜Leaves ts f.rest⌝⦄ := by
  unfold numberPattern?
  mvcgen [signedNumber?_leaves]
  all_goals grind -linarith [Option.or_eq_some_iff]

theorem attributes?_leaves (ts : List Token) :
    ⦃⌜True⌝⦄ attributes? ts ⦃⇓? f => ⌜Leaves ts f.rest⌝⦄ := by
  match ts with
  | [] =>
    unfold attributes?
    mvcgen
    all_goals grind -linarith
  | t :: r =>
    unfold attributes?
    mvcgen [attributes?_leaves]
    all_goals grind -linarith
termination_by ts.length
decreasing_by all_goals grind -linarith

theorem literals_leaves (ts : List Token) :
    ⦃⌜True⌝⦄ literalPattern?.literals ts ⦃⇓? f => ⌜Leaves ts f.rest⌝⦄ := by
  unfold literalPattern?.literals
  mvcgen [strings?_leaves]

theorem literalPattern?_leaves (ts : List Token) :
    ⦃⌜True⌝⦄ literalPattern? ts ⦃⇓? f => ⌜Leaves ts f.rest⌝⦄ := by
  match ts with
  | [] =>
    unfold literalPattern?
    mvcgen
  | t :: r =>
    unfold literalPattern?
    mvcgen [numberPattern?_leaves, literals_leaves]
    all_goals grind -linarith

theorem key?_leaves (ts : List Token) :
    ⦃⌜True⌝⦄ key? ts ⦃⇓? f => ⌜Leaves ts f.rest⌝⦄ := by
  unfold key?
  mvcgen [literalPattern?_leaves, attributes?_leaves]
  all_goals grind -linarith

@[grind →]
theorem afterClosing?_leaves {closing : Option Bracket} {ts : List Token} {f : Reached Unit ts}
    (h : afterClosing? closing ts = some f) : Leaves ts f.rest := by
  unfold afterClosing? at h
  grind [Option.map_eq_some_iff]

mutual

theorem elements?_leaves (closing : Option Bracket) (ts : List Token) :
    ⦃⌜True⌝⦄ elements? closing ts ⦃⇓? f => ⌜Leaves ts f.rest⌝⦄ := by
  unfold elements?
  mvcgen [elements?_leaves, element?_leaves]
  all_goals grind -linarith
termination_by 10 * ts.length + 6
decreasing_by all_goals grind -linarith

theorem element?_leaves (ts : List Token) :
    ⦃⌜True⌝⦄ element? ts ⦃⇓? f => ⌜Leaves ts f.rest⌝⦄ := by
  unfold element?
  mvcgen [pattern?_leaves]
  all_goals grind -linarith
termination_by 10 * ts.length + 5
decreasing_by all_goals grind -linarith

theorem pattern?_leaves (ts : List Token) :
    ⦃⌜True⌝⦄ pattern? ts ⦃⇓? f => ⌜Leaves ts f.rest⌝⦄ := by
  unfold pattern?
  mvcgen [alternatives?_leaves, captured?_leaves]
  all_goals grind -linarith
termination_by 10 * ts.length + 4
decreasing_by all_goals grind -linarith

theorem alternatives?_leaves (ts : List Token) :
    ⦃⌜True⌝⦄ alternatives? ts ⦃⇓? f => ⌜Leaves ts f.rest⌝⦄ := by
  unfold alternatives?
  mvcgen [alternatives?_leaves, closedPattern?_leaves]
  all_goals grind -linarith
termination_by 10 * ts.length + 3
decreasing_by all_goals grind -linarith

theorem closedPattern?_leaves (ts : List Token) :
    ⦃⌜True⌝⦄ closedPattern? ts ⦃⇓? f => ⌜Leaves ts f.rest⌝⦄ := by
  match ts with
  | [] =>
    unfold closedPattern?
    mvcgen
  | t :: r =>
    unfold closedPattern?
    mvcgen [elements?_leaves, element?_leaves, classPattern?_leaves, mappingPattern?_leaves,
      literalPattern?_leaves, attributes?_leaves]
    all_goals grind -linarith
termination_by 10 * ts.length + 2
decreasing_by all_goals grind -linarith

theorem classPattern?_leaves (named : Bool) (ts : List Token) :
    ⦃⌜True⌝⦄ classPattern? named ts ⦃⇓? f => ⌜Leaves ts f.rest⌝⦄ := by
  unfold classPattern?
  mvcgen [pattern?_leaves, classPattern?_leaves]
  all_goals grind -linarith
termination_by 10 * ts.length + 5
decreasing_by all_goals grind -linarith

theorem mappingPattern?_leaves (ts : List Token) :
    ⦃⌜True⌝⦄ mappingPattern? ts ⦃⇓? f => ⌜Leaves ts f.rest⌝⦄ := by
  unfold mappingPattern?
  mvcgen [pattern?_leaves, mappingPattern?_leaves, key?_leaves, captured?_leaves]
  all_goals grind -linarith
termination_by 10 * ts.length + 5
decreasing_by all_goals grind -linarith

end

theorem openPattern?_leaves (ts : List Token) :
    ⦃⌜True⌝⦄ openPattern? ts ⦃⇓? f => ⌜Leaves ts f.rest⌝⦄ := by
  unfold openPattern?
  mvcgen [elements?_leaves, element?_leaves]
  all_goals grind -linarith

/-! ### Simple statements -/

theorem dottedName?_leaves (ts : List Token) :
    ⦃⌜True⌝⦄ dottedName? ts ⦃⇓? f => ⌜Leaves ts f.rest⌝⦄ := by
  unfold dottedName?
  mvcgen [dottedName?_leaves]
  all_goals grind -linarith
termination_by ts.length
decreasing_by all_goals grind -linarith

theorem alias?_leaves (ts : List Token) :
    ⦃⌜True⌝⦄ alias? ts ⦃⇓? f => ⌜Leaves ts f.rest⌝⦄ := by
  unfold alias?
  mvcgen
  all_goals grind -linarith

theorem importedModules?_leaves (ts : List Token) :
    ⦃⌜True⌝⦄ importedModules? ts ⦃⇓? f => ⌜Leaves ts f.rest⌝⦄ := by
  unfold importedModules?
  mvcgen [importedModules?_leaves, alias?_leaves, dottedName?_leaves]
  all_goals grind -linarith
termination_by ts.length
decreasing_by all_goals grind -linarith

theorem importedNames?_leaves (trailing : Bool) (ts : List Token) :
    ⦃⌜True⌝⦄ importedNames? trailing ts ⦃⇓? f => ⌜Leaves ts f.rest⌝⦄ := by
  unfold importedNames?
  mvcgen [importedNames?_leaves, alias?_leaves]
  all_goals grind -linarith
termination_by ts.length
decreasing_by all_goals grind -linarith

theorem importList?_leaves (ts : List Token) :
    ⦃⌜True⌝⦄ importList? ts ⦃⇓? f => ⌜Leaves ts f.rest⌝⦄ := by
  unfold importList?
  mvcgen [importedNames?_leaves]
  all_goals grind -linarith

theorem leaves_leadingDots (ts : List Token) : Leaves ts (leadingDots ts).rest := by
  induction ts with
  | nil => exact .refl []
  | cons t r ih =>
    unfold leadingDots
    grind

@[spec]
theorem further?_leaves {mark : TokenKind} (hmark : mark.isLayout = false) (ts : List Token) :
    ⦃⌜True⌝⦄ further? mark ts ⦃⇓? f => ⌜Leaves ts f.rest⌝⦄ := by
  match ts with
  | [] =>
    unfold further?
    mvcgen
    all_goals grind -linarith
  | t :: r =>
    unfold further?
    mvcgen [expression?_leaves]
    all_goals grind -linarith

theorem importNames?_leaves (ts : List Token) :
    ⦃⌜True⌝⦄ importNames? ts ⦃⇓? f => ⌜Leaves ts f.rest⌝⦄ := by
  have hdots := leaves_leadingDots ts
  have hname : ∀ r f, dottedName? r = some f → Leaves r f.rest :=
    fun r f => of_triple (dottedName?_leaves r)
  unfold importNames?
  mvcgen [importList?_leaves]
  all_goals grind -linarith

theorem assigned?_leaves (ts : List Token) :
    ⦃⌜True⌝⦄ assigned? ts ⦃⇓? f => ⌜Leaves ts f.rest⌝⦄ := by
  unfold assigned?
  mvcgen [items?_leaves, yield?_leaves]

theorem assignment?_leaves (e : Expr) (ts : List Token) :
    ⦃⌜True⌝⦄ assignment? e ts ⦃⇓? f => ⌜Leaves ts f.rest⌝⦄ := by
  unfold assignment?
  mvcgen [assignment?_leaves, assigned?_leaves]
  all_goals grind -linarith
termination_by ts.length
decreasing_by all_goals grind -linarith

theorem initial?_leaves (ts : List Token) :
    ⦃⌜True⌝⦄ initial? ts ⦃⇓? f => ⌜Leaves ts f.rest⌝⦄ := by
  unfold initial?
  mvcgen [assigned?_leaves]
  all_goals grind -linarith

theorem expressionStatement?_leaves (ts : List Token) :
    ⦃⌜True⌝⦄ expressionStatement? ts ⦃⇓? f => ⌜Leaves ts f.rest⌝⦄ := by
  unfold expressionStatement?
  mvcgen [initial?_leaves, assignment?_leaves, assigned?_leaves, expression?_leaves, items?_leaves]
  all_goals grind -linarith

theorem nameList?_leaves (ts : List Token) :
    ⦃⌜True⌝⦄ nameList? ts ⦃⇓? f => ⌜Leaves ts f.rest⌝⦄ := by
  unfold nameList?
  mvcgen [nameList?_leaves]
  all_goals grind -linarith
termination_by ts.length
decreasing_by all_goals grind -linarith

theorem raised?_leaves (ts : List Token) :
    ⦃⌜True⌝⦄ raised? ts ⦃⇓? f => ⌜Leaves ts f.rest⌝⦄ := by
  unfold raised?
  mvcgen [expression?_leaves]
  all_goals grind -linarith

theorem returned?_leaves (ts : List Token) :
    ⦃⌜True⌝⦄ returned? ts ⦃⇓? f => ⌜Leaves ts f.rest⌝⦄ := by
  unfold returned?
  mvcgen [items?_leaves]
  all_goals grind -linarith

theorem deleted?_leaves (ts : List Token) :
    ⦃⌜True⌝⦄ deleted? ts ⦃⇓? f => ⌜Leaves ts f.rest⌝⦄ := by
  unfold deleted?
  mvcgen [places?_leaves]

theorem simpleStatement?_leaves (ts : List Token) :
    ⦃⌜True⌝⦄ simpleStatement? ts ⦃⇓? f => ⌜Leaves ts f.rest⌝⦄ := by
  match ts with
  | [] =>
    unfold simpleStatement?
    mvcgen
  | t :: r =>
    unfold simpleStatement?
    mvcgen [deleted?_leaves, returned?_leaves, raised?_leaves, nameList?_leaves,
      expressionStatement?_leaves, importNames?_leaves, importedModules?_leaves,
      expression?_leaves, yield?_leaves]
    all_goals grind -linarith

end TypedQueries.Source
