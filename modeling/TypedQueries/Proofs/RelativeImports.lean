import TypedQueries.Package.ModuleName
import TypedQueries.Proofs.Naming

/-!
# Relative imports

A relative import starts from the package of its module, climbs one package for each dot after the
first, and goes down from there along the name that it gives. An import that climbs past the top
has nothing to start from, and refers to the name that it gives alone. Every import that stays
within the package keeps that rule, and so does one that climbs at least twice as far as the
package is deep; one in between comes to stand on a component of the package from which it should
have fallen off.
-/

namespace TypedQueries

namespace Text

theorem join_append (sep : Char) {vs ws : List Text} (hv : vs ≠ []) (hw : ws ≠ []) :
    join [sep] (vs ++ ws) = join [sep] vs ++ sep :: join [sep] ws := by
  obtain ⟨w, ws, rfl⟩ := List.exists_cons_of_ne_nil hw
  induction vs with
  | nil => exact absurd rfl hv
  | cons v vs ih =>
    cases vs with
    | nil => exact join_cons_cons [sep] v w ws
    | cons u us =>
      rw [List.cons_append, List.cons_append, join_cons_cons, ← List.cons_append,
        ih (List.cons_ne_nil u us), join_cons_cons]
      simp

theorem join_eq_nil_iff {sep : Char} {ws : List Text} :
    join [sep] ws = [] ↔ ws = [] ∨ ws = [[]] := by
  cases ws with
  | nil => simp [join]
  | cons w ws =>
    cases ws with
    | nil => simp [join]
    | cons v vs => simp [join_cons_cons]

end Text

namespace ModuleName

open Text

/-! ### The rule -/

/-- The components of the package that the imports of a module start from: of the module itself if
it is a package, and of the package that it lies in otherwise. -/
def packageOf (module : Text) (isPackage : Bool) : List Text :=
  if isPackage then splitOn '.' module else (splitOn '.' module).dropLast

def given (source : Option Text) : List Text :=
  if source.getD [] = [] then [] else splitOn '.' (source.getD [])

/-- What an import refers to by the rule of relative imports, when it climbs `above` packages up. -/
structure FollowsRule (package : List Text) (above : Nat) (source : Option Text) (target : Text) :
    Prop where
  within : ∀ kept left, package = kept ++ left → left.length = above →
    target = join ['.'] (kept ++ given source)
  /-- Past the top there is nothing to go down from. -/
  beyond : package.length < above → target = source.getD []

theorem join_given (source : Option Text) : join ['.'] (given source) = source.getD [] := by
  unfold given
  split
  · rename_i h
    rw [h]
    rfl
  · exact join_splitOn '.' _

theorem given_ne_nil {source : Option Text} (h : source.getD [] ≠ []) : given source ≠ [] := by
  rw [given, if_neg h]
  exact splitOn_ne_nil '.' _

/-- What is joined with components before it is the name that is given only where this name and the
components are empty. -/
theorem join_append_given_eq_iff {kept : List Text} {source : Option Text} :
    join ['.'] (kept ++ given source) = source.getD [] ↔
      kept = [] ∨ (source.getD [] = [] ∧ kept = [[]]) := by
  by_cases hkept : kept = []
  · simp [hkept, join_given]
  by_cases hsource : source.getD [] = []
  · have hnone : given source = [] := by rw [given, if_pos hsource]
    rw [hnone, List.append_nil, hsource, join_eq_nil_iff]
    simp
  · refine iff_of_false (fun heq => ?_) (by simp [hkept, hsource])
    rw [join_append '.' hkept (given_ne_nil hsource), join_given] at heq
    have hlength := congrArg List.length heq
    rw [List.length_append, List.length_cons] at hlength
    omega

/-! ### Imports -/

/-- A relative import climbs from its package, and goes down along the name that it gives. -/
theorem resolveImport_succ (module : Text) (isPackage : Bool) (above : Nat)
    (source : Option Text) :
    resolveImport module isPackage (above + 1) source =
      join ['.'] (climb above (packageOf module isPackage) ++ given source) := by
  rw [resolveImport, if_neg (Nat.succ_ne_zero above), Nat.add_sub_cancel]
  unfold packageOf given
  dsimp only
  split <;> simp

theorem climb_of_append {kept left : List Text} : climb left.length (kept ++ left) = kept := by
  have hle : left.length ≤ (kept ++ left).length := by simp
  rw [climb, if_pos hle, List.length_append, Nat.add_sub_cancel, List.take_left]

theorem climb_zero (parts : List Text) : climb 0 parts = parts := by
  rw [climb, if_pos (Nat.zero_le _), Nat.sub_zero, List.take_length]

theorem climb_of_lt {parts : List Text} {n : Nat} (h : parts.length < n) :
    climb n parts = parts.take (2 * parts.length - n) := if_neg (Nat.not_le.2 h)

/-- What an import refers to follows the rule as long as it stays within the package. -/
theorem followsRule_of_le {package : List Text} {above : Nat} (h : above ≤ package.length)
    (source : Option Text) :
    FollowsRule package above source (join ['.'] (climb above package ++ given source)) := by
  constructor
  · rintro kept left rfl rfl
    rw [climb_of_append]
  · exact fun hlt => absurd h (Nat.not_le.2 hlt)

/-- Past the top, the rule asks for the name that is given alone. -/
theorem followsRule_iff_of_lt {package : List Text} {above : Nat} (h : package.length < above)
    (source : Option Text) (target : Text) :
    FollowsRule package above source target ↔ target = source.getD [] := by
  refine ⟨fun hrule => hrule.beyond h, fun heq => ⟨?_, fun _ => heq⟩⟩
  rintro kept left rfl rfl
  rw [List.length_append] at h
  omega

/-- A relative import follows the rule exactly if it stays within its package, or climbs at least
twice as far as the package is deep; or if it gives no name, and the one component that it is left
with is empty. Any other one that climbs past the top refers to what it gives below components that
the package begins with. -/
theorem resolveImport_follows_iff (module : Text) (isPackage : Bool) (above : Nat)
    (source : Option Text) :
    let package := packageOf module isPackage
    let target := resolveImport module isPackage (above + 1) source
    (FollowsRule package above source target ↔
      above ≤ package.length ∨ 2 * package.length ≤ above ∨
        (source.getD [] = [] ∧ package.take (2 * package.length - above) = [[]])) ∧
      (package.length < above →
        target = join ['.'] (package.take (2 * package.length - above) ++ given source)) := by
  intro package target
  have htarget : target = join ['.'] (climb above package ++ given source) :=
    resolveImport_succ module isPackage above source
  rw [htarget]
  rcases Nat.lt_or_ge package.length above with hpast | hwithin
  · rw [climb_of_lt hpast]
    refine ⟨?_, fun _ => rfl⟩
    have hnone : package.take (2 * package.length - above) = [] ↔ 2 * package.length ≤ above := by
      rw [List.take_eq_nil_iff, ← List.length_eq_zero_iff]
      omega
    rw [followsRule_iff_of_lt hpast, join_append_given_eq_iff, hnone]
    exact (or_iff_right (Nat.not_le.2 hpast)).symm
  · exact ⟨iff_of_true (followsRule_of_le hwithin source) (.inl hwithin),
      fun hpast => absurd hwithin (Nat.not_le.2 hpast)⟩

/-- In a package of two components, an import with four dots climbs past the top, and yet refers to
a name below the first of them. -/
theorem resolveImport_past_the_top :
    ¬FollowsRule (packageOf "app.sub.m" false) 3 (some "x")
        (resolveImport "app.sub.m" false 4 (some "x")) ∧
      resolveImport "app.sub.m" false 4 (some "x") = "app.x" := by
  have hbelow : resolveImport "app.sub.m" false 4 (some "x") = "app.x" := by decide
  refine ⟨fun hrule => ?_, hbelow⟩
  have hgiven := hrule.beyond (by decide)
  rw [hbelow] at hgiven
  exact absurd hgiven (by decide)

end ModuleName

end TypedQueries
