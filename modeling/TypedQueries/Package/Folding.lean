import TypedQueries.Package.Basic

/-!
# Folding constants

The text that an expression of a module has, as far as it is made of literals, sums and names of
constants, here or in other modules of the package. A name whose own text is being sought has
none, so definitions in a cycle have none.

What a fold does on the way is kept as a list of events: which modules it consults, which names it
begins and ends to seek, and where it meets a cycle.
-/

namespace TypedQueries

open Source

inductive FoldEvent where
  /-- The index of a module is used. -/
  | consulted (module : Text)
  /-- The text of a name begins to be sought. -/
  | entered (k : Key)
  /-- The text of a name is no longer sought. -/
  | left (k : Key)
  /-- A name is met whose text is being sought. -/
  | cyclic (k : Key)
deriving DecidableEq

structure Folding where
  /-- The text, if there is one. -/
  value : Option Text
  events : List FoldEvent

/-- The size of an expression, as far as folding follows it. -/
def Source.Expr.weight : Expr → Nat
  | .sum l r => l.weight + r.weight + 1
  | _ => 1

namespace Package

def totalWeight (es : List Expr) : Nat := es.foldr (fun e n => e.weight + n) 0

theorem weight_le_totalWeight {e : Expr} {es : List Expr} (h : e ∈ es) :
    e.weight ≤ totalWeight es := by
  induction es with
  | nil => simp at h
  | cons d es ih =>
    have hc : totalWeight (d :: es) = d.weight + totalWeight es := rfl
    rcases List.mem_cons.1 h with rfl | h
    · omega
    · have := ih h
      omega

def expressions (p : Package) : List Expr :=
  p.files.entries.flatMap fun (_, f) => f.index.values.entries.map (·.2)

/-- More than the size of any expression that defines a name of the package. -/
def weightBound (p : Package) : Nat := 1 + totalWeight p.expressions

theorem weight_lt_bound {p : Package} {module name : Text} {idx : DefinitionIndex} {e : Expr}
    (hi : p.index? module = some idx) (h : idx.values.get? name = some e) :
    e.weight < p.weightBound := by
  obtain ⟨f, hf, rfl⟩ := Option.map_eq_some_iff.1 hi
  have he : e ∈ f.index.values.entries.map (·.2) :=
    List.mem_map.2 ⟨(name, e), Table.mem_of_get? h, rfl⟩
  have hp : e ∈ p.expressions := List.mem_flatMap.2 ⟨(module, f), Table.mem_of_get? hf, he⟩
  have hw := weight_le_totalWeight hp
  unfold weightBound
  omega

/-- The module that a name of `module` refers to, provided that it is a loaded one. -/
def importedModule? (p : Package) (module name : Text) : Option Text :=
  match (p.index? module).bind fun idx => idx.imports.get? name with
  | none => none
  | some t =>
    let path :=
      match t.member with
      | none => t.module
      | some a => t.module ++ '.' :: a
    if p.isLoaded path then some path else none

/-- The event of consulting a module, which only a loaded one gives rise to. -/
def consulting (p : Package) (module : Text) : List FoldEvent :=
  if p.isLoaded module then [.consulted module] else []

def entering (k : Key) (f : Folding) : Folding := ⟨f.value, .entered k :: f.events ++ [.left k]⟩

def append (a : Folding) (b : Unit → Folding) : Folding :=
  match a.value with
  | none => a
  | some s =>
    let b := b ()
    ⟨b.value.map (s ++ ·), a.events ++ b.events⟩

/-- A step of folding leaves less to do: fewer names that can be sought, whatever the sizes. -/
theorem measure_lt {r r' b w : Nat} (hr : r' < r) (hw : w < b) : r' * b + w < r * b := by
  have h1 : r' * b + b ≤ r * b := by
    have := Nat.mul_le_mul_right b hr
    rwa [Nat.succ_mul] at this
  omega

mutual

/-- The text of an expression as seen from a module, while the texts of some names are being
sought. -/
def fold (p : Package) (inProgress : List Key) (module : Text) (e : Expr) : Folding :=
  match e with
  | .text v => ⟨some v, []⟩
  | .sum l r =>
    append (fold p inProgress module l) fun _ => fold p inProgress module r
  | .name w _ => foldName p inProgress ⟨module, w⟩
  | .attribute (.name w _) field =>
    match p.importedModule? module w with
    | none => ⟨none, p.consulting module⟩
    | some target =>
      let f := foldName p inProgress ⟨target, field⟩
      ⟨f.value, p.consulting module ++ f.events⟩
  | _ => ⟨none, []⟩
termination_by p.remaining inProgress * p.weightBound + e.weight
decreasing_by
  all_goals simp only [Source.Expr.weight]
  all_goals omega

def foldName (p : Package) (inProgress : List Key) (k : Key) : Folding :=
  match _hi : p.index? k.module with
  | none => ⟨none, []⟩
  | some idx =>
    let f :=
      if _hk : k ∈ inProgress then ⟨none, [.cyclic k]⟩
      else
        match _hv : idx.values.get? k.name with
        | some e => entering k (fold p (k :: inProgress) k.module e)
        | none =>
          match _ht : idx.imports.get? k.name with
          | some ⟨target, some member⟩ =>
            if p.isLoaded target then entering k (foldName p (k :: inProgress) ⟨target, member⟩)
            else ⟨none, []⟩
          | _ => ⟨none, []⟩
    ⟨f.value, .consulted k.module :: f.events⟩
termination_by p.remaining inProgress * p.weightBound
decreasing_by
  · exact measure_lt (remaining_cons_lt (mem_keys_of_value _hi _hv) _hk) (weight_lt_bound _hi _hv)
  · have h := measure_lt (remaining_cons_lt (mem_keys_of_import _hi _ht) _hk)
      (show 0 < p.weightBound by unfold weightBound; omega)
    simpa using h

end

end Package

namespace FoldEvent

/-- The names whose texts are being sought after an event. -/
def apply (inProgress : List Key) : FoldEvent → List Key
  | entered k => if k ∈ inProgress then inProgress else k :: inProgress
  | left k => inProgress.filter (· ≠ k)
  | _ => inProgress

/-- The names whose texts are being sought after some events. -/
def replay (inProgress : List Key) (events : List FoldEvent) : List Key :=
  events.foldl apply inProgress

end FoldEvent

end TypedQueries
