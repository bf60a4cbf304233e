import TypedQueries.Table
import TypedQueries.Directive
import TypedQueries.TypeObject
import TypedQueries.ParamSet.Basic
import TypedQueries.ParamSet.Error
import TypedQueries.ParamSet.ClassName

/-!
# Building parameter sets

The directives of a query are added one by one. The first occurrence of a name makes a field and
fixes its type; later ones repeat that type or use the wildcard, and add an occurrence to the field,
which is found by the position that is kept for its name. Adding leaves a builder behind also when
the directive does not fit. Each step also reports the type names it looked up, so that the calls of
the resolver can be observed.
-/

namespace TypedQueries

/-- What a type name stands for, as seen from one module. -/
abbrev Resolver := Text → Option TypeObject

/-- A result together with the type names that were looked up for it, in order. -/
structure Resolved (α : Type) where
  result : α
  lookups : List Text

/-- The format that follows from a type alone; a nullable type has none. -/
def inferFormat (resolve : Resolver) (field typeName : Text) :
    Resolved (Except DirectiveError Text) :=
  let (nullable, base) :=
    match typeName with
    | '*' :: r => (true, r)
    | t => (false, t)
  let result :=
    match resolve base with
    | none => .error (.unresolvedType field base)
    | some object =>
      if !object.isType then .error (.notAType field base)
      else if nullable then .error (.unformattableType field typeName)
      else
        match object.underlying.bind Kind.format? with
        | some spec => .ok spec
        | none => .error (.unformattableType field typeName)
  ⟨result, [base]⟩

/-- The fields gathered so far, in the order of their first occurrence, and the position of each
name among them. -/
@[ext]
structure ParamSet.Builder where
  fields : List Field
  positions : Table Text Nat
  inRange : ∀ name i, positions.get? name = some i → i < fields.length

namespace ParamSet.Builder

def empty : Builder := ⟨[], .empty, fun _ _ h => by cases h⟩

def position? (b : Builder) (name : Text) : Option (Fin b.fields.length) :=
  (b.positions.get? name).pmap Fin.mk (b.inRange name)

def push (b : Builder) (field : Field) : Builder where
  fields := b.fields ++ [field]
  positions := b.positions.insert field.name b.fields.length
  inRange := by
    intro name i h
    rw [Table.get?_insert] at h
    rw [List.length_append, List.length_singleton]
    split at h
    · cases h
      exact Nat.lt_succ_self _
    · exact Nat.lt_succ_of_lt (b.inRange name i h)

def pushOccurrence (b : Builder) (position : Fin b.fields.length) (s : Substitution) : Builder where
  fields :=
    let field := b.fields[position]
    b.fields.set position { field with substitutions := field.substitutions ++ [s] }
  positions := b.positions
  inRange := by
    intro name i h
    rw [List.length_set]
    exact b.inRange name i h

/-- What adding a directive comes to. -/
structure Added where
  /-- The builder afterwards, whether or not the directive fits. -/
  builder : Builder
  fault? : Option DirectiveError
  lookups : List Text

/-- The builder afterwards, provided that the directive fits. -/
def Added.result (a : Added) : Except DirectiveError Builder :=
  match a.fault? with
  | some e => .error e
  | none => .ok a.builder

/-- Makes a change that needs a format, once this has been found. -/
def change (b : Builder) (format : Resolved (Except DirectiveError Text)) (f : Text → Builder) :
    Added :=
  match format.result with
  | .error e => ⟨b, some e, format.lookups⟩
  | .ok spec => ⟨f spec, none, format.lookups⟩

/-- The format of a directive whose field has type `typeName`: its own, or the inferred one. An
empty format counts as none. -/
def format (resolve : Resolver) (d : Directive) (typeName : Text) :
    Resolved (Except DirectiveError Text) :=
  match d.format with
  | some (c :: spec) => ⟨.ok (c :: spec), []⟩
  | _ => inferFormat resolve d.name typeName

def introduce (resolve : Resolver) (b : Builder) (index : Int) (d : Directive) : Added :=
  if d.isWildcard then ⟨b, some (.firstOccurrenceRequiresType d.name), []⟩
  else
    b.change (format resolve d d.typeName) fun spec =>
      b.push ⟨d.name, d.typeName, [⟨index, spec⟩]⟩

def repeatField (resolve : Resolver) (b : Builder) (position : Fin b.fields.length) (index : Int)
    (d : Directive) : Added :=
  let field := b.fields[position]
  if !d.isWildcard && d.typeName ≠ field.typeName then
    ⟨b, some (.typeConflict field.name field.typeName d.typeName), []⟩
  else
    b.change (format resolve d field.typeName) fun spec => b.pushOccurrence position ⟨index, spec⟩

/-- Adds a directive that stands at `index` in its query. -/
def add (resolve : Resolver) (b : Builder) (index : Int) (d : Directive) : Added :=
  match b.position? d.name with
  | none => introduce resolve b index d
  | some position => repeatField resolve b position index d

def build (b : Builder) (queryName suffix : Text) : Option ParamSet :=
  if b.fields.isEmpty then none else some ⟨ClassName.ofQuery queryName suffix, b.fields⟩

/-- Adds directives one after the other, the first of them at `index`, up to the first that does
not fit. -/
def addAll (resolve : Resolver) (b : Builder) (index : Nat) :
    List Directive → Resolved (Except DirectiveError Builder)
  | [] => ⟨.ok b, []⟩
  | d :: ds =>
    let step := add resolve b index d
    match step.result with
    | .error e => ⟨.error e, step.lookups⟩
    | .ok b' =>
      let rest := addAll resolve b' (index + 1) ds
      ⟨rest.result, step.lookups ++ rest.lookups⟩

end ParamSet.Builder

namespace ParamSet

/-- The parameter set of a query with the given directives: the fault of the first directive that
does not fit, or none when there are no directives. -/
def ofDirectives (resolve : Resolver) (queryName suffix : Text) (ds : List Directive) :
    Resolved (Except DirectiveError (Option ParamSet)) :=
  let all := Builder.addAll resolve .empty 0 ds
  ⟨all.result.map fun b => b.build queryName suffix, all.lookups⟩

end ParamSet

end TypedQueries
