import TypedQueries.Table
import TypedQueries.TypeObject
import TypedQueries.Package.ModuleName
import TypedQueries.Source.Statement.Basic

/-!
# Definition indices

What the names of a module stand for, as far as its top-level statements tell: values, types,
imported names and others. A name that is assigned more than once is a variable and has no value.
-/

namespace TypedQueries

open Source

structure ImportTarget where
  module : Text
  member : Option Text
deriving DecidableEq

/-- What a name stands for, besides its value or instead of one. -/
inductive OtherKind where
  | function
  /-- A name that is given several values. -/
  | variable_
  | constant
deriving DecidableEq

def OtherKind.name : OtherKind → Text
  | function => "function"
  | variable_ => "variable"
  | constant => "constant"

/-- What the names of a module stand for. -/
structure DefinitionIndex where
  values : Table Text Expr
  imports : Table Text ImportTarget
  types : Table Text TypeObject
  others : Table Text OtherKind

namespace DefinitionIndex

/-- The kind of a type given by an expression: only the name of a builtin type has one. -/
def kindOf? : Expr → Option Kind
  | .name w _ => builtinKind? w
  | _ => none

def isBuiltin : Expr → Bool
  | .name w _ => (builtin? w).isSome
  | _ => false

/-- Whether an expression is a name, perhaps an attribute, that reads `w`. -/
def isNamed (w : Text) : Expr → Bool
  | .name v _ => v = w
  | .attribute _ v => v = w
  | _ => false

/-- The base of a new type: the second of the two arguments of a call that makes one. -/
def newTypeBase? : Expr → Option Expr
  | .call function [_, base] => if isNamed "NewType" function then some base else none
  | _ => none

inductive Binding where
  | value (e : Expr)
  | type (underlying : Option Kind)
  | imported (target : ImportTarget)
  | function

def ofAssigned (e : Expr) : Binding :=
  match newTypeBase? e with
  | some base => .type (kindOf? base)
  | none => if isBuiltin e then .type (kindOf? e) else .value e

/-- What an assignment with an annotation binds a name to. -/
def ofAnnotated (declared e : Expr) : Binding :=
  if isNamed "TypeAlias" declared then .type (kindOf? e)
  else
    match newTypeBase? e with
    | some base => .type (kindOf? base)
    | none => .value e

/-- The name of a target that is nothing but a name. -/
def targetName? : Target → Option Text
  | .name w _ => some w
  | _ => none

def topName (path : Text) : Text := path.takeWhile (· ≠ '.')

/-- What the statements of a module bind, in order. `isPackage` tells whether the module is the
initial file of a package. -/
def bindings (module : Text) (isPackage : Bool) : StatementKind → List (Text × Binding)
  | .assign targets e => (targets.filterMap targetName?).map fun w => (w, ofAssigned e)
  | .annotated target declared (some e) =>
    ((targetName? target).map fun w => (w, ofAnnotated declared e)).toList
  | .importModules modules =>
    modules.map fun m =>
      match m.boundAs with
      | some w => (w, .imported ⟨m.path, none⟩)
      | none => (topName m.path, .imported ⟨topName m.path, none⟩)
  | .importNames level source names =>
    names.map fun n =>
      (n.boundAs.getD n.name,
       .imported ⟨ModuleName.resolveImport module isPackage level source, some n.name⟩)
  | .classDefinition name bases => [(name, .type (bases.findSome? kindOf?))]
  | .functionDefinition name => [(name, .function)]
  | _ => []

/-- An index in the making, with how often each name has been given a value so far. -/
structure Tally where
  index : DefinitionIndex
  counts : Table Text Nat

def Tally.empty : Tally := ⟨⟨.empty, .empty, .empty, .empty⟩, .empty⟩

/-- Takes in what a name is bound to; a value replaces an earlier one, and is counted. -/
def Tally.record (t : Tally) : Text × Binding → Tally
  | (w, .value e) =>
    ⟨{ t.index with values := t.index.values.insert w e },
      t.counts.insert w ((t.counts.get? w).getD 0 + 1)⟩
  | (w, .type k) =>
    { t with index := { t.index with types := t.index.types.insert w (.ofKind w k) } }
  | (w, .imported target) =>
    { t with index := { t.index with imports := t.index.imports.insert w target } }
  | (w, .function) =>
    { t with index := { t.index with others := t.index.others.insert w .function } }

/-- What a name is that has been given values so often: a variable loses its value again. -/
def classify (idx : DefinitionIndex) : Text × Nat → DefinitionIndex
  | (w, n) =>
    if n > 1 then
      { idx with values := idx.values.erase w, others := idx.others.insert w .variable_ }
    else if idx.others.contains w then idx
    else { idx with others := idx.others.insert w .constant }

def ofBindings (bs : List (Text × Binding)) : DefinitionIndex :=
  let t := bs.foldl Tally.record .empty
  t.counts.entries.foldl classify t.index

def ofStatements (module : Text) (isPackage : Bool) (statements : List Statement) :
    DefinitionIndex :=
  ofBindings (statements.flatMap fun s => bindings module isPackage s.kind)

end DefinitionIndex

end TypedQueries
