import TypedQueries.Package.Basic

/-!
# Looking up types

What a name of a module is as a type. The module's own types come first, then its other names,
then what it imports; an import from a loaded module is followed there. A name that is bound
nowhere may still be a builtin type.
-/

namespace TypedQueries

structure Lookup where
  result : Option TypeObject
  /-- The modules whose indices were used, in order. -/
  consulted : List Text

namespace Package

/-- Looks up a name, when some names have been looked up already on the way to it. -/
def lookupFrom (p : Package) (seen : List Key) (k : Key) : Lookup :=
  if _hk : k ∈ seen then ⟨none, []⟩
  else
    match _hi : p.index? k.module with
    | none => ⟨builtin? k.name, []⟩
    | some idx =>
      let found (o : Option TypeObject) : Lookup := ⟨o, [k.module]⟩
      match idx.types.get? k.name with
      | some o => found (some o)
      | none =>
        if idx.values.contains k.name || idx.others.contains k.name then
          found (some (.nonType k.name))
        else
          match _ht : idx.imports.get? k.name with
          | none => found (builtin? k.name)
          | some ⟨_, none⟩ => found (some (.nonType k.name))
          | some ⟨target, some member⟩ =>
            if p.isLoaded (target ++ '.' :: member) then found (some (.nonType k.name))
            else if p.isLoaded target then
              let l := lookupFrom p (k :: seen) ⟨target, member⟩
              ⟨l.result, k.module :: l.consulted⟩
            else found (some (.ofKind k.name none))
termination_by p.remaining seen
decreasing_by exact remaining_cons_lt (mem_keys_of_import _hi _ht) _hk

def lookup (p : Package) (module name : Text) : Lookup := p.lookupFrom [] ⟨module, name⟩

/-- What the names of a module are as types. -/
def resolver (p : Package) (module : Text) (name : Text) : Option TypeObject :=
  (p.lookup module name).result

end Package

end TypedQueries
