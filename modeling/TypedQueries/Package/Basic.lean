import TypedQueries.Package.DefinitionIndex

/-!
# Packages

The files of one directory that could be read, each under the name of its module. Of two files
with the same module name, the later one counts.
-/

namespace TypedQueries

open Source

structure SourceFile where
  path : Path
  module : Text
  statements : List Statement

namespace SourceFile

def index (f : SourceFile) : DefinitionIndex :=
  .ofStatements f.module (f.path.name = Path.initName) f.statements

end SourceFile

structure Package where
  directory : Path
  name : Text
  /-- The files under the names of their modules. -/
  files : Table Text SourceFile

namespace Package

def ofFiles (directory : Path) (name : Text) (files : List SourceFile) : Package :=
  ⟨directory, name, Table.ofList (files.map fun f => (f.module, f))⟩

def isLoaded (p : Package) (module : Text) : Bool := p.files.contains module

/-- The index of a module, if it is loaded. -/
def index? (p : Package) (module : Text) : Option DefinitionIndex :=
  (p.files.get? module).map SourceFile.index

end Package

structure Key where
  module : Text
  name : Text
deriving DecidableEq

namespace Package

/-- The names of all modules that have a value or are imported. -/
def keys (p : Package) : List Key :=
  p.files.entries.flatMap fun (module, f) =>
    (f.index.values.keys ++ f.index.imports.keys).map (Key.mk module)

theorem mem_keys_of_mem {p : Package} {module name : Text} {idx : DefinitionIndex}
    (hi : p.index? module = some idx) (hn : name ∈ idx.values.keys ++ idx.imports.keys) :
    ⟨module, name⟩ ∈ p.keys := by
  obtain ⟨f, hf, rfl⟩ := Option.map_eq_some_iff.1 hi
  exact List.mem_flatMap.2 ⟨(module, f), Table.mem_of_get? hf, List.mem_map.2 ⟨name, hn, rfl⟩⟩

theorem mem_keys_of_value {p : Package} {module name : Text} {idx : DefinitionIndex} {e : Expr}
    (hi : p.index? module = some idx) (h : idx.values.get? name = some e) :
    ⟨module, name⟩ ∈ p.keys :=
  mem_keys_of_mem hi
    (List.mem_append_left _ (List.mem_map.2 ⟨(name, e), Table.mem_of_get? h, rfl⟩))

theorem mem_keys_of_import {p : Package} {module name : Text} {idx : DefinitionIndex}
    {t : ImportTarget} (hi : p.index? module = some idx) (h : idx.imports.get? name = some t) :
    ⟨module, name⟩ ∈ p.keys :=
  mem_keys_of_mem hi
    (List.mem_append_right _ (List.mem_map.2 ⟨(name, t), Table.mem_of_get? h, rfl⟩))

def remaining (p : Package) (seen : List Key) : Nat := p.keys.countP fun k => k ∉ seen

theorem countP_lt_countP {α : Type} {p q : α → Bool} {a : α} {l : List α}
    (h : ∀ x, p x = true → q x = true) (ha : a ∈ l) (hp : p a = false) (hq : q a = true) :
    l.countP p < l.countP q := by
  induction l with
  | nil => simp at ha
  | cons b l ih =>
    have hle : l.countP p ≤ l.countP q := List.countP_mono_left fun x _ => h x
    rcases List.mem_cons.1 ha with rfl | hl
    · simp only [List.countP_cons, hp, hq]
      simp
      omega
    · have := ih hl
      simp only [List.countP_cons]
      cases hb : p b
      · simp
        omega
      · simp [h b hb]
        omega

theorem remaining_cons_lt {p : Package} {seen : List Key} {k : Key} (hk : k ∈ p.keys)
    (hs : k ∉ seen) : p.remaining (k :: seen) < p.remaining seen := by
  refine countP_lt_countP ?_ hk ?_ ?_
  · intro j
    simp only [List.mem_cons, not_or, decide_eq_true_eq]
    exact And.right
  · simp
  · simpa using hs

end Package

end TypedQueries
