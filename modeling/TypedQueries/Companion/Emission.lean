import TypedQueries.ParamSet.Basic
import TypedQueries.Text.AsciiQuoted
import TypedQueries.Text.CodePoint

/-!
# Writing companion modules

A companion module is a preamble, which its readers may edit, and a body with one class for each
parameter set. The text depends on the parameter sets alone. The two accessors of a class list
formats and values in the order of the occurrences, not in the order of the fields.
-/

namespace TypedQueries.Companion

open CodedText

/-- An occurrence whose index is no position among the occurrences. -/
inductive EmissionError where
  | indexOutOfRange
deriving DecidableEq

def EmissionError.message : EmissionError → Text
  | indexOutOfRange => "list assignment index out of range"

/-- The annotation of a field: a nullable type is optional. -/
def fieldType : Text → Text
  | '*' :: base => "Optional[" ++ base ++ "]"
  | t => t

def baseType : Text → Text
  | '*' :: base => base
  | t => t

theorem baseType_cases (t : Text) :
    (∃ r, t = '*' :: r ∧ baseType t = r) ∨ (t.head? ≠ some '*' ∧ baseType t = t) := by
  cases t with
  | nil => exact .inr ⟨by simp, rfl⟩
  | cons c r =>
    by_cases hc : c = '*'
    · subst hc
      exact .inl ⟨r, rfl, rfl⟩
    · refine .inr ⟨by simpa using hc, ?_⟩
      unfold baseType
      split
      · rename_i h
        exact absurd (List.cons.inj h).1 hc
      · rfl

/-- What stands at one occurrence: the field and its format. -/
abbrev Slot := Text × Text

/-- The position that an index denotes in a list of the given length; a negative index counts from
the end. -/
def slotPosition? (length : Nat) : Int → Option Nat
  | .ofNat n => if n < length then some n else none
  | .negSucc n => if n < length then some (length - 1 - n) else none

def occurrences (p : ParamSet) : List (Int × Slot) :=
  p.fields.flatMap fun f => f.substitutions.map fun s => (s.index, f.name, s.spec)

/-- Puts occurrences into their slots, one after the other. -/
def fill (slots : List Slot) : List (Int × Slot) → Except EmissionError (List Slot)
  | [] => .ok slots
  | (index, slot) :: rest =>
    match slotPosition? slots.length index with
    | some i => fill (slots.set i slot) rest
    | none => .error .indexOutOfRange

def slots (p : ParamSet) : Except EmissionError (List Slot) :=
  fill (List.replicate p.occurrenceCount ([], [])) (occurrences p)

def indent : Text := "    "

/-- The class of a parameter set; `runtime` stands before the name of its marker. -/
def emitClass (runtime : CodedText) (p : ParamSet) : Except EmissionError CodedText := do
  let slots ← slots p
  let specs := slots.map fun (_, spec) => Text.AsciiQuoted.encode spec
  let arguments := slots.map fun (name, _) => "self." ++ name
  let header : List Text := ["@dataclass", "class " ++ p.typeName ++ ":"]
  let fields := p.fields.map fun f => indent ++ f.name ++ ": " ++ fieldType f.typeName
  let accessors : List Text :=
    ["",
     indent ++ "def format_specifiers(self) -> List[str]:",
     indent ++ indent ++ "return [" ++ Text.join ", " specs ++ "]",
     "",
     indent ++ "def format_args(self) -> List[Any]:",
     indent ++ indent ++ "return [" ++ Text.join ", " arguments ++ "]"]
  return unlines (("@" ++ runtime ++ "query_params") :: (header ++ fields ++ accessors).map ofText)

/-- The body of a companion module: two line feeds before each class, and nothing at all without
classes. -/
def emit (runtime : CodedText) (wanted : List ParamSet) : Except EmissionError CodedText := do
  let classes ← wanted.mapM (emitClass runtime)
  return classes.flatMap ("\n\n" ++ ·)

/-- Where the marker of generated classes is imported from. -/
structure RuntimeImport where
  /-- The package that holds the module. -/
  package : CodedText
  /-- The module, which is also the name it is used by. -/
  name : CodedText
  /-- Whether the companion lives in that package itself and imports the module relatively. -/
  relative : Bool
deriving DecidableEq

def preamble (package : CodedText) (runtime : RuntimeImport) : CodedText :=
  let source : CodedText := if runtime.relative then "." else runtime.package
  unlines [
    "# Code generated by querygen. DO NOT EDIT.",
    "# You may only edit import statements.",
    "\"\"\"Query parameters generated for package ``" ++ package ++ "``.\"\"\"",
    "",
    "from __future__ import annotations",
    "",
    "from dataclasses import dataclass",
    "from typing import Any, List, Optional",
    "",
    "from " ++ source ++ " import " ++ runtime.name]

def render (package : CodedText) (runtime : RuntimeImport) (wanted : List ParamSet) :
    Except EmissionError CodedText := do
  let body ← emit (runtime.name ++ ".") wanted
  return preamble package runtime ++ body

end TypedQueries.Companion
