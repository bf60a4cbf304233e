import TypedQueries.Companion.Sync
import TypedQueries.Proofs.Results

/-!
# Companions of characters

All that is put into a companion are characters, but for the names of its package and of the
runtime module. So its text consists of characters just where these names do, and only then can it
be written. Where the names are texts, so are the preamble and the classes.
-/

namespace TypedQueries

namespace Text

def unlines (lines : List Text) : Text := lines.flatMap (· ++ ['\n'])

end Text

namespace CodedText

def IsText (t : CodedText) : Prop := ∃ text : Text, t = ofText text

theorem isText_ofText (t : Text) : IsText t := ⟨t, rfl⟩

theorem isText_append {a b : CodedText} : IsText (a ++ b) ↔ IsText a ∧ IsText b := by
  constructor
  · rintro ⟨text, h⟩
    obtain ⟨s, t, -, ha, hb⟩ := List.map_eq_append_iff.1 h.symm
    exact ⟨⟨s, ha.symm⟩, t, hb.symm⟩
  · rintro ⟨⟨s, rfl⟩, t, rfl⟩
    exact ⟨s ++ t, (ofText_append s t).symm⟩

theorem unlines_ofText (lines : List Text) :
    unlines (lines.map ofText) = ofText (Text.unlines lines) := by
  induction lines with
  | nil => rfl
  | cons l ls ih =>
    rw [List.map_cons, unlines, List.flatMap_cons, Text.unlines, List.flatMap_cons, ofText_append,
      ofText_append]
    exact congrArg (_ ++ ·) ih

theorem isText_unlines {lines : List CodedText} :
    IsText (unlines lines) ↔ ∀ l ∈ lines, IsText l := by
  induction lines with
  | nil => exact iff_of_true (isText_ofText []) (by simp)
  | cons l ls ih =>
    rw [unlines, List.flatMap_cons, isText_append, isText_append, List.forall_mem_cons, ← ih]
    exact and_congr_left fun _ => and_iff_left (isText_ofText _)

theorem replaced_append (a b : CodedText) : replaced (a ++ b) = replaced a ++ replaced b :=
  List.map_append

@[simp] theorem replaced_ofText (t : Text) : replaced (ofText t) = t := by
  rw [replaced, ofText, List.map_map]
  exact List.map_id t

theorem replaced_flatMap {α : Type} (f : α → CodedText) (as : List α) :
    replaced (as.flatMap f) = as.flatMap fun a => replaced (f a) :=
  List.map_flatMap

end CodedText

namespace Companion

open CodedText

/-! ### Classes -/

/-- The lines of a class after the first one, given what stands in its slots. -/
def classLines (p : ParamSet) (ss : List Slot) : List Text :=
  let header : List Text := ["@dataclass", "class " ++ p.typeName ++ ":"]
  let fields := p.fields.map fun f => indent ++ f.name ++ ": " ++ fieldType f.typeName
  let accessors : List Text :=
    ["",
     indent ++ "def format_specifiers(self) -> List[str]:",
     indent ++ indent ++ "return [" ++
       Text.join ", " (ss.map fun s => Text.AsciiQuoted.encode s.2) ++ "]",
     "",
     indent ++ "def format_args(self) -> List[Any]:",
     indent ++ indent ++ "return [" ++ Text.join ", " (ss.map fun s => "self." ++ s.1) ++ "]"]
  header ++ fields ++ accessors

def emitClassText (runtime : Text) (p : ParamSet) : Except EmissionError Text := do
  let ss ← slots p
  return Text.unlines (("@" ++ runtime ++ "query_params") :: classLines p ss)

def emitText (runtime : Text) (wanted : List ParamSet) : Except EmissionError Text := do
  let classes ← wanted.mapM (emitClassText runtime)
  return classes.flatMap ("\n\n" ++ ·)

/-- Only the first line of a class says more than its parameter set. -/
theorem emitClass_eq (runtime : CodedText) (p : ParamSet) :
    emitClass runtime p = (slots p).map fun ss =>
      unlines (("@" ++ runtime ++ "query_params") :: (classLines p ss).map ofText) := by
  rw [emitClass]
  cases slots p <;> rfl

theorem exists_emit_of_slots {wanted : List ParamSet} (h : ∀ p ∈ wanted, ∃ ss, slots p = .ok ss)
    (runtime : CodedText) : ∃ text, emit runtime wanted = .ok text := by
  have hclass : ∀ p ∈ wanted, ∃ text, emitClass runtime p = .ok text := by
    intro p hp
    obtain ⟨ss, hss⟩ := h p hp
    rw [emitClass_eq, hss]
    exact ⟨_, rfl⟩
  obtain ⟨classes, hclasses⟩ := exists_mapM hclass
  rw [emit, hclasses]
  exact ⟨_, rfl⟩

theorem emitClass_ofText (runtime : Text) (p : ParamSet) :
    emitClass runtime p = (emitClassText runtime p).map ofText := by
  rw [emitClass_eq, emitClassText]
  cases slots p with
  | error e => rfl
  | ok ss =>
    refine congrArg Except.ok ?_
    rw [← unlines_ofText, List.map_cons, ofText_append, ofText_append]

theorem mapM_eq_map_of_forall {α β γ : Type} {f : α → Except EmissionError γ}
    {g : α → Except EmissionError β} {h : β → γ} (heq : ∀ a, f a = (g a).map h) (as : List α) :
    as.mapM f = (as.mapM g).map (List.map h) := by
  induction as with
  | nil => rfl
  | cons a as ih =>
    rw [List.mapM_cons, List.mapM_cons, ih, heq]
    cases g a with
    | error e => rfl
    | ok b =>
      cases as.mapM g <;> rfl

theorem emit_ofText (runtime : Text) (wanted : List ParamSet) :
    emit runtime wanted = (emitText runtime wanted).map ofText := by
  rw [emit, emitText, mapM_eq_map_of_forall (emitClass_ofText runtime)]
  cases wanted.mapM (emitClassText runtime) with
  | error e => rfl
  | ok classes =>
    refine congrArg Except.ok ?_
    induction classes with
    | nil => rfl
    | cons c cs ih =>
      rw [List.map_cons, List.flatMap_cons, List.flatMap_cons, ofText_append, ofText_append]
      exact congrArg (_ ++ ·) ih

/-- Where characters stand in for the halves in the name, they do so in the body. -/
theorem emitText_replaced (runtime : CodedText) (wanted : List ParamSet) :
    emitText (replaced runtime) wanted = (emit runtime wanted).map replaced := by
  have hclass (p : ParamSet) :
      emitClassText (replaced runtime) p = (emitClass runtime p).map replaced := by
    rw [emitClass_eq, emitClassText]
    cases slots p with
    | error e => rfl
    | ok ss =>
      refine congrArg Except.ok ?_
      change _ = replaced (unlines _)
      rw [unlines, replaced_flatMap, List.flatMap_cons, List.flatMap_map, Text.unlines,
        List.flatMap_cons]
      simp only [replaced_append, replaced_ofText]
  rw [emit, emitText, mapM_eq_map_of_forall hclass]
  cases wanted.mapM (emitClass runtime) with
  | error e => rfl
  | ok classes =>
    refine congrArg Except.ok ?_
    rw [List.flatMap_map, replaced_flatMap]
    simp only [replaced_append, replaced_ofText]

theorem emit_eq_ok_ofText {runtime : Text} {wanted : List ParamSet} {text : Text}
    (h : emitText runtime wanted = .ok text) : emit runtime wanted = .ok text := by
  rw [emit_ofText, h]
  rfl

theorem exists_emitText {runtime : Text} {wanted : List ParamSet} {body : CodedText}
    (h : emit runtime wanted = .ok body) :
    ∃ text : Text, body = text ∧ emitText runtime wanted = .ok text := by
  rw [emit_ofText] at h
  cases htext : emitText runtime wanted with
  | error e =>
    rw [htext] at h
    cases h
  | ok text =>
    rw [htext] at h
    cases h
    exact ⟨text, rfl, rfl⟩

theorem isText_emit_iff {runtime : CodedText} {wanted : List ParamSet} {body : CodedText}
    (h : emit runtime wanted = .ok body) : IsText body ↔ wanted = [] ∨ IsText runtime := by
  constructor
  · intro hbody
    cases wanted with
    | nil => exact .inl rfl
    | cons p ps =>
      right
      rw [emit, List.mapM_cons, emitClass_eq] at h
      cases hslots : slots p with
      | error e =>
        rw [hslots] at h
        cases h
      | ok ss =>
        rw [hslots] at h
        cases hrest : ps.mapM (emitClass runtime) with
        | error e =>
          rw [hrest] at h
          cases h
        | ok classes =>
          rw [hrest] at h
          cases h
          have hclass := (isText_append.1 (isText_append.1 hbody).1).2
          have hfirst := isText_unlines.1 hclass _ List.mem_cons_self
          exact (isText_append.1 (isText_append.1 hfirst).1).2
  · rintro (rfl | ⟨text, rfl⟩)
    · cases h
      exact isText_ofText []
    · obtain ⟨text, rfl, -⟩ := exists_emitText h
      exact isText_ofText text

/-! ### Preambles -/

/-- Where a companion imports the module with the marker from. -/
def RuntimeImport.source (runtime : RuntimeImport) : CodedText :=
  if runtime.relative then "." else runtime.package

def preambleText (package source name : Text) : Text :=
  Text.unlines [
    "# Code generated by querygen. DO NOT EDIT.",
    "# You may only edit import statements.",
    "\"\"\"Query parameters generated for package ``" ++ package ++ "``.\"\"\"",
    "",
    "from __future__ import annotations",
    "",
    "from dataclasses import dataclass",
    "from typing import Any, List, Optional",
    "",
    "from " ++ source ++ " import " ++ name]

theorem preamble_ofText {runtime : RuntimeImport} (package : Text) {source name : Text}
    (hsource : runtime.source = source) (hname : runtime.name = name) :
    preamble package runtime = preambleText package source name := by
  have hif : (if runtime.relative then (("." : Text) : CodedText) else runtime.package) = source :=
    hsource
  rw [preamble, hif, hname, preambleText, ← unlines_ofText]
  simp only [List.map_cons, List.map_nil, ofText_append]

theorem render_ofText {runtime : RuntimeImport} (package : Text) {source name : Text}
    (hsource : runtime.source = source) (hname : runtime.name = name) {wanted : List ParamSet}
    {body : Text} (hbody : emitText (name ++ ".") wanted = .ok body) :
    render package runtime wanted = .ok (ofText (preambleText package source name ++ body)) := by
  have hemit : emit (runtime.name ++ ".") wanted = .ok body := by
    rw [hname, ← ofText_append]
    exact emit_eq_ok_ofText hbody
  rw [render, hemit, preamble_ofText package hsource hname, ofText_append]
  rfl

/-- Whether the names in the preamble of a companion consist of characters. -/
structure Companions.IsPlain (c : Companions) : Prop where
  package : IsText c.package
  source : IsText c.runtime.source
  name : IsText c.runtime.name

theorem isText_preamble_iff {c : Companions} :
    IsText (preamble c.package c.runtime) ↔ c.IsPlain := by
  constructor
  · intro h
    rw [preamble, isText_unlines] at h
    have hpackage := h ("\"\"\"Query parameters generated for package ``" ++ c.package ++
      "``.\"\"\"") (by simp)
    have himport := h ("from " ++ c.runtime.source ++ " import " ++ c.runtime.name) (by
      simp [RuntimeImport.source])
    rw [isText_append, isText_append] at hpackage himport
    exact ⟨hpackage.1.2, (isText_append.1 himport.1.1).2, himport.2⟩
  · rintro ⟨⟨package, hpackage⟩, ⟨source, hsource⟩, ⟨name, hname⟩⟩
    rw [hpackage, preamble_ofText package hsource hname]
    exact isText_ofText _

/-! ### What can be written -/

theorem isText_iff_encodes {t : CodedText} :
    IsText t ↔ ∃ bytes, Text.Utf8.encodeCoded t = .ok bytes := by
  constructor
  · rintro ⟨text, rfl⟩
    exact ⟨_, Text.Utf8.encodeCoded_ofText text⟩
  · rintro ⟨bytes, h⟩
    obtain ⟨text, rfl, -⟩ := Text.Utf8.encodeCoded_eq_ok_iff.1 h
    exact isText_ofText text

section Writing

variable {c : Companions} {wanted : List ParamSet} {text : CodedText}

theorem encodes_render_iff (h : render c.package c.runtime wanted = .ok text) :
    (∃ bytes, Text.Utf8.encodeCoded text = .ok bytes) ↔ c.IsPlain := by
  rw [render] at h
  cases hbody : emit (c.runtime.name ++ ".") wanted with
  | error e =>
    rw [hbody] at h
    cases h
  | ok body =>
    rw [hbody] at h
    cases h
    rw [← isText_iff_encodes, isText_append, isText_preamble_iff, isText_emit_iff hbody,
      isText_append]
    exact and_iff_left_of_imp fun hplain => .inr ⟨hplain.name, isText_ofText _⟩

theorem exists_body_iff (h : emit (c.runtime.name ++ ".") wanted = .ok text) :
    (∃ bytes, c.body wanted = .ok bytes) ↔ wanted = [] ∨ IsText c.runtime.name := by
  have hbody : (∃ bytes, c.body wanted = .ok bytes) ↔
      ∃ bytes, Text.Utf8.encodeCoded text = .ok bytes := by
    rw [Companions.body, h]
    simp only [mapError_ok, bind, Except.bind]
    cases Text.Utf8.encodeCoded text <;> simp [mapError_ok, mapError_error]
  rw [hbody, ← isText_iff_encodes, isText_emit_iff h, isText_append]
  exact or_congr_right (and_iff_left (isText_ofText _))

theorem body_eq_ok_iff {bytes : Bytes} :
    c.body wanted = .ok bytes ↔
      ∃ text : Text, emit (c.runtime.name ++ ".") wanted = .ok text ∧
        bytes = Text.Utf8.encode text := by
  rw [Companions.body]
  cases hemit : emit (c.runtime.name ++ ".") wanted with
  | error e => simp [mapError_error, bind, Except.bind]
  | ok body =>
    simp only [mapError_ok, bind, Except.bind, Except.ok.injEq]
    rw [← Text.Utf8.encodeCoded_eq_ok_iff]
    cases Text.Utf8.encodeCoded body <;> simp [mapError_ok, mapError_error]

end Writing

end Companion

end TypedQueries
