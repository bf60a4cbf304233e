import Mathlib.Data.List.Forall2
import Mathlib.Data.List.Nodup
import Mathlib.Tactic.Tauto
import TypedQueries.Proofs.Building
import TypedQueries.Proofs.Naming
import TypedQueries.Proofs.RoundTrip
import TypedQueries.Source.Plain

/-!
# Members of generated classes

The class of a parameter set defines its fields and, below them, two accessors. The fields of a
query are distinct and called by identifiers, because they come from its directives. Whether the
members are proper rests on two things that no step between a query and its class looks at: that no
directive is called by a keyword, and that none is called like an accessor. A class without keywords
can be read back from its companion.
-/

namespace TypedQueries

/-! ### Names in directives -/

namespace Directive

theorem isAscii_of_isNamePart {c : Char} (h : isNamePart c = true) : Text.isAscii c = true := by
  have hc := isNamePart_toNat h
  simp only [Text.isAscii, decide_eq_true_eq]
  omega

theorem isIdentifierStart_of_isNameStart {c : Char} (h : isNameStart c = true) :
    Text.isIdentifierStart c = true := by
  rw [Text.isIdentifierStart, if_pos (isAscii_of_isNamePart (isNamePart_of_isNameStart h))]
  exact h

theorem isIdentifierPart_of_isNamePart {c : Char} (h : isNamePart c = true) :
    Text.isIdentifierPart c = true := by
  rw [Text.isIdentifierPart, if_pos (isAscii_of_isNamePart h)]
  simp only [isNamePart, isNameStart, Bool.or_eq_true] at h ⊢
  tauto

theorem IsName.isIdentifier {n : Text} (h : IsName n) : Text.isIdentifier n = true := by
  obtain ⟨hstart, hparts⟩ := h
  rw [Text.isIdentifier, isIdentifierStart_of_isNameStart hstart, Bool.true_and, List.all_eq_true]
  exact fun d hd => isIdentifierPart_of_isNamePart (hparts d hd)

theorem IsName.not_mem_dot {n : Text} (h : IsName n) : '.' ∉ n := fun hdot =>
  Source.ne_of_isIdentifierPart (Source.isIdentifierPart_of_mem h.isIdentifier _ hdot) (by decide)
    rfl

theorem IsQualified.isName_of_mem_splitOn {t : Text} (h : IsQualified t) :
    ∀ w ∈ Text.splitOn '.' t, IsName w := by
  cases h with
  | bare hn =>
    rw [Text.splitOn_of_not_mem hn.not_mem_dot, List.forall_mem_singleton]
    exact hn
  | qualified hq hn =>
    rw [Text.splitOn_append_cons hq.not_mem_dot, Text.splitOn_of_not_mem hn.not_mem_dot]
    intro w hw
    rcases List.mem_pair.1 hw with rfl | rfl
    · exact hq
    · exact hn

theorem IsType.isQualified {t : Text} (h : IsType t) : IsQualified (Companion.baseType t) := by
  cases h with
  | nullable hn => exact hn
  | plain hn =>
    -- a qualified name does not begin with a star
    obtain ⟨r, rfl, _⟩ | ⟨_, hbase⟩ := Companion.baseType_cases t
    · obtain ⟨c, r, he, hc⟩ := hn.exists_eq_cons
      cases he
      exact absurd hc (by decide)
    · rw [hbase]
      exact hn

/-- The type of a directive consists of names unless one of its parts is a keyword. -/
theorem IsType.isDotted {t : Text} (h : IsType t)
    (hkeyword : ∀ w ∈ Text.splitOn '.' (Companion.baseType t), Source.Keyword.ofWord? w = none) :
    Source.IsDotted (Companion.baseType t) := fun w hw =>
  ⟨(h.isQualified.isName_of_mem_splitOn w hw).isIdentifier, hkeyword w hw⟩

end Directive

/-! ### What a class defines -/

namespace Companion

open CodedText Text.Utf8 ParamSet ParamSet.Builder

def accessorNames : List Text := ["format_specifiers", "format_args"]

/-- The names that the class of a parameter set defines. -/
def memberNames (p : ParamSet) : List Text := p.fields.map Field.name ++ accessorNames

def classHeader (runtime : CodedText) (p : ParamSet) : List CodedText :=
  ["@" ++ runtime ++ "query_params", "@dataclass", ofText ("class " ++ p.typeName ++ ":")]

/-- Whether lines define a member with this name in a class. -/
inductive Defines : Text → List Text → Prop
  | field (name type : Text) : Defines name [indent ++ name ++ ": " ++ type]
  | accessor (name element result : Text) :
      Defines name
        ["", indent ++ "def " ++ name ++ "(self) -> List[" ++ element ++ "]:",
          indent ++ indent ++ "return [" ++ result ++ "]"]

/-- Whether the names of the members tell them apart and may stand for them. -/
structure HasProperMembers (p : ParamSet) : Prop where
  distinct : (memberNames p).Nodup
  noKeyword : ∀ n ∈ memberNames p, Source.Keyword.ofWord? n = none

instance (p : ParamSet) : Decidable (HasProperMembers p) :=
  decidable_of_iff ((memberNames p).Nodup ∧ ∀ n ∈ memberNames p, Source.Keyword.ofWord? n = none)
    ⟨fun h => ⟨h.1, h.2⟩, fun h => ⟨h.distinct, h.noKeyword⟩⟩

/-- Below its header a class is one definition after the other, of each member in turn. -/
theorem emitClass_defines {p : ParamSet} {ss : List Slot} (h : slots p = .ok ss)
    (runtime : CodedText) :
    ∃ definitions : List (List Text),
      emitClass runtime p =
        .ok (unlines (classHeader runtime p ++ definitions.flatten.map ofText)) ∧
      List.Forall₂ Defines (memberNames p) definitions := by
  have hfields : List.Forall₂ Defines (p.fields.map Field.name)
      (p.fields.map fun f => [indent ++ f.name ++ ": " ++ fieldType f.typeName]) := by
    rw [List.forall₂_map_left_iff, List.forall₂_map_right_iff, List.forall₂_same]
    exact fun f _ => .field f.name (fieldType f.typeName)
  have hlines : (p.fields.map fun f => [indent ++ f.name ++ ": " ++ fieldType f.typeName]).flatten =
      p.fields.map fun f => indent ++ f.name ++ ": " ++ fieldType f.typeName := by
    rw [← List.flatMap_def]
    exact List.map_eq_flatMap.symm
  have hspecifiers := Defines.accessor "format_specifiers" "str"
    (Text.join ", " (ss.map fun s => Text.AsciiQuoted.encode s.2))
  have harguments := Defines.accessor "format_args" "Any"
    (Text.join ", " (ss.map fun s => "self." ++ s.1))
  refine ⟨_, ?_, List.rel_append hfields (.cons hspecifiers (.cons harguments .nil))⟩
  rw [emitClass_eq, h]
  refine congrArg (fun ls => Except.ok (unlines ls)) ?_
  rw [List.flatten_append, hlines]
  simp [classHeader, classLines]

theorem accessorNames_proper :
    accessorNames.Nodup ∧ ∀ n ∈ accessorNames, Source.Keyword.ofWord? n = none := by decide

/-! ### The members of a query's class -/

/-- The fields of a query are distinct, and each stands for the directives with its name: it has
the type of one of them. -/
structure FieldsOf (p : ParamSet) (ds : List Directive) : Prop where
  distinct : (p.fields.map Field.name).Nodup
  named : ∀ n, n ∈ p.fields.map Field.name ↔ ∃ d ∈ ds, d.name = n
  typed : ∀ f ∈ p.fields, ∃ d ∈ ds, d.name = f.name ∧ d.typeName = f.typeName

theorem fieldsOf_ofDirectives {resolve : Resolver} {queryName suffix : Text} {ds : List Directive}
    {p : ParamSet} (h : (ofDirectives resolve queryName suffix ds).result = .ok (some p)) :
    FieldsOf p ds := by
  obtain ⟨us, rfl, _, rfl, _, _⟩ := ofDirectives_eq_some h
  refine ⟨?_, fun n => ?_, fun f hf => ?_⟩
  · rw [map_name_gather]
    exact nodup_names us
  · rw [map_name_gather, mem_names]
    simp [Taken.name]
  · obtain ⟨n, hn, rfl⟩ := List.mem_map.1 hf
    obtain ⟨d, hd⟩ := Option.isSome_iff_exists.1 (firstOf_isSome_iff.2 hn)
    exact ⟨d, (of_firstOf hd).1, (of_firstOf hd).2, by simp [fieldOf, hd]⟩

theorem FieldsOf.nodup_memberNames_iff {p : ParamSet} {ds : List Directive} (h : FieldsOf p ds) :
    (memberNames p).Nodup ↔ ∀ d ∈ ds, d.name ∉ accessorNames := by
  rw [memberNames, List.nodup_append']
  constructor
  · rintro ⟨_, _, hdisjoint⟩ d hd hmem
    exact hdisjoint ((h.named d.name).2 ⟨d, hd, rfl⟩) hmem
  · intro hfree
    refine ⟨h.distinct, accessorNames_proper.1, fun n hn hmem => ?_⟩
    obtain ⟨d, hd, rfl⟩ := (h.named n).1 hn
    exact hfree d hd hmem

theorem FieldsOf.noKeyword_iff {p : ParamSet} {ds : List Directive} (h : FieldsOf p ds) :
    (∀ n ∈ memberNames p, Source.Keyword.ofWord? n = none) ↔
      ∀ d ∈ ds, Source.Keyword.ofWord? d.name = none := by
  constructor
  · intro hall d hd
    exact hall d.name (List.mem_append_left _ ((h.named d.name).2 ⟨d, hd, rfl⟩))
  · intro hall n hn
    rcases List.mem_append.1 hn with hn | hn
    · obtain ⟨d, hd, rfl⟩ := (h.named n).1 hn
      exact hall d hd
    · exact accessorNames_proper.2 n hn

/-- The members of a query's class are proper exactly if no directive is called by a keyword or like
an accessor. -/
theorem FieldsOf.hasProperMembers_iff {p : ParamSet} {ds : List Directive} (h : FieldsOf p ds) :
    HasProperMembers p ↔
      ∀ d ∈ ds, Source.Keyword.ofWord? d.name = none ∧ d.name ∉ accessorNames := by
  rw [forall₂_and, ← h.noKeyword_iff, ← h.nodup_memberNames_iff]
  exact ⟨fun hp => ⟨hp.noKeyword, hp.distinct⟩, fun hp => ⟨hp.2, hp.1⟩⟩

/-- The parameters of a query text are called by names when nothing in its class is a keyword. -/
theorem isWanted_of_noKeyword {resolve : Resolver} {queryName suffix literal : Text} {p : ParamSet}
    (h : (ofDirectives resolve queryName suffix (Template.directives literal)).result =
      .ok (some p)) (hclass : Source.IsName p.typeName)
    (hmembers : ∀ n ∈ memberNames p, Source.Keyword.ofWord? n = none)
    (htypes : ∀ f ∈ p.fields, ∀ w ∈ Text.splitOn '.' (baseType f.typeName),
      Source.Keyword.ofWord? w = none) : IsWanted p := by
  have hfields := fieldsOf_ofDirectives h
  refine ⟨⟨resolve, queryName, suffix, _, h⟩, hclass, fun f hf => ?_⟩
  obtain ⟨d, hd, hname, htype⟩ := hfields.typed f hf
  obtain ⟨source, hwrites⟩ := Template.exists_writes_of_mem_directives hd
  have hmember : f.name ∈ memberNames p := List.mem_append_left _ (List.mem_map_of_mem hf)
  constructor
  · rw [← hname]
    exact ⟨hwrites.isName.isIdentifier, hname ▸ hmembers _ hmember⟩
  · have hdotted := hwrites.isType.isDotted
    rw [htype] at hdotted
    exact hdotted (htypes f hf)

/-- What the members of a generated class are. The class of a query defines one member for each name
among its directives and the two accessors, in this order. The fields never share a name. So the
members are told apart, and none of them is a keyword, exactly if no directive is called like an
accessor or by a keyword: nothing between the text and the class turns such a directive down. If
nothing in a class is a keyword, every companion that it is part of can be read again. -/
theorem members_proper_iff [Source.Release] {resolve : Resolver} {queryName suffix literal : Text}
    {p : ParamSet}
    (h : (ofDirectives resolve queryName suffix (Template.directives literal)).result =
      .ok (some p)) :
    let ds := Template.directives literal
    (∀ runtime, ∃ definitions : List (List Text),
      emitClass runtime p =
        .ok (unlines (classHeader runtime p ++ definitions.flatten.map ofText)) ∧
      List.Forall₂ Defines (memberNames p) definitions) ∧
    (p.fields.map Field.name).Nodup ∧
    (∀ n, n ∈ p.fields.map Field.name ↔ ∃ d ∈ ds, d.name = n) ∧
    (HasProperMembers p ↔
      ∀ d ∈ ds, Source.Keyword.ofWord? d.name = none ∧ d.name ∉ accessorNames) ∧
    (Source.IsName p.typeName → (∀ n ∈ memberNames p, Source.Keyword.ofWord? n = none) →
      (∀ f ∈ p.fields, ∀ w ∈ Text.splitOn '.' (baseType f.typeName),
        Source.Keyword.ofWord? w = none) →
      ∀ c : Companions, c.HasNames → ∀ before after : List ParamSet,
        (∀ q ∈ before ++ after, IsWanted q) →
        ∃ text contents ss, render c.package c.runtime (before ++ p :: after) = .ok text ∧
          Text.Utf8.encodeCoded text = .ok contents ∧ readStatements? contents = some ss) := by
  intro ds
  have hfields := fieldsOf_ofDirectives h
  obtain ⟨ss, hslots⟩ : ∃ ss, slots p = .ok ss := by
    obtain ⟨us, rfl, _, _, hindex, _⟩ := ofDirectives_eq_some h
    exact ⟨_, (slots_gather hindex).2⟩
  refine ⟨emitClass_defines hslots, hfields.distinct, hfields.named, hfields.hasProperMembers_iff,
    fun hclass hmembers htypes c hc before after hothers => ?_⟩
  have hnamed : ∀ q ∈ before ++ p :: after, IsNamed q := by
    intro q hq
    rcases List.mem_append.1 hq with hq | hq
    · exact (hothers q (List.mem_append_left _ hq)).isNamed
    rcases List.mem_cons.1 hq with rfl | hq
    · exact (isWanted_of_noKeyword h hclass hmembers htypes).isNamed
    · exact (hothers q (List.mem_append_right _ hq)).isNamed
  obtain ⟨head, body, ss, hhead, hbody, hread, _⟩ := hc.reads_text hnamed
  refine ⟨_, _, ss, ?_, encodeCoded_ofText (head ++ body), hread⟩
  rw [render, hbody, hhead, ofText_append]
  rfl

section

open scoped Source.Plain

/-- Two fields, one of them of a nullable and qualified type, under names that are free. -/
theorem members_proper_tag :
    HasProperMembers tagSet ∧
      memberNames tagSet = ["id", "tag", "format_specifiers", "format_args"] ∧
      ∃ text contents ss,
        render ("app" : Text) ⟨("querygen" : Text), ("interpolate" : Text), true⟩ [tagSet] =
          .ok text ∧
        Text.Utf8.encodeCoded text = .ok contents ∧ readStatements? contents = some ss := by
  have hds : Template.directives
      "a = {{ id : int }} b = {{ tag : *app.Tag : %s }} c = {{ id : _ }}" =
      [⟨"id", "int", none⟩, ⟨"tag", "*app.Tag", some "%s"⟩, ⟨"id", "_", none⟩] := by decide +kernel
  obtain ⟨_, _, _, hiff, hread⟩ := @members_proper_iff _ builtin? "TAG_QUERY" "Params"
    "a = {{ id : int }} b = {{ tag : *app.Tag : %s }} c = {{ id : _ }}" tagSet (by decide +kernel)
  rw [hds] at hiff
  have hproper : HasProperMembers tagSet := hiff.2 (by decide)
  exact ⟨hproper, by decide, hread (by decide) hproper.noKeyword (by decide)
    ⟨("app" : Text), ("querygen" : Text), ("interpolate" : Text), true⟩
    ⟨⟨_, rfl, by decide⟩, ⟨_, rfl, by decide⟩, _, rfl, by decide⟩ [] [] (by simp)⟩

def numberSet (name : Text) : ParamSet := ⟨"AQueryParams", [⟨name, "int", [⟨0, "%d"⟩]⟩]⟩

/-- A directive may be called by a keyword, and the companion of its query cannot be read. Another
may be called like an accessor, and then the class defines two members under one name. -/
theorem members_not_proper :
    (∃ text contents,
      (ofDirectives builtin? "A_QUERY" "Params" (Template.directives "{{class: int}}")).result =
        .ok (some (numberSet "class")) ∧
      ¬ HasProperMembers (numberSet "class") ∧
      render ("app" : Text) ⟨("querygen" : Text), ("interpolate" : Text), true⟩
        [numberSet "class"] = .ok text ∧
      Text.Utf8.encodeCoded text = .ok contents ∧
      (readStatements? contents).isNone = true) ∧
    (ofDirectives builtin? "A_QUERY" "Params" (Template.directives "{{format_args: int}}")).result =
      .ok (some (numberSet "format_args")) ∧
    ¬ (memberNames (numberSet "format_args")).Nodup := by
  have hkeyword :
      (ofDirectives builtin? "A_QUERY" "Params" (Template.directives "{{class: int}}")).result =
        .ok (some ⟨"AQueryParams", [⟨"class", "int", [⟨0, "%d"⟩]⟩]⟩) := by
    decide +kernel
  have haccessor :
      (ofDirectives builtin? "A_QUERY" "Params"
        (Template.directives "{{format_args: int}}")).result =
        .ok (some ⟨"AQueryParams", [⟨"format_args", "int", [⟨0, "%d"⟩]⟩]⟩) := by
    decide +kernel
  exact ⟨⟨_, _, hkeyword, by decide, render_ofText "app" rfl rfl rfl, encodeCoded_ofText _,
    by decide +kernel⟩, haccessor, by decide⟩

end

end Companion

end TypedQueries
