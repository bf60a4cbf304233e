import Mathlib.Data.List.TakeWhile
import TypedQueries.Companion.Sync
import TypedQueries.Proofs.Applying
import TypedQueries.Proofs.Decoding
import TypedQueries.Proofs.Emitting
import TypedQueries.Proofs.Importing
import TypedQueries.Proofs.Occurrences
import TypedQueries.Source.Plain

/-!
# Reading back created companions

A companion is created as a preamble and a body. Read from its file, the preamble ends exactly
where the body begins, so an update to the same parameter sets finds nothing to write. The module
is read line by line: each line of the preamble is one statement, one comment or nothing.
-/

namespace TypedQueries.Source

open Source.Piece

/-! ### Lines of a preamble -/

def importLine (source : Text) (names : List Text) : Text :=
  Keyword.from_.spelling ++ ' ' :: (source ++ ' ' :: (Keyword.import_.spelling ++ ' ' ::
    Text.join [',', ' '] names))

variable [Release]

def wordPieces : List Text → List Piece
  | [] => []
  | [w] => [.word w]
  | w :: ws => .word w :: .token (.symbol .comma) [','] :: .blank :: wordPieces ws

theorem wordPieces_eq (ws : List Text) :
    wordPieces ws = commaPieces (ws.map fun w => [.word w]) := by
  induction ws with
  | nil => rfl
  | cons w ws ih =>
    cases ws with
    | nil => rfl
    | cons v vs =>
      exact congrArg (fun ps => Piece.word w :: .token (.symbol .comma) [','] ::
        .blank :: ps) ih

theorem ends_wordPieces {ws : List Text} (h : ∀ w ∈ ws, IsName w) : Ends 0 (wordPieces ws) := by
  have hline : endsItem '\n' = true := by decide
  have hitems : ∀ ps ∈ ws.map (fun w => [Piece.word w]), WritesItem 0 ps := by
    intro ps hps
    obtain ⟨w, hw, rfl⟩ := List.mem_map.1 hps
    have hnames : ∀ v ∈ [w], IsName v := by simpa using h w hw
    exact writesItem_dotted hnames depthLimit_pos
  have hends := ends_commaPieces depthLimit_pos hitems [] hline rfl
  rwa [List.append_nil, ← wordPieces_eq] at hends

theorem kinds_wordPieces (ws : List Text) :
    kinds (wordPieces ws) = commas ((ws.map TokenKind.wordForm).map fun w => [.word w]) := by
  rw [wordPieces_eq, kinds_commaPieces, List.map_map, List.map_map]
  rfl

theorem write_wordPieces (ws : List Text) : write (wordPieces ws) = Text.join [',', ' '] ws := by
  rw [wordPieces_eq, write_commaPieces, List.map_map]
  simp [Function.comp_def, write, Piece.text]

theorem isLine_import {source : List Piece} {names : List Text} (h : ∀ w ∈ names, IsName w)
    (hends : ∀ {qs}, Ends 0 qs → Ends 0 (source ++ .blank :: qs)) :
    IsLine 0 (importLine (write source) names)
      (importKinds (kinds source) (names.map TokenKind.wordForm) ++ [.newline]) := by
  have hfrom : (TokenKind.keyword .from_).allows ' ' = true := by decide
  have himport : (TokenKind.keyword .import_).allows ' ' = true := by decide
  let after : List Piece :=
    .blank :: .token (.keyword .import_) Keyword.import_.spelling :: .blank :: wordPieces names
  have hafter : Ends 0 (source ++ after) :=
    hends ⟨spells_keyword _, himport, depthLimit_pos, ends_wordPieces h⟩
  have hall : Ends 0 (.token (.keyword .from_) Keyword.from_.spelling :: .blank ::
      (source ++ after)) := ⟨spells_keyword _, hfrom, depthLimit_pos, hafter⟩
  have hwrite : write (.token (.keyword .from_) Keyword.from_.spelling :: .blank ::
      (source ++ after)) = importLine (write source) names := by
    rw [importLine, ← write_wordPieces]
    simp [after, write, Piece.text]
  have hkinds : kinds (.token (.keyword .from_) Keyword.from_.spelling :: .blank ::
      (source ++ after)) = importKinds (kinds source) (names.map TokenKind.wordForm) := by
    have hnames : kinds after =
        .keyword .import_ :: commas ((names.map TokenKind.wordForm).map fun w => [.word w]) :=
      congrArg (TokenKind.keyword .import_ :: ·) (kinds_wordPieces names)
    rw [importKinds, ← hnames, ← kinds_append]
    rfl
  have hline := isLine_of_ends hall 0
  rw [hwrite, hkinds] at hline
  exact hline

theorem isLine_text {body : Text} (h : ∀ c ∈ body, c ≠ '"' ∧ c ≠ '\\' ∧ 32 ≤ c.toNat) :
    IsLine 0 ('"' :: '"' :: '"' :: (body ++ ['"', '"', '"'])) [.text body, .newline] := by
  have hline : endsItem '\n' = true := by decide
  have hends : Ends 0 [.token (.text body) ('"' :: '"' :: '"' :: (body ++ ['"', '"', '"']))] :=
    ⟨spells_triple h, allows_text hline, depthLimit_pos, rfl⟩
  have hwritten := isLine_of_ends hends 0
  rw [write, List.flatMap_singleton] at hwritten
  exact hwritten

/-! ### Reading line by line -/

/-- Whether a printed text that begins on line `line` is read as the statements `ss`. -/
structure ReadsFrom (line : Nat) (t : Text) (ss : List Statement) : Prop where
  printed : Printed t
  reads : ∃ ts, scanLines? ⟨⟨line, 0⟩, 0, []⟩ t = some ts ∧ statements? ts = some ss

namespace ReadsFrom

variable {line : Nat} {l t : Text} {ss : List Statement}

theorem blank (h : ReadsFrom (line + 1) t ss) : ReadsFrom line ('\n' :: t) ss := by
  refine ⟨.line (l := []) (by simp) h.printed, ?_⟩
  rw [scanLines?_newline]
  exact h.reads

theorem comment (hl : ∀ c ∈ l, 32 ≤ c.toNat) (h : ReadsFrom (line + 1) t ss) :
    ReadsFrom line ('#' :: (l ++ '\n' :: t)) ss := by
  have hprinted : ∀ c ∈ '#' :: l, 32 ≤ c.toNat := by simpa using hl
  refine ⟨.line hprinted h.printed, ?_⟩
  rw [scanLines?_comment hl]
  exact h.reads

/-- A line that is a statement by itself comes before the statements that follow. -/
theorem statement {ks : List TokenKind} {P : Statement → Prop} (hline : IsLine 0 l ks)
    (hreads : ∀ {us}, OnLine line us ks → ∀ rest, ∃ s, P s ∧
      Yields (statement? (us ++ rest)) [s] rest)
    (h : ReadsFrom (line + 1) t ss) : ∃ s, P s ∧ ReadsFrom line (l ++ '\n' :: t) (s :: ss) := by
  obtain ⟨row, hrow, hindent, rfl, rfl⟩ := hline
  obtain ⟨ts, hscan, hstatements⟩ := h.reads
  have htop : Indentation.enter? [] ⟨row.indent, row.indent⟩ = some ([], []) := by
    rw [hindent]
    rfl
  obtain ⟨us, hmarks, hrows⟩ := scanLines?_row hrow htop line t
  have hus : OnLine line us (kinds row.pieces ++ [TokenKind.newline]) := by
    constructor
    · have := congrArg (List.map Prod.fst) hmarks
      simpa [Function.comp_def, Token.mark] using this
    · intro u hu
      have hmark : u.mark ∈ us.map Token.mark := List.mem_map_of_mem hu
      rw [hmarks] at hmark
      obtain ⟨k, _, hk⟩ := List.mem_map.1 hmark
      exact (congrArg Prod.snd hk).symm
  obtain ⟨s, hs, hyields⟩ := hreads hus ts
  refine ⟨s, hs, .line hrow.printed h.printed, us ++ ts, by rw [hrows, hscan, Option.map_some], ?_⟩
  rw [statements?_of_statement? hyields, hstatements]
  rfl

theorem text {body : Text} (hbody : ∀ c ∈ body, c ≠ '"' ∧ c ≠ '\\' ∧ 32 ≤ c.toNat)
    (h : ReadsFrom (line + 1) t ss) :
    ReadsFrom line ('"' :: '"' :: '"' :: (body ++ ['"', '"', '"']) ++ '\n' :: t)
      (⟨.expression (.text body), line⟩ :: ss) := by
  obtain ⟨s, rfl, hs⟩ := h.statement (isLine_text hbody)
    (P := (· = ⟨.expression (.text body), line⟩))
    fun hus rest => ⟨_, rfl, statement?_text hus rest⟩
  exact hs

theorem importNames {source : Text} (hsource : source = ['.'] ∨ IsDotted source)
    {names : List Text} (hne : names ≠ []) (hnames : ∀ w ∈ names, IsName w)
    (h : ReadsFrom (line + 1) t ss) :
    ∃ level path list, ReadsFrom line (importLine source names ++ '\n' :: t)
      (⟨.importNames level path list, line⟩ :: ss) := by
  obtain ⟨ps, rfl, hkinds, hends⟩ : ∃ ps, write ps = source ∧ IsSource (kinds ps) ∧
      ∀ {qs}, Ends 0 qs → Ends 0 (ps ++ .blank :: qs) := by
    rcases hsource with rfl | hdotted
    · have hblank : (TokenKind.symbol .dot).allows ' ' = true := by decide
      exact ⟨[.token (.symbol .dot) ['.']], rfl, .inr rfl,
        fun {qs} hqs => ⟨spells_dot, hblank, depthLimit_pos, hqs⟩⟩
    · obtain ⟨w, ws, hws, rfl⟩ := hdotted.exists_join
      have hblank : endsItem ' ' = true := by decide
      exact ⟨.word w :: dots ws, write_dots w ws, .inl ⟨_, _, kinds_dotted w ws⟩,
        fun {qs} hqs => (writesItem_dotted hws depthLimit_pos).ends hblank hqs⟩
  obtain ⟨s, ⟨level, path, list, rfl⟩, hs⟩ := h.statement (isLine_import hnames hends)
    (P := fun s => ∃ level path list, s = ⟨.importNames level path list, line⟩)
    fun hus rest => by
      obtain ⟨level, path, list, hyields⟩ :=
        statement?_import hkinds (mt List.map_eq_nil_iff.1 hne) hus rest
      exact ⟨_, ⟨level, path, list, rfl⟩, hyields⟩
  exact ⟨level, path, list, hs⟩

end ReadsFrom

end TypedQueries.Source

namespace TypedQueries.Companion

open Source Text

/-! ### Preambles -/

def description (package : Text) : Text :=
  "Query parameters generated for package ``" ++ package ++ "``."

theorem quoted_description (package : Text) :
    ("\"\"\"Query parameters generated for package ``" ++ package ++ "``.\"\"\"" : Text) =
      '"' :: '"' :: '"' :: (description package ++ ['"', '"', '"']) := by
  have hfront : ("\"\"\"Query parameters generated for package ``" : Text) =
      '"' :: '"' :: '"' :: ("Query parameters generated for package ``" : Text) := by
    decide +kernel
  have hback : ("``.\"\"\"" : Text) = "``." ++ ['"', '"', '"'] := by decide
  have hdescription : description package =
      "Query parameters generated for package ``" ++ package ++ "``." := rfl
  rw [hfront, hback, hdescription]
  simp only [List.cons_append, List.append_assoc]

/-- A preamble is its comments, the text about the package and the imports. -/
theorem preambleText_append (package source name t : Text) :
    preambleText package source name ++ t =
      unlines heading ++ ('"' :: '"' :: '"' :: (description package ++ ['"', '"', '"']) ++ '\n' ::
        '\n' :: (importLine "__future__" ["annotations"] ++ '\n' ::
          '\n' :: (importLine "dataclasses" ["dataclass"] ++ '\n' ::
            (importLine "typing" ["Any", "List", "Optional"] ++ '\n' ::
              '\n' :: (importLine source [name] ++ '\n' :: t))))) := by
  have hfuture : ("from __future__ import annotations" : Text) =
      importLine "__future__" ["annotations"] := by decide +kernel
  have hdataclasses : ("from dataclasses import dataclass" : Text) =
      importLine "dataclasses" ["dataclass"] := by decide +kernel
  have htyping : ("from typing import Any, List, Optional" : Text) =
      importLine "typing" ["Any", "List", "Optional"] := by decide +kernel
  have hfrom : Keyword.from_.spelling = "from" := rfl
  have himport : Keyword.import_.spelling = "import" := rfl
  have hruntime : "from " ++ source ++ " import " ++ name = importLine source [name] := by
    simp [importLine, hfrom, himport, join]
  rw [preambleText]
  simp only [hruntime, quoted_description, hfuture, hdataclasses, htyping]
  simp only [heading, unlines_cons_append]
  rfl

theorem forall_mem_join {P : Char → Prop} {sep : Text} (hsep : ∀ c ∈ sep, P c) {ws : List Text}
    (h : ∀ w ∈ ws, ∀ c ∈ w, P c) : ∀ c ∈ join sep ws, P c := by
  induction ws with
  | nil => simp [join]
  | cons w ws ih =>
    intro c hc
    cases ws with
    | nil => exact h w List.mem_cons_self c hc
    | cons v vs =>
      rw [join_cons_cons] at hc
      rcases List.mem_append.1 hc with hc | hc
      · exact h w List.mem_cons_self c hc
      rcases List.mem_append.1 hc with hc | hc
      · exact hsep c hc
      · exact ih (fun u hu => h u (List.mem_cons_of_mem w hu)) c hc

theorem dotted_chars {t : Text} (h : IsDotted t) :
    ∀ c ∈ t, c ≠ '"' ∧ c ≠ '\\' ∧ 32 ≤ c.toNat := by
  obtain ⟨w, ws, hws, rfl⟩ := h.exists_join
  have hdot : ∀ c ∈ ['.'], c ≠ '"' ∧ c ≠ '\\' ∧ 32 ≤ c.toNat := by simp
  refine forall_mem_join hdot fun v hv c hc => ?_
  have hpart := isIdentifierPart_of_mem (hws v hv).1 c hc
  exact ⟨ne_of_isIdentifierPart hpart (by decide), ne_of_isIdentifierPart hpart (by decide),
    printed_of_isIdentifierPart hpart⟩

theorem description_chars {package : Text} (h : IsDotted package) :
    ∀ c ∈ description package, c ≠ '"' ∧ c ≠ '\\' ∧ 32 ≤ c.toNat := by
  intro c hc
  have hfront : ∀ c ∈ ("Query parameters generated for package ``" : Text),
      c ≠ '"' ∧ c ≠ '\\' ∧ 32 ≤ c.toNat := by simp
  have hback : ∀ c ∈ ("``." : Text), c ≠ '"' ∧ c ≠ '\\' ∧ 32 ≤ c.toNat := by simp
  rcases List.mem_append.1 hc with hc | hc
  · rcases List.mem_append.1 hc with hc | hc
    · exact hfront c hc
    · exact dotted_chars h c hc
  · exact hback c hc

theorem reads_heading [Release] {t : Text} {ss : List Statement} (h : ReadsFrom 3 t ss) :
    ReadsFrom 1 (unlines heading ++ t) ss := by
  have hfirst : ("# Code generated by querygen. DO NOT EDIT." : Text) =
      '#' :: (" Code generated by querygen. DO NOT EDIT." : Text) := by decide +kernel
  have hsecond : ("# You may only edit import statements." : Text) =
      '#' :: (" You may only edit import statements." : Text) := by decide +kernel
  simp only [heading, unlines_cons_append]
  rw [hfirst, hsecond]
  exact (h.comment (by simp)).comment (by simp)

section Names

variable [Release] {package source name : Text} (hpackage : IsDotted package)
  (hsource : source = ['.'] ∨ IsDotted source) (hname : IsName name)

include hpackage hsource hname

/-- A preamble has ten lines, whatever follows it, unless that imports something. -/
theorem reads_preamble {t : Text} {ss : List Statement} (h : ReadsFrom 11 t ss)
    (hss : ∀ s ∈ ss, isImport s = false) :
    ∃ ss', ReadsFrom 1 (preambleText package source name ++ t) ss' ∧ preambleLines ss' = 10 := by
  have hfuture : IsDotted "__future__" := by decide
  have hdataclasses : IsDotted "dataclasses" := by decide
  have htyping : IsDotted "typing" := by decide
  have hruntime : ∀ w ∈ [name], IsName w := by simpa using hname
  have htypes : ∀ w ∈ ([("Any" : Text), "List", "Optional"] : List Text), IsName w := by decide
  have hdataclass : ∀ w ∈ ([("dataclass" : Text)] : List Text), IsName w := by decide
  have hannotations : ∀ w ∈ ([("annotations" : Text)] : List Text), IsName w := by decide
  obtain ⟨_, _, _, h₁₀⟩ := h.importNames hsource (by simp) hruntime
  obtain ⟨_, _, _, h₈⟩ := h₁₀.blank.importNames (.inr htyping) (by simp) htypes
  obtain ⟨_, _, _, h₇⟩ := h₈.importNames (.inr hdataclasses) (by simp) hdataclass
  obtain ⟨_, _, _, h₅⟩ := h₇.blank.importNames (.inr hfuture) (by simp) hannotations
  have h₃ := h₅.blank.text (description_chars hpackage)
  have hreads := reads_heading h₃
  rw [← preambleText_append] at hreads
  have himports : ss.filter isImport = [] := by simpa [List.filter_eq_nil_iff] using hss
  have htext (v : Text) (n : Nat) : isImport ⟨.expression (.text v), n⟩ = false := rfl
  have himport (level : Nat) (path : Option Text) (list : List ImportedName) (n : Nat) :
      isImport ⟨.importNames level path list, n⟩ = true := rfl
  exact ⟨_, hreads,
    by simp [preambleLines, docstringEnd, htext, himport, himports]⟩

omit [Release] in
/-- The lines of a preamble take as many bytes as the preamble, whatever follows it. -/
theorem bytesOfLines_preamble (r : Bytes) :
    bytesOfLines 10 (Utf8.encode (preambleText package source name) ++ r) =
      (Utf8.encode (preambleText package source name)).length := by
  refine @bytesOfLines_unlines [_, _, _, _, _, _, _, _, _, _] ?_ r
  have hdotted {t : Text} (h : IsDotted t) : '\n' ∉ t :=
    fun hmem => absurd (dotted_chars h _ hmem).2.2 (by decide)
  have hname : '\n' ∉ name := fun hmem =>
    ne_of_isIdentifierPart (isIdentifierPart_of_mem hname.1 _ hmem) (by decide) rfl
  have hsource : '\n' ∉ source := by
    rcases hsource with rfl | hsource
    · decide
    · exact hdotted hsource
  have hpackage := hdotted hpackage
  intro l hl
  simp only [List.mem_cons, List.not_mem_nil, or_false] at hl
  rcases hl with rfl | rfl | rfl | rfl | rfl | rfl | rfl | rfl | rfl | rfl <;>
    simp [hpackage, hsource, hname]

/-- The bytes of a created companion are read as a module whose preamble is the one that was
written. -/
theorem readStatements?_rendered {wanted : List ParamSet} (h : ∀ p ∈ wanted, IsNamed p) :
    ∃ body ss, emitText (name ++ ".") wanted = .ok body ∧
      readStatements? (Utf8.encode (preambleText package source name ++ body)) = some ss ∧
      preambleLines ss = 10 := by
  obtain ⟨body, kss, hbody, hclasses, hscans⟩ := scans_emit hname h
  have hscan : Scans [] body kss.flatten := @hscans [] rfl
  obtain ⟨ts, hts, hscan'⟩ := hscan.reads 11
  obtain ⟨more, hmore, hkinds⟩ := statements?_classes hclasses hts
  have himports : ∀ s ∈ more, isImport s = false := by
    intro s hs
    have hkind : s.kind ∈ more.map Statement.kind := List.mem_map_of_mem hs
    rw [hkinds] at hkind
    obtain ⟨p, _, hp⟩ := List.mem_map.1 hkind
    obtain ⟨kind, n⟩ := s
    subst hp
    rfl
  obtain ⟨ss, hreads, hlines⟩ :=
    reads_preamble hpackage hsource hname ⟨hscan.printed, ts, hscan', hmore⟩ himports
  refine ⟨body, ss, hbody, ?_, hlines⟩
  obtain ⟨ts', hts', hss⟩ := hreads.reads
  have hprinted := hreads.printed
  obtain ⟨rest, hrest⟩ : ∃ rest, preambleText package source name ++ body =
      unlines heading ++ rest := ⟨_, preambleText_append ..⟩
  rw [hrest] at hts' hprinted ⊢
  have hreturns : '\r' ∉ unlines heading ++ rest :=
    hprinted.notMem (c := '\r') (by decide) (by decide)
  have hdecode := decodeFile?_heading (t := rest) fun hmem =>
    hreturns (List.mem_append_right _ hmem)
  have hnull : (0 : UInt8) ∉ Utf8.encode (unlines heading ++ rest) := by
    intro hmem
    obtain ⟨c, hc, hzero⟩ := List.mem_flatMap.1 hmem
    refine ascii_notMem_encodeChar (d := '\x00') (by decide) ?_ hzero
    rintro rfl
    exact hprinted.notMem (c := '\x00') (by decide) (by decide) hc
  have hne : unlines heading ++ rest ≠ [] := by simp [heading, unlines]
  rw [readStatements?, hdecode]
  simp only [List.contains_eq_mem, hnull, decide_false, Bool.false_eq_true, if_false, bind,
    Option.bind]
  rw [readLines?, scan?, hprinted.endLine_eq hne, hts']
  exact hss

end Names

/-- Whether a package and its runtime module are called by names. -/
structure Companions.HasNames (c : Companions) : Prop where
  package : ∃ package : Text, c.package = package ∧ IsDotted package
  runtimePackage : ∃ runtime : Text, c.runtime.package = runtime ∧ IsDotted runtime
  runtimeName : ∃ name : Text, c.runtime.name = name ∧ IsName name

theorem Companions.HasNames.exists_source {c : Companions} (h : c.HasNames) :
    ∃ source : Text, c.runtime.source = source ∧ (source = ['.'] ∨ IsDotted source) := by
  obtain ⟨runtime, hruntime, hdotted⟩ := h.runtimePackage
  rw [RuntimeImport.source, hruntime]
  cases c.runtime.relative with
  | false => exact ⟨runtime, rfl, .inr hdotted⟩
  | true => exact ⟨['.'], rfl, .inl rfl⟩

theorem Companions.HasNames.isPlain {c : Companions} (h : c.HasNames) : c.IsPlain := by
  obtain ⟨package, hpackage, -⟩ := h.package
  obtain ⟨source, hsource, -⟩ := h.exists_source
  obtain ⟨name, hname, -⟩ := h.runtimeName
  exact ⟨⟨package, hpackage⟩, ⟨source, hsource⟩, name, hname⟩

/-- A companion of names has a text. It is read as a module whose preamble is the one that was
written. -/
theorem Companions.HasNames.reads_text [Release] {c : Companions} (hc : c.HasNames)
    {wanted : List ParamSet} (h : ∀ p ∈ wanted, IsNamed p) :
    ∃ (head body : Text) (ss : List Statement), preamble c.package c.runtime = head ∧
      emit (c.runtime.name ++ ".") wanted = .ok body ∧
      readStatements? (Utf8.encode (head ++ body)) = some ss ∧
      ∀ r, bytesOfLines (preambleLines ss) (Utf8.encode head ++ r) =
        (Utf8.encode head).length := by
  obtain ⟨package, hpackage, hdotted⟩ := hc.package
  obtain ⟨source, hsource, hisSource⟩ := hc.exists_source
  obtain ⟨name, hname, hisName⟩ := hc.runtimeName
  obtain ⟨body, ss, hbody, hread, hlines⟩ :=
    readStatements?_rendered hdotted hisSource hisName h
  refine ⟨preambleText package source name, body, ss, ?_, ?_, hread, fun r => ?_⟩
  · rw [hpackage, preamble_ofText package hsource hname]
  · rw [hname, ← CodedText.ofText_append]
    exact emit_eq_ok_ofText hbody
  · rw [hlines]
    exact bytesOfLines_preamble hdotted hisSource hisName r

/-! ### Parameter sets of queries -/

theorem isItemText_fieldType [Release] {t : Text} (h : IsDotted (baseType t)) :
    IsItemText 0 (fieldType t) := by
  have hname : IsName "Optional" := by decide
  rw [fieldType.eq_def]
  split
  · rename_i base
    have hbase : IsItemText 1 base := isItemText_dotted h (by decide)
    have hoptional : IsItemText 0 ("Optional" ++ '[' :: (base ++ [']'])) :=
      isItemText_subscript hname (by decide) hbase
    simpa using hoptional
  · rename_i hplain
    have hbase : baseType t = t := by
      rw [baseType.eq_def]
      split
      · exact absurd rfl (hplain _)
      · rfl
    rw [hbase] at h
    exact isItemText_dotted h depthLimit_pos

/-- Whether a parameter set comes from the directives of a query, and calls its class, its fields
and their types by names. -/
structure IsWanted (p : ParamSet) : Prop where
  built : ∃ resolve queryName suffix ds,
    (ParamSet.ofDirectives resolve queryName suffix ds).result = .ok (some p)
  className : IsName p.typeName
  fields : ∀ f ∈ p.fields, IsName f.name ∧ IsDotted (baseType f.typeName)

theorem IsWanted.isNamed [Release] {p : ParamSet} (h : IsWanted p) : IsNamed p := by
  obtain ⟨⟨resolve, queryName, suffix, ds, hbuilt⟩, hclass, hfields⟩ := h
  obtain ⟨us, rfl, hne, _, hindex, _⟩ := ParamSet.ofDirectives_eq_some hbuilt
  obtain ⟨_, hslots⟩ := @ParamSet.slots_gather (ClassName.ofQuery queryName suffix) us _ hindex
  have hfield : ∀ u ∈ us, ParamSet.Builder.fieldOf us u.name ∈
      (ParamSet.Builder.gather us).fields :=
    fun u hu => List.mem_map_of_mem (ParamSet.Builder.mem_names.2 ⟨u, hu, rfl⟩)
  refine ⟨hclass, ?_, fun f hf => ⟨(hfields f hf).1, isItemText_fieldType (hfields f hf).2⟩,
    us.map ParamSet.Builder.Taken.slot, hslots, by simpa using hne, ?_⟩
  · obtain ⟨u, us', rfl⟩ := List.exists_cons_of_ne_nil hne
    exact List.ne_nil_of_mem (hfield u List.mem_cons_self)
  · intro s hs
    obtain ⟨u, hu, rfl⟩ := List.mem_map.1 hs
    exact (hfields _ (hfield u hu)).1

/-! ### Companions -/

theorem splitLast?_ofText_append {sep : Char} {back : Text} (h : sep ∉ back) (front : Text) :
    CodedText.splitLast? sep (CodedText.ofText (front ++ sep :: back)) =
      some (CodedText.ofText front, CodedText.ofText back) := by
  have hback : ∀ p ∈ (CodedText.ofText back).reverse, decide (p ≠ CodePoint.char sep) = true := by
    intro p hp
    obtain ⟨c, hc, rfl⟩ := List.mem_map.1 (List.mem_reverse.1 hp)
    refine decide_eq_true fun heq => h ?_
    rwa [← CodePoint.char.inj heq]
  have hreverse : (CodedText.ofText (front ++ sep :: back)).reverse =
      (CodedText.ofText back).reverse ++
        CodePoint.char sep :: (CodedText.ofText front).reverse := by
    simp [CodedText.ofText]
  have hdrop : ((CodedText.ofText (front ++ sep :: back)).reverse.dropWhile
      fun p => decide (p ≠ CodePoint.char sep)) =
        CodePoint.char sep :: (CodedText.ofText front).reverse := by
    rw [hreverse, List.dropWhile_append_of_pos hback, List.dropWhile_cons_of_neg (by simp)]
  have htake : ((CodedText.ofText (front ++ sep :: back)).reverse.takeWhile
      fun p => decide (p ≠ CodePoint.char sep)) = (CodedText.ofText back).reverse := by
    rw [hreverse, List.takeWhile_append_of_pos hback, List.takeWhile_cons_of_neg (by simp),
      List.append_nil]
  rw [CodedText.splitLast?, hdrop, htake]
  simp only [List.reverse_reverse]

theorem exists_split_of_mem {sep : Char} {t : Text} (h : sep ∈ t) :
    ∃ front back, t = front ++ sep :: back ∧ sep ∉ back := by
  obtain ⟨front, back, ht, hback⟩ := List.eq_append_cons_of_mem (List.mem_reverse.2 h)
  refine ⟨back.reverse, front.reverse, ?_, fun hmem => hback (List.mem_reverse.1 hmem)⟩
  rw [← List.reverse_reverse t, ht]
  simp

theorem exists_runtime_iff {runtimeModule : Text} {package : CodedText} :
    (∃ runtime, RuntimeImport.of runtimeModule package = .ok runtime) ↔ '.' ∈ runtimeModule := by
  constructor
  · rintro ⟨runtime, hof⟩
    by_contra hmem
    have hnone : ((CodedText.ofText runtimeModule).reverse.dropWhile
        fun p => decide (p ≠ CodePoint.char '.')) = [] := by
      refine List.dropWhile_eq_nil_iff.2 fun p hp => ?_
      obtain ⟨c, hc, rfl⟩ := List.mem_map.1 (List.mem_reverse.1 hp)
      refine decide_eq_true fun heq => hmem ?_
      rwa [← CodePoint.char.inj heq]
    rw [RuntimeImport.of, CodedText.splitLast?, hnone] at hof
    cases hof
  · intro hmem
    obtain ⟨front, back, rfl, hback⟩ := exists_split_of_mem hmem
    rw [RuntimeImport.of, splitLast?_ofText_append hback]
    exact ⟨_, rfl⟩

theorem dotted_of_runtime {runtimeModule : Text} {package : CodedText} {runtime : RuntimeImport}
    (h : IsDotted runtimeModule) (hof : RuntimeImport.of runtimeModule package = .ok runtime) :
    (∃ parent : Text, runtime.package = parent ∧ IsDotted parent) ∧
      ∃ name : Text, runtime.name = name ∧ IsName name := by
  obtain ⟨front, back, rfl, hback⟩ := exists_split_of_mem (exists_runtime_iff.1 ⟨runtime, hof⟩)
  rw [RuntimeImport.of, splitLast?_ofText_append hback] at hof
  cases hof
  rw [IsDotted, splitOn_append_sep, splitOn_of_not_mem hback] at h
  exact ⟨⟨front, rfl, fun w hw => h w (List.mem_append_left _ hw)⟩, back, rfl, h back (by simp)⟩

/-- Whether a file is a companion as it is created for some parameter sets. -/
def IsCreated (c : Companions) (t : FileTree) (path : Path) (wanted : List ParamSet) : Prop :=
  ∃ text contents, render c.package c.runtime wanted = .ok text ∧
    Utf8.encodeCoded text = .ok contents ∧ t.read path = .ok contents

theorem isCreated_create {c : Companions} (hplain : c.IsPlain) {wanted : List ParamSet}
    {text : CodedText} (hrender : render c.package c.runtime wanted = .ok text) {t : FileTree}
    {path : Path} (hfree : t.node? path = none) (hdir : t.isDirectory path.parent = true) :
    ∃ t', c.create t path wanted = (t', .ok ()) ∧ IsCreated c t' path wanted := by
  obtain ⟨contents, hcontents⟩ := (encodes_render_iff hrender).2 hplain
  refine ⟨(t.put path (.file [])).put path (.file contents), ?_, text, contents, hrender, hcontents,
    FileTree.read_eq_ok_iff.2 (FileTree.node?_put_self _ path _)⟩
  simp only [Companions.create, hrender, FileTree.create_of_free hfree hdir, hcontents]

theorem load_of_readStatements? [Release] {t : FileTree} {path : Path} {contents : Bytes}
    {statements : List Statement} (hfile : t.read path = .ok contents)
    (hread : readStatements? contents = some statements) :
    Existing.load t path = .ok (⟨path, .module statements⟩, []) := by
  rw [Existing.load, hfile]
  simp only [bind, Except.bind]
  rw [Standing.ofContents, hread]

/-- A companion as it is created is read as a module, and it is cut where its preamble ends. -/
theorem IsCreated.load [Release] {c : Companions} (hc : c.HasNames) {wanted : List ParamSet}
    (h : ∀ p ∈ wanted, IsNamed p) {t : FileTree} {path : Path}
    (hcreated : IsCreated c t path wanted) :
    ∃ (contents : Bytes) (head body : Text) (statements : List Statement),
      t.read path = .ok contents ∧ preamble c.package c.runtime = head ∧
      emit (c.runtime.name ++ ".") wanted = .ok body ∧
      Existing.load t path = .ok (⟨path, .module statements⟩, []) ∧
      contents.take (preambleBytes statements contents) = Utf8.encode head ∧
      contents.drop (preambleBytes statements contents) = Utf8.encode body := by
  obtain ⟨text, contents, hrender, hcontents, hfile⟩ := hcreated
  obtain ⟨head, body, statements, hhead, hemit, hread, hlines⟩ := hc.reads_text h
  rw [render, hemit] at hrender
  obtain rfl : preamble c.package c.runtime ++ CodedText.ofText body = text := Except.ok.inj hrender
  rw [hhead, ← CodedText.ofText_append, Utf8.encodeCoded_ofText] at hcontents
  obtain rfl := Except.ok.inj hcontents
  have hlength : preambleBytes statements (Utf8.encode (head ++ body)) =
      (Utf8.encode head).length := by
    rw [preambleBytes, Utf8.encode_append]
    exact hlines _
  refine ⟨_, head, body, statements, hfile, hhead, hemit, ?_, ?_, ?_⟩
  · exact load_of_readStatements? hfile hread
  · rw [hlength, Utf8.encode_append, List.take_left]
  · rw [hlength, Utf8.encode_append, List.drop_left]

section Update

variable {c : Companions} {wanted : List ParamSet} {t : FileTree} {path : Path}
  {statements : List Statement} {contents body : Bytes}

/-- An update keeps the bytes of the preamble. It leaves the file as it is when the rest are the
classes, and else writes the classes in the place of the rest. -/
theorem update_module (hbody : c.body wanted = .ok body) (hfile : t.read path = .ok contents)
    (statements : List Statement) :
    let n := preambleBytes statements contents
    c.update t path (.module statements) wanted =
      .ok (if contents.drop n = body then none
        else some (t.put path (.file (contents.take n ++ body)))) := by
  intro n
  rw [Companions.update, hbody]
  simp only [bind, Except.bind, hfile, mapError_ok,
    FileTree.overwrite_of_file (FileTree.read_eq_ok_iff.1 hfile)]
  split <;> rfl

theorem update_of_drop_eq (hbody : c.body wanted = .ok body) (hfile : t.read path = .ok contents)
    (hdrop : contents.drop (preambleBytes statements contents) = body) :
    c.update t path (.module statements) wanted = .ok none := by
  rw [update_module hbody hfile, if_pos hdrop]

end Update

/-- What is created is what an update finds. There are companions to create whenever the runtime
module has a package, and its import may be relative or not. The created file is read as a module
whose preamble is the one that was written, what follows it are the classes, and an update to the
same parameter sets writes nothing. -/
theorem create_then_update [Release] {package runtimeModule : Text} (hpackage : IsDotted package)
    (hruntime : IsDotted runtimeModule) {wanted : List ParamSet}
    (hwanted : ∀ p ∈ wanted, IsWanted p) {t : FileTree} {path : Path}
    (hfree : t.node? path = none) (hdir : t.isDirectory path.parent = true) :
    ((∃ runtime, RuntimeImport.of runtimeModule package = .ok runtime) ↔ '.' ∈ runtimeModule) ∧
      ∀ runtime, RuntimeImport.of runtimeModule package = .ok runtime → ∀ relative : Bool,
        let c : Companions := ⟨package, { runtime with relative }⟩
        ∃ (t' : FileTree) (contents : Bytes) (head body : Text) (statements : List Statement),
          preamble package c.runtime = head ∧ emit (runtime.name ++ ".") wanted = .ok body ∧
          c.create t path wanted = (t', .ok ()) ∧ t'.read path = .ok contents ∧
          Existing.load t' path = .ok (⟨path, .module statements⟩, []) ∧
          contents.take (preambleBytes statements contents) = Utf8.encode head ∧
          contents.drop (preambleBytes statements contents) = Utf8.encode body ∧
          c.update t' path (.module statements) wanted = .ok none := by
  refine ⟨exists_runtime_iff, fun runtime hof relative => ?_⟩
  obtain ⟨hparent, hname⟩ := dotted_of_runtime hruntime hof
  intro c
  have hc : c.HasNames := ⟨⟨package, rfl, hpackage⟩, hparent, hname⟩
  have hnamed : ∀ p ∈ wanted, IsNamed p := fun p hp => (hwanted p hp).isNamed
  obtain ⟨text, hrender⟩ : ∃ text, render c.package c.runtime wanted = .ok text := by
    obtain ⟨name, hruntimeName, hisName⟩ := hname
    obtain ⟨body, _, hbody, _⟩ := scans_emit hisName hnamed
    have hemit : emit (c.runtime.name ++ ".") wanted = .ok body := by
      rw [show c.runtime.name = CodedText.ofText name from hruntimeName, ← CodedText.ofText_append]
      exact emit_eq_ok_ofText hbody
    exact ⟨_, by rw [render, hemit]; rfl⟩
  obtain ⟨t', hcreate, hcreated⟩ := isCreated_create hc.isPlain hrender hfree hdir
  obtain ⟨contents, head, body, statements, hfile, hhead, hbody, hload, htake, hdrop⟩ :=
    hcreated.load hc hnamed
  exact ⟨t', contents, head, body, statements, hhead, hbody, hcreate, hfile, hload, htake, hdrop,
    update_of_drop_eq (body_eq_ok_iff.2 ⟨body, hbody, rfl⟩) hfile hdrop⟩

def tagSet : ParamSet :=
  ⟨"TagQueryParams", [⟨"id", "int", [⟨0, "%d"⟩, ⟨2, "%d"⟩]⟩, ⟨"tag", "*app.Tag", [⟨1, "%s"⟩]⟩]⟩

theorem isWanted_tagSet : IsWanted tagSet := by
  have hbuilt : (ParamSet.ofDirectives builtin? "TAG_QUERY" "Params" (Template.directives
      "a = {{ id : int }} b = {{ tag : *app.Tag : %s }} c = {{ id : _ }}")).result =
        .ok (some tagSet) := by decide +kernel
  exact ⟨⟨_, _, _, _, hbuilt⟩, by decide, by decide⟩

section

open scoped Source.Plain

/-- A companion with these parameters in an empty package, which imports the runtime module
relatively. -/
theorem create_then_update_tag :
    let t : FileTree := ⟨[(⟨.root, []⟩, .directory), (⟨.root, ["app"]⟩, .directory)]⟩
    let path : Path := ⟨.root, ["app", "tag_query_gen.py"]⟩
    let c : Companions := ⟨"app", ⟨"querygen", "interpolate", true⟩⟩
    t.node? path = none ∧ t.isDirectory path.parent = true ∧
      ∃ t' statements, c.create t path [tagSet] = (t', .ok ()) ∧
        Existing.load t' path = .ok (⟨path, .module statements⟩, []) ∧
        c.update t' path (.module statements) [tagSet] = .ok none := by
  intro t path c
  have hfree : t.node? path = none := by decide
  have hdir : t.isDirectory path.parent = true := by decide
  have hwanted : ∀ p ∈ [tagSet], IsWanted p := by simpa using isWanted_tagSet
  have hof : RuntimeImport.of "querygen.interpolate" "app" =
      .ok ⟨"querygen", "interpolate", false⟩ := by decide
  have hpackage : IsDotted "app" := by decide
  have hmodule : IsDotted "querygen.interpolate" := by decide
  obtain ⟨_, hall⟩ := create_then_update hpackage hmodule hwanted hfree hdir
  obtain ⟨t', _, _, _, statements, _, _, hcreate, _, hload, _, _, hupdate⟩ := hall _ hof true
  exact ⟨hfree, hdir, t', statements, hcreate, hload, hupdate⟩

end

end TypedQueries.Companion
