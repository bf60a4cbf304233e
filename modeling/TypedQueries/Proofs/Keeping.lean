import Mathlib.Data.List.Basic
import TypedQueries.Proofs.DecodedLines
import TypedQueries.Proofs.Placement
import TypedQueries.Proofs.Preambles
import TypedQueries.Source.Plain

/-!
# What an update keeps

An import, or the text that a module begins with, ends with a token on its last line. Where the
lines of a file are those of its text, the bytes up to the end of that token and to the end of its
line are kept by every update, however the lines end and wherever the import stands. Else the line
feeds that are counted may be too many, and imports are lost.
-/

namespace TypedQueries.Companion

open Source Text

/-- Where a statement ends in a file: the tokens of its text that the statement is read from, and
the bytes that stand before the end of the last of them. -/
structure Extent [Release] (contents : Bytes) (s : Statement) where
  text : Text
  tokens : List Token
  used : List Token
  last : Token
  after : List Token
  before : Text
  spelling : Text
  behind : Text
  front : Bytes
  decodes : Encoding.decodeFile? contents = some text
  scans : scan? text = some tokens
  occupies : Occupies tokens s used last after
  stands : StandsAt ⟨1, 0⟩ (endLine text) last before spelling behind
  isHead : IsHead contents front (before ++ spelling)

namespace Extent

variable [Release] {contents : Bytes} {s : Statement}

theorem lineEnds_front (x : Extent contents s) : lineEnds x.front + 1 = s.lastLine := by
  rw [x.isHead.lineEnds_eq, ← x.occupies.ends, x.stands.ends, line_afterText_eq, Nat.add_comm]

theorem front_isPrefix (x : Extent contents s) : x.front <+: firstLines s.lastLine contents := by
  obtain ⟨back, hback⟩ := x.isHead.isPrefix
  have hless : lineEnds x.front < s.lastLine := x.lineEnds_front ▸ Nat.lt_succ_self _
  have h := isPrefix_firstLines_of_lineEnds hless back
  rwa [hback] at h

end Extent

theorem IsAnchor.mem {statements : List Statement} {s : Statement} (h : IsAnchor statements s) :
    s ∈ statements := by
  rcases h with ⟨hs, _⟩ | ⟨hs, _⟩
  · exact hs
  · exact List.mem_of_head? hs

theorem IsAnchor.mayHaveBody {statements : List Statement} {s : Statement}
    (h : IsAnchor statements s) : s.kind.mayHaveBody = false := by
  rcases h with ⟨_, himport⟩ | ⟨_, v, hv⟩
  · unfold isImport at himport
    split at himport
    · rfl
    · rfl
    · cases himport
  · rw [hv]
    rfl

theorem IsAnchor.extent [Release] {contents : Bytes} (hlines : HasLinesOfText contents)
    {statements : List Statement} (hread : readStatements? contents = some statements)
    {s : Statement} (hs : IsAnchor statements s) : Nonempty (Extent contents s) := by
  rw [readStatements?] at hread
  split at hread
  · cases hread
  obtain ⟨text, htext, hread⟩ := Option.bind_eq_some_iff.1 hread
  obtain ⟨ts, hts, hread⟩ := Option.bind_eq_some_iff.1 hread
  obtain ⟨used, last, after, hoccupies⟩ := (isAmong_statements? hread s hs.mem).resolve_left
    (by simp [hs.mayHaveBody])
  have hlast : last ∈ ts := hoccupies.isSuffix.subset (by simp)
  obtain ⟨before, spelling, behind, hstands⟩ := scan?_placed hts last hlast hoccupies.notLayout
  obtain ⟨front, hfront⟩ := exists_isHead hlines htext hstands.isPrefix
  exact ⟨⟨text, ts, used, last, after, before, spelling, behind, front, htext, hts, hoccupies,
    hstands, hfront⟩⟩

/-! ### What is kept -/

/-- The tree after an update, which is the one before it when the update fails or changes
nothing. -/
def Companions.updated (c : Companions) (t : FileTree) (path : Path) (statements : List Statement)
    (wanted : List ParamSet) : FileTree :=
  match c.update t path (.module statements) wanted with
  | .ok (some t') => t'
  | _ => t

theorem Companions.updated_of_update {c : Companions} {t : FileTree} {path : Path}
    {statements : List Statement} {wanted : List ParamSet} {outcome : Option FileTree}
    (h : c.update t path (.module statements) wanted = .ok outcome) :
    c.updated t path statements wanted = outcome.getD t := by
  rw [Companions.updated, h]
  cases outcome <;> rfl

/-- Whether a file begins with some bytes whatever classes are written to it. -/
def SurvivesUpdates (t : FileTree) (path : Path) (statements : List Statement) (front : Bytes) :
    Prop :=
  ∀ (c : Companions) (wanted : List ParamSet), ∃ contents,
    (c.updated t path statements wanted).read path = .ok contents ∧ front <+: contents

/-- A head of a file is within its first lines exactly if fewer line feeds stand before its last
byte. -/
theorem isPrefix_take_bytesOfLines_iff {n : Nat} {front bs : Bytes} (h : front <+: bs) :
    front <+: bs.take (bytesOfLines n bs) ↔
      front = [] ∨ front.dropLast.count lineFeed < n := by
  rw [List.prefix_take_iff, and_iff_right h]
  rcases List.eq_nil_or_concat' front with rfl | ⟨init, b, rfl⟩
  · simp
  rw [List.dropLast_concat, List.length_append, List.length_singleton, or_iff_right (by simp)]
  constructor
  · exact count_lt_of_length_lt ((List.prefix_append init [b]).trans h)
  · intro hcount
    obtain ⟨rest, rfl⟩ := h
    obtain ⟨m, hm⟩ := Nat.exists_eq_add_of_lt hcount
    have hone : 1 ≤ bytesOfLines (m + 1) (b :: rest) := by
      rw [bytesOfLines]
      exact Nat.le_add_left _ _
    rw [List.append_assoc, List.singleton_append, bytesOfLines_append, if_neg (Nat.not_le.2 hcount),
      show n - init.count lineFeed = m + 1 by omega]
    exact Nat.add_le_add_left hone _

section Updates

variable {t : FileTree} {path : Path} {contents : Bytes} (hfile : t.read path = .ok contents)
include hfile

/-- Every update keeps the lines that it counts to the preamble. -/
theorem exists_read_updated (c : Companions) (statements : List Statement)
    (wanted : List ParamSet) :
    ∃ contents', (c.updated t path statements wanted).read path = .ok contents' ∧
      contents.take (preambleBytes statements contents) <+: contents' := by
  cases hupdate : c.update t path (.module statements) wanted with
  | error e =>
    rw [Companions.updated, hupdate]
    exact ⟨contents, hfile, List.take_prefix _ contents⟩
  | ok outcome =>
    obtain ⟨body, _, hfile'⟩ := read_updated hfile hupdate
    rw [Companions.updated_of_update hupdate]
    exact ⟨_, hfile', List.prefix_append _ body⟩

/-- An update to no classes at all keeps nothing else. -/
theorem read_updated_nil (c : Companions) (statements : List Statement) :
    (c.updated t path statements []).read path =
      .ok (contents.take (preambleBytes statements contents)) := by
  have hbody : c.body [] = .ok [] := rfl
  obtain ⟨outcome, hupdate⟩ := exists_update hbody hfile statements
  obtain ⟨body, hbody', hfile'⟩ := read_updated hfile hupdate
  obtain rfl := Except.ok.inj (hbody.symm.trans hbody')
  rwa [List.append_nil, ← Companions.updated_of_update hupdate] at hfile'

theorem survivesUpdates_iff {front : Bytes} (hfront : front <+: contents)
    (statements : List Statement) :
    SurvivesUpdates t path statements front ↔
      front = [] ∨ front.dropLast.count lineFeed < preambleLines statements := by
  rw [← isPrefix_take_bytesOfLines_iff hfront]
  constructor
  · intro h
    obtain ⟨contents', hfile', hprefix⟩ := h ⟨[], ⟨[], [], false⟩⟩ []
    rw [read_updated_nil hfile] at hfile'
    cases hfile'
    exact hprefix
  · intro h c wanted
    obtain ⟨contents', hfile', hprefix⟩ := exists_read_updated hfile c statements wanted
    exact ⟨contents', hfile', h.trans hprefix⟩

end Updates

/-- What every update keeps of a file that is read. A head of the file survives all of them exactly
if fewer line feeds stand before its last byte than the last line of the preamble counts in the
text. Where the lines of the file are those of its text, these are all the lines up to the end of
the text that the module begins with and up to the end of each import; and so it is in every
encoding that is known by itself. -/
theorem update_keeps_iff [Release] {t : FileTree} {path : Path} {contents : Bytes}
    (hfile : t.read path = .ok contents) {statements : List Statement}
    (hread : readStatements? contents = some statements) :
    Existing.load t path = .ok (⟨path, .module statements⟩, []) ∧
      (∃ n, IsLastLine statements n ∧ ∀ front, front <+: contents →
        (SurvivesUpdates t path statements front ↔
          front = [] ∨ front.dropLast.count lineFeed < n)) ∧
      (HasLinesOfText contents → ∀ s, IsAnchor statements s →
        (∃ x : Extent contents s, lineEnds x.front + 1 = s.lastLine ∧
          x.front <+: firstLines s.lastLine contents) ∧
        SurvivesUpdates t path statements (firstLines s.lastLine contents)) ∧
      ((∀ name, encodingOf contents ≠ .other name) → HasLinesOfText contents) := by
  refine ⟨load_of_readStatements? hfile hread, ?_, ?_, ?_⟩
  · exact ⟨_, isLastLine_preambleLines statements, fun front hfront =>
      survivesUpdates_iff hfile hfront statements⟩
  · intro hlines s hs
    obtain ⟨x⟩ := hs.extent hlines hread
    refine ⟨⟨x, x.lineEnds_front, x.front_isPrefix⟩, fun c wanted => ?_⟩
    obtain ⟨contents', hfile', hkept⟩ := exists_read_updated hfile c statements wanted
    have hle := (isLastLine_preambleLines statements).bound s hs
    exact ⟨contents', hfile', (firstLines_mono hle contents).trans
      ((firstLines_prefix_take _ contents).trans hkept)⟩
  · rw [readStatements?] at hread
    split at hread
    · cases hread
    obtain ⟨text, htext, _⟩ := Option.bind_eq_some_iff.1 hread
    exact hasLinesOfText_of_encodingOf htext

section

open scoped Source.Plain

/-- The text that the file begins with ends at a carriage return alone, one import takes several
lines and another stands behind a class. -/
theorem update_keeps_edited :
    let kept : Text := "\"d\"\rfrom a import (\r\n b)\nclass T: pass\nimport c\n"
    let contents := Utf8.encode (kept ++ "y = 2\n")
    let t := editedTree (kept ++ "y = 2\n")
    ∃ statements, readStatements? contents = some statements ∧
      SurvivesUpdates t editedPath statements (Utf8.encode kept) := by
  intro kept contents t
  have hfile : t.read editedPath = .ok contents := read_editedTree _
  have hlines : (readStatements? contents).map preambleLines = some 5 := by decide +kernel
  obtain ⟨statements, hread, hlines⟩ := Option.map_eq_some_iff.1 hlines
  obtain ⟨_, _, hkept, hknown⟩ := update_keeps_iff hfile hread
  have hlast := (isLastLine_preambleLines statements).attained
  rw [hlines] at hlast
  obtain ⟨s, hs, hline⟩ := hlast.resolve_left (by decide)
  have hfirst : firstLines 5 contents = Utf8.encode kept := by decide
  have hencoding : encodingOf contents = .lenient := by decide +kernel
  obtain ⟨_, hsurvives⟩ := hkept (hknown (by simp [hencoding])) s hs
  rw [hline, hfirst] at hsurvives
  exact ⟨statements, hread, hsurvives⟩

/-- In an encoding in which bytes are written as escapes, the line feed behind a backslash stands
for nothing. It is counted all the same, and the import on the third line of the text is lost. -/
theorem update_loses_import :
    let before : Text := "# coding: unicode_escape\n\"\"\"doc \\\nmore\"\"\"\n"
    let after : Text := "class X: pass\n"
    let t := editedTree (before ++ "import os\n" ++ after)
    ∃ statements s, Existing.load t editedPath = .ok (⟨editedPath, .module statements⟩, []) ∧
      IsAnchor statements s ∧ isImport s = true ∧ s.lastLine = 3 ∧
      Encoding.decodeFile? (Utf8.encode (before ++ "import os\n" ++ after)) =
        some ("# coding: unicode_escape\n\"\"\"doc more\"\"\"\nimport os\n" ++ after) ∧
      ¬SurvivesUpdates t editedPath statements (Utf8.encode (before ++ "import os\n")) ∧
      (editedCompanions.updated t editedPath statements []).read editedPath =
        .ok (Utf8.encode before) := by
  intro before after t
  let contents := Utf8.encode (before ++ "import os\n" ++ after)
  have hfile : t.read editedPath = .ok contents := read_editedTree _
  have hlines : (readStatements? contents).map (fun ss =>
      (preambleLines ss, (ss.filter isImport).map Statement.lastLine)) = some (3, [3]) := by
    decide +kernel
  obtain ⟨statements, hread, hlines⟩ := Option.map_eq_some_iff.1 hlines
  obtain ⟨hlines, himports⟩ := Prod.mk.inj hlines
  obtain ⟨s, hs, hline⟩ : ∃ s ∈ statements.filter isImport, s.lastLine = 3 :=
    List.mem_map.1 (himports ▸ List.mem_singleton_self 3)
  obtain ⟨hmem, himport⟩ := List.mem_filter.1 hs
  have hkept : contents.take (preambleBytes statements contents) = Utf8.encode before := by
    rw [preambleBytes, hlines]
    decide
  have hprefix : Utf8.encode (before ++ "import os\n") <+: contents := by
    simp only [contents, Utf8.encode_append]
    exact List.prefix_append _ _
  refine ⟨statements, s, load_of_readStatements? hfile hread, .inl ⟨hmem, himport⟩, himport, hline,
    by decide +kernel, ?_, ?_⟩
  · rw [survivesUpdates_iff hfile hprefix, hlines]
    decide
  · rw [read_updated_nil hfile, hkept]

end

end TypedQueries.Companion
