import Mathlib.Data.List.Basic
import Mathlib.Order.MinMax
import TypedQueries.Proofs.Rewriting
import TypedQueries.Proofs.SourceLines
import TypedQueries.Source.Plain

/-!
# What an update replaces

The preamble of a companion ends with the last line of the text that it begins with or of its last
import. An update keeps the bytes up to where as many line feeds have passed. Where the lines end
at line feeds these are the lines of the preamble, and all that follows them is replaced. A line
that ends at a carriage return alone is not counted, so that lines of the old body are kept for it.
-/

namespace TypedQueries.Companion

open Source Text

/-! ### Where a preamble ends -/

/-- Whether a statement belongs to the preamble: an import, or the text that a module begins
with. -/
def IsAnchor (statements : List Statement) (s : Statement) : Prop :=
  (s ∈ statements ∧ isImport s = true) ∨
    (statements.head? = some s ∧ ∃ v, s.kind = .expression (.text v))

/-- Whether a line is the last one of a preamble: no statement of it ends later, and one ends there
unless there are none. -/
structure IsLastLine (statements : List Statement) (n : Nat) : Prop where
  bound : ∀ s, IsAnchor statements s → s.lastLine ≤ n
  attained : n = 0 ∨ ∃ s, IsAnchor statements s ∧ s.lastLine = n

theorem IsLastLine.unique {statements : List Statement} {m n : Nat} (hm : IsLastLine statements m)
    (hn : IsLastLine statements n) : m = n := by
  have hle : ∀ {m n}, IsLastLine statements m → IsLastLine statements n → m ≤ n := by
    intro m n hm hn
    rcases hm.attained with rfl | ⟨s, hs, rfl⟩
    · exact Nat.zero_le n
    · exact hn.bound s hs
  exact le_antisymm (hle hm hn) (hle hn hm)

theorem foldl_max_spec (ns : List Nat) (n : Nat) :
    n ≤ ns.foldl max n ∧ (∀ m ∈ ns, m ≤ ns.foldl max n) ∧
      (ns.foldl max n = n ∨ ns.foldl max n ∈ ns) := by
  induction ns generalizing n with
  | nil => simp
  | cons m ns ih =>
    obtain ⟨hle, hall, hmem⟩ := ih (max n m)
    rw [List.foldl_cons]
    refine ⟨(le_max_left n m).trans hle, ?_, ?_⟩
    · intro k hk
      rcases List.mem_cons.1 hk with rfl | hk
      · exact (le_max_right n k).trans hle
      · exact hall k hk
    · rcases hmem with h | h
      · rw [h]
        rcases max_choice n m with h' | h'
        · exact .inl h'
        · exact .inr (h'.symm ▸ List.mem_cons_self)
      · exact .inr (List.mem_cons_of_mem m h)

theorem docstringEnd_eq_zero_or (statements : List Statement) :
    docstringEnd statements = 0 ∨
      ∃ s, IsAnchor statements s ∧ s.lastLine = docstringEnd statements := by
  unfold docstringEnd
  split
  · rename_i v line rest
    exact .inr ⟨_, .inr ⟨rfl, v, rfl⟩, rfl⟩
  · exact .inl rfl

theorem isLastLine_preambleLines (statements : List Statement) :
    IsLastLine statements (preambleLines statements) := by
  obtain ⟨hle, hall, hmem⟩ := foldl_max_spec
    ((statements.filter isImport).map Statement.lastLine) (docstringEnd statements)
  constructor
  · rintro s (⟨hs, himport⟩ | ⟨hhead, v, hv⟩)
    · exact hall _ (List.mem_map_of_mem (List.mem_filter.2 ⟨hs, himport⟩))
    · obtain ⟨kind, line⟩ := s
      obtain rfl : kind = .expression (.text v) := hv
      cases statements with
      | nil => cases hhead
      | cons s rest =>
        cases hhead
        exact hle
  · rw [preambleLines]
    rcases hmem with h | h
    · rw [h]
      exact docstringEnd_eq_zero_or statements
    · obtain ⟨s, hs, hline⟩ := List.mem_map.1 h
      obtain ⟨hmem, himport⟩ := List.mem_filter.1 hs
      exact .inr ⟨s, .inl ⟨hmem, himport⟩, hline⟩

/-! ### What follows it -/

/-- An update succeeds where the classes can be written. What it leaves behind the last line of the
preamble is the classes and nothing else exactly when the preamble is the whole file or no line of
it ends at a carriage return alone. -/
theorem replaces_body_iff [Release] {c : Companions} {t : FileTree} {path : Path} {contents : Bytes}
    (hfile : t.read path = .ok contents) {statements : List Statement}
    (hread : readStatements? contents = some statements) {wanted : List ParamSet} {body : Bytes}
    (hbody : c.body wanted = .ok body) :
    ∃ outcome n contents', Existing.load t path = .ok (⟨path, .module statements⟩, []) ∧
      c.update t path (.module statements) wanted = .ok outcome ∧
      (outcome.getD t).read path = .ok contents' ∧
      IsLastLine statements n ∧
      (contents' = firstLines n contents ++ body ↔
        firstLines n contents = contents ∨ HasNoBareReturn (firstLines n contents)) := by
  obtain ⟨outcome, hupdate⟩ := exists_update hbody hfile statements
  obtain ⟨body', hbody', hfile'⟩ := read_updated hfile hupdate
  obtain rfl := Except.ok.inj (hbody.symm.trans hbody')
  refine ⟨outcome, preambleLines statements, _, load_of_readStatements? hfile hread, hupdate,
    hfile', isLastLine_preambleLines statements, ?_⟩
  have hle := bytesOfLines_le_length (preambleLines statements) contents
  rw [← bytesOfLines_eq_iff, List.append_cancel_right_eq, preambleBytes]
  constructor
  · intro h
    rw [← h, List.length_take, Nat.min_eq_left hle]
  · intro h
    rw [h]
    exact (List.prefix_iff_eq_take.1 (isPrefix_firstLines _ contents)).symm

section

open scoped Source.Plain

/-- All that follows a line with a line feed is replaced. -/
theorem replaces_body_fed :
    let t := editedTree "import a\nx = 1\n"
    ∃ statements body outcome, readStatements? (Utf8.encode "import a\nx = 1\n") = some statements ∧
      editedCompanions.body [tagSet] = .ok body ∧
      editedCompanions.update t editedPath (.module statements) [tagSet] = .ok outcome ∧
      (outcome.getD t).read editedPath = .ok (Utf8.encode "import a\n" ++ body) := by
  intro t
  have hlines : (readStatements? (Utf8.encode "import a\nx = 1\n")).map preambleLines = some 1 := by
    decide +kernel
  obtain ⟨statements, hread, hlines⟩ := Option.map_eq_some_iff.1 hlines
  obtain ⟨body, hbody⟩ := exists_body_tagSet
  obtain ⟨outcome, n, contents', _, hupdate, hfile', hn, hiff⟩ :=
    replaces_body_iff (read_editedTree "import a\nx = 1\n") hread hbody
  obtain rfl : n = 1 := hlines ▸ hn.unique (isLastLine_preambleLines statements)
  have hfirst : firstLines 1 (Utf8.encode "import a\nx = 1\n") = Utf8.encode "import a\n" := by
    decide
  rw [hfirst] at hiff
  obtain rfl := hiff.2 (.inr (hasNoBareReturn_of_notMem (by decide)))
  exact ⟨statements, body, outcome, hread, hbody, hupdate, hfile'⟩

/-- A line that ends at a carriage return alone is not counted, and the line of the old body that
follows it stays. -/
theorem keeps_body_after_return :
    let contents := Utf8.encode "import os\rx = 1\r"
    let t := editedTree "import os\rx = 1\r"
    IsWanted tagSet ∧ ∃ statements body outcome, readStatements? contents = some statements ∧
      IsLastLine statements 1 ∧ editedCompanions.body [tagSet] = .ok body ∧
      editedCompanions.update t editedPath (.module statements) [tagSet] = .ok outcome ∧
      firstLines 1 contents = Utf8.encode "import os\r" ∧
      (outcome.getD t).read editedPath =
        .ok (Utf8.encode "import os\r" ++ (Utf8.encode "x = 1\r" ++ body)) := by
  intro contents t
  have hlines : (readStatements? contents).map preambleLines = some 1 := by decide +kernel
  obtain ⟨statements, hread, hlines⟩ := Option.map_eq_some_iff.1 hlines
  obtain ⟨body, hbody⟩ := exists_body_tagSet
  have hfile : t.read editedPath = .ok contents := read_editedTree _
  obtain ⟨outcome, hupdate⟩ := exists_update hbody hfile statements
  obtain ⟨body', hbody', hfile'⟩ := read_updated hfile hupdate
  obtain rfl := Except.ok.inj (hbody.symm.trans hbody')
  have hkept : contents.take (preambleBytes statements contents) =
      Utf8.encode "import os\r" ++ Utf8.encode "x = 1\r" := by
    rw [preambleBytes, hlines]
    decide
  refine ⟨isWanted_tagSet, statements, body, outcome, hread,
    hlines ▸ isLastLine_preambleLines statements, hbody, hupdate, by decide, ?_⟩
  rw [hfile', hkept, List.append_assoc]

end

end TypedQueries.Companion
