import TypedQueries.Generation.Selection
import TypedQueries.Package.Analysis
import TypedQueries.Proofs.Naming

/-!
# Files with one companion

Which files of a directory have the same companion. The name of a test is marked by its end, and so
is that of its companion, which therefore belongs to one file alone. Of all other files those share
a companion whose stems are equal once the mark of a file of queries is dropped.
-/

namespace TypedQueries.Companion

/-! ### Stems -/

/-- What stands before the ending in the name of a module. A name that is nothing but the ending
has an empty stem. -/
def stemOf (name : Text) : Text := Text.dropEnd moduleEnding.length name

def testMark : Text := "_test"

/-- The ends of stems that mark files of queries. -/
def queryMarks : List Text := ["_query", "_queries"]

/-- A stem without the mark of a file of queries, if it has one. It is dropped once. -/
def unmarked (stem : Text) : Text :=
  match queryMarks.find? (·.isSuffixOf stem) with
  | some mark => Text.dropEnd mark.length stem
  | none => stem

/-- Whether a file is a module and no companion itself. -/
structure IsSource (p : Path) : Prop where
  proper : p.IsProper
  module : moduleEnding <:+ p.name
  noCompanion : isCompanion p = false

instance (p : Path) : Decidable (IsSource p) :=
  decidable_of_iff (p.IsProper ∧ moduleEnding <:+ p.name ∧ isCompanion p = false)
    ⟨fun h => ⟨h.1, h.2.1, h.2.2⟩, fun h => ⟨h.proper, h.module, h.noCompanion⟩⟩

theorem dropEnd_append_self (s e : Text) : Text.dropEnd e.length (s ++ e) = s := by
  simp [Text.dropEnd]

theorem dropEnd_append_of_suffix {e t : Text} (h : e <:+ t) :
    Text.dropEnd e.length t ++ e = t := by
  obtain ⟨s, rfl⟩ := h
  rw [dropEnd_append_self]

theorem stemOf_append {name : Text} (h : moduleEnding <:+ name) :
    stemOf name ++ moduleEnding = name :=
  dropEnd_append_of_suffix h

/-- The stem of a module is that of its path, unless its name is nothing but the ending. -/
theorem stemOf_name {p : Path} (h : moduleEnding <:+ p.name) (hne : p.name ≠ moduleEnding) :
    stemOf p.name = p.stem := by
  have hname : stemOf p.name ++ '.' :: ['p', 'y'] = p.name := stemOf_append h
  have hstem : stemOf p.name ≠ [] := by
    intro hnil
    rw [hnil] at hname
    exact hne hname.symm
  have hsplit : Path.splitName p.name = (stemOf p.name, moduleEnding) := by
    rw [Path.splitName, ← hname, Text.splitLast?_append (by decide)]
    simp only [hname]
    rw [if_neg (by simpa using hstem)]
    rfl
  rw [Path.stem, hsplit]

theorem not_queryMark_of_test {stem mark : Text} (h : testMark <:+ stem) (hm : mark ∈ queryMarks) :
    ¬mark <:+ stem := by
  have hlast : ∀ {e : Text}, e <:+ stem → e ≠ [] → stem.getLast? = e.getLast? := by
    rintro e ⟨front, rfl⟩ hne
    exact List.getLast?_append_of_ne_nil front hne
  have hne : ∀ e ∈ queryMarks, e ≠ [] ∧ e.getLast? ≠ testMark.getLast? := by decide
  intro hsuffix
  refine (hne mark hm).2 ?_
  rw [← hlast hsuffix (hne mark hm).1, hlast h (by decide)]

/-! ### Names of companions in terms of stems -/

/-- A name that ends in a mark and the ending of modules is one whose stem ends in the mark. -/
theorem isSuffixOf_append_ending (mark stem : Text) :
    (mark ++ moduleEnding).isSuffixOf (stem ++ moduleEnding) = mark.isSuffixOf stem := by
  rw [Bool.eq_iff_iff, List.isSuffixOf_iff_suffix, List.isSuffixOf_iff_suffix]
  exact List.suffix_append_self_iff

/-- What drops the mark of a file together with the ending of modules keeps its stem without the
mark. -/
theorem dropEnd_append_ending {mark stem : Text} (h : mark.isSuffixOf stem = true) :
    Text.dropEnd (mark ++ moduleEnding).length (stem ++ moduleEnding) =
      Text.dropEnd mark.length stem := by
  obtain ⟨front, rfl⟩ := List.isSuffixOf_iff_suffix.1 h
  rw [List.append_assoc, dropEnd_append_self, dropEnd_append_self]

theorem nameOf_append_of_source {stem : Text}
    (h : isCompanionName (stem ++ moduleEnding) = false) :
    nameOf (stem ++ moduleEnding) =
      if testMark <:+ stem then Text.dropEnd testMark.length stem ++ testEnding
      else unmarked stem ++ ending := by
  have htest : testEnding.isSuffixOf (stem ++ moduleEnding) = false := by
    rw [isCompanionName, Bool.or_eq_false_iff] at h
    exact h.2
  have hrewrites : rewrites = [("_query" ++ moduleEnding, ending),
      ("_queries" ++ moduleEnding, ending), (testMark ++ moduleEnding, testEnding)] := rfl
  rw [nameOf, hrewrites]
  simp only [htest, isSuffixOf_append_ending, List.find?_cons, Bool.not_false, Bool.and_true]
  by_cases hmark : testMark <:+ stem
  · have hno : ∀ mark ∈ queryMarks, mark.isSuffixOf stem = false := by
      intro mark hm
      rw [← Bool.not_eq_true, List.isSuffixOf_iff_suffix]
      exact not_queryMark_of_test hmark hm
    have hmark' : testMark.isSuffixOf stem = true := List.isSuffixOf_iff_suffix.2 hmark
    rw [hno "_query" (by decide), hno "_queries" (by decide), hmark', if_pos hmark]
    exact congrArg (· ++ testEnding) (dropEnd_append_ending hmark')
  · have hmark' : testMark.isSuffixOf stem = false := by
      rwa [← Bool.not_eq_true, List.isSuffixOf_iff_suffix]
    rw [hmark', if_neg hmark, unmarked, queryMarks, List.find?_cons, List.find?_cons]
    cases hquery : ("_query" : Text).isSuffixOf stem with
    | true => exact congrArg (· ++ ending) (dropEnd_append_ending hquery)
    | false =>
      cases hqueries : ("_queries" : Text).isSuffixOf stem with
      | true => exact congrArg (· ++ ending) (dropEnd_append_ending hqueries)
      | false =>
        have hlength : Text.dropEnd 3 (stem ++ moduleEnding) = stem := dropEnd_append_self stem _
        exact congrArg (· ++ ending) hlength

theorem append_ending_ne (s t : Text) : s ++ ending ≠ t ++ testEnding := by
  intro heq
  have hsuffix : ending <:+ testEnding := by
    refine List.suffix_of_suffix_length_le ?_ (List.suffix_append t testEnding) (by decide)
    rw [← heq]
    exact List.suffix_append s ending
  exact absurd hsuffix (by decide)

/-- Stems whose files are not tests, and that are equal without the marks of files of queries. -/
def Merges (s t : Text) : Prop :=
  ¬testMark <:+ s ∧ ¬testMark <:+ t ∧ unmarked s = unmarked t

instance (s t : Text) : Decidable (Merges s t) :=
  inferInstanceAs (Decidable (¬testMark <:+ s ∧ ¬testMark <:+ t ∧ unmarked s = unmarked t))

/-- Names of files that are no companions have one companion if they are equal or merge. -/
theorem nameOf_append_eq_iff {s t : Text} (hs : isCompanionName (s ++ moduleEnding) = false)
    (ht : isCompanionName (t ++ moduleEnding) = false) :
    nameOf (s ++ moduleEnding) = nameOf (t ++ moduleEnding) ↔ s = t ∨ Merges s t := by
  rw [nameOf_append_of_source hs, nameOf_append_of_source ht, Merges]
  by_cases hstest : testMark <:+ s <;> by_cases httest : testMark <:+ t
  · -- the companion of a test keeps all of its stem
    rw [if_pos hstest, if_pos httest, List.append_cancel_right_eq]
    refine ⟨fun heq => .inl ?_, fun h => ?_⟩
    · rw [← dropEnd_append_of_suffix hstest, heq, dropEnd_append_of_suffix httest]
    · rcases h with rfl | h
      · rfl
      · exact absurd hstest h.1
  · rw [if_pos hstest, if_neg httest]
    refine ⟨fun heq => absurd heq.symm (append_ending_ne _ _), fun h => ?_⟩
    rcases h with rfl | h
    · exact absurd hstest httest
    · exact absurd hstest h.1
  · rw [if_neg hstest, if_pos httest]
    refine ⟨fun heq => absurd heq (append_ending_ne _ _), fun h => ?_⟩
    rcases h with rfl | h
    · exact absurd httest hstest
    · exact absurd httest h.2.1
  · rw [if_neg hstest, if_neg httest, List.append_cancel_right_eq]
    refine ⟨fun heq => .inr ⟨hstest, httest, heq⟩, fun h => ?_⟩
    rcases h with rfl | h
    · rfl
    · exact h.2.2

/-! ### Paths -/

section

variable {p q : Path}

theorem IsSource.stemOf_append_name (hp : IsSource p) : stemOf p.name ++ moduleEnding = p.name :=
  stemOf_append hp.module

theorem IsSource.isSuffixOf_name (hp : IsSource p) : moduleEnding.isSuffixOf p.name = true :=
  List.isSuffixOf_iff_suffix.2 hp.module

theorem IsSource.name_ne_nil (hp : IsSource p) : p.name ≠ [] := by
  intro hnil
  have hmodule := hp.module
  rw [hnil] at hmodule
  exact absurd hmodule (by decide)

theorem IsSource.isCompanionName_name (hp : IsSource p) : isCompanionName p.name = false := by
  have hname : p.name <:+ p.text := by
    have hsuffix : p.name <:+ (p.parent.child p.name).text := by
      rw [Path.text_child _ hp.name_ne_nil]
      exact List.suffix_append _ _
    rwa [← Path.eq_child_of_name_ne_nil hp.name_ne_nil] at hsuffix
  have hno := hp.noCompanion
  rw [isCompanion, isCompanionName, Bool.or_eq_false_iff, ← Bool.not_eq_true,
    List.isSuffixOf_iff_suffix, ← Bool.not_eq_true, List.isSuffixOf_iff_suffix] at hno
  rw [isCompanionName, Bool.or_eq_false_iff, ← Bool.not_eq_true, List.isSuffixOf_iff_suffix,
    ← Bool.not_eq_true, List.isSuffixOf_iff_suffix]
  exact ⟨fun h => hno.1 (h.trans hname), fun h => hno.2 (h.trans hname)⟩

theorem eq_iff_stemOf_eq (hp : IsSource p) (hq : IsSource q) (hdir : p.parent = q.parent) :
    p = q ↔ stemOf p.name = stemOf q.name := by
  refine ⟨fun heq => by rw [heq], fun heq => ?_⟩
  calc p = p.parent.child p.name := Path.eq_child_of_name_ne_nil hp.name_ne_nil
    _ = q.parent.child q.name := by
      rw [hdir, ← hp.stemOf_append_name, heq, hq.stemOf_append_name]
    _ = q := (Path.eq_child_of_name_ne_nil hq.name_ne_nil).symm

theorem pathOf_eq_iff_nameOf_eq (hp : IsSource p) (hq : IsSource q)
    (hdir : p.parent = q.parent) : pathOf p = pathOf q ↔ nameOf p.name = nameOf q.name := by
  rw [pathOf_eq_child hp.proper hp.isSuffixOf_name, pathOf_eq_child hq.proper hq.isSuffixOf_name,
    hdir]
  refine ⟨fun heq => ?_, fun heq => by rw [heq]⟩
  have hname := congrArg Path.name heq
  rwa [Path.name_child, Path.name_child] at hname

/-- A companion is never among the files of a package that are analysed. -/
theorem ne_of_mem_sources {package : Package} {only : Option (List Path)} {f : SourceFile}
    (hf : f ∈ package.sources only) {path : Path} (h : isCompanion path = true) :
    f.path ≠ path := by
  rintro rfl
  have hkept := (List.mem_filter.1 hf).2
  rw [h] at hkept
  cases hkept

/-- The companion of a file lies in its directory and is a companion by its name, so it is never
analysed itself. Two files of a directory have one companion exactly if they are the same, or if
neither is a test and their stems are equal without the marks of files of queries. -/
theorem pathOf_eq_pathOf_iff (hp : IsSource p) (hq : IsSource q) (hdir : p.parent = q.parent) :
    (isCompanion (pathOf p) = true ∧ (pathOf p).parent = p.parent) ∧
      (∀ (package : Package) (only : Option (List Path)), ∀ f ∈ package.sources only,
        f.path ≠ pathOf p) ∧
      (pathOf p = pathOf q ↔ p = q ∨ Merges (stemOf p.name) (stemOf q.name)) := by
  have hcompanion : isCompanion (pathOf p) = true :=
    isCompanion_pathOf hp.proper hp.isSuffixOf_name
  have hpname : isCompanionName (stemOf p.name ++ moduleEnding) = false := by
    rw [hp.stemOf_append_name, hp.isCompanionName_name]
  have hqname : isCompanionName (stemOf q.name ++ moduleEnding) = false := by
    rw [hq.stemOf_append_name, hq.isCompanionName_name]
  refine ⟨⟨hcompanion, parent_pathOf hp.proper hp.isSuffixOf_name⟩,
    fun _ _ _ hf => ne_of_mem_sources hf hcompanion, ?_⟩
  rw [pathOf_eq_iff_nameOf_eq hp hq hdir, eq_iff_stemOf_eq hp hq hdir,
    ← nameOf_append_eq_iff hpname hqname, hp.stemOf_append_name, hq.stemOf_append_name]

end

def appModule (name : Text) : Path := ⟨.root, ["app", name]⟩

/-- A file of queries and one without the mark share a companion, and the test of one of them does
not. The mark alone is a stem, too, and merges with the empty one. -/
theorem pathOf_eq_pathOf_users :
    (IsSource (appModule "users.py") ∧ IsSource (appModule "users_queries.py") ∧
      IsSource (appModule "users_test.py")) ∧
    pathOf (appModule "users_queries.py") = pathOf (appModule "users.py") ∧
      pathOf (appModule "users_test.py") ≠ pathOf (appModule "users.py") ∧
      pathOf (appModule "_query.py") = pathOf (appModule ".py") := by
  have husers : IsSource (appModule "users.py") := by decide
  have hqueries : IsSource (appModule "users_queries.py") := by decide
  have htest : IsSource (appModule "users_test.py") := by decide
  have hno : ¬(appModule "users_test.py" = appModule "users.py" ∨
      Merges (stemOf (appModule "users_test.py").name) (stemOf (appModule "users.py").name)) := by
    decide
  refine ⟨⟨husers, hqueries, htest⟩, ?_, fun h => ?_, ?_⟩
  · exact (pathOf_eq_pathOf_iff hqueries husers rfl).2.2.2 (.inr (by decide))
  · exact hno ((pathOf_eq_pathOf_iff htest husers rfl).2.2.1 h)
  · exact (pathOf_eq_pathOf_iff (by decide) (by decide) rfl).2.2.2 (.inr (by decide))

end TypedQueries.Companion
