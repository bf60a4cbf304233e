import Mathlib.Data.List.Basic
import TypedQueries.Proofs.RoundTrip
import TypedQueries.Source.Plain

/-!
# Updating a companion twice

An update keeps the bytes of the preamble and replaces the rest. The next one finds the same bytes
to keep exactly when they end a line and the new file is read with as many lines of preamble as
were kept. A companion whose preamble is the one it was created with is always found again; one
whose preamble ends within its last line never is.
-/

namespace TypedQueries.Companion

open Source Text

/-! ### One update -/

section Update

variable {c : Companions} {t : FileTree} {path : Path} {statements : List Statement}
  {wanted : List ParamSet} {contents body : Bytes} {outcome : Option FileTree}

theorem exists_update (hbody : c.body wanted = .ok body) (hfile : t.read path = .ok contents)
    (statements : List Statement) :
    ∃ outcome, c.update t path (.module statements) wanted = .ok outcome :=
  ⟨_, update_module hbody hfile statements⟩

theorem read_updated (hfile : t.read path = .ok contents)
    (h : c.update t path (.module statements) wanted = .ok outcome) :
    ∃ body, c.body wanted = .ok body ∧
      (outcome.getD t).read path =
        .ok (contents.take (preambleBytes statements contents) ++ body) := by
  cases hbody : c.body wanted with
  | error e =>
    rw [Companions.update, hbody] at h
    cases h
  | ok body =>
    refine ⟨body, rfl, ?_⟩
    obtain rfl := Except.ok.inj ((update_module hbody hfile statements).symm.trans h)
    split
    · rename_i hsame
      rw [← hsame, List.take_append_drop]
      exact hfile
    · exact FileTree.read_eq_ok_iff.2 (FileTree.node?_put_self ..)

/-- An update writes nothing exactly when the file is read and its classes are the wanted ones. -/
theorem update_loaded_iff [Release] (hbody : c.body wanted = .ok body)
    (hfile : t.read path = .ok contents) :
    (∃ e log, Existing.load t path = .ok (e, log) ∧
        c.update t path e.standing wanted = .ok none) ↔
      ∃ statements, readStatements? contents = some statements ∧
        contents.drop (preambleBytes statements contents) = body := by
  constructor
  · rintro ⟨e, log, hload, hupdate⟩
    rw [Existing.load, hfile] at hload
    simp only [bind, Except.bind] at hload
    rw [Standing.ofContents] at hload
    cases hread : readStatements? contents with
    | none =>
      rw [hread] at hload
      cases hload
      cases hupdate
    | some statements =>
      rw [hread] at hload
      cases hload
      refine ⟨statements, rfl, ?_⟩
      by_contra hdrop
      rw [update_module hbody hfile, if_neg hdrop] at hupdate
      cases hupdate
  · rintro ⟨statements, hread, hdrop⟩
    exact ⟨_, _, load_of_readStatements? hfile hread, update_of_drop_eq hbody hfile hdrop⟩

end Update

theorem body_ne_nil {c : Companions} {body : Bytes} {wanted : List ParamSet} (hne : wanted ≠ [])
    (h : c.body wanted = .ok body) : body ≠ [] := by
  obtain ⟨text, hemit, rfl⟩ := body_eq_ok_iff.1 h
  obtain ⟨p, ps, rfl⟩ := List.exists_cons_of_ne_nil hne
  rw [emit, List.mapM_cons] at hemit
  cases hclass : emitClass (c.runtime.name ++ ".") p with
  | error e =>
    rw [hclass] at hemit
    cases hemit
  | ok first =>
    cases hclasses : ps.mapM (emitClass (c.runtime.name ++ ".")) with
    | error e =>
      rw [hclass, hclasses] at hemit
      cases hemit
    | ok classes =>
      rw [hclass, hclasses] at hemit
      cases text with
      | nil => cases hemit
      | cons d text => exact List.append_ne_nil_of_left_ne_nil String.utf8EncodeChar_ne_nil _

/-- What follows the preamble is `rest` exactly when the bytes before it end a line, if there are
any, and have as many lines as the preamble. -/
theorem drop_preamble_iff {kept rest : Bytes} (hrest : rest ≠ []) (statements : List Statement) :
    (kept ++ rest).drop (preambleBytes statements (kept ++ rest)) = rest ↔
      (kept = [] ∨ kept.getLast? = some lineFeed) ∧
        preambleLines statements = kept.count lineFeed := by
  rw [← bytesOfLines_eq_length_iff hrest]
  constructor
  · intro h
    have hle := bytesOfLines_le_length (preambleLines statements) (kept ++ rest)
    have := congrArg List.length h
    rw [List.length_drop, preambleBytes] at this
    rw [List.length_append] at this hle
    omega
  · intro h
    rw [preambleBytes, h, List.drop_left]

/-! ### The next update -/

/-- An update that succeeded is one that the next finds done exactly when the bytes that it kept
end a line, if there are any, and the file that it left is read with as many lines of preamble. -/
theorem update_again_iff [Release] {c : Companions} {t : FileTree} {path : Path} {contents : Bytes}
    (hfile : t.read path = .ok contents) {statements : List Statement} {wanted : List ParamSet}
    (hne : wanted ≠ []) {outcome : Option FileTree}
    (hupdate : c.update t path (.module statements) wanted = .ok outcome) :
    let t' := outcome.getD t
    let kept := contents.take (preambleBytes statements contents)
    (∃ e log, Existing.load t' path = .ok (e, log) ∧
        c.update t' path e.standing wanted = .ok none) ↔
      (kept = [] ∨ kept.getLast? = some lineFeed) ∧
        ∃ contents' statements', t'.read path = .ok contents' ∧
          readStatements? contents' = some statements' ∧
          preambleLines statements' = kept.count lineFeed := by
  intro t' kept
  obtain ⟨body, hbody, hfile'⟩ := read_updated hfile hupdate
  have hrest := body_ne_nil hne hbody
  rw [update_loaded_iff hbody hfile']
  constructor
  · rintro ⟨statements', hread', hdrop⟩
    obtain ⟨hends, hlines⟩ := (drop_preamble_iff hrest statements').1 hdrop
    exact ⟨hends, _, statements', hfile', hread', hlines⟩
  · rintro ⟨hends, contents', statements', hsame, hread', hlines⟩
    obtain rfl := Except.ok.inj (hfile'.symm.trans hsame)
    exact ⟨statements', hread', (drop_preamble_iff hrest statements').2 ⟨hends, hlines⟩⟩

def editedCompanions : Companions := ⟨"app", ⟨"querygen", "interpolate", false⟩⟩

def editedPath : Path := ⟨.root, ["app", "tag_query_gen.py"]⟩

def editedTree (companion : Text) : FileTree :=
  ⟨[(editedPath, .file (Utf8.encode companion)), (⟨.root, ["app"]⟩, .directory),
    (⟨.root, []⟩, .directory)]⟩

theorem read_editedTree (companion : Text) :
    (editedTree companion).read editedPath = .ok (Utf8.encode companion) :=
  FileTree.read_eq_ok_iff.2 List.lookup_cons_self

section

open scoped Source.Plain

theorem exists_body_tagSet :
    ∃ body, editedCompanions.body [tagSet] = .ok body := by
  have hnames : editedCompanions.HasNames :=
    ⟨⟨_, rfl, by decide⟩, ⟨_, rfl, by decide⟩, _, rfl, by decide⟩
  have hnamed : ∀ p ∈ [tagSet], IsNamed p := by simpa using isWanted_tagSet.isNamed
  obtain ⟨_, body, _, _, hbody, _⟩ := hnames.reads_text hnamed
  exact ⟨_, body_eq_ok_iff.2 ⟨body, hbody, rfl⟩⟩

/-- A preamble whose last line is ended is found again. -/
theorem update_again_ended :
    let t := editedTree "import a\n"
    ∃ statements outcome, readStatements? (Utf8.encode "import a\n") = some statements ∧
      editedCompanions.update t editedPath (.module statements) [tagSet] = .ok outcome ∧
      ∃ e log, Existing.load (outcome.getD t) editedPath = .ok (e, log) ∧
        editedCompanions.update (outcome.getD t) editedPath e.standing [tagSet] = .ok none := by
  intro t
  have hfile : t.read editedPath = .ok (Utf8.encode "import a\n") := read_editedTree _
  have hlines : (readStatements? (Utf8.encode "import a\n")).map preambleLines = some 1 := by
    decide +kernel
  have hnext : (editedCompanions.body [tagSet]).toOption.bind (fun body =>
      (readStatements? (Utf8.encode "import a\n" ++ body)).map preambleLines) = some 1 := by
    decide +kernel
  obtain ⟨statements, hread, hlines⟩ := Option.map_eq_some_iff.1 hlines
  obtain ⟨body, hbody⟩ := exists_body_tagSet
  rw [hbody] at hnext
  obtain ⟨statements', hread', hlines'⟩ := Option.map_eq_some_iff.1 hnext
  obtain ⟨outcome, hupdate⟩ := exists_update hbody hfile statements
  have hkept : (Utf8.encode "import a\n").take
      (preambleBytes statements (Utf8.encode "import a\n")) = Utf8.encode "import a\n" := by
    rw [preambleBytes, hlines]
    decide
  obtain ⟨_, hbody', hfile'⟩ := read_updated hfile hupdate
  obtain rfl := Except.ok.inj (hbody.symm.trans hbody')
  refine ⟨statements, outcome, hread, hupdate,
    (update_again_iff hfile (List.cons_ne_nil tagSet []) hupdate).2 ?_⟩
  rw [hkept] at hfile' ⊢
  exact ⟨.inr (by decide), _, statements', hfile', hread', hlines'.trans (by decide)⟩

/-- A preamble whose last line is not ended is not: an import is all that the file holds, and the
next update counts the line after it to the preamble. -/
theorem update_again_unended :
    let t := editedTree "import dataclasses"
    IsWanted tagSet ∧ ∃ statements t',
      Existing.load t editedPath = .ok (⟨editedPath, .module statements⟩, []) ∧
      editedCompanions.update t editedPath (.module statements) [tagSet] = .ok (some t') ∧
      ¬∃ e log, Existing.load t' editedPath = .ok (e, log) ∧
        editedCompanions.update t' editedPath e.standing [tagSet] = .ok none := by
  intro t
  have hfile : t.read editedPath = .ok (Utf8.encode "import dataclasses") := read_editedTree _
  have hlines :
      (readStatements? (Utf8.encode "import dataclasses")).map preambleLines = some 1 := by
    decide +kernel
  obtain ⟨statements, hread, hlines⟩ := Option.map_eq_some_iff.1 hlines
  obtain ⟨body, hbody⟩ := exists_body_tagSet
  have hkept : (Utf8.encode "import dataclasses").take
      (preambleBytes statements (Utf8.encode "import dataclasses")) =
        Utf8.encode "import dataclasses" := by
    rw [preambleBytes, hlines]
    decide
  obtain ⟨outcome, hupdate⟩ := exists_update hbody hfile statements
  obtain ⟨body', hbody', hfile'⟩ := read_updated hfile hupdate
  rw [hkept] at hfile'
  cases outcome with
  | none =>
    have hsame := Except.ok.inj (hfile.symm.trans hfile')
    exact absurd (List.self_eq_append_right.1 hsame) (body_ne_nil (by simp) hbody')
  | some t' =>
    refine ⟨isWanted_tagSet, statements, t', load_of_readStatements? hfile hread, hupdate,
      fun hagain => ?_⟩
    obtain ⟨statements', _, hdrop⟩ := (update_loaded_iff hbody' hfile').1 hagain
    have hrest := body_ne_nil (List.cons_ne_nil tagSet []) hbody'
    obtain ⟨hends, _⟩ := (drop_preamble_iff hrest statements').1 hdrop
    revert hends
    decide

end

/-! ### Companions whose preamble was not edited -/

/-- An update of a companion as it is created leaves one as it is created for the new parameter
sets, and the next update finds it done. -/
theorem IsCreated.update [Release] {c : Companions} (hc : c.HasNames) {old wanted : List ParamSet}
    (hold : ∀ p ∈ old, IsNamed p) (hwanted : ∀ p ∈ wanted, IsNamed p) {t : FileTree} {path : Path}
    (h : IsCreated c t path old) :
    ∃ statements outcome, Existing.load t path = .ok (⟨path, .module statements⟩, []) ∧
      c.update t path (.module statements) wanted = .ok outcome ∧
      IsCreated c (outcome.getD t) path wanted ∧
      ∃ e log, Existing.load (outcome.getD t) path = .ok (e, log) ∧
        c.update (outcome.getD t) path e.standing wanted = .ok none := by
  obtain ⟨contents, head, _, statements, hfile, hhead, _, hload, htake, _⟩ := h.load hc hold
  obtain ⟨_, text, _, _, hemit, _⟩ := hc.reads_text hwanted
  have hbody : c.body wanted = .ok (Utf8.encode text) := body_eq_ok_iff.2 ⟨text, hemit, rfl⟩
  obtain ⟨outcome, hupdate⟩ := exists_update hbody hfile statements
  have hcreated : IsCreated c (outcome.getD t) path wanted := by
    obtain ⟨body', hbody', hfile'⟩ := read_updated hfile hupdate
    obtain rfl := Except.ok.inj (hbody.symm.trans hbody')
    refine ⟨head ++ text, Utf8.encode (head ++ text), ?_, ?_, ?_⟩
    · rw [render, hemit, hhead]
      rfl
    · rw [← CodedText.ofText_append, Utf8.encodeCoded_ofText]
    · rw [hfile', htake, Utf8.encode_append]
  obtain ⟨contents', _, text', statements', hfile', _, hemit', hload', _, hdrop'⟩ :=
    hcreated.load hc hwanted
  have hbody' : c.body wanted = .ok (Utf8.encode text') := body_eq_ok_iff.2 ⟨text', hemit', rfl⟩
  exact ⟨statements, outcome, hload, hupdate, hcreated, _, _, hload',
    update_of_drop_eq hbody' hfile' hdrop'⟩

end TypedQueries.Companion
