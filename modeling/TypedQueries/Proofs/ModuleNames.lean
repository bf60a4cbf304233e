import TypedQueries.Package.ModuleName
import TypedQueries.Proofs.Naming

/-!
# Names of the modules of a directory

All modules of a directory have the names of the packages around it before their own, so their names
differ as their stems do. The initial file, which bears the name of the package, has the name of
no other module. None of them has a name where each directory from the root on is a package.
-/

namespace TypedQueries

open Text

namespace Path

theorem collapse_concat {parts : List Text} {w : Text} (h : w ≠ ['.', '.']) :
    collapse (parts ++ [w]) = collapse parts ++ [w] := by
  rw [collapse, List.foldl_append, List.foldl_cons, List.foldl_nil, if_neg h]
  rfl

theorem collapsed_child {d : Path} {w : Text} (h : w ≠ ['.', '.']) :
    (d.child w).collapsed = d.collapsed.child w := by
  rw [collapsed, child, collapse_concat h]
  rfl

theorem stem_ne_nil {p : Path} (h : p.name ≠ []) : p.stem ≠ [] := by
  unfold stem splitName
  split
  · split
    · exact h
    · rename_i hparts
      simp only [Bool.or_eq_true, decide_eq_true_eq, not_or] at hparts
      exact hparts.1
  · exact h

end Path

/-- Whether a path leads to something in a directory, by the name that it has there. -/
structure IsEntry (t : FileTree) (d p : Path) : Prop where
  parent : p.parent = d
  isPart : Path.IsPart p.name
  noDots : p.name ≠ ['.', '.']
  there : t.contains p.collapsed = true

instance (t : FileTree) (d p : Path) : Decidable (IsEntry t d p) :=
  decidable_of_iff
    (p.parent = d ∧ Path.IsPart p.name ∧ p.name ≠ ['.', '.'] ∧ t.contains p.collapsed = true)
    ⟨fun h => ⟨h.1, h.2.1, h.2.2.1, h.2.2.2⟩, fun h => ⟨h.parent, h.isPart, h.noDots, h.there⟩⟩

theorem IsEntry.collapsed_eq {t : FileTree} {d p : Path} (h : IsEntry t d p) :
    p.collapsed = d.collapsed.child p.name := by
  rw [← Path.collapsed_child h.noDots, ← h.parent, ← Path.eq_child_of_name_ne_nil h.isPart.1]

namespace ModuleName

/-- The packages around what lies in a directory. -/
def around? (t : FileTree) (d : Path) : Option (List Text) := enclosing? t d.anchor d.parts.reverse

/-- Whether every directory from the root down to a given one holds an initial file. -/
def IsEndless (t : FileTree) (d : Path) : Prop :=
  ∀ ws, ws <+: d.parts → t.contains ⟨d.anchor, ws ++ [Path.initName]⟩ = true

theorem enclosing?_eq_none_iff {t : FileTree} {anchor : Anchor} {up : List Text} :
    enclosing? t anchor up = none ↔
      ∀ ws, ws <+: up.reverse → t.contains ⟨anchor, ws ++ [Path.initName]⟩ = true := by
  induction up with
  | nil => simp [enclosing?]
  | cons w up ih =>
    rw [enclosing?, List.reverse_cons]
    by_cases hthere : t.contains ⟨anchor, up.reverse ++ [w, Path.initName]⟩ = true
    · rw [if_pos hthere, Option.map_eq_none_iff, ih]
      refine forall_congr' fun ws => ?_
      rw [List.prefix_concat_iff, or_imp]
      refine ⟨fun h => ⟨?_, h⟩, fun h => h.2⟩
      rintro rfl
      simpa using hthere
    · rw [if_neg hthere]
      refine iff_of_false (by simp) fun h => hthere ?_
      simpa using h _ List.prefix_rfl

/-- A climb from a directory has no end just where all directories above it are packages. -/
theorem around?_eq_none_iff {t : FileTree} {d : Path} : around? t d = none ↔ IsEndless t d := by
  rw [around?, enclosing?_eq_none_iff, List.reverse_reverse]
  rfl

theorem ofPath?_child_eq (t : FileTree) (d : Path) (name : Text) :
    ofPath? t (d.child name) =
      (around? t d).map fun ws =>
        match ws ++ (if name = Path.initName then [] else [(Path.splitName name).1]) with
        | [] => d.name
        | parts => join ['.'] parts := by
  have hparts : (d.child name).parts.dropLast = d.parts := by simp [Path.child]
  have hparent : (d.child name).parent = d := by simp [Path.parent, Path.child]
  rw [ofPath?, hparts, Path.stem, Path.name_child, hparent]
  change (around? t d >>= _) = _
  cases around? t d with
  | none => rfl
  | some ws =>
    rw [Option.map_some]
    change (match ws ++ _ with | [] => some d.name | parts => some (join ['.'] parts)) = _
    split <;> rfl

theorem isSome_ofPath?_child {t : FileTree} {d : Path} (name : Text) :
    (ofPath? t (d.child name)).isSome = (around? t d).isSome := by
  rw [ofPath?_child_eq, Option.isSome_map]

/-- The name of a module is made of the packages around it and its own name, if it has one. -/
theorem ofPath?_child_of_concat {t : FileTree} {d : Path} {name w : Text} {us ws : List Text}
    (haround : around? t d = some us)
    (h : us ++ (if name = Path.initName then [] else [(Path.splitName name).1]) = ws ++ [w]) :
    ofPath? t (d.child name) = some (ws.flatMap (· ++ ['.']) ++ w) := by
  rw [ofPath?_child_eq, haround, Option.map_some, h, ← join_concat]
  cases ws <;> rfl

theorem ofPath?_child {t : FileTree} {d : Path} {name : Text} {us : List Text}
    (haround : around? t d = some us) (h : name ≠ Path.initName) :
    ofPath? t (d.child name) = some (us.flatMap (· ++ ['.']) ++ (Path.splitName name).1) :=
  ofPath?_child_of_concat haround (by rw [if_neg h])

/-- Packages lie around what lies beside an initial file. -/
theorem around?_ne_some_nil {t : FileTree} {d : Path}
    (h : t.contains (d.child Path.initName) = true) : around? t d ≠ some [] := by
  rcases List.eq_nil_or_concat' d.parts with hparts | ⟨ws, w, hparts⟩
  · have hthere : t.contains ⟨d.anchor, [Path.initName]⟩ = true := by
      rwa [Path.child, hparts] at h
    rw [around?, hparts, List.reverse_nil, enclosing?, if_pos hthere]
    exact (Option.some_ne_none []).symm
  · have hthere : t.contains ⟨d.anchor, ws.reverse.reverse ++ [w, Path.initName]⟩ = true := by
      rw [List.reverse_reverse, List.append_cons, ← hparts]
      exact h
    rw [around?, hparts, List.reverse_append, List.reverse_singleton, List.singleton_append,
      enclosing?, if_pos hthere]
    intro hnil
    obtain ⟨vs, -, hvs⟩ := Option.map_eq_some_iff.1 hnil
    exact List.append_ne_nil_of_right_ne_nil vs (List.cons_ne_nil w []) hvs

theorem ofPath?_initName_ne {t : FileTree} {d : Path} {us : List Text}
    (haround : around? t d = some us) (h : t.contains (d.child Path.initName) = true) {name : Text}
    (hne : name ≠ Path.initName) :
    ofPath? t (d.child Path.initName) ≠ ofPath? t (d.child name) := by
  have hus : us ≠ [] := by
    rintro rfl
    exact around?_ne_some_nil h haround
  obtain ⟨ws, w, rfl⟩ := (List.eq_nil_or_concat' us).resolve_left hus
  rw [ofPath?_child haround hne,
    ofPath?_child_of_concat haround (by rw [if_pos rfl, List.append_nil])]
  intro heq
  have hlength := congrArg List.length (Option.some.inj heq)
  simp only [List.flatMap_append, List.flatMap_singleton, List.length_append,
    List.length_singleton] at hlength
  omega

/-- Two modules of one directory that have names have one name exactly if they have one stem and
neither is an initial file. -/
theorem ofPath?_eq_iff {t : FileTree} {d p q : Path} (hp : IsEntry t d p) (hq : IsEntry t d q)
    (hend : ¬IsEndless t d.collapsed) :
    ofPath? t p.collapsed = ofPath? t q.collapsed ↔
      p = q ∨ (p.name ≠ Path.initName ∧ q.name ≠ Path.initName ∧ p.stem = q.stem) := by
  obtain ⟨us, haround⟩ := Option.ne_none_iff_exists'.1 (mt around?_eq_none_iff.1 hend)
  have hsame : p = q ↔ p.name = q.name := by
    refine ⟨fun heq => by rw [heq], fun heq => ?_⟩
    rw [Path.eq_child_of_name_ne_nil hp.isPart.1, Path.eq_child_of_name_ne_nil hq.isPart.1,
      hp.parent, hq.parent, heq]
  have hpthere := hp.there
  have hqthere := hq.there
  rw [hp.collapsed_eq] at hpthere
  rw [hq.collapsed_eq] at hqthere
  rw [hsame, hp.collapsed_eq, hq.collapsed_eq]
  by_cases hpinit : p.name = Path.initName <;> by_cases hqinit : q.name = Path.initName
  · simp [hpinit, hqinit]
  · rw [hpinit] at hpthere ⊢
    exact iff_of_false (ofPath?_initName_ne haround hpthere hqinit) (by simpa using Ne.symm hqinit)
  · rw [hqinit] at hqthere ⊢
    exact iff_of_false (ofPath?_initName_ne haround hqthere hpinit).symm (by simpa using hpinit)
  · rw [ofPath?_child haround hpinit, ofPath?_child haround hqinit, Option.some.injEq,
      List.append_cancel_left_eq]
    constructor
    · exact fun heq => .inr ⟨hpinit, hqinit, heq⟩
    · rintro (heq | ⟨-, -, heq⟩)
      · rw [heq]
      · exact heq

end ModuleName

end TypedQueries
