import Mathlib.Data.List.Find
import Mathlib.Data.List.Infix
import TypedQueries.Companion.Name

/-!
# Companions lie beside their files

Writing a path and reading it again gives the path, so the path of a companion, which is made from
the written form of another path, can be told from the parts of that path: the companion lies in
the same directory, and only its name is another one. That name marks it as a companion.
-/

namespace TypedQueries

/-! ### Splitting and joining -/

namespace Text

theorem splitOn_of_not_mem {sep : Char} {w : Text} (h : sep ∉ w) : splitOn sep w = [w] := by
  induction w with
  | nil => rfl
  | cons c r ih =>
    rw [List.mem_cons, not_or] at h
    rw [splitOn, if_neg (Ne.symm h.1), ih h.2]

theorem splitOn_append_cons {sep : Char} {w : Text} (h : sep ∉ w) (t : Text) :
    splitOn sep (w ++ sep :: t) = w :: splitOn sep t := by
  induction w with
  | nil => simp [splitOn]
  | cons c r ih =>
    rw [List.mem_cons, not_or] at h
    rw [List.cons_append, splitOn, if_neg (Ne.symm h.1), ih h.2]

theorem splitOn_append_sep (sep : Char) (s t : Text) :
    splitOn sep (s ++ sep :: t) = splitOn sep s ++ splitOn sep t := by
  induction s with
  | nil => simp [splitOn]
  | cons c r ih =>
    by_cases hc : c = sep
    · simp [splitOn, hc, ih]
    · obtain ⟨w, ws, hr⟩ := List.exists_cons_of_ne_nil (splitOn_ne_nil sep r)
      rw [hr, List.cons_append] at ih
      simp [splitOn, hc, hr, ih]

theorem splitOn_join {sep : Char} {ws : List Text} (hne : ws ≠ []) (h : ∀ w ∈ ws, sep ∉ w) :
    splitOn sep (join [sep] ws) = ws := by
  induction ws with
  | nil => exact absurd rfl hne
  | cons w ws ih =>
    cases ws with
    | nil => exact splitOn_of_not_mem (h w (by simp))
    | cons v vs =>
      have hw : sep ∉ w := h w (by simp)
      have hrest : ∀ u ∈ v :: vs, sep ∉ u := fun u hu => h u (List.mem_cons_of_mem _ hu)
      rw [join, List.append_assoc, List.singleton_append, splitOn_append_cons hw,
        ih (by simp) hrest]
      simp

theorem join_concat (sep : Char) (ws : List Text) (w : Text) :
    join [sep] (ws ++ [w]) = ws.flatMap (· ++ [sep]) ++ w := by
  induction ws with
  | nil => rfl
  | cons v vs ih =>
    have hne : vs ++ [w] ≠ [] := by simp
    obtain ⟨u, us, hu⟩ := List.exists_cons_of_ne_nil hne
    rw [List.cons_append, hu, join, ← hu, ih]
    · simp
    · simp

theorem eq_of_splitLast? {sep : Char} {t front back : Text}
    (h : splitLast? sep t = some (front, back)) : t = front ++ sep :: back := by
  unfold splitLast? at h
  dsimp only at h
  split at h
  · cases h
  · rename_i hlength
    obtain ⟨ws, w, hws⟩ := (List.eq_nil_or_concat' (splitOn sep t)).resolve_left
      (splitOn_ne_nil sep t)
    rw [hws] at h hlength
    have hne : ws ≠ [] := by
      rintro rfl
      exact hlength (by simp)
    obtain ⟨vs, v, rfl⟩ := (List.eq_nil_or_concat' ws).resolve_left hne
    simp only [List.dropLast_concat, List.getLastD_concat, Option.some.injEq, Prod.mk.injEq] at h
    obtain ⟨rfl, rfl⟩ := h
    calc t = join [sep] ((vs ++ [v]) ++ [w]) := by rw [← hws, join_splitOn]
      _ = join [sep] (vs ++ [v]) ++ sep :: w := by
        rw [join_concat, join_concat]
        simp

/-- A text is split where its last separator is followed by a text without one. -/
theorem splitLast?_append {sep : Char} {back : Text} (h : sep ∉ back) (front : Text) :
    splitLast? sep (front ++ sep :: back) = some (front, back) := by
  have hpieces : splitOn sep (front ++ sep :: back) = splitOn sep front ++ [back] := by
    rw [splitOn_append_sep, splitOn_of_not_mem h]
  have hlength : ¬(splitOn sep front ++ [back]).length < 2 := by
    have hfront := List.length_pos_of_ne_nil (splitOn_ne_nil sep front)
    rw [List.length_append, List.length_singleton]
    omega
  rw [splitLast?, hpieces, if_neg hlength, List.dropLast_concat, join_splitOn,
    List.getLastD_concat]

end Text

/-! ### Written paths -/

namespace Path

def IsPart (w : Text) : Prop := w ≠ [] ∧ w ≠ ['.'] ∧ '/' ∉ w

instance (w : Text) : Decidable (IsPart w) :=
  inferInstanceAs (Decidable (w ≠ [] ∧ w ≠ ['.'] ∧ '/' ∉ w))

/-- Whether all parts of a path can be names in directories. -/
def IsProper (p : Path) : Prop := ∀ w ∈ p.parts, IsPart w

instance (p : Path) : Decidable p.IsProper :=
  inferInstanceAs (Decidable (∀ w ∈ p.parts, IsPart w))

theorem head?_join_ne_slash {ws : List Text} (h : ∀ w ∈ ws, IsPart w) :
    (Text.join ['/'] ws).head? ≠ some '/' := by
  have hfirst : ∀ (w : Text) (t : Text), IsPart w → (w ++ t).head? ≠ some '/' := by
    intro w t hw
    obtain ⟨c, r, rfl⟩ := List.exists_cons_of_ne_nil hw.1
    intro he
    cases he
    exact hw.2.2 (by simp)
  cases ws with
  | nil => simp [Text.join]
  | cons w ws =>
    have hw : IsPart w := h w (by simp)
    cases ws with
    | nil => simpa [Text.join] using hfirst w [] hw
    | cons v vs =>
      rw [Text.join, List.append_assoc]
      · exact hfirst w _ hw
      · simp

theorem anchor_ofText (a : Anchor) {t : Text} (h : t.head? ≠ some '/') :
    Anchor.ofText (a.text ++ t) = a := by
  have hstop : t.takeWhile (· = '/') = [] := by
    cases t with
    | nil => rfl
    | cons c r => simpa [List.takeWhile_cons] using h
  cases a <;> simp [Anchor.ofText, Anchor.text, hstop]

theorem parts_join {ws : List Text} (h : ∀ w ∈ ws, IsPart w) :
    ((Text.splitOn '/' (Text.join ['/'] ws)).filter fun w => w ≠ [] && w ≠ ['.']) = ws := by
  by_cases hne : ws = []
  · subst hne
    decide
  · rw [Text.splitOn_join hne fun w hw => (h w hw).2.2]
    refine List.filter_eq_self.2 fun w hw => ?_
    simp [(h w hw).1, (h w hw).2.1]

theorem ofText_append_join (a : Anchor) {ws : List Text} (h : ∀ w ∈ ws, IsPart w) :
    ofText (a.text ++ Text.join ['/'] ws) = ⟨a, ws⟩ := by
  rw [ofText, anchor_ofText a (head?_join_ne_slash h)]
  have hparts := parts_join h
  cases a with
  | relative => simpa [Anchor.text] using hparts
  | root => simpa [Anchor.text, Text.splitOn] using hparts
  | doubleRoot => simpa [Anchor.text, Text.splitOn] using hparts

theorem text_child (d : Path) {w : Text} (hw : w ≠ []) :
    (d.child w).text = d.anchor.text ++ d.parts.flatMap (· ++ ['/']) ++ w := by
  have hne : d.anchor.text ++ d.parts.flatMap (· ++ ['/']) ++ w ≠ [] := by simp [hw]
  rw [text, child, Text.join_concat, ← List.append_assoc]
  split
  · contradiction
  · rfl

theorem eq_child_of_name_ne_nil {p : Path} (h : p.name ≠ []) : p = p.parent.child p.name := by
  have hne : p.parts ≠ [] := by
    intro he
    exact h (by simp [name, he])
  rw [child, parent, name, List.getLastD_eq_getLast?, List.getLast?_eq_some_getLast hne,
    Option.getD_some, List.dropLast_append_getLast]

theorem IsProper.isPart_name {p : Path} (hp : p.IsProper) (h : p.name ≠ []) : IsPart p.name := by
  refine hp p.name ?_
  have hmem : p.name ∈ (p.parent.child p.name).parts :=
    List.mem_append_right p.parent.parts (List.mem_singleton_self p.name)
  rwa [← eq_child_of_name_ne_nil h] at hmem

/-- What is written for a directory before a name is nothing, or ends in a slash. -/
theorem directoryText_ends (d : Path) :
    d.anchor.text ++ d.parts.flatMap (· ++ ['/']) = [] ∨
      (d.anchor.text ++ d.parts.flatMap (· ++ ['/'])).getLast? = some '/' := by
  rcases List.eq_nil_or_concat' d.parts with hnil | ⟨init, w, hconcat⟩
  · rw [hnil]
    cases d.anchor with
    | relative => exact .inl rfl
    | root => exact .inr rfl
    | doubleRoot => exact .inr rfl
  · rw [hconcat]
    simp

theorem parent_child (d : Path) (w : Text) : (d.child w).parent = d := by
  simp [child, parent]

theorem name_child (d : Path) (w : Text) : (d.child w).name = w := by
  simp [child, name, List.getLastD_eq_getLast?]

/-- The suffix of a path is an end of its name. -/
theorem suffix_suffix_name (p : Path) : p.suffix <:+ p.name := by
  unfold suffix splitName
  split
  · rename_i stem back hsplit
    split
    · exact List.nil_suffix
    · exact ⟨stem, (Text.eq_of_splitLast? hsplit).symm⟩
  · exact List.nil_suffix

end Path

/-! ### Names of companions -/

namespace Companion

/-- The end of a written path that holds no slash is an end of the name. -/
theorem isSuffixOf_append {e dir w : Text} (he : '/' ∉ e)
    (hdir : dir = [] ∨ dir.getLast? = some '/') :
    e.isSuffixOf (dir ++ w) = e.isSuffixOf w := by
  rw [Bool.eq_iff_iff, List.isSuffixOf_iff_suffix, List.isSuffixOf_iff_suffix]
  refine ⟨fun h => ?_, fun h => h.trans (List.suffix_append dir w)⟩
  rcases Nat.lt_or_ge w.length e.length with hlt | hle
  · -- otherwise it takes in the slash at the end of the directory
    obtain ⟨front, rfl⟩ := List.suffix_of_suffix_length_le (List.suffix_append dir w) h hlt.le
    obtain ⟨before, hbefore⟩ := h
    have hdir' : dir = before ++ front := by
      rw [← List.append_assoc] at hbefore
      exact (List.append_cancel_right hbefore).symm
    have hne : front ≠ [] := by
      rintro rfl
      simp at hlt
    obtain ⟨init, c, rfl⟩ := List.eq_nil_or_concat' front |>.resolve_left hne
    subst hdir'
    rcases hdir with hnil | hlast
    · simp at hnil
    · have hc : c = '/' := by simpa using hlast
      exact absurd (by simp [hc]) he
  · exact List.suffix_of_suffix_length_le h (List.suffix_append dir w) hle

theorem not_slash_of_mem_rewrites {e : Text × Text} (he : e ∈ rewrites) :
    '/' ∉ e.1 ∧ '/' ∉ e.2 := by
  revert e
  decide

theorem dropEnd_append {n : Nat} {dir w : Text} (h : n ≤ w.length) :
    Text.dropEnd n (dir ++ w) = dir ++ Text.dropEnd n w := by
  rw [Text.dropEnd, Text.dropEnd, List.length_append, Nat.add_sub_assoc h, List.take_append,
    List.take_of_length_le (Nat.le_add_right _ _), Nat.add_sub_cancel_left]

/-- How the name of a file gives way to that of its companion does not depend on the directory. -/
theorem nameOf_append {dir w : Text} (hdir : dir = [] ∨ dir.getLast? = some '/')
    (hw : (".py" : Text).isSuffixOf w = true) : nameOf (dir ++ w) = dir ++ nameOf w := by
  have hfind : rewrites.find? (fun e => e.1.isSuffixOf (dir ++ w) &&
      !testEnding.isSuffixOf (dir ++ w)) =
      rewrites.find? fun e => e.1.isSuffixOf w && !testEnding.isSuffixOf w := by
    refine List.find?_congr fun e he => ?_
    rw [isSuffixOf_append (not_slash_of_mem_rewrites he).1 hdir,
      isSuffixOf_append (by decide) hdir]
  simp only [nameOf, hfind]
  split
  · rename_i old new hsome
    have hfits := List.find?_some hsome
    simp only [Bool.and_eq_true, List.isSuffixOf_iff_suffix] at hfits
    rw [dropEnd_append hfits.1.length_le, List.append_assoc]
  · have hlen : 3 ≤ w.length := (List.isSuffixOf_iff_suffix.1 hw).length_le
    rw [dropEnd_append hlen, List.append_assoc]

/-- The name of a companion is what is left of that of its file with an end that marks it. -/
theorem exists_nameOf_eq (w : Text) :
    ∃ (n : Nat) (new : Text), (new = ending ∨ new = testEnding) ∧
      nameOf w = Text.dropEnd n w ++ new := by
  rw [nameOf]
  split
  · rename_i old new hsome
    have hmem : (old, new) ∈ rewrites := List.mem_of_find?_eq_some hsome
    refine ⟨old.length, new, ?_, rfl⟩
    simp only [rewrites, List.mem_cons, Prod.mk.injEq, List.not_mem_nil, or_false] at hmem
    rcases hmem with h | h | h
    · exact .inl h.2
    · exact .inl h.2
    · exact .inr h.2
  · exact ⟨3, ending, .inl rfl, rfl⟩

theorem ends_of_mark {new : Text} (h : new = ending ∨ new = testEnding) :
    new ≠ [] ∧ new.getLast? = some 'y' ∧ '/' ∉ new := by
  rcases h with rfl | rfl <;> decide

theorem nameOf_ne_nil (w : Text) : nameOf w ≠ [] := by
  obtain ⟨n, new, hnew, heq⟩ := exists_nameOf_eq w
  rw [heq]
  exact List.append_ne_nil_of_right_ne_nil _ (ends_of_mark hnew).1

theorem isPart_nameOf {w : Text} (h : '/' ∉ w) : Path.IsPart (nameOf w) := by
  refine ⟨nameOf_ne_nil w, fun he => ?_, ?_⟩
  · obtain ⟨n, new, hnew, heq⟩ := exists_nameOf_eq w
    have hlast : (nameOf w).getLast? = some 'y' := by
      rw [heq, List.getLast?_append, (ends_of_mark hnew).2.1]
      rfl
    rw [he] at hlast
    exact absurd hlast (by decide)
  · obtain ⟨n, new, hnew, heq⟩ := exists_nameOf_eq w
    rw [heq, List.mem_append, not_or]
    exact ⟨fun hmem => h (List.mem_of_mem_take hmem), (ends_of_mark hnew).2.2⟩

theorem isCompanionName_append_nameOf (dir w : Text) :
    isCompanionName (dir ++ nameOf w) = true := by
  obtain ⟨n, new, hnew, heq⟩ := exists_nameOf_eq w
  rw [heq, isCompanionName, ← List.append_assoc, Bool.or_eq_true, List.isSuffixOf_iff_suffix,
    List.isSuffixOf_iff_suffix]
  rcases hnew with rfl | rfl
  · exact .inl (List.suffix_append _ _)
  · exact .inr (List.suffix_append _ _)

/-- An initial file is no companion: its name would be an end of those that mark companions. -/
theorem isCompanion_initial (d : Path) : isCompanion (d.child Path.initName) = false := by
  have hends : ∀ e, Path.initName.length ≤ e.length → ¬Path.initName <:+ e → ∀ dir : Text,
      e.isSuffixOf (dir ++ Path.initName) = false := by
    intro e hlength hno dir
    rw [← Bool.not_eq_true, List.isSuffixOf_iff_suffix]
    intro h
    exact hno (List.suffix_of_suffix_length_le (List.suffix_append dir _) h hlength)
  unfold isCompanion isCompanionName
  rw [Path.text_child d (by decide), hends ending (by decide) (by decide),
    hends testEnding (by decide) (by decide)]
  rfl

theorem isSuffixOf_nameOf (w : Text) : (".py" : Text).isSuffixOf (nameOf w) = true := by
  obtain ⟨n, new, hnew, heq⟩ := exists_nameOf_eq w
  rw [heq, List.isSuffixOf_iff_suffix]
  refine List.IsSuffix.trans ?_ (List.suffix_append _ _)
  rcases hnew with rfl | rfl
  · exact List.isSuffixOf_iff_suffix.1 (by decide)
  · exact List.isSuffixOf_iff_suffix.1 (by decide)

section

variable {p : Path}

/-- The companion of a module lies beside it, under a name that follows from its own. -/
theorem pathOf_eq_child (hp : p.IsProper) (hmod : (".py" : Text).isSuffixOf p.name = true) :
    pathOf p = p.parent.child (nameOf p.name) := by
  have hne : p.name ≠ [] := by
    intro he
    rw [he] at hmod
    exact absurd hmod (by decide)
  have hparts : ∀ w ∈ p.parent.parts ++ [nameOf p.name], Path.IsPart w := by
    intro w hw
    rcases List.mem_append.1 hw with hw | hw
    · exact hp w (List.mem_of_mem_dropLast hw)
    · rw [List.mem_singleton.1 hw]
      exact isPart_nameOf (hp.isPart_name hne).2.2
  calc pathOf p = Path.ofText (nameOf (p.parent.child p.name).text) := by
        rw [← Path.eq_child_of_name_ne_nil hne]
        rfl
    _ = Path.ofText (p.anchor.text ++ p.parent.parts.flatMap (· ++ ['/']) ++ nameOf p.name) := by
        rw [Path.text_child _ hne, nameOf_append (Path.directoryText_ends p.parent) hmod]
        rfl
    _ = p.parent.child (nameOf p.name) := by
        rw [List.append_assoc, ← Text.join_concat, Path.ofText_append_join p.anchor hparts]
        rfl

theorem parent_pathOf (hp : p.IsProper) (hmod : (".py" : Text).isSuffixOf p.name = true) :
    (pathOf p).parent = p.parent := by
  rw [pathOf_eq_child hp hmod, Path.parent_child]

theorem isCompanion_pathOf (hp : p.IsProper) (hmod : (".py" : Text).isSuffixOf p.name = true) :
    isCompanion (pathOf p) = true := by
  rw [pathOf_eq_child hp hmod, isCompanion, Path.text_child _ (nameOf_ne_nil _)]
  exact isCompanionName_append_nameOf _ _

end

end Companion

end TypedQueries
