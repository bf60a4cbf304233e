import TypedQueries.ParamSet.Builder
import TypedQueries.Proofs.Lists
import TypedQueries.Proofs.Tables

/-!
# What a builder has gathered

The fields of a builder are a function of the directives that have been taken in: one field for
each name, in the order of the first occurrences, with the type given there and with all
occurrences of the name. Adding a directive takes it in, or fails for a reason that depends on the
earlier directives alone and changes nothing.
-/

namespace TypedQueries.ParamSet.Builder

/-- A directive that was taken in, with its index and the format that was chosen for it. -/
structure Taken where
  index : Int
  directive : Directive
  spec : Text

namespace Taken

def name (t : Taken) : Text := t.directive.name

end Taken

def firstOf (ds : List Directive) (name : Text) : Option Directive :=
  ds.find? fun d => d.name = name

def names (ts : List Taken) : List Text := (ts.map Taken.name).eraseDups

/-- The field that the directives of a name make. -/
def fieldOf (ts : List Taken) (name : Text) : Field where
  name := name
  typeName := ((firstOf (ts.map Taken.directive) name).map Directive.typeName).getD []
  substitutions := (ts.filter fun t => t.name = name).map fun t => ⟨t.index, t.spec⟩

def positionsOf (ns : List Text) : Table Text Nat := ⟨ns.zipIdx⟩

theorem getElem?_of_positionsOf {ns : List Text} {n : Text} {i : Nat}
    (h : (positionsOf ns).get? n = some i) : ns[i]? = some n :=
  List.mk_mem_zipIdx_iff_getElem?.1 (Table.mem_of_get? h)

/-- The builder that has taken in some directives. -/
def gather (ts : List Taken) : Builder where
  fields := (names ts).map (fieldOf ts)
  positions := positionsOf (names ts)
  inRange := by
    intro n i h
    rw [List.length_map]
    exact (List.getElem?_eq_some_iff.1 (getElem?_of_positionsOf h)).1

theorem fields_gather (ts : List Taken) :
    (gather ts).fields = (names ts).map (fieldOf ts) := rfl

theorem positions_gather (ts : List Taken) :
    (gather ts).positions = positionsOf (names ts) := rfl

/-! ### Positions -/

theorem positionsOf_concat {ns : List Text} {n : Text} (h : n ∉ ns) :
    positionsOf (ns ++ [n]) = (positionsOf ns).insert n ns.length := by
  have hnew : n ∉ ns.zipIdx.map Prod.fst := by
    rw [List.zipIdx_map_fst]
    exact h
  unfold Table.insert positionsOf
  rw [Table.insertInto_of_not_mem hnew, List.zipIdx_append]
  simp

theorem get?_positionsOf {ns : List Text} (hns : ns.Nodup) {n : Text} {i : Nat} :
    (positionsOf ns).get? n = some i ↔ ns[i]? = some n := by
  refine ⟨getElem?_of_positionsOf, fun hi => ?_⟩
  refine Table.get?_of_mem ?_ (List.mk_mem_zipIdx_iff_getElem?.2 hi)
  rw [positionsOf, List.zipIdx_map_fst]
  exact hns

/-! ### Names -/

theorem mem_names {ts : List Taken} {n : Text} : n ∈ names ts ↔ ∃ t ∈ ts, t.name = n := by
  simp [names, List.mem_eraseDups]

theorem fields_gather_eq_nil_iff {ts : List Taken} : (gather ts).fields = [] ↔ ts = [] := by
  rw [fields_gather, List.map_eq_nil_iff]
  constructor
  · intro h
    refine List.eq_nil_iff_forall_not_mem.2 fun t ht => ?_
    have hname : t.name ∈ names ts := mem_names.2 ⟨t, ht, rfl⟩
    rw [h] at hname
    cases hname
  · rintro rfl
    rfl

theorem names_concat (ts : List Taken) (t : Taken) :
    names (ts ++ [t]) = if t.name ∈ names ts then names ts else names ts ++ [t.name] := by
  rw [names, List.map_append, List.map_singleton]
  split
  · rename_i h
    exact eraseDups_concat_of_mem (List.mem_eraseDups.1 h)
  · rename_i h
    exact eraseDups_concat_of_not_mem fun hm => h (List.mem_eraseDups.2 hm)

theorem nodup_names (ts : List Taken) : (names ts).Nodup := nodup_eraseDups _

theorem firstOf_isSome_iff {ts : List Taken} {n : Text} :
    (firstOf (ts.map Taken.directive) n).isSome = true ↔ n ∈ names ts := by
  rw [firstOf, List.find?_isSome, mem_names]
  simp [Taken.name]

theorem firstOf_append (ds es : List Directive) (n : Text) :
    firstOf (ds ++ es) n = (firstOf ds n).or (firstOf es n) :=
  List.find?_append

theorem of_firstOf {ds : List Directive} {n : Text} {d : Directive} (h : firstOf ds n = some d) :
    d ∈ ds ∧ d.name = n := by
  have hname := List.find?_some h
  exact ⟨List.mem_of_find?_eq_some h, by simpa using hname⟩

/-! ### Taking in one more directive -/

theorem fieldOf_concat_of_ne {ts : List Taken} {t : Taken} {n : Text} (h : t.name ≠ n) :
    fieldOf (ts ++ [t]) n = fieldOf ts n := by
  have hfirst : firstOf [t.directive] n = none :=
    List.find?_cons_of_neg fun he => h (of_decide_eq_true he)
  rw [fieldOf, List.map_append, List.map_singleton, firstOf_append, hfirst, Option.or_none,
    List.filter_append, List.filter_cons_of_neg (by simpa using h), List.filter_nil,
    List.append_nil]
  rfl

theorem fieldOf_concat_self {ts : List Taken} {t : Taken} (h : t.name ∈ names ts) :
    fieldOf (ts ++ [t]) t.name =
      { fieldOf ts t.name with
        substitutions := (fieldOf ts t.name).substitutions ++ [⟨t.index, t.spec⟩] } := by
  obtain ⟨d, hd⟩ := Option.isSome_iff_exists.1 (firstOf_isSome_iff.2 h)
  rw [fieldOf, List.map_append, firstOf_append, hd, List.filter_append, List.map_append,
    List.filter_cons_of_pos (by simp)]
  simp [fieldOf, hd]

theorem fieldOf_concat_new {ts : List Taken} {t : Taken} (h : t.name ∉ names ts) :
    fieldOf (ts ++ [t]) t.name = ⟨t.name, t.directive.typeName, [⟨t.index, t.spec⟩]⟩ := by
  have hfirst : firstOf (ts.map Taken.directive) t.name = none := by
    rw [← Option.not_isSome_iff_eq_none, firstOf_isSome_iff]
    exact h
  have hfilter : ts.filter (fun u => u.name = t.name) = [] := by
    rw [List.filter_eq_nil_iff]
    intro u hu he
    exact h (mem_names.2 ⟨u, hu, by simpa using he⟩)
  rw [fieldOf, List.map_append, firstOf_append, hfirst, List.filter_append, hfilter]
  simp [firstOf, Taken.name]

/-- A first occurrence adds a field at the end. -/
theorem gather_concat_new {ts : List Taken} {t : Taken} (h : t.name ∉ names ts) :
    gather (ts ++ [t]) =
      (gather ts).push ⟨t.name, t.directive.typeName, [⟨t.index, t.spec⟩]⟩ := by
  have hmap : (names ts).map (fieldOf (ts ++ [t])) = (names ts).map (fieldOf ts) := by
    refine List.map_congr_left fun n hn => fieldOf_concat_of_ne ?_
    rintro rfl
    exact h hn
  ext1
  · rw [fields_gather, names_concat, if_neg h, List.map_append, hmap, List.map_singleton,
      fieldOf_concat_new h]
    rfl
  · rw [positions_gather, names_concat, if_neg h, positionsOf_concat h]
    simp [push, fields_gather, positions_gather]

/-- A further occurrence changes the field of its name and no other. -/
theorem gather_concat_known {ts : List Taken} {t : Taken} {i : Fin (gather ts).fields.length}
    (hi : (names ts)[i.val]? = some t.name) (hfield : (gather ts).fields[i] = fieldOf ts t.name) :
    gather (ts ++ [t]) = (gather ts).pushOccurrence i ⟨t.index, t.spec⟩ := by
  have hmem : t.name ∈ names ts := List.mem_of_getElem? hi
  ext1
  · simp only [pushOccurrence, hfield]
    rw [← fieldOf_concat_self hmem, fields_gather, names_concat, if_pos hmem]
    refine List.ext_getElem (by simp [fields_gather]) fun j hj _ => ?_
    rw [List.getElem_map, List.getElem_set]
    obtain ⟨hlt, hget⟩ := List.getElem?_eq_some_iff.1 hi
    split
    · rename_i hij
      subst hij
      rw [hget]
    · rename_i hij
      simp only [fields_gather, List.getElem_map]
      refine fieldOf_concat_of_ne fun he => hij ?_
      exact (nodup_names ts).getElem_inj_iff.1 (hget.trans he)
  · rw [positions_gather, names_concat, if_pos hmem]
    rfl

/-! ### Adding -/

theorem position?_gather_eq_none {ts : List Taken} {n : Text}
    (h : (gather ts).position? n = none) : n ∉ names ts := by
  intro hn
  obtain ⟨i, hi⟩ := List.mem_iff_getElem?.1 hn
  have hget : (gather ts).positions.get? n = some i := (get?_positionsOf (nodup_names ts)).2 hi
  rw [position?, Option.pmap_eq_none_iff, hget] at h
  cases h

theorem position?_gather_eq_some {ts : List Taken} {n : Text} {i : Fin (gather ts).fields.length}
    (h : (gather ts).position? n = some i) :
    (names ts)[i.val]? = some n ∧ (gather ts).fields[i] = fieldOf ts n := by
  obtain ⟨j, hj, hget, rfl⟩ := Option.pmap_eq_some_iff.1 h
  have hn : (names ts)[j]? = some n := getElem?_of_positionsOf hget
  refine ⟨hn, ?_⟩
  obtain ⟨hlt, rfl⟩ := List.getElem?_eq_some_iff.1 hn
  exact List.getElem_map (fieldOf ts)

/-- The format of a directive after some others, or why it does not fit. -/
def verdict (resolve : Resolver) (seen : List Directive) (d : Directive) :
    Resolved (Except DirectiveError Text) :=
  match firstOf seen d.name with
  | none =>
    if d.isWildcard then ⟨.error (.firstOccurrenceRequiresType d.name), []⟩
    else format resolve d d.typeName
  | some first =>
    if !d.isWildcard && d.typeName ≠ first.typeName then
      ⟨.error (.typeConflict d.name first.typeName d.typeName), []⟩
    else format resolve d first.typeName

@[simp] theorem result_change (b : Builder) (v : Resolved (Except DirectiveError Text))
    (f : Text → Builder) : (b.change v f).result = v.result.map f := by
  unfold change
  cases v.result <;> rfl

@[simp] theorem lookups_change (b : Builder) (v : Resolved (Except DirectiveError Text))
    (f : Text → Builder) : (b.change v f).lookups = v.lookups := by
  unfold change
  cases v.result <;> rfl

/-- Adding takes a directive in if the verdict on it is a format. -/
theorem add_gather (resolve : Resolver) (ts : List Taken) (i : Int) (d : Directive) :
    add resolve (gather ts) i d =
      (gather ts).change (verdict resolve (ts.map Taken.directive) d)
        fun spec => gather (ts ++ [⟨i, d, spec⟩]) := by
  cases hp : (gather ts).position? d.name with
  | none =>
    have hn := position?_gather_eq_none hp
    have hfirst : firstOf (ts.map Taken.directive) d.name = none := by
      rw [← Option.not_isSome_iff_eq_none, firstOf_isSome_iff]
      exact hn
    have hnew : ∀ spec, gather (ts ++ [⟨i, d, spec⟩]) =
        (gather ts).push ⟨d.name, d.typeName, [⟨i, spec⟩]⟩ :=
      fun spec => gather_concat_new (t := ⟨i, d, spec⟩) hn
    simp only [add, hp, introduce, verdict, hfirst, hnew]
    split <;> rfl
  | some pos =>
    obtain ⟨hi, hfield⟩ := position?_gather_eq_some hp
    obtain ⟨first, hfirst⟩ :=
      Option.isSome_iff_exists.1 (firstOf_isSome_iff.2 (List.mem_of_getElem? hi))
    have hname : (fieldOf ts d.name).name = d.name := rfl
    have htype : (fieldOf ts d.name).typeName = first.typeName := by simp [fieldOf, hfirst]
    have hknown : ∀ spec, gather (ts ++ [⟨i, d, spec⟩]) =
        (gather ts).pushOccurrence pos ⟨i, spec⟩ :=
      fun spec => gather_concat_known (t := ⟨i, d, spec⟩) hi hfield
    simp only [add, hp, repeatField, verdict, hfirst, hfield, hname, htype, hknown]
    split <;> rfl

/-- A format that is found for a directive is found with the type at the first occurrence of its
name, which may be the directive itself. -/
theorem format_of_verdict {resolve : Resolver} {seen : List Directive} {d : Directive} {spec : Text}
    (h : (verdict resolve seen d).result = .ok spec) :
    ∃ first, firstOf (seen ++ [d]) d.name = some first ∧
      (format resolve d first.typeName).result = .ok spec := by
  rw [firstOf_append]
  unfold verdict at h
  cases hf : firstOf seen d.name with
  | none =>
    simp only [hf] at h
    split at h
    · cases h
    · exact ⟨d, by simp [firstOf], h⟩
  | some first =>
    simp only [hf] at h
    split at h
    · cases h
    · exact ⟨first, rfl, h⟩

/-! ### Adding several directives -/

/-- Directives that can all be added are taken in one after the other, with consecutive indices,
each with the format that follows from the type at the first occurrence of its name. -/
theorem addAll_gather {resolve : Resolver} {ts : List Taken} {n : Nat} {ds : List Directive}
    {b : Builder} (h : (addAll resolve (gather ts) n ds).result = .ok b) :
    ∃ us, b = gather (ts ++ us) ∧ us.map Taken.directive = ds ∧
      us.map Taken.index = (List.range' n ds.length).map Int.ofNat ∧
      ∀ u ∈ us, ∃ first, firstOf ((ts ++ us).map Taken.directive) u.name = some first ∧
        (format resolve u.directive first.typeName).result = .ok u.spec := by
  induction ds generalizing ts n with
  | nil =>
    cases h
    exact ⟨[], by simp, rfl, rfl, by simp⟩
  | cons d ds ih =>
    simp only [addAll, add_gather, result_change] at h
    cases hv : (verdict resolve (ts.map Taken.directive) d).result with
    | error e =>
      simp only [hv, Except.map] at h
      cases h
    | ok spec =>
      simp only [hv, Except.map] at h
      obtain ⟨us, hb, hds, hindex, hformat⟩ := ih h
      refine ⟨⟨n, d, spec⟩ :: us, by simpa using hb, by simp [hds], ?_, ?_⟩
      · simp [hindex, List.range'_succ]
      · intro u hu
        rcases List.mem_cons.1 hu with rfl | hu
        · obtain ⟨first, hfirst, hspec⟩ := format_of_verdict hv
          refine ⟨first, ?_, hspec⟩
          rw [List.append_cons, List.map_append, List.map_append, firstOf_append]
          simp [Taken.name, hfirst]
        · rw [List.append_cons]
          exact hformat u hu

end TypedQueries.ParamSet.Builder
