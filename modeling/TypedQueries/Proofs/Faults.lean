import TypedQueries.Companion.Emission
import TypedQueries.Proofs.Gathering

/-!
# Faults of directives

What is wrong with a directive depends on those before it: on whether its name has occurred, and on
the type that was given then. A query has a parameter set exactly when nothing is wrong with any of
its directives. Otherwise the first fault is reported, and no type is looked up after it.
-/

namespace TypedQueries

open Companion (baseType baseType_cases)

/-- Whether a directive has no format of its own; an empty one counts as none. -/
def Directive.lacksFormat (d : Directive) : Bool := (d.format.getD []).isEmpty

/-- Whether a directive does not fit those before it, whatever its type is. -/
def DirectiveError.isMisfit : DirectiveError → Bool
  | firstOccurrenceRequiresType _ => true
  | typeConflict .. => true
  | _ => false

/-- Why a type gives no format: it is not known, it is no type, or values of it can be written in
several ways. -/
inductive FormatFault (resolve : Resolver) (field typeName : Text) : DirectiveError → Prop where
  | unresolved : resolve (baseType typeName) = none →
      FormatFault resolve field typeName (.unresolvedType field (baseType typeName))
  | notAType {o : TypeObject} : resolve (baseType typeName) = some o → o.isType = false →
      FormatFault resolve field typeName (.notAType field (baseType typeName))
  | unformattable {o : TypeObject} : resolve (baseType typeName) = some o → o.isType = true →
      (typeName.head? = some '*' ∨ o.underlying ≠ some .int ∧ o.underlying ≠ some .string) →
      FormatFault resolve field typeName (.unformattableType field typeName)

namespace ParamSet.Builder

variable {resolve : Resolver}

def typeOf (ds : List Directive) (name : Text) : Text :=
  ((firstOf ds name).map Directive.typeName).getD []

/-- A directive fits those before it: it is the first of its name and gives a type, or it repeats
the type that was given, or leaves it open. -/
def Fits (seen : List Directive) (d : Directive) : Prop :=
  match firstOf seen d.name with
  | none => d.typeName ≠ Directive.wildcard
  | some first => d.typeName = Directive.wildcard ∨ d.typeName = first.typeName

/-- What is wrong with a directive that stands after some others. -/
inductive Fault (resolve : Resolver) (seen : List Directive) (d : Directive) :
    DirectiveError → Prop where
  | untyped : firstOf seen d.name = none → d.typeName = Directive.wildcard →
      Fault resolve seen d (.firstOccurrenceRequiresType d.name)
  | conflict {first : Directive} : firstOf seen d.name = some first →
      d.typeName ≠ Directive.wildcard → d.typeName ≠ first.typeName →
      Fault resolve seen d (.typeConflict d.name first.typeName d.typeName)
  | format {e : DirectiveError} : Fits seen d → d.lacksFormat = true →
      FormatFault resolve d.name (typeOf (seen ++ [d]) d.name) e → Fault resolve seen d e

/-- Something is wrong with the directive at an index of a query. -/
def FaultAt (resolve : Resolver) (ds : List Directive) (i : Nat) (e : DirectiveError) : Prop :=
  ∃ d, ds[i]? = some d ∧ Fault resolve (ds.take i) d e

/-- The directive at an index is the first with which something is wrong. -/
structure FirstFault (resolve : Resolver) (ds : List Directive) (i : Nat) (e : DirectiveError) :
    Prop where
  fault : FaultAt resolve ds i e
  least : ∀ j e', FaultAt resolve ds j e' → i ≤ j

/-- Nothing is wrong with any directive of a query. -/
def Sound (resolve : Resolver) (ds : List Directive) : Prop := ∀ i e, ¬FaultAt resolve ds i e

def formatOfType (resolve : Resolver) (typeName : Text) : Text :=
  (((resolve (baseType typeName)).bind TypeObject.underlying).bind Kind.format?).getD []

/-- The format of a directive of a query: its own, or that of the type of its name. -/
def specOf (resolve : Resolver) (ds : List Directive) (d : Directive) : Text :=
  if d.lacksFormat then formatOfType resolve (typeOf ds d.name) else d.format.getD []

/-- The directives of a query with their indices and formats. -/
def taken (resolve : Resolver) (ds : List Directive) : List Taken :=
  ds.zipIdx.map fun (d, i) => ⟨i, d, specOf resolve ds d⟩

/-- The types that are looked up for the first `n` directives of a query: one for each that has no
format of its own. -/
def lookedUp (ds : List Directive) (n : Nat) : List Text :=
  ((ds.take n).filter Directive.lacksFormat).map fun d => baseType (typeOf ds d.name)

/-! ### Formats -/

/-- Inferring a format looks up one type, and then goes by the mark and by what the type is. -/
theorem inferFormat_eq (resolve : Resolver) (field t : Text) :
    inferFormat resolve field t = ⟨match resolve (baseType t) with
      | none => .error (.unresolvedType field (baseType t))
      | some o =>
        if !o.isType then .error (.notAType field (baseType t))
        else if t.head? = some '*' then .error (.unformattableType field t)
        else
          match o.underlying.bind Kind.format? with
          | some spec => .ok spec
          | none => .error (.unformattableType field t), [baseType t]⟩ := by
  rcases baseType_cases t with ⟨r, rfl, hbase⟩ | ⟨hmark, hbase⟩
  · rw [hbase]
    rfl
  · simp only [hbase, if_neg hmark]
    unfold inferFormat
    split
    rename_i hsplit
    split at hsplit
    · exact absurd rfl hmark
    · cases hsplit
      rfl

theorem format?_eq_none_iff {k : Option Kind} :
    k.bind Kind.format? = none ↔ k ≠ some .int ∧ k ≠ some .string := by
  cases k with
  | none => simp
  | some k => cases k <;> simp [Kind.format?]

theorem inferFormat_error_iff {field t : Text} {e : DirectiveError} :
    (inferFormat resolve field t).result = .error e ↔ FormatFault resolve field t e := by
  rw [inferFormat_eq]
  constructor
  · intro h
    dsimp only at h
    split at h
    · rename_i hnone
      cases h
      exact .unresolved hnone
    · rename_i o ho
      split at h
      · rename_i htype
        cases h
        exact .notAType ho (by simpa using htype)
      · rename_i htype
        have htype : o.isType = true := by simpa using htype
        split at h
        · rename_i hmark
          cases h
          exact .unformattable ho htype (.inl hmark)
        · split at h
          · cases h
          · rename_i hkind
            cases h
            exact .unformattable ho htype (.inr (format?_eq_none_iff.1 hkind))
  · intro h
    cases h with
    | unresolved hnone => rw [hnone]
    | notAType ho htype => simp [ho, htype]
    | unformattable ho htype hopen =>
      simp only [ho, htype]
      rcases hopen with hmark | hkind
      · simp [hmark]
      · simp [format?_eq_none_iff.2 hkind]

theorem formatOfType_of_ok {field t spec : Text}
    (h : (inferFormat resolve field t).result = .ok spec) : formatOfType resolve t = spec := by
  rw [inferFormat_eq] at h
  dsimp only at h
  split at h
  · cases h
  · rename_i o ho
    split at h
    · cases h
    · split at h
      · cases h
      · split at h
        · rename_i spec' hspec
          cases h
          simp [formatOfType, ho, hspec]
        · cases h

theorem format_eq (resolve : Resolver) (d : Directive) (t : Text) :
    format resolve d t =
      if d.lacksFormat then inferFormat resolve d.name t else ⟨.ok (d.format.getD []), []⟩ := by
  unfold format Directive.lacksFormat
  cases d.format with
  | none => rfl
  | some f => cases f <;> rfl

/-! ### The verdict on a directive -/

theorem typeOf_append_of_mem {ds : List Directive} {d : Directive} (h : d ∈ ds)
    (es : List Directive) : typeOf (ds ++ es) d.name = typeOf ds d.name := by
  have hfirst : (firstOf ds d.name).isSome = true :=
    List.find?_isSome.2 ⟨d, h, decide_eq_true rfl⟩
  obtain ⟨first, hfirst⟩ := Option.isSome_iff_exists.1 hfirst
  rw [typeOf, firstOf_append, hfirst, Option.some_or, typeOf, hfirst]

/-- The type of a directive is its own where its name occurs first, and else the one before. -/
theorem typeOf_concat (seen : List Directive) (d : Directive) :
    typeOf (seen ++ [d]) d.name =
      match firstOf seen d.name with
      | none => d.typeName
      | some first => first.typeName := by
  rw [typeOf, firstOf_append]
  cases firstOf seen d.name with
  | none => simp [firstOf]
  | some first => rfl

theorem verdict_of_fits {seen : List Directive} {d : Directive} (h : Fits seen d) :
    verdict resolve seen d = format resolve d (typeOf (seen ++ [d]) d.name) := by
  rw [typeOf_concat]
  unfold verdict
  unfold Fits at h
  cases hfirst : firstOf seen d.name with
  | none =>
    rw [hfirst] at h
    simp only [Directive.isWildcard, decide_eq_true_eq, if_neg h]
  | some first =>
    rw [hfirst] at h
    rcases h with h | h <;> simp [Directive.isWildcard, h]

theorem verdict_of_not_fits {seen : List Directive} {d : Directive} (h : ¬Fits seen d) :
    ∃ e, verdict resolve seen d = ⟨.error e, []⟩ ∧ Fault resolve seen d e ∧ e.isMisfit = true := by
  unfold verdict
  unfold Fits at h
  cases hfirst : firstOf seen d.name with
  | none =>
    rw [hfirst] at h
    have hwild : d.typeName = Directive.wildcard := not_not.1 h
    refine ⟨_, ?_, .untyped hfirst hwild, rfl⟩
    simp only [Directive.isWildcard, decide_eq_true_eq, if_pos hwild]
  | some first =>
    rw [hfirst] at h
    obtain ⟨hwild, htype⟩ := not_or.1 h
    refine ⟨_, ?_, .conflict hfirst hwild htype, rfl⟩
    simp [Directive.isWildcard, hwild, htype]

theorem Fault.isMisfit_iff {seen : List Directive} {d : Directive} {e : DirectiveError}
    (h : Fault resolve seen d e) : e.isMisfit = true ↔ ¬Fits seen d := by
  cases h with
  | untyped hfirst hwild => simp [DirectiveError.isMisfit, Fits, hfirst, hwild]
  | conflict hfirst hwild htype => simp [DirectiveError.isMisfit, Fits, hfirst, hwild, htype]
  | format hfits _ hfault => cases hfault <;> simp [DirectiveError.isMisfit, hfits]

theorem verdict_error_iff {seen : List Directive} {d : Directive} {e : DirectiveError} :
    (verdict resolve seen d).result = .error e ↔ Fault resolve seen d e := by
  by_cases hfits : Fits seen d
  · rw [verdict_of_fits hfits, format_eq]
    constructor
    · intro h
      split at h
      · rename_i hlacks
        exact .format hfits hlacks (inferFormat_error_iff.1 h)
      · cases h
    · intro h
      cases h with
      | untyped hfirst hwild =>
        rw [Fits, hfirst] at hfits
        exact absurd hwild hfits
      | conflict hfirst hwild htype =>
        rw [Fits, hfirst] at hfits
        exact absurd hfits (not_or.2 ⟨hwild, htype⟩)
      | format _ hlacks hfault =>
        rw [if_pos hlacks]
        exact inferFormat_error_iff.2 hfault
  · obtain ⟨e', hverdict, hfault, _⟩ := @verdict_of_not_fits resolve seen d hfits
    rw [hverdict]
    constructor
    · intro h
      cases h
      exact hfault
    · intro h
      -- what does not fit has only one fault
      cases h with
      | format hno => exact absurd hno hfits
      | untyped hfirst hwild =>
        cases hfault with
        | format hno => exact absurd hno hfits
        | untyped => rfl
        | conflict hsome => cases hfirst.symm.trans hsome
      | conflict hfirst hwild htype =>
        cases hfault with
        | format hno => exact absurd hno hfits
        | untyped hnone => cases hfirst.symm.trans hnone
        | conflict hsome =>
          cases hfirst.symm.trans hsome
          rfl

theorem verdict_ok {seen : List Directive} {d : Directive} (h : ∀ e, ¬Fault resolve seen d e) :
    (verdict resolve seen d).result = .ok (specOf resolve (seen ++ [d]) d) := by
  cases hresult : (verdict resolve seen d).result with
  | error e => exact absurd (verdict_error_iff.1 hresult) (h e)
  | ok spec =>
    have hfits : Fits seen d := by
      by_contra hno
      obtain ⟨e, _, hfault, _⟩ := @verdict_of_not_fits resolve seen d hno
      exact h e hfault
    rw [verdict_of_fits hfits, format_eq] at hresult
    unfold specOf
    split at hresult
    · rename_i hlacks
      rw [if_pos hlacks, formatOfType_of_ok hresult]
    · rename_i hlacks
      rw [if_neg hlacks]
      exact hresult.symm

/-- One type is looked up for a directive that fits and has no format of its own. -/
theorem verdict_lookups {seen : List Directive} {d : Directive} (h : Fits seen d) :
    (verdict resolve seen d).lookups =
      ([d].filter Directive.lacksFormat).map fun _ => baseType (typeOf (seen ++ [d]) d.name) := by
  rw [verdict_of_fits h, format_eq]
  by_cases hlacks : d.lacksFormat = true
  · rw [if_pos hlacks, inferFormat_eq]
    simp [hlacks]
  · rw [if_neg hlacks]
    simp [hlacks]

/-! ### The first fault -/

theorem FaultAt.lt_length {ds : List Directive} {i : Nat} {e : DirectiveError}
    (h : FaultAt resolve ds i e) : i < ds.length := by
  obtain ⟨d, hd, _⟩ := h
  exact (List.getElem?_eq_some_iff.1 hd).1

/-- What is wrong with a directive does not depend on those after it. -/
theorem faultAt_append_iff {ds es : List Directive} {i : Nat} {e : DirectiveError}
    (hi : i < ds.length) : FaultAt resolve (ds ++ es) i e ↔ FaultAt resolve ds i e := by
  unfold FaultAt
  rw [List.getElem?_append_left hi, List.take_append_of_le_length (Nat.le_of_lt hi)]

theorem faultAt_concat_iff {ds : List Directive} {d : Directive} {e : DirectiveError} :
    FaultAt resolve (ds ++ [d]) ds.length e ↔ Fault resolve ds d e := by
  simp [FaultAt]

theorem sound_concat_iff {ds : List Directive} {d : Directive} :
    Sound resolve (ds ++ [d]) ↔ Sound resolve ds ∧ ∀ e, ¬Fault resolve ds d e := by
  constructor
  · intro h
    refine ⟨fun i e hfault => h i e ?_, fun e hfault => h _ e (faultAt_concat_iff.2 hfault)⟩
    exact (faultAt_append_iff hfault.lt_length).2 hfault
  · rintro ⟨hsound, hlast⟩ i e hfault
    have hi : i < ds.length + 1 := by simpa using hfault.lt_length
    rcases Nat.lt_succ_iff_lt_or_eq.1 hi with hi | rfl
    · exact hsound i e ((faultAt_append_iff hi).1 hfault)
    · exact hlast e (faultAt_concat_iff.1 hfault)

theorem firstFault_or_sound (resolve : Resolver) (ds : List Directive) :
    (∃ i e, FirstFault resolve ds i e) ∨ Sound resolve ds := by
  induction ds using List.reverseRecOn with
  | nil => exact .inr fun i e h => absurd h.lt_length (Nat.not_lt_zero i)
  | append_singleton ds d ih =>
    rcases ih with ⟨i, e, hfault, hleast⟩ | hsound
    · refine .inl ⟨i, e, (faultAt_append_iff hfault.lt_length).2 hfault, fun j e' hj => ?_⟩
      by_contra hlt
      have hji : j < i := Nat.lt_of_not_le hlt
      have hearlier := (faultAt_append_iff (Nat.lt_trans hji hfault.lt_length)).1 hj
      exact hlt (hleast j e' hearlier)
    · by_cases hlast : ∃ e, Fault resolve ds d e
      · obtain ⟨e, he⟩ := hlast
        refine .inl ⟨ds.length, e, faultAt_concat_iff.2 he, fun j e' hj => ?_⟩
        by_contra hlt
        exact hsound j e' ((faultAt_append_iff (Nat.lt_of_not_le hlt)).1 hj)
      · exact .inr (sound_concat_iff.2 ⟨hsound, fun e he => hlast ⟨e, he⟩⟩)

/-- The directives before the first fault are sound, and the fault is that of the next one. -/
theorem FirstFault.split {ds : List Directive} {i : Nat} {e : DirectiveError}
    (h : FirstFault resolve ds i e) :
    ∃ d rest, ds = ds.take i ++ d :: rest ∧ Sound resolve (ds.take i) ∧
      Fault resolve (ds.take i) d e := by
  obtain ⟨d, hd, hfault⟩ := h.fault
  obtain ⟨hi, rfl⟩ := List.getElem?_eq_some_iff.1 hd
  have hsplit : ds = ds.take i ++ ds[i] :: ds.drop (i + 1) := by
    rw [List.getElem_cons_drop, List.take_append_drop]
  refine ⟨_, _, hsplit, fun j e' hj => ?_, hfault⟩
  have hlt : j < i := by
    have := hj.lt_length
    rw [List.length_take] at this
    omega
  rw [hsplit] at h
  exact absurd (h.least j e' ((faultAt_append_iff hj.lt_length).2 hj)) (Nat.not_le_of_lt hlt)

/-! ### Runs of the builder -/

theorem map_directive_taken (resolve : Resolver) (ds : List Directive) :
    (taken resolve ds).map Taken.directive = ds := by
  unfold taken
  rw [List.map_map]
  exact List.zipIdx_map_fst 0 ds

theorem taken_concat (resolve : Resolver) (ds : List Directive) (d : Directive) :
    taken resolve (ds ++ [d]) =
      taken resolve ds ++ [⟨ds.length, d, specOf resolve (ds ++ [d]) d⟩] := by
  unfold taken
  rw [List.zipIdx_append, List.map_append]
  congr 1
  · refine List.map_congr_left fun p hp => ?_
    have hmem : p.1 ∈ ds := List.fst_mem_of_mem_zipIdx hp
    simp only [specOf, typeOf_append_of_mem hmem]
  · simp

theorem lookedUp_append_of_le {ds : List Directive} {n : Nat} (hn : n ≤ ds.length)
    (es : List Directive) : lookedUp (ds ++ es) n = lookedUp ds n := by
  unfold lookedUp
  rw [List.take_append_of_le_length hn]
  refine List.map_congr_left fun d hd => ?_
  rw [typeOf_append_of_mem (List.mem_of_mem_take (List.mem_filter.1 hd).1)]

theorem lookedUp_concat (ds : List Directive) (d : Directive) :
    lookedUp (ds ++ [d]) (ds.length + 1) = lookedUp ds ds.length ++
      ([d].filter Directive.lacksFormat).map fun _ => baseType (typeOf (ds ++ [d]) d.name) := by
  rw [← lookedUp_append_of_le (Nat.le_refl _) [d]]
  unfold lookedUp
  rw [List.take_left, List.take_of_length_le (by simp), List.filter_append, List.map_append]
  congr 1
  refine List.map_congr_left fun d' hd' => ?_
  rw [List.mem_singleton.1 (List.mem_filter.1 hd').1]

/-- Adding directives goes on where the earlier ones ended, unless these failed. -/
theorem addAll_append (resolve : Resolver) (b : Builder) (n : Nat) (ds es : List Directive) :
    addAll resolve b n (ds ++ es) =
      let first := addAll resolve b n ds
      match first.result with
      | .error e => ⟨.error e, first.lookups⟩
      | .ok b' =>
        let rest := addAll resolve b' (n + ds.length) es
        ⟨rest.result, first.lookups ++ rest.lookups⟩ := by
  induction ds generalizing b n with
  | nil => simp [addAll]
  | cons d ds ih =>
    simp only [List.cons_append, addAll]
    cases (add resolve b n d).result with
    | error e => rfl
    | ok b' =>
      simp only [ih, List.length_cons, Nat.add_assoc, Nat.add_comm 1]
      cases (addAll resolve b' (n + 1) ds).result with
      | error e => rfl
      | ok b'' => simp only [List.append_assoc]

theorem addAll_of_sound {ds : List Directive} (h : Sound resolve ds) :
    addAll resolve .empty 0 ds =
      ⟨.ok (gather (taken resolve ds)), lookedUp ds ds.length⟩ := by
  induction ds using List.reverseRecOn with
  | nil => rfl
  | append_singleton ds d ih =>
    obtain ⟨hsound, hlast⟩ := sound_concat_iff.1 h
    have hfits : Fits ds d := by
      by_contra hno
      obtain ⟨e, _, hfault, _⟩ := @verdict_of_not_fits resolve ds d hno
      exact hlast e hfault
    simp only [addAll_append, ih hsound, addAll, add_gather, result_change, lookups_change,
      map_directive_taken, verdict_ok hlast, verdict_lookups hfits, Except.map, taken_concat,
      Nat.zero_add, List.append_nil, List.length_append, List.length_singleton, lookedUp_concat]

/-- The first fault ends the run. Its directive is looked up unless it is a misfit. -/
theorem addAll_of_firstFault {ds : List Directive} {i : Nat} {e : DirectiveError}
    (h : FirstFault resolve ds i e) :
    addAll resolve .empty 0 ds =
      ⟨.error e, lookedUp ds (if e.isMisfit then i else i + 1)⟩ := by
  obtain ⟨d, rest, hds, hsound, hfault⟩ := h.split
  have hi : (ds.take i).length = i := by
    have := h.fault.lt_length
    rw [List.length_take]
    omega
  have hbefore : lookedUp ds i = lookedUp (ds.take i) (ds.take i).length := by
    rw [hi]
    conv_lhs => rw [hds]
    exact lookedUp_append_of_le (Nat.le_of_eq hi.symm) _
  have hverdict := verdict_error_iff.2 hfault
  have hrun : addAll resolve .empty 0 ds = ⟨.error e,
      lookedUp ds i ++ (verdict resolve (ds.take i) d).lookups⟩ := by
    conv_lhs => rw [hds]
    simp only [addAll_append, addAll_of_sound hsound, addAll, add_gather, result_change,
      lookups_change, map_directive_taken, hverdict, Except.map, hbefore]
  rw [hrun]
  by_cases hfits : Fits (ds.take i) d
  · have hmisfit : ¬e.isMisfit = true := fun he => (hfault.isMisfit_iff.1 he) hfits
    have hthrough : lookedUp ds (i + 1) = lookedUp (ds.take i ++ [d]) ((ds.take i).length + 1) := by
      rw [hi]
      conv_lhs => rw [hds, List.append_cons]
      exact lookedUp_append_of_le (by simp [hi]) _
    rw [if_neg hmisfit, verdict_lookups hfits, hthrough, lookedUp_concat, hbefore]
  · obtain ⟨e', hmisfit, _, _⟩ := @verdict_of_not_fits resolve (ds.take i) d hfits
    rw [if_pos (hfault.isMisfit_iff.2 hfits), hmisfit, List.append_nil]

theorem pairwise_index_of_mem_gather {ds : List Directive} {f : Field}
    (hf : f ∈ (gather (taken resolve ds)).fields) :
    (f.substitutions.map Substitution.index).Pairwise (· < ·) := by
  obtain ⟨n, _, rfl⟩ := List.mem_map.1 hf
  have hall : ((taken resolve ds).map Taken.index).Pairwise (· < ·) := by
    have hindex : (taken resolve ds).map Taken.index =
        (List.range' 0 ds.length).map Int.ofNat := by
      rw [← List.zipIdx_map_snd 0 ds]
      unfold taken
      rw [List.map_map, List.map_map]
      rfl
    have hrange : (List.range' 0 ds.length).Pairwise (· < ·) := List.pairwise_lt_range' 1
    rw [hindex]
    exact hrange.map _ fun _ _ => Int.ofNat_lt.2
  have hsub : ((fieldOf (taken resolve ds) n).substitutions.map Substitution.index).Sublist
      ((taken resolve ds).map Taken.index) := by
    unfold fieldOf
    rw [List.map_map]
    exact List.filter_sublist.map _
  exact hall.sublist hsub

end ParamSet.Builder

namespace ParamSet

open Builder

theorem ofDirectives_of_sound {resolve : Resolver} {ds : List Directive} (h : Sound resolve ds)
    (queryName suffix : Text) :
    ofDirectives resolve queryName suffix ds =
      ⟨.ok (if ds = [] then none
        else some ⟨ClassName.ofQuery queryName suffix, (gather (taken resolve ds)).fields⟩),
       lookedUp ds ds.length⟩ := by
  unfold ofDirectives
  simp only [addAll_of_sound h, Except.map]
  cases ds with
  | nil => rfl
  | cons d ds =>
    have htaken : taken resolve (d :: ds) ≠ [] := by simp [taken]
    simp [build, fields_gather_eq_nil_iff, htaken]

theorem ofDirectives_of_firstFault {resolve : Resolver} {ds : List Directive} {i : Nat}
    {e : DirectiveError} (h : FirstFault resolve ds i e) (queryName suffix : Text) :
    ofDirectives resolve queryName suffix ds =
      ⟨.error e, lookedUp ds (if e.isMisfit then i else i + 1)⟩ := by
  unfold ofDirectives
  simp only [addAll_of_firstFault h, Except.map]

/-- A query has a parameter set exactly when nothing is wrong with its directives, and otherwise the
first fault is reported. Without directives there is none. The fields of a set stand in the order of
the first occurrences of their names, each with the type given there and with its occurrences in
order. One type is looked up, in order, for each directive without a format of its own: for all of
them, or for those up to the first fault; the directive at fault is left out when it does not fit
those before it. -/
theorem ofDirectives_reports_first_fault (resolve : Resolver) (queryName suffix : Text)
    (ds : List Directive) :
    let run := ofDirectives resolve queryName suffix ds
    let fields := (gather (taken resolve ds)).fields
    (∀ e, run.result = .error e ↔ ∃ i, FirstFault resolve ds i e) ∧
      (run.result = .ok none ↔ ds = []) ∧
      (∀ p, run.result = .ok (some p) ↔
        ds ≠ [] ∧ Sound resolve ds ∧ p = ⟨ClassName.ofQuery queryName suffix, fields⟩) ∧
      (∀ f ∈ fields, (f.substitutions.map Substitution.index).Pairwise (· < ·)) ∧
      (Sound resolve ds → run.lookups = lookedUp ds ds.length) ∧
      ∀ i e, FirstFault resolve ds i e →
        run.lookups = lookedUp ds (if e.isMisfit then i else i + 1) := by
  intro run fields
  have horder : ∀ f ∈ fields, (f.substitutions.map Substitution.index).Pairwise (· < ·) :=
    fun f hf => pairwise_index_of_mem_gather hf
  have hlookups : ∀ i e, FirstFault resolve ds i e →
      run.lookups = lookedUp ds (if e.isMisfit then i else i + 1) :=
    fun i e h => congrArg Resolved.lookups (ofDirectives_of_firstFault h queryName suffix)
  rcases firstFault_or_sound resolve ds with ⟨i, e, hfault⟩ | hsound
  · have hrun : run.result = .error e :=
      congrArg Resolved.result (ofDirectives_of_firstFault hfault queryName suffix)
    have hunsound : ¬Sound resolve ds := fun hsound => hsound i e hfault.fault
    have hne : ds ≠ [] := by
      rintro rfl
      exact absurd hfault.fault.lt_length (Nat.not_lt_zero i)
    refine ⟨fun e' => ⟨fun he => ⟨i, ?_⟩, ?_⟩, ?_, ?_, horder, fun hsound => absurd hsound hunsound,
      hlookups⟩
    · cases hrun.symm.trans he
      exact hfault
    · rintro ⟨j, hother⟩
      exact congrArg Resolved.result (ofDirectives_of_firstFault hother queryName suffix)
    · rw [hrun]
      exact iff_of_false (by simp) hne
    · intro p
      rw [hrun]
      exact iff_of_false (by simp) fun h => hunsound h.2.1
  · have hrun := ofDirectives_of_sound hsound queryName suffix
    have hresult := congrArg Resolved.result hrun
    refine ⟨fun e => iff_of_false ?_ ?_, ?_, ?_, horder, fun _ => congrArg Resolved.lookups hrun,
      hlookups⟩
    · intro he
      cases hresult.symm.trans he
    · rintro ⟨i, hfault⟩
      exact hsound i e hfault.fault
    · rw [show run.result = _ from hresult]
      by_cases hds : ds = []
      · simp [hds]
      · simp [hds]
    · intro p
      rw [show run.result = _ from hresult]
      by_cases hds : ds = []
      · simp [hds]
      · simp [hds, hsound, eq_comm, fields]

/-- A name with two types, and behind it a type that is not known. -/
def conflictingDirectives : List Directive :=
  [⟨"id", "int", none⟩, ⟨"id", "_", some "%x"⟩, ⟨"id", "str", none⟩, ⟨"tag", "Tag", none⟩]

/-- The second type of the name is reported; only the first one has been looked up. -/
theorem ofDirectives_reports_first_fault_conflict :
    let run := ofDirectives builtin? "ID_QUERY" "Params" conflictingDirectives
    run.result = .error (.typeConflict "id" "int" "str") ∧ run.lookups = ["int"] := by
  obtain ⟨herror, _, _, _, _, hlookups⟩ :=
    ofDirectives_reports_first_fault builtin? "ID_QUERY" "Params" conflictingDirectives
  have hfirst : FirstFault builtin? conflictingDirectives 2 (.typeConflict "id" "int" "str") := by
    have hconflict : Fault builtin? (conflictingDirectives.take 2) ⟨"id", "str", none⟩
        (.typeConflict "id" "int" "str") :=
      @Fault.conflict _ _ _ ⟨"id", "int", none⟩ rfl (by decide) (by decide)
    refine ⟨⟨_, rfl, hconflict⟩, ?_⟩
    rintro j e ⟨d, hd, hfault⟩
    by_contra hj
    have hverdict := verdict_error_iff.2 hfault
    obtain rfl | rfl : j = 0 ∨ j = 1 := by omega
    · cases hd
      cases hverdict
    · cases hd
      cases hverdict
  exact ⟨(herror _).2 ⟨2, hfirst⟩, hlookups 2 _ hfirst⟩

end ParamSet

end TypedQueries
