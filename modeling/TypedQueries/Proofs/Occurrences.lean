import Mathlib.Data.List.Nodup
import TypedQueries.Companion.Emission
import TypedQueries.Proofs.Cutting
import TypedQueries.Proofs.Gathering

/-!
# Occurrences before and after a query is built

The builder groups the occurrences of a query by their fields, and the emitter puts them back in
the order of the query by their indices. What stands in the slots is what the directives say, so
that a query gets its formats and its arguments in the right places.
-/

namespace TypedQueries

namespace ParamSet.Builder

/-! ### Grouping by fields -/

def Taken.slot (t : Taken) : Companion.Slot := (t.name, t.spec)

/-- The occurrences of gathered fields are those that were taken in, in another order. -/
theorem occurrences_gather_perm (className : Text) (ts : List Taken) :
    (Companion.occurrences ⟨className, (gather ts).fields⟩).Perm
      (ts.map fun t => (t.index, t.slot)) := by
  have hgroups : Companion.occurrences ⟨className, (gather ts).fields⟩ =
      ((names ts).flatMap fun n => ts.filter fun t => t.name = n).map
        fun t => (t.index, t.slot) := by
    rw [Companion.occurrences, gather, List.flatMap_map, List.map_flatMap]
    refine List.flatMap_congr fun n _ => ?_
    rw [fieldOf, List.map_map]
    refine List.map_congr_left fun t ht => ?_
    have hname : t.name = n := by simpa using (List.mem_filter.1 ht).2
    simp [Taken.slot, hname]
  rw [hgroups]
  exact (flatMap_filter_perm Taken.name (names ts) (nodup_names ts) ts
    fun t ht => mem_names.2 ⟨t, ht, rfl⟩).map _

theorem occurrenceCount_gather (className : Text) (ts : List Taken) :
    ParamSet.occurrenceCount ⟨className, (gather ts).fields⟩ = ts.length := by
  have h := (occurrences_gather_perm className ts).length_eq
  simpa [Companion.occurrences, ParamSet.occurrenceCount, List.length_flatMap] using h

end ParamSet.Builder

namespace Companion

/-! ### Filling slots -/

theorem slotPosition?_ofNat {length i : Nat} (h : i < length) :
    slotPosition? length (i : Int) = some i := by
  simp [slotPosition?, h]

theorem fill_ok {occs : List (Int × Slot)} {ss : List Slot}
    (hrange : ∀ o ∈ occs, ∃ i : Nat, i < ss.length ∧ o.1 = i)
    (hn : (occs.map Prod.fst).Nodup) :
    ∃ filled, fill ss occs = .ok filled ∧ filled.length = ss.length ∧
      (∀ (i : Nat) s, ((i : Int), s) ∈ occs → filled[i]? = some s) ∧
      ∀ i : Nat, (i : Int) ∉ occs.map Prod.fst → filled[i]? = ss[i]? := by
  induction occs generalizing ss with
  | nil => exact ⟨ss, rfl, rfl, by simp, by simp⟩
  | cons o occs ih =>
    obtain ⟨index, slot⟩ := o
    obtain ⟨i, hi, rfl⟩ := hrange (index, slot) (by simp)
    rw [List.map_cons, List.nodup_cons] at hn
    obtain ⟨hnew, hn⟩ := hn
    obtain ⟨filled, hfill, hlen, hmem, hother⟩ := @ih (ss.set i slot)
      (fun o ho => by simpa using hrange o (List.mem_cons_of_mem _ ho)) hn
    refine ⟨filled, ?_, by simpa using hlen, ?_, ?_⟩
    · rw [fill, slotPosition?_ofNat hi]
      exact hfill
    · intro j s hj
      rcases List.mem_cons.1 hj with he | hj
      · obtain ⟨hji, rfl⟩ := Prod.mk.inj he
        obtain rfl := Int.ofNat.inj hji
        rw [hother j hnew, List.getElem?_set_self hi]
      · exact hmem j s hj
    · intro j hj
      rw [List.map_cons, List.mem_cons, not_or] at hj
      have hij : i ≠ j := fun he => hj.1 (by rw [he])
      rw [hother j hj.2, List.getElem?_set_ne hij]

def indexed (target : List Slot) : List (Int × Slot) :=
  target.zipIdx.map fun p => ((p.2 : Int), p.1)

theorem map_fst_indexed (target : List Slot) :
    (indexed target).map Prod.fst = (List.range target.length).map Int.ofNat := by
  rw [indexed, List.map_map, List.range_eq_range', ← List.zipIdx_map_snd 0 target, List.map_map]
  rfl

theorem nodup_map_fst_indexed (target : List Slot) : ((indexed target).map Prod.fst).Nodup := by
  rw [map_fst_indexed]
  exact List.nodup_range.map fun _ _ h => Int.ofNat.inj h

theorem mem_indexed {target : List Slot} {i : Nat} {s : Slot} :
    ((i : Int), s) ∈ indexed target ↔ target[i]? = some s := by
  rw [← List.mk_mem_zipIdx_iff_getElem?, indexed, List.mem_map]
  constructor
  · rintro ⟨⟨s', j⟩, hm, he⟩
    obtain ⟨hj, rfl⟩ := Prod.mk.inj he
    rwa [← Int.ofNat.inj hj]
  · intro hm
    exact ⟨(s, i), hm, rfl⟩

/-- Occurrences that are the members of a list with their positions fill the slots with it. -/
theorem fill_of_perm {occs : List (Int × Slot)} {target ss : List Slot}
    (h : occs.Perm (indexed target)) (hlen : ss.length = target.length) :
    fill ss occs = .ok target := by
  have hrange : ∀ o ∈ occs, ∃ i : Nat, i < ss.length ∧ o.1 = i := by
    intro o ho
    have hfst : o.1 ∈ (indexed target).map Prod.fst := List.mem_map_of_mem (h.mem_iff.1 ho)
    rw [map_fst_indexed, List.mem_map] at hfst
    obtain ⟨i, hi, he⟩ := hfst
    exact ⟨i, hlen ▸ List.mem_range.1 hi, he.symm⟩
  have hn : (occs.map Prod.fst).Nodup :=
    (h.map Prod.fst).nodup_iff.2 (nodup_map_fst_indexed target)
  obtain ⟨filled, hfill, hlength, hmem, _⟩ := fill_ok hrange hn
  rw [hfill]
  refine congrArg _ (List.ext_getElem? fun i => ?_)
  cases ht : target[i]? with
  | some s => exact hmem i s (h.mem_iff.2 (mem_indexed.2 ht))
  | none =>
    rw [List.getElem?_eq_none_iff] at ht ⊢
    omega

theorem indexed_eq_zip (target : List Slot) :
    indexed target = ((List.range target.length).map Int.ofNat).zip target := by
  refine List.ext_getElem (by simp [indexed]) fun i _ _ => ?_
  simp [indexed]

end Companion

namespace ParamSet

open Builder Companion

/-- The set of a query comes from gathering its directives, each with the format that follows from
the type at the first occurrence of its name. -/
theorem ofDirectives_eq_some {resolve : Resolver} {queryName suffix : Text} {ds : List Directive}
    {p : ParamSet} (h : (ofDirectives resolve queryName suffix ds).result = .ok (some p)) :
    ∃ us, p = ⟨ClassName.ofQuery queryName suffix, (gather us).fields⟩ ∧ us ≠ [] ∧
      us.map Taken.directive = ds ∧ us.map Taken.index = (List.range ds.length).map Int.ofNat ∧
      ∀ u ∈ us, ∃ first, firstOf ds u.name = some first ∧
        (format resolve u.directive first.typeName).result = .ok u.spec := by
  rw [ofDirectives] at h
  cases hall : (addAll resolve .empty 0 ds).result with
  | error e =>
    simp only [hall, Except.map] at h
    cases h
  | ok b =>
    simp only [hall, Except.map, Except.ok.injEq] at h
    have hempty : Builder.empty = gather [] := rfl
    rw [hempty] at hall
    obtain ⟨us, rfl, hds, hindex, hformat⟩ := addAll_gather hall
    rw [build] at h
    split at h
    · cases h
    · rename_i hne
      cases h
      rw [List.nil_append] at hformat hne
      rw [hds] at hformat
      refine ⟨us, rfl, ?_, hds, by rw [hindex, List.range_eq_range'], hformat⟩
      rintro rfl
      exact hne rfl

theorem indexed_slots {us : List Taken} {n : Nat}
    (hindex : us.map Taken.index = (List.range n).map Int.ofNat) :
    indexed (us.map Taken.slot) = us.map fun u => (u.index, u.slot) := by
  have hn : n = us.length := by simpa using (congrArg List.length hindex).symm
  rw [indexed_eq_zip, List.length_map, ← hn, ← hindex, List.zip_map']

/-- The slots of gathered fields are what the directives say, in the order of their indices. -/
theorem slots_gather {className : Text} {us : List Taken} {n : Nat}
    (hindex : us.map Taken.index = (List.range n).map Int.ofNat) :
    (occurrences ⟨className, (gather us).fields⟩).Perm (indexed (us.map Taken.slot)) ∧
      slots ⟨className, (gather us).fields⟩ = .ok (us.map Taken.slot) := by
  have hperm := occurrences_gather_perm className us
  rw [← indexed_slots hindex] at hperm
  refine ⟨hperm, fill_of_perm hperm ?_⟩
  rw [List.length_replicate, occurrenceCount_gather, List.length_map]

/-- A format stands for a directive of a query: the one it is written with, or the one that follows
from the type that is given at the first occurrence of its name. -/
def StandsFor (resolve : Resolver) (ds : List Directive) (d : Directive) (spec : Text) : Prop :=
  (∀ f, d.format = some f → spec = f) ∧
    (d.format = none → ∃ first, firstOf ds d.name = some first ∧
      (inferFormat resolve d.name first.typeName).result = .ok spec)

theorem standsFor_of_format {resolve : Resolver} {ds : List Directive} {d first : Directive}
    {spec : Text} (hne : ∀ f, d.format = some f → f ≠ []) (hfirst : firstOf ds d.name = some first)
    (h : (format resolve d first.typeName).result = .ok spec) : StandsFor resolve ds d spec := by
  constructor
  · intro f hf
    obtain ⟨c, r, rfl⟩ := List.exists_cons_of_ne_nil (hne f hf)
    simp only [format, hf] at h
    exact (Except.ok.inj h).symm
  · intro hf
    simp only [format, hf] at h
    exact ⟨first, hfirst, h⟩

/-! ### The agreement -/

/-- What is generated for a query and what becomes of its text at run time agree. The set of a text
has one slot for each directive, in order, with its name and the format that stands for it; each
slot is filled, and by one occurrence only. A parameter object whose accessors follow the slots
replaces each directive by its format and gives it the value of the field that it names. -/
theorem occurrences_agree {α : Type} {resolve : Resolver} {queryName suffix literal : Text}
    {p : ParamSet}
    (h : (ofDirectives resolve queryName suffix (Template.directives literal)).result =
      .ok (some p)) :
    let ds := Template.directives literal
    ∃ ss : List Slot, slots p = .ok ss ∧ ss.length = ds.length ∧
      (∀ (i : Nat) (d : Directive) (s : Slot), ds[i]? = some d → ss[i]? = some s →
        s.1 = d.name ∧ StandsFor resolve ds d s.2 ∧ s ≠ ([], [])) ∧
      ((occurrences p).map Prod.fst).Perm ((List.range ds.length).map Int.ofNat) ∧
      ∀ value : Text → α, ∃ q,
        Query.interpolate literal ⟨ss.map Prod.snd, ss.map fun s => value s.1⟩ = .ok q ∧
          Template.Replaces literal (ss.map Prod.snd) q.text ∧
          q.args = ds.map fun d => value d.name := by
  intro ds
  obtain ⟨us, rfl, hne, hds, hindex, hformat⟩ := ofDirectives_eq_some h
  change us.map Taken.directive = ds at hds
  obtain ⟨hperm, hslots⟩ := @slots_gather (ClassName.ofQuery queryName suffix) us _ hindex
  have hlen : us.length = ds.length := by simpa using congrArg List.length hds
  refine ⟨us.map Taken.slot, hslots, by simpa using hlen, ?_, ?_, ?_⟩
  · intro i d s hd hs
    rw [← hds, List.getElem?_map] at hd
    rw [List.getElem?_map] at hs
    obtain ⟨u, hu, rfl⟩ := Option.map_eq_some_iff.1 hs
    rw [hu] at hd
    cases hd
    have hmem : u ∈ us := List.mem_of_getElem? hu
    obtain ⟨source, hwrites⟩ :=
      Template.exists_writes_of_mem_directives (hds ▸ List.mem_map_of_mem hmem)
    obtain ⟨first, hfirst, hspec⟩ := hformat u hmem
    refine ⟨rfl, standsFor_of_format (fun f hf => hwrites.format_ne_nil hf) hfirst hspec, ?_⟩
    exact fun he => hwrites.isName.ne_nil (Prod.mk.inj he).1
  · have hfst := hperm.map Prod.fst
    rw [map_fst_indexed, List.length_map, hlen] at hfst
    exact hfst
  · intro value
    have hnonempty : ds ≠ [] := fun he => hne (List.length_eq_zero_iff.1 (by rw [hlen, he]; rfl))
    let params : ParamValues α :=
      ⟨(us.map Taken.slot).map Prod.snd, (us.map Taken.slot).map fun s => value s.1⟩
    have hspecs : params.specs.length = ds.length := by simpa [params] using hlen
    obtain ⟨q, hq, hreplaces, hargs⟩ := Query.interpolate_replaces hspecs hnonempty
    refine ⟨q, hq, hreplaces, ?_⟩
    rw [hargs, ← hds]
    simp [params, Taken.slot, Taken.name]

/-- Two fields that take turns; the second of them has a format of its own the first time. -/
theorem occurrences_agree_alternating :
    ∃ ss : List Slot,
      slots ⟨"UserQueryParams", [⟨"x", "int", [⟨0, "%d"⟩, ⟨2, "%d"⟩]⟩,
        ⟨"y", "str", [⟨1, "%v"⟩, ⟨3, "%s"⟩]⟩]⟩ = .ok ss ∧ ss.length = 4 := by
  have hds : Template.directives
      "a = {{ x : int }} b = {{y:str:%v}} c = {{ x : _ }} d = {{ y : _ }}" =
      [⟨"x", "int", none⟩, ⟨"y", "str", some "%v"⟩, ⟨"x", "_", none⟩, ⟨"y", "_", none⟩] := by
    decide +kernel
  obtain ⟨ss, hslots, hlen, _⟩ := @occurrences_agree Nat builtin? "USER_QUERY" "Params"
    "a = {{ x : int }} b = {{y:str:%v}} c = {{ x : _ }} d = {{ y : _ }}"
    ⟨"UserQueryParams", [⟨"x", "int", [⟨0, "%d"⟩, ⟨2, "%d"⟩]⟩,
      ⟨"y", "str", [⟨1, "%v"⟩, ⟨3, "%s"⟩]⟩]⟩ (by rw [hds]; rfl)
  exact ⟨ss, hslots, by rw [hlen, hds]; rfl⟩

end ParamSet

end TypedQueries
