import TypedQueries.Companion.Plan
import TypedQueries.Proofs.Lists
import TypedQueries.Proofs.Tables

/-!
# What a plan decides

A plan is made by merging the results one after the other into a draft, and by taking out at the end
what is held. Each result is about one path, so by induction over the results the draft holds at a
path what the companion there and the completed results about it come to, and it holds back exactly
the paths that some result was not completed for. The plan therefore settles each path by itself:
unless it is held, the last of the results about it says what the companion is to hold; but one that
is not there is passed over when none of them wants anything.
-/

namespace TypedQueries.Companion

variable {existing : List Existing} {results : List FileResult} {path : Path} {r : FileResult}

/-! ### What settles a path -/

def resultsFor (results : List FileResult) (path : Path) : List FileResult :=
  results.filter fun r => destination? r = some path

/-- Whether the analysis of a file of a companion was not completed. -/
def isHeld (results : List FileResult) (path : Path) : Bool :=
  (resultsFor results path).any fun r => !r.ok

/-- The companion that is there at a path; of several, the last one counts. -/
def existingAt? (existing : List Existing) (path : Path) : Option Existing :=
  existing.findRev? fun e => e.path = path

/-- What completed results make of the companion at a path, if anything. -/
def decide? (there : Option Existing) (path : Path) (results : List FileResult) :
    Option Planned :=
  match there, results.getLast? with
  | some e, none => some ⟨path, e.standing, [], none⟩
  | some e, some r => some ⟨path, e.standing, r.wanted, some r.path⟩
  | none, none => none
  | none, some r =>
    if results.all (·.wanted.isEmpty) then none else some ⟨path, .absent, r.wanted, some r.path⟩

/-- What is to become of the companion at a path, if anything. -/
def settle (existing : List Existing) (results : List FileResult) (path : Path) :
    Option Planned :=
  if isHeld results path then none
  else decide? (existingAt? existing path) path (resultsFor results path)

/-- The paths that a plan has to decide on, in ascending order and each once. -/
def destinations (existing : List Existing) (results : List FileResult) : List Path :=
  Path.sort (existing.map Existing.path ++ results.filterMap destination?).eraseDups

theorem resultsFor_concat (results : List FileResult) (r : FileResult) (path : Path) :
    resultsFor (results ++ [r]) path =
      resultsFor results path ++ if destination? r = some path then [r] else [] := by
  rw [resultsFor, List.filter_append, List.filter_singleton]
  by_cases h : destination? r = some path <;> simp [h, resultsFor]

/-! ### Merging results -/

namespace Draft

variable {d : Draft}

theorem get?_ofExisting (existing : List Existing) (path : Path) :
    (ofExisting existing).plan.get? path = decide? (existingAt? existing path) path [] := by
  induction existing using List.reverseRecOn with
  | nil => rfl
  | append_singleton existing e ih =>
    have hlast : (ofExisting (existing ++ [e])).plan =
        (ofExisting existing).plan.insert e.path ⟨e.path, e.standing, [], none⟩ := by
      rw [ofExisting, List.map_append]
      exact Table.ofList_concat _ _ _
    have hthere : existingAt? (existing ++ [e]) path =
        if e.path = path then some e else existingAt? existing path := by
      rw [existingAt?, List.findRev?_eq_find?_reverse, List.reverse_append, List.reverse_singleton,
        List.singleton_append, List.find?_cons, existingAt?, List.findRev?_eq_find?_reverse]
      by_cases he : e.path = path <;> simp [he]
    rw [hlast, Table.get?_insert, hthere, ih]
    by_cases he : e.path = path
    · subst he
      rw [if_pos rfl, if_pos rfl]
      rfl
    · rw [if_neg (Ne.symm he), if_neg he]

/-- A result that is about another path, or not completed, leaves the plan for a path alone. -/
theorem get?_merge_of_ne (h : destination? r = some path → r.ok = false) :
    (d.merge r).plan.get? path = d.plan.get? path := by
  unfold merge
  split
  · rfl
  · rename_i path' hpath
    split
    · rfl
    · rename_i hok
      have hne : path ≠ path' := by
        rintro rfl
        simp [h hpath] at hok
      split
      · rw [Table.get?_insert, if_neg hne]
      · split
        · rfl
        · rw [Table.get?_insert, if_neg hne]

/-- A completed result is the one that counts from now on, except that it plans no companion that
is not there without wanting something. -/
theorem get?_merge (h : destination? r = some path) (hok : r.ok = true) :
    (d.merge r).plan.get? path =
      match d.plan.get? path with
      | some g => some { g with wanted := r.wanted, source := some r.path }
      | none => if r.wanted.isEmpty then none else some ⟨path, .absent, r.wanted, some r.path⟩ := by
  unfold merge
  rw [h, hok]
  dsimp only
  rw [if_neg Bool.noConfusion]
  cases hg : d.plan.get? path with
  | some g =>
    dsimp only
    rw [Table.get?_insert, if_pos rfl]
  | none =>
    dsimp only
    split
    · exact hg
    · rw [Table.get?_insert, if_pos rfl]

theorem mem_held_merge :
    path ∈ (d.merge r).held ↔ path ∈ d.held ∨ (destination? r = some path ∧ r.ok = false) := by
  unfold merge
  split
  · rename_i hnone
    simp [hnone]
  · rename_i path' hpath
    split
    · rename_i hok
      simp only [Bool.not_eq_true'] at hok
      rw [List.mem_insert_iff, hpath, Option.some.injEq, hok, or_comm, eq_comm (a := path')]
      simp
    · rename_i hok
      have hno : ¬(destination? r = some path ∧ r.ok = false) := fun h => hok (by simp [h.2])
      rw [or_iff_left hno]
      split
      · rfl
      · split <;> rfl

theorem nodup_keys_merge (h : d.plan.keys.Nodup) (r : FileResult) :
    (d.merge r).plan.keys.Nodup := by
  unfold merge
  split
  · exact h
  · split
    · exact h
    · split
      · exact Table.nodup_insertInto h _ _
      · split
        · exact h
        · exact Table.nodup_insertInto h _ _

/-- A further completed result decides as the draft changes. -/
theorem decide?_concat (there : Option Existing) (results : List FileResult) (r : FileResult) :
    decide? there path (results ++ [r]) =
      match decide? there path results with
      | some g => some { g with wanted := r.wanted, source := some r.path }
      | none => if r.wanted.isEmpty then none else some ⟨path, .absent, r.wanted, some r.path⟩ := by
  unfold decide?
  rw [List.getLast?_concat, List.all_append]
  cases there with
  | some e => cases results.getLast? <;> rfl
  | none =>
    cases hlast : results.getLast? with
    | none =>
      rw [List.getLast?_eq_none_iff.1 hlast]
      simp
    | some last => cases hall : results.all (·.wanted.isEmpty) <;> simp

/-- What a draft comes to over some results. -/
structure Merges (d : Draft) (existing : List Existing) (results : List FileResult) : Prop where
  decides : ∀ path, d.plan.get? path =
    decide? (existingAt? existing path) path ((resultsFor results path).filter FileResult.ok)
  holds : ∀ path, path ∈ d.held ↔ isHeld results path = true
  once : d.plan.keys.Nodup

theorem merges_ofExisting (existing : List Existing) : (ofExisting existing).Merges existing [] :=
  ⟨get?_ofExisting existing, fun _ => by simp [ofExisting, isHeld, resultsFor],
    Table.nodup_ofList _⟩

theorem Merges.merge (h : d.Merges existing results) (r : FileResult) :
    (d.merge r).Merges existing (results ++ [r]) := by
  refine ⟨fun path => ?_, fun path => ?_, nodup_keys_merge h.once r⟩
  · rw [resultsFor_concat, List.filter_append]
    by_cases hpath : destination? r = some path
    · cases hok : r.ok with
      | true =>
        rw [get?_merge hpath hok, h.decides path, if_pos hpath, List.filter_singleton, hok]
        exact (decide?_concat _ _ r).symm
      | false =>
        rw [get?_merge_of_ne fun _ => hok, h.decides path, if_pos hpath, List.filter_singleton, hok]
        simp
    · rw [get?_merge_of_ne fun hp => absurd hp hpath, h.decides path, if_neg hpath]
      simp
  · rw [mem_held_merge, h.holds, isHeld, isHeld, resultsFor_concat, List.any_append,
      Bool.or_eq_true]
    by_cases hpath : destination? r = some path <;> simp [hpath]

theorem merges (existing : List Existing) (results : List FileResult) :
    (results.foldl merge (ofExisting existing)).Merges existing results := by
  induction results using List.reverseRecOn with
  | nil => exact merges_ofExisting existing
  | append_singleton results r ih =>
    rw [List.foldl_append]
    exact ih.merge r

end Draft

/-! ### Taking out what is held -/

theorem entries_foldl_erase (paths : List Path) (t : Table Path Planned) :
    (paths.foldl Table.erase t).entries = t.entries.filter fun e => !paths.contains e.1 := by
  induction paths generalizing t with
  | nil => simp
  | cons p paths ih =>
    rw [List.foldl_cons, ih, Table.erase, List.filter_filter]
    refine List.filter_congr fun e _ => ?_
    simp [Bool.and_comm]

/-- The entries of a plan: at each path what is settled for it. -/
theorem mem_planned_iff {g : Planned} :
    (path, g) ∈ (planned existing results).entries ↔ settle existing results path = some g := by
  have hmerges := Draft.merges existing results
  rw [planned, Draft.release]
  generalize results.foldl Draft.merge (.ofExisting existing) = d at hmerges
  rw [entries_foldl_erase, List.mem_filter, Bool.not_eq_true', ← Bool.not_eq_true,
    List.contains_iff_mem, hmerges.holds, settle]
  by_cases hheld : isHeld results path = true
  · simp [hheld]
  · have hok : (resultsFor results path).filter FileResult.ok = resultsFor results path := by
      refine List.filter_eq_self.2 fun r hr => ?_
      by_contra hno
      exact hheld (List.any_eq_true.2 ⟨r, hr, by simpa using hno⟩)
    rw [if_neg hheld, and_iff_left hheld, ← hok, ← hmerges.decides]
    exact ⟨Table.get?_of_mem hmerges.once, Table.mem_of_get?⟩

theorem nodup_keys_planned (existing : List Existing) (results : List FileResult) :
    (planned existing results).keys.Nodup := by
  have honce := (Draft.merges existing results).once
  rw [planned, Draft.release, Table.keys, entries_foldl_erase]
  exact honce.sublist (List.filter_sublist.map _)

/-! ### Destinations -/

theorem mem_destinations {existing : List Existing} {results : List FileResult} {path : Path} :
    path ∈ destinations existing results ↔
      path ∈ existing.map Existing.path ∨ path ∈ results.filterMap destination? := by
  rw [destinations, Path.sort, List.mem_mergeSort, List.mem_eraseDups, List.mem_append]

theorem mem_resultsFor {results : List FileResult} {path : Path} {r : FileResult} :
    r ∈ resultsFor results path ↔ r ∈ results ∧ destination? r = some path := by
  simp [resultsFor]

theorem resultsFor_eq_nil {results : List FileResult} {path : Path}
    (h : path ∉ results.filterMap destination?) : resultsFor results path = [] := by
  refine List.eq_nil_iff_forall_not_mem.2 fun r hr => h ?_
  obtain ⟨hr, hd⟩ := mem_resultsFor.1 hr
  exact List.mem_filterMap.2 ⟨r, hr, hd⟩

/-! ### Existing companions -/

theorem existingAt?_eq_some {existing : List Existing} {path : Path} {e : Existing}
    (h : existingAt? existing path = some e) : e ∈ existing ∧ e.path = path := by
  rw [existingAt?, List.findRev?_eq_find?_reverse] at h
  exact ⟨List.mem_reverse.1 (List.mem_of_find?_eq_some h), by simpa using List.find?_some h⟩

theorem existingAt?_eq_none_iff {existing : List Existing} {path : Path} :
    existingAt? existing path = none ↔ path ∉ existing.map Existing.path := by
  rw [existingAt?, List.findRev?_eq_find?_reverse, List.find?_eq_none, List.mem_map]
  constructor
  · rintro h ⟨e, he, hpath⟩
    exact h e (List.mem_reverse.2 he) (decide_eq_true hpath)
  · intro h e he hpath
    exact h ⟨e, List.mem_reverse.1 he, of_decide_eq_true hpath⟩

/-! ### Decisions -/

/-- What the last of the results about a companion wants. -/
def lastWanted (results : List FileResult) (path : Path) : List ParamSet :=
  ((resultsFor results path).getLast?.map FileResult.wanted).getD []

def NoneWanted (results : List FileResult) (path : Path) : Prop :=
  ∀ r ∈ resultsFor results path, r.wanted = []

/-- The last result about a companion wants nothing, though an earlier one wants something. -/
def Overruled (results : List FileResult) (path : Path) : Prop :=
  lastWanted results path = [] ∧ ¬NoneWanted results path

instance (results : List FileResult) (path : Path) : Decidable (NoneWanted results path) :=
  inferInstanceAs (Decidable (∀ r ∈ resultsFor results path, r.wanted = []))

theorem NoneWanted.lastWanted_eq {results : List FileResult} {path : Path}
    (h : NoneWanted results path) : lastWanted results path = [] := by
  rw [lastWanted]
  cases hlast : (resultsFor results path).getLast? with
  | none => rfl
  | some r => exact h r (List.mem_of_getLast? hlast)

theorem mem_of_overruled {results : List FileResult} {path : Path} (h : Overruled results path) :
    path ∈ results.filterMap destination? := by
  by_contra hno
  refine h.2 fun r hr => ?_
  rw [resultsFor_eq_nil hno] at hr
  cases hr

/-- A companion that is there is to hold what the last result about it wants. -/
theorem settle_of_present {existing : List Existing} {results : List FileResult} {path : Path}
    (hheld : isHeld results path = false) (h : path ∈ existing.map Existing.path) :
    ∃ e ∈ existing, e.path = path ∧ ∃ source, settle existing results path =
      some ⟨path, e.standing, lastWanted results path, source⟩ := by
  cases he : existingAt? existing path with
  | none => exact absurd h (existingAt?_eq_none_iff.1 he)
  | some e =>
    obtain ⟨hmem, hpath⟩ := existingAt?_eq_some he
    refine ⟨e, hmem, hpath, (resultsFor results path).getLast?.map FileResult.path, ?_⟩
    rw [settle, hheld, if_neg Bool.noConfusion, he, lastWanted]
    unfold decide?
    cases (resultsFor results path).getLast? with
    | none => rfl
    | some r => rfl

/-- One that is not there is passed over when no result about it wants anything. Otherwise it is to
be made, even if the last result wants nothing. -/
theorem settle_of_absent {existing : List Existing} {results : List FileResult} {path : Path}
    (hheld : isHeld results path = false) (h : path ∉ existing.map Existing.path) :
    ∃ source, settle existing results path =
      if NoneWanted results path then none
      else some ⟨path, .absent, lastWanted results path, source⟩ := by
  refine ⟨(resultsFor results path).getLast?.map FileResult.path, ?_⟩
  have hall : (resultsFor results path).all (·.wanted.isEmpty) =
      decide (NoneWanted results path) := by
    rw [Bool.eq_iff_iff, decide_eq_true_iff, List.all_eq_true]
    simp [NoneWanted]
  rw [settle, hheld, if_neg Bool.noConfusion, existingAt?_eq_none_iff.2 h, lastWanted]
  unfold decide?
  rw [hall]
  cases hlast : (resultsFor results path).getLast? with
  | none =>
    have hnone : NoneWanted results path := by
      intro r hr
      rw [List.getLast?_eq_none_iff.1 hlast] at hr
      cases hr
    simp [hnone]
  | some r => simp

theorem settle_of_held {existing : List Existing} {results : List FileResult} {path : Path}
    (h : isHeld results path = true) : settle existing results path = none := by
  rw [settle, if_pos h]

theorem path_of_settle {existing : List Existing} {results : List FileResult} {path : Path}
    {g : Planned} (h : settle existing results path = some g) : g.path = path := by
  rw [settle] at h
  split at h
  · cases h
  · unfold decide? at h
    split at h
    · cases h
      rfl
    · cases h
      rfl
    · cases h
    · split at h
      · cases h
      · cases h
        rfl

theorem mem_plan {existing : List Existing} {results : List FileResult} {g : Planned} :
    g ∈ plan existing results ↔ settle existing results g.path = some g := by
  rw [plan, List.mem_map]
  constructor
  · rintro ⟨⟨path, g⟩, hmem, rfl⟩
    have hsettle := mem_planned_iff.1 (List.mem_mergeSort.1 hmem)
    exact (path_of_settle hsettle).symm ▸ hsettle
  · intro h
    exact ⟨(g.path, g), List.mem_mergeSort.2 (mem_planned_iff.2 h), rfl⟩

theorem mem_plan_of_settle {g : Planned} (h : settle existing results path = some g) :
    g ∈ plan existing results :=
  mem_plan.2 ((path_of_settle h).symm ▸ h)

theorem mem_destinations_of_settle {g : Planned} (h : settle existing results path = some g) :
    path ∈ destinations existing results := by
  by_contra hno
  rw [mem_destinations, not_or] at hno
  rw [settle, existingAt?_eq_none_iff.2 hno.1, resultsFor_eq_nil hno.2] at h
  split at h
  · cases h
  · cases h

/-- What an entry of a plan says: the last result about its path decides, and its path is that of a
companion that is there, or of one that some result wants. -/
theorem of_mem_plan {existing : List Existing} {results : List FileResult} {g : Planned}
    (hg : g ∈ plan existing results) :
    isHeld results g.path = false ∧ g.wanted = lastWanted results g.path ∧
      ((∃ e ∈ existing, e.path = g.path ∧ g.standing = e.standing) ∨
        (g.path ∉ existing.map Existing.path ∧ ¬NoneWanted results g.path ∧
          g.standing = .absent)) := by
  have hsettle := mem_plan.1 hg
  have hheld : isHeld results g.path = false := by
    rw [← Bool.not_eq_true]
    intro hheld
    rw [settle_of_held hheld] at hsettle
    cases hsettle
  refine ⟨hheld, ?_⟩
  by_cases hthere : g.path ∈ existing.map Existing.path
  · obtain ⟨e, he, hpath, source, hpresent⟩ := settle_of_present hheld hthere
    have heq := Option.some.inj (hsettle.symm.trans hpresent)
    exact ⟨congrArg Planned.wanted heq, .inl ⟨e, he, hpath, congrArg Planned.standing heq⟩⟩
  · obtain ⟨source, habsent⟩ := settle_of_absent hheld hthere
    rw [hsettle] at habsent
    split at habsent
    · cases habsent
    · rename_i hnone
      have heq := Option.some.inj habsent
      exact ⟨congrArg Planned.wanted heq,
        .inr ⟨hthere, hnone, congrArg Planned.standing heq⟩⟩

theorem nodup_plan (existing : List Existing) (results : List FileResult) :
    ((plan existing results).map Planned.path).Nodup := by
  have hpaths : ((planned existing results).entries.map (·.2)).map Planned.path =
      (planned existing results).keys := by
    rw [List.map_map]
    exact List.map_congr_left fun e he => path_of_settle (mem_planned_iff.1 he)
  have hperm : ((plan existing results).map Planned.path).Perm (planned existing results).keys := by
    rw [plan, ← hpaths]
    exact ((List.mergeSort_perm _ _).map _).map _
  exact hperm.nodup_iff.2 (nodup_keys_planned existing results)

end TypedQueries.Companion
