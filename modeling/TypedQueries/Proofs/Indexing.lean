import TypedQueries.Package.DefinitionIndex
import TypedQueries.Proofs.Tables

/-!
# Making an index

An index is made in two passes. The first one goes through what is bound, keeps the last value of
each name and counts its values; the second one takes away again the values of those names that have
been given several. So what is left is the values of the names that are given exactly one.
-/

namespace TypedQueries.DefinitionIndex

/-- The names that are given values, with these. -/
def assigned (bs : List (Text × Binding)) : List (Text × Source.Expr) :=
  bs.filterMap fun
    | (w, .value e) => some (w, e)
    | _ => none

/-- How often a name is given a value. -/
def timesAssigned (bs : List (Text × Binding)) (name : Text) : Nat :=
  (assigned bs).countP fun (w, _) => w = name

def imported (bs : List (Text × Binding)) : List (Text × ImportTarget) :=
  bs.filterMap fun
    | (w, .imported target) => some (w, target)
    | _ => none

variable {bs : List (Text × Binding)} {w : Text} {n : Nat}

/-! ### The first pass -/

theorem assigned_concat (bs : List (Text × Binding)) (b : Text × Binding) :
    assigned (bs ++ [b]) = assigned bs ++ assigned [b] :=
  List.filterMap_append

theorem timesAssigned_concat (bs : List (Text × Binding)) (b : Text × Binding) (name : Text) :
    timesAssigned (bs ++ [b]) name = timesAssigned bs name + timesAssigned [b] name := by
  rw [timesAssigned, assigned_concat, List.countP_append]
  rfl

theorem imported_concat (bs : List (Text × Binding)) (b : Text × Binding) :
    imported (bs ++ [b]) = imported bs ++ imported [b] :=
  List.filterMap_append

/-- What has been recorded after `bs`. -/
structure Tally.Records (t : Tally) (bs : List (Text × Binding)) : Prop where
  values : t.index.values = Table.ofList (assigned bs)
  imports : t.index.imports = Table.ofList (imported bs)
  count : ∀ w, (t.counts.get? w).getD 0 = timesAssigned bs w
  counted : ∀ w, t.counts.contains w = true ↔ 0 < timesAssigned bs w
  once : (t.counts.entries.map Prod.fst).Nodup

theorem Tally.records_empty : Tally.empty.Records [] :=
  ⟨rfl, rfl, fun _ => rfl, fun _ => by simp [Tally.empty, Table.contains, Table.get?, Table.empty,
    timesAssigned, assigned], List.nodup_nil⟩

/-- A value is recorded and counted; anything else leaves values and counts as they are. -/
theorem Tally.Records.record {t : Tally} (h : t.Records bs) (b : Text × Binding) :
    (t.record b).Records (bs ++ [b]) := by
  obtain ⟨w, k⟩ := b
  cases k with
  | value e =>
    have hone (v : Text) : timesAssigned [(w, .value e)] v = if v = w then 1 else 0 := by
      by_cases hv : v = w
      · simp [timesAssigned, assigned, hv]
      · simp [timesAssigned, assigned, hv, Ne.symm hv]
    refine ⟨?_, ?_, fun v => ?_, fun v => ?_, Table.nodup_insertInto h.once _ _⟩
    · rw [assigned_concat]
      exact (congrArg (·.insert w e) h.values).trans (Table.ofList_concat _ _ _).symm
    · rw [imported_concat]
      exact h.imports.trans (congrArg Table.ofList (List.append_nil _).symm)
    · rw [timesAssigned_concat, hone, Tally.record, Table.get?_insert]
      by_cases hv : v = w
      · rw [if_pos hv, if_pos hv, Option.getD_some, h.count, hv]
      · rw [if_neg hv, if_neg hv, h.count, Nat.add_zero]
    · rw [timesAssigned_concat, hone, Tally.record, Table.contains_insert, h.counted]
      by_cases hv : v = w <;> simp [hv]
  | imported target =>
    have hnone (v : Text) : timesAssigned [(w, .imported target)] v = 0 := rfl
    refine ⟨?_, ?_, fun v => ?_, fun v => ?_, h.once⟩
    · rw [assigned_concat]
      exact h.values.trans (congrArg Table.ofList (List.append_nil _).symm)
    · rw [imported_concat]
      exact (congrArg (·.insert w target) h.imports).trans (Table.ofList_concat _ _ _).symm
    · rw [timesAssigned_concat, hnone]
      exact h.count v
    · rw [timesAssigned_concat, hnone]
      exact h.counted v
  | _ =>
    refine ⟨?_, ?_, fun v => ?_, fun v => ?_, h.once⟩
    · rw [assigned_concat]
      exact h.values.trans (congrArg Table.ofList (List.append_nil _).symm)
    · rw [imported_concat]
      exact h.imports.trans (congrArg Table.ofList (List.append_nil _).symm)
    · rw [timesAssigned_concat]
      exact h.count v
    · rw [timesAssigned_concat]
      exact h.counted v

theorem Tally.records (bs : List (Text × Binding)) :
    (bs.foldl Tally.record .empty).Records bs := by
  have hfrom : ∀ (more bs : List (Text × Binding)) (t : Tally), t.Records bs →
      (more.foldl Tally.record t).Records (bs ++ more) := by
    intro more
    induction more with
    | nil => exact fun bs t h => (List.append_nil bs).symm ▸ h
    | cons b more ih =>
      intro bs t h
      have hrest := ih (bs ++ [b]) (t.record b) (h.record b)
      rwa [List.append_assoc, List.singleton_append] at hrest
  exact hfrom bs [] .empty Tally.records_empty

theorem Tally.Records.mem_counts_iff {t : Tally} (h : t.Records bs) :
    (w, n) ∈ t.counts.entries ↔ n = timesAssigned bs w ∧ 0 < n := by
  constructor
  · intro hmem
    have hget := Table.get?_of_mem h.once hmem
    have hcount := h.count w
    rw [hget, Option.getD_some] at hcount
    refine ⟨hcount, hcount ▸ (h.counted w).1 ?_⟩
    rw [Table.contains, hget]
    rfl
  · rintro ⟨rfl, hpos⟩
    have hcontains := (h.counted w).2 hpos
    rw [Table.contains, Option.isSome_iff_exists] at hcontains
    obtain ⟨m, hm⟩ := hcontains
    have hcount := h.count w
    rw [hm, Option.getD_some] at hcount
    exact hcount ▸ Table.mem_of_get? hm

/-! ### The second pass -/

/-- A name keeps its value unless it has a count above one. -/
theorem values_foldl_classify (counts : List (Text × Nat)) (idx : DefinitionIndex) :
    (counts.foldl classify idx).values.entries =
      idx.values.entries.filter fun e => counts.all fun c => c.1 ≠ e.1 || c.2 ≤ 1 := by
  induction counts generalizing idx with
  | nil => simp
  | cons c counts ih =>
    obtain ⟨w, n⟩ := c
    have hstep : (classify idx (w, n)).values.entries =
        idx.values.entries.filter fun e => w ≠ e.1 || n ≤ 1 := by
      unfold classify
      by_cases hn : n > 1
      · have hn' : ¬n ≤ 1 := by omega
        simp [hn, hn', Table.erase, eq_comm (a := w)]
      · have hn' : n ≤ 1 := by omega
        simp only [hn, if_false, hn']
        split <;> simp
    rw [List.foldl_cons, ih, hstep, List.filter_filter]
    exact List.filter_congr fun e _ => by rw [List.all_cons, Bool.and_comm]

theorem imports_foldl_classify (counts : List (Text × Nat)) (idx : DefinitionIndex) :
    (counts.foldl classify idx).imports = idx.imports := by
  induction counts generalizing idx with
  | nil => rfl
  | cons c counts ih =>
    obtain ⟨w, n⟩ := c
    rw [List.foldl_cons, ih]
    unfold classify
    dsimp only
    split
    · rfl
    · split <;> rfl

/-! ### Both passes -/

theorem values_ofBindings (bs : List (Text × Binding)) :
    (ofBindings bs).values =
      Table.ofList ((assigned bs).filter fun (w, _) => timesAssigned bs w = 1) := by
  have hrecords := Tally.records bs
  rw [ofBindings]
  generalize bs.foldl Tally.record .empty = t at hrecords
  refine congrArg Table.mk ((values_foldl_classify t.counts.entries t.index).trans ?_)
  rw [hrecords.values]
  refine .trans (List.filter_congr fun e he => ?_)
    (Table.filter_ofList (fun w => decide (timesAssigned bs w = 1)) (assigned bs))
  have hassigned : 0 < timesAssigned bs e.1 :=
    List.countP_pos_iff.2 ⟨e, Table.mem_ofList he, decide_eq_true rfl⟩
  rw [Bool.eq_iff_iff, decide_eq_true_iff, List.all_eq_true]
  constructor
  · intro h
    have hcount := h (e.1, timesAssigned bs e.1) (hrecords.mem_counts_iff.2 ⟨rfl, hassigned⟩)
    simp at hcount
    omega
  · rintro h ⟨w, n⟩ hc
    obtain ⟨rfl, -⟩ := hrecords.mem_counts_iff.1 hc
    by_cases hw : w = e.1
    · subst hw
      simp [h]
    · simp [hw]

theorem imports_ofBindings (bs : List (Text × Binding)) :
    (ofBindings bs).imports = Table.ofList (imported bs) := by
  rw [ofBindings]
  exact (imports_foldl_classify _ _).trans (Tally.records bs).imports

end TypedQueries.DefinitionIndex
