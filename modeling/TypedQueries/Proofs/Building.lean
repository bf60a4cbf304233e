import TypedQueries.Proofs.Occurrences

/-!
# Runs of a builder

A builder may be used on after a directive that did not fit. Whatever has been added by then, and
whatever could not be, the builder holds the directives that fitted and nothing else: one field for
each of their names, found at the position that is kept for it, with one occurrence for each of them
in the order in which they came. A directive that does not fit leaves no trace, so its name is as
free as it was before.
-/

namespace TypedQueries.ParamSet.Builder

/-- A call of the builder: a directive and the index that is given for it. -/
structure Call where
  index : Int
  directive : Directive

namespace Call

def name (c : Call) : Text := c.directive.name

end Call

variable {resolve : Resolver}

/-- The builder after some calls. Behind a directive that does not fit, the next one is tried. -/
def run (resolve : Resolver) (b : Builder) (calls : List Call) : Builder :=
  calls.foldl (fun b c => (add resolve b c.index c.directive).builder) b

def successes (resolve : Resolver) (b : Builder) : List Call → List Call
  | [] => []
  | c :: calls =>
    let step := add resolve b c.index c.directive
    match step.fault? with
    | none => c :: successes resolve step.builder calls
    | some _ => successes resolve step.builder calls

/-- The occurrence is what a call brings to a field: it has the index of the call, and the format of
its directive for the type of the field. -/
structure Brings (resolve : Resolver) (f : Field) (c : Call) (s : Substitution) : Prop where
  index : s.index = c.index
  spec : (format resolve c.directive f.typeName).result = .ok s.spec

/-- A builder holds what some calls have brought in. -/
structure Holds (resolve : Resolver) (b : Builder) (done : List Call) : Prop where
  nodup : (b.fields.map Field.name).Nodup
  /-- The positions are those of the fields under their names. -/
  position_iff : ∀ name i,
    b.positions.get? name = some i ↔ b.fields[i]?.map Field.name = some name
  typed : ∀ f ∈ b.fields, f.typeName ≠ Directive.wildcard
  occurs : ∀ f ∈ b.fields, f.substitutions ≠ []
  /-- The occurrences of a field are those of the calls with its name, one for each, in order. -/
  brought : ∀ f ∈ b.fields,
    List.Forall₂ (Brings resolve f) (done.filter fun c => c.name = f.name) f.substitutions
  /-- Each call has a field. -/
  known : ∀ c ∈ done, c.name ∈ b.fields.map Field.name

/-! ### One call -/

/-- If there is a fault, the builder is the one before. -/
def KeepsOnFault (b : Builder) (a : Added) : Prop := ∀ e, a.fault? = some e → a.builder = b

theorem keepsOnFault_change (b : Builder) (v : Resolved (Except DirectiveError Text))
    (f : Text → Builder) : KeepsOnFault b (b.change v f) := by
  unfold change
  split
  · exact fun _ _ => rfl
  · exact fun _ h => by cases h

/-- A directive that does not fit leaves the builder as it was. -/
theorem keepsOnFault_add (resolve : Resolver) (b : Builder) (i : Int) (d : Directive) :
    KeepsOnFault b (add resolve b i d) := by
  unfold add
  split
  · unfold introduce
    split
    · exact fun _ _ => rfl
    · exact keepsOnFault_change _ _ _
  · unfold repeatField
    dsimp only
    split
    · exact fun _ _ => rfl
    · exact keepsOnFault_change _ _ _

theorem result_add_of_new {b : Builder} {i : Int} {d : Directive}
    (hnew : b.positions.get? d.name = none) (htype : d.typeName ≠ Directive.wildcard) :
    (add resolve b i d).result = (format resolve d d.typeName).result.map fun spec =>
      b.push ⟨d.name, d.typeName, [⟨i, spec⟩]⟩ := by
  have hposition : b.position? d.name = none := Option.pmap_eq_none_iff.2 hnew
  have hwild : ¬d.isWildcard = true := fun h => htype (of_decide_eq_true h)
  rw [add, hposition]
  simp only [introduce, if_neg hwild, result_change]

/-- Directives that have been taken in belong together: each has the format that follows from the
type at the first occurrence of its name, and this type is given. -/
def Legal (resolve : Resolver) (ts : List Taken) : Prop :=
  ∀ t ∈ ts, ∃ first, firstOf (ts.map Taken.directive) t.name = some first ∧
    first.typeName ≠ Directive.wildcard ∧
    (format resolve t.directive first.typeName).result = .ok t.spec

/-- The call by which a directive was taken in. -/
def Taken.call (t : Taken) : Call := ⟨t.index, t.directive⟩

theorem Legal.concat {ts : List Taken} (h : Legal resolve ts) {i : Int} {d : Directive}
    {spec : Text} (hv : (verdict resolve (ts.map Taken.directive) d).result = .ok spec) :
    Legal resolve (ts ++ [⟨i, d, spec⟩]) := by
  intro t ht
  rw [List.map_append, List.map_singleton]
  rcases List.mem_append.1 ht with ht | ht
  · obtain ⟨first, hfirst, hrest⟩ := h t ht
    refine ⟨first, ?_, hrest⟩
    rw [firstOf_append, hfirst, Option.some_or]
  · obtain rfl : t = ⟨i, d, spec⟩ := List.mem_singleton.1 ht
    obtain ⟨first, hfirst, hspec⟩ := format_of_verdict hv
    refine ⟨first, hfirst, ?_, hspec⟩
    -- the type is given by an earlier directive, or by this one, which then is no wildcard
    rw [firstOf_append] at hfirst
    cases hseen : firstOf (ts.map Taken.directive) d.name with
    | some seen =>
      rw [hseen, Option.some_or] at hfirst
      obtain rfl : seen = first := Option.some.inj hfirst
      obtain ⟨hmem, hname⟩ := of_firstOf hseen
      obtain ⟨t, ht, rfl⟩ := List.mem_map.1 hmem
      obtain ⟨first, hfirst', htype, _⟩ := h t ht
      rw [Taken.name, hname, hseen] at hfirst'
      obtain rfl : t.directive = first := Option.some.inj hfirst'
      exact htype
    | none =>
      rw [hseen, Option.none_or] at hfirst
      have hself : firstOf [d] d.name = some d := List.find?_cons_of_pos (decide_eq_true rfl)
      obtain rfl : d = first := Option.some.inj (hself.symm.trans hfirst)
      rw [verdict, hseen] at hv
      dsimp only at hv
      split at hv
      · cases hv
      · rename_i hwild
        exact fun he => hwild (decide_eq_true he)

/-! ### Runs -/

theorem run_gather {ts : List Taken} (h : Legal resolve ts) (calls : List Call) :
    ∃ us, run resolve (gather ts) calls = gather (ts ++ us) ∧
      us.map Taken.call = successes resolve (gather ts) calls ∧ Legal resolve (ts ++ us) := by
  induction calls generalizing ts with
  | nil => exact ⟨[], by simp [run], rfl, by simpa using h⟩
  | cons c calls ih =>
    simp only [run, List.foldl_cons, successes, add_gather, change]
    cases hv : (verdict resolve (ts.map Taken.directive) c.directive).result with
    | error e => exact ih h
    | ok spec =>
      obtain ⟨us, hrun, hdone, hlegal⟩ := ih (h.concat (i := c.index) hv)
      rw [List.append_assoc] at hrun hlegal
      exact ⟨⟨c.index, c.directive, spec⟩ :: us, hrun, congrArg (c :: ·) hdone, hlegal⟩

theorem map_name_gather (ts : List Taken) : (gather ts).fields.map Field.name = names ts := by
  rw [fields_gather, List.map_map]
  exact List.map_id'' (fun _ => rfl) _

/-- A field of taken directives has the type at the first occurrence of its name, which is given. -/
theorem Legal.typeName_fieldOf {ts : List Taken} (h : Legal resolve ts) {t : Taken} (ht : t ∈ ts) :
    (fieldOf ts t.name).typeName ≠ Directive.wildcard ∧
      (format resolve t.directive (fieldOf ts t.name).typeName).result = .ok t.spec := by
  obtain ⟨first, hfirst, htype, hspec⟩ := h t ht
  have he : (fieldOf ts t.name).typeName = first.typeName := by simp [fieldOf, hfirst]
  rw [he]
  exact ⟨htype, hspec⟩

theorem Legal.holds {ts : List Taken} (h : Legal resolve ts) :
    Holds resolve (gather ts) (ts.map Taken.call) where
  nodup := by
    rw [map_name_gather]
    exact nodup_names ts
  position_iff := by
    intro name i
    rw [← List.getElem?_map, map_name_gather]
    exact get?_positionsOf (nodup_names ts)
  typed := by
    intro f hf
    obtain ⟨n, hn, rfl⟩ := List.mem_map.1 hf
    obtain ⟨t, ht, rfl⟩ := mem_names.1 hn
    exact (h.typeName_fieldOf ht).1
  occurs := by
    intro f hf
    obtain ⟨n, hn, rfl⟩ := List.mem_map.1 hf
    obtain ⟨t, ht, rfl⟩ := mem_names.1 hn
    have hmem : t ∈ ts.filter fun u => u.name = t.name := List.mem_filter.2 ⟨ht, by simp⟩
    exact List.ne_nil_of_mem (List.mem_map_of_mem hmem)
  brought := by
    intro f hf
    obtain ⟨n, _, rfl⟩ := List.mem_map.1 hf
    rw [List.filter_map]
    refine List.forall₂_map_left_iff.2 (List.forall₂_map_right_iff.2 (List.forall₂_same.2 ?_))
    intro t ht
    obtain ⟨hmem, hname⟩ := List.mem_filter.1 ht
    obtain rfl : t.name = n := of_decide_eq_true hname
    exact ⟨rfl, (h.typeName_fieldOf hmem).2⟩
  known := by
    intro c hc
    obtain ⟨t, ht, rfl⟩ := List.mem_map.1 hc
    rw [map_name_gather]
    exact mem_names.2 ⟨t, ht, rfl⟩

theorem Holds.position_eq_none {b : Builder} {done : List Call} (h : Holds resolve b done)
    {name : Text} (hnew : ∀ c ∈ done, c.name ≠ name) : b.positions.get? name = none := by
  by_contra hsome
  obtain ⟨i, hi⟩ := Option.ne_none_iff_exists'.1 hsome
  obtain ⟨f, hf, rfl⟩ := Option.map_eq_some_iff.1 ((h.position_iff name i).1 hi)
  have hmem : f ∈ b.fields := List.mem_of_getElem? hf
  have hnone : (done.filter fun c => c.name = f.name) = [] :=
    List.filter_eq_nil_iff.2 fun c hc he => hnew c hc (of_decide_eq_true he)
  have hbrought := h.brought f hmem
  rw [hnone] at hbrought
  exact h.occurs f hmem (List.forall₂_nil_left_iff.1 hbrought)

/-- Whatever calls a builder has had, it holds what those that succeeded have brought in. It builds
nothing when there were none, and otherwise a set with one occurrence for each of them. A call that
fails leaves the builder as it was. A name that no call has brought in yet, though calls with it may
have failed, is introduced with whatever type is given then, if that has a format for the
directive. -/
theorem run_holds_successes (resolve : Resolver) (calls : List Call) (queryName suffix : Text) :
    let b := run resolve .empty calls
    let done := successes resolve .empty calls
    Holds resolve b done ∧
      (b.build queryName suffix = none ↔ done = []) ∧
      (∀ p, b.build queryName suffix = some p →
        p.fields = b.fields ∧ p.occurrenceCount = done.length) ∧
      (∀ (c : Call) e, (add resolve b c.index c.directive).fault? = some e →
        (add resolve b c.index c.directive).builder = b) ∧
      ∀ c : Call, (∀ c' ∈ done, c'.name ≠ c.name) → c.directive.typeName ≠ Directive.wildcard →
        (add resolve b c.index c.directive).result =
          (format resolve c.directive c.directive.typeName).result.map fun spec =>
            b.push ⟨c.name, c.directive.typeName, [⟨c.index, spec⟩]⟩ := by
  intro b done
  have hlegal : Legal resolve [] := fun t ht => by cases ht
  obtain ⟨us, hrun, hdone, hlegal⟩ := run_gather hlegal calls
  rw [List.nil_append] at hrun hlegal
  have hb : b = gather us := hrun
  have hd : done = us.map Taken.call := hdone.symm
  have hholds : Holds resolve b done := by
    rw [hb, hd]
    exact hlegal.holds
  have hempty : b.fields.isEmpty = true ↔ done = [] := by
    rw [hb, hd, List.isEmpty_iff, fields_gather_eq_nil_iff, List.map_eq_nil_iff]
  refine ⟨hholds, ?_, ?_, fun c => keepsOnFault_add resolve b c.index c.directive, ?_⟩
  · rw [← hempty]
    simp [build]
  · intro p hp
    rw [build] at hp
    split at hp
    · cases hp
    · cases hp
      refine ⟨rfl, ?_⟩
      rw [hb, hd, occurrenceCount_gather, List.length_map]
  · intro c hnew htype
    exact result_add_of_new (hholds.position_eq_none hnew) htype

/-- A field that first came with the wildcard, and another one that came with a second type. -/
def interruptedCalls : List Call :=
  [⟨0, ⟨"x", "_", none⟩⟩, ⟨1, ⟨"y", "int", none⟩⟩, ⟨2, ⟨"y", "str", none⟩⟩]

/-- Only the second of the calls has been taken in, and the name of the first is free. -/
theorem run_holds_successes_interrupted :
    let b := run builtin? .empty interruptedCalls
    b.positions.get? "y" = some 0 ∧ b.positions.get? "x" = none ∧
      (add builtin? b 3 ⟨"x", "Point", some "%v"⟩).result =
        .ok (b.push ⟨"x", "Point", [⟨3, "%v"⟩]⟩) := by
  obtain ⟨hholds, _, _, _, hnew⟩ :=
    run_holds_successes builtin? interruptedCalls "XY_QUERY" "Params"
  have hdone : successes builtin? .empty interruptedCalls = [⟨1, ⟨"y", "int", none⟩⟩] := rfl
  have hfree : ∀ c' ∈ successes builtin? .empty interruptedCalls, c'.name ≠ "x" := by
    rw [hdone]
    decide
  exact ⟨(hholds.position_iff _ _).2 (by decide +kernel), hholds.position_eq_none hfree,
    hnew ⟨3, ⟨"x", "Point", some "%v"⟩⟩ hfree (by decide)⟩

end TypedQueries.ParamSet.Builder
