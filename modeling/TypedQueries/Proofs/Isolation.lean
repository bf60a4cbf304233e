import TypedQueries.Proofs.Completion

/-!
# Failures that stay where they are

A plan whose parameter sets have dense occurrences is carried out to its end, whatever is in the
tree. Each entry is counted once, and counts as it would in the tree as it was at first. One that
fails leaves its path as it is, save that a new companion whose text cannot be encoded is left
empty: it is opened before. What an entry leaves at its path depends on what was there and, if it is
to be created, on whether there is a directory for it, and on no other entry.
-/

namespace TypedQueries.Companion

/-- The indices of the occurrences are their positions, each of them once. -/
def Dense (p : ParamSet) : Prop :=
  ((occurrences p).map Prod.fst).Perm ((List.range p.occurrenceCount).map Int.ofNat)

/-- Entries for different paths, with sets that have dense occurrences. -/
structure Proper (gs : List Planned) : Prop where
  distinct : (gs.map Planned.path).Nodup
  dense : ∀ g ∈ gs, ∀ p ∈ g.wanted, Dense p

/-- How an entry is counted by a run that has come to the tree `t`. -/
def Companions.counted (c : Companions) (t : FileTree) (g : Planned) : SyncOutcome :=
  match (c.perform t g).2 with
  | .ok outcome => outcome
  | .error _ => .failed

/-- Something in the tree makes an entry fail: a companion is to be created where something is or
where there is no directory, or one that is to be changed or deleted is no file or, if changed, not
known as a module. -/
def Planned.Impeded (g : Planned) (t : FileTree) : Prop :=
  match g.action with
  | .create => ¬(t.node? g.path = none ∧ t.isDirectory g.path.parent = true)
  | .update => (∀ statements, g.standing ≠ .module statements) ∨ t.isFile g.path = false
  | .delete => t.isFile g.path = false

/-- What an entry would write cannot be encoded, for there is half a surrogate pair in a name that
stands in it. -/
def Companions.Unencodable (c : Companions) (g : Planned) : Prop :=
  match g.action with
  | .create => ¬c.IsPlain
  | .update => ¬CodedText.IsText c.runtime.name
  | .delete => False

/-! ### Dense occurrences -/

theorem slots_of_dense {p : ParamSet} (h : Dense p) : ∃ ss, slots p = .ok ss := by
  have hrange : ∀ o ∈ occurrences p, ∃ i : Nat,
      i < (List.replicate p.occurrenceCount (([], []) : Slot)).length ∧ o.1 = i := by
    intro o ho
    have hindex := h.mem_iff.1 (List.mem_map_of_mem ho)
    obtain ⟨i, hi, heq⟩ := List.mem_map.1 hindex
    exact ⟨i, by simpa using hi, heq.symm⟩
  have hdistinct : ((occurrences p).map Prod.fst).Nodup :=
    h.nodup_iff.2 (List.nodup_range.map fun _ _ heq => Int.ofNat.inj heq)
  obtain ⟨filled, hfill, _⟩ := fill_ok hrange hdistinct
  exact ⟨filled, hfill⟩

theorem Proper.emits {gs : List Planned} (h : Proper gs) {g : Planned} (hg : g ∈ gs)
    (c : Companions) : Emits c g.wanted :=
  emits_of_slots fun p hp => slots_of_dense (h.dense g hg p hp)

/-! ### One entry -/

section Entry

variable {c : Companions} {t t' : FileTree} {g : Planned}

theorem becomeIn_counted {r : Option Node × SyncOutcome} (h : c.becomeIn t g = .ok r) :
    c.becomeIn t g = .ok (r.1, c.counted t g) := by
  have hown := (carries_perform c t g).own
  obtain ⟨node, outcome⟩ := r
  unfold Companions.counted
  cases hresult : (c.perform t g).2 with
  | ok outcome' =>
    rw [hresult] at hown
    cases h.symm.trans hown
    exact h
  | error e =>
    rw [hresult] at hown
    have hfailed (hbecome : c.becomeIn t g = .ok ((c.perform t g).1.node? g.path, .failed)) :
        c.becomeIn t g = .ok (node, .failed) := by
      cases h.symm.trans hbecome
      exact h
    cases e with
    | emission e => cases h.symm.trans hown.2
    | file e => exact hfailed hown
    | malformed path => exact hfailed hown
    | encoding e => exact hfailed hown

theorem isFile_of_file {contents : Bytes} (h : t.node? g.path = some (.file contents)) :
    t.isFile g.path = true := FileTree.isFile_iff.2 ⟨contents, h⟩

theorem isFile_of_no_file (h : ∀ contents, t.node? g.path = some (.file contents) → False) :
    t.isFile g.path = false :=
  Bool.eq_false_iff.2 fun hfile => (FileTree.isFile_iff.1 hfile).elim h

/-- A companion that is to be created fails exactly when something stands in its way or its text
cannot be encoded. Only the latter leaves something behind. -/
theorem create_failed_iff {node : Option Node} {outcome : SyncOutcome}
    (h : c.becomeIn t g = .ok (node, outcome)) (haction : g.action = .create) :
    (outcome = .failed ↔ g.Impeded t ∨ c.Unencodable g) ∧
      (¬g.Impeded t → c.Unencodable g → node = some (.file [])) := by
  unfold Companions.becomeIn Companions.become at h
  unfold Planned.Impeded Companions.Unencodable
  simp only [haction] at h ⊢
  split at h
  · cases h
  · rename_i text hrender
    split at h
    · rename_i hnode hdir
      have hfree : ¬¬(t.node? g.path = none ∧ t.isDirectory g.path.parent = true) :=
        not_not_intro ⟨hnode, hdir⟩
      split at h
      · rename_i contents hbytes
        have hplain : ¬¬c.IsPlain :=
          not_not_intro ((encodes_render_iff hrender).1 ⟨contents, hbytes⟩)
        cases h
        exact ⟨iff_of_false nofun (not_or_intro hfree hplain), fun _ hno => absurd hno hplain⟩
      · rename_i e hbytes
        have hplain : ¬c.IsPlain := fun hplain => by
          obtain ⟨contents, hcontents⟩ := (encodes_render_iff hrender).2 hplain
          cases hbytes.symm.trans hcontents
        cases h
        exact ⟨iff_of_true rfl (.inr hplain), fun _ _ => rfl⟩
    · rename_i hno
      have himpeded : ¬(t.node? g.path = none ∧ t.isDirectory g.path.parent = true) :=
        fun hfree => hno hfree.1 hfree.2
      cases h
      exact ⟨iff_of_true rfl (.inl himpeded), fun hfree => absurd himpeded hfree⟩

theorem delete_failed_iff {node : Option Node} {outcome : SyncOutcome}
    (h : c.becomeIn t g = .ok (node, outcome)) (haction : g.action = .delete) :
    outcome = .failed ↔ g.Impeded t ∨ c.Unencodable g := by
  unfold Companions.becomeIn Companions.become at h
  unfold Planned.Impeded Companions.Unencodable
  simp only [haction, or_false] at h ⊢
  split at h
  · rename_i contents hnode
    cases h
    simp [isFile_of_file hnode]
  · rename_i hno
    cases h
    exact iff_of_true rfl (isFile_of_no_file hno)

theorem update_failed_iff {node : Option Node} {outcome : SyncOutcome}
    (h : c.becomeIn t g = .ok (node, outcome)) (haction : g.action = .update)
    (hemits : Emits c g.wanted) : outcome = .failed ↔ g.Impeded t ∨ c.Unencodable g := by
  obtain ⟨text, htext⟩ := hemits
  have hencodes : (∃ bytes, c.body g.wanted = .ok bytes) ↔ CodedText.IsText c.runtime.name :=
    (exists_body_iff htext).trans (or_iff_right (action_eq_update_iff.1 haction).2)
  unfold Companions.becomeIn Companions.become at h
  unfold Planned.Impeded Companions.Unencodable
  simp only [haction] at h ⊢
  split at h
  · rename_i statements hstanding
    split at h
    · cases h
    · rename_i e hbody
      have hname : ¬CodedText.IsText c.runtime.name := fun hname => by
        obtain ⟨bytes, hbytes⟩ := hencodes.2 hname
        cases hbody.symm.trans hbytes
      cases h
      exact iff_of_true rfl (.inr hname)
    · rename_i body hbody
      have hname := hencodes.1 ⟨body, hbody⟩
      split at h
      · rename_i contents hnode
        have hfile := isFile_of_file hnode
        split at h <;> cases h <;> simp [hstanding, hfile, hname]
      · rename_i hno
        cases h
        exact iff_of_true rfl (.inl (.inr (isFile_of_no_file hno)))
  · rename_i hno
    cases h
    exact iff_of_true rfl (.inl (.inl hno))

/-- An entry fails exactly when something stands in its way or what it would write cannot be
encoded. -/
theorem failed_iff {node : Option Node} {outcome : SyncOutcome}
    (h : c.becomeIn t g = .ok (node, outcome)) (hemits : Emits c g.wanted) :
    outcome = .failed ↔ g.Impeded t ∨ c.Unencodable g := by
  cases haction : g.action with
  | create => exact (create_failed_iff h haction).1
  | update => exact update_failed_iff h haction hemits
  | delete => exact delete_failed_iff h haction

/-- A companion that is to be created and that nothing in the tree keeps from it is at a path where
nothing is; an entry that fails otherwise leaves its path as it is. -/
theorem eq_of_failed {node : Option Node} (h : c.becomeIn t g = .ok (node, .failed))
    (hstays : g.action = .create → g.Impeded t) : node = t.node? g.path := by
  by_cases haction : g.action = .create
  · have himpeded := hstays haction
    unfold Companions.becomeIn Companions.become at h
    unfold Planned.Impeded at himpeded
    simp only [haction] at h himpeded
    split at h
    · cases h
    · split at h
      · rename_i hnode hdir
        exact absurd ⟨hnode, hdir⟩ himpeded
      · cases h
        rfl
  · exact (passes_of_become h).eq_of_failed (.inl haction)

theorem counted_congr {r : Option Node × SyncOutcome} (h : c.becomeIn t g = .ok r)
    (hsame : c.becomeIn t' g = c.becomeIn t g) : c.counted t' g = c.counted t g := by
  have hcounted := becomeIn_counted (hsame.trans h)
  rw [hsame, becomeIn_counted h] at hcounted
  exact (congrArg Prod.snd (Except.ok.inj hcounted)).symm

/-- Only a companion that is to be created needs a directory for it. -/
theorem becomeIn_of_agree (hnode : t'.node? g.path = t.node? g.path)
    (hdir : g.action = .create → t'.isDirectory g.path.parent = t.isDirectory g.path.parent) :
    c.becomeIn t' g = c.becomeIn t g := by
  unfold Companions.becomeIn
  rw [hnode]
  cases haction : g.action with
  | create => rw [hdir haction]
  | update => simp only [Companions.become, haction]
  | delete => simp only [Companions.become, haction]

end Entry

/-! ### Runs -/

section Run

variable {c : Companions} {gs : List Planned}

theorem Proper.becomes (h : Proper gs) (c : Companions) (t : FileTree) {g : Planned}
    (hg : g ∈ gs) : ∃ r, c.becomeIn t g = .ok r := by
  obtain ⟨node, outcome, hbecome⟩ := (h.emits hg c).becomes t
  exact ⟨_, hbecome⟩

theorem Proper.exists_summary (h : Proper gs) (c : Companions) (t : FileTree) :
    ∃ summary, (c.applyPlan t gs).result = .ok summary :=
  Companion.exists_summary h.distinct fun _ hg => h.becomes c t hg

/-- A run leaves at the path of an entry what the entry makes of the tree as it was at first. -/
theorem Proper.becomeIn_run (h : Proper gs) (c : Companions) (t : FileTree) {g : Planned}
    (hg : g ∈ gs) :
    c.becomeIn t g = .ok ((c.applyPlan t gs).tree.node? g.path, c.counted t g) := by
  obtain ⟨summary, hrun⟩ := h.exists_summary c t
  obtain ⟨outcome, hbecome⟩ := (applyFrom_ok h.distinct hrun).1 g hg
  exact becomeIn_counted hbecome

theorem Proper.tally (h : Proper gs) {t : FileTree} {summary : Summary}
    (hrun : (c.applyPlan t gs).result = .ok summary) (outcome : SyncOutcome) :
    summary.tally outcome = gs.countP fun g => c.counted t g = outcome := by
  rw [(applyFrom_ok h.distinct hrun).2 outcome, tally_zero, Nat.zero_add]
  refine List.countP_congr fun g hg => ?_
  rw [Companions.outcome?, h.becomeIn_run c t hg]
  simp

theorem length_eq_countP {α : Type} (f : α → SyncOutcome) (l : List α) :
    l.countP (f · = .created) + l.countP (f · = .updated) + l.countP (f · = .unchanged) +
      l.countP (f · = .deleted) + l.countP (f · = .failed) = l.length := by
  induction l with
  | nil => rfl
  | cons a l ih =>
    simp only [List.countP_cons, List.length_cons]
    cases f a <;> simp <;> omega

/-- The entries before another one do not change how that one counts. -/
theorem Proper.counted_run {before after : List Planned} {g : Planned}
    (h : Proper (before ++ g :: after)) (c : Companions) (t : FileTree) :
    c.counted (c.applyPlan t before).tree g = c.counted t g := by
  have hbefore : g.path ∉ before.map Planned.path := by
    have hdistinct := h.distinct
    rw [List.map_append, List.map_cons, List.nodup_append] at hdistinct
    exact fun hmem => hdistinct.2.2 _ hmem _ List.mem_cons_self rfl
  obtain ⟨r, hr⟩ := h.becomes c t (g := g) (by simp)
  -- the entries before have changed neither what is at the path nor which paths are directories
  refine counted_congr hr (becomeIn_congr ?_ (applyFrom_isDirectory c _ before) c)
  exact applyFrom_node?_of_not_mem hbefore

end Run

/-- What a run over the tree `t` comes to, with the summary it ends with. -/
structure Isolated (c : Companions) (t : FileTree) (gs : List Planned) (summary : Summary) :
    Prop where
  total : summary.created + summary.updated + summary.unchanged + summary.deleted +
    summary.failed = gs.length
  tally : ∀ outcome, summary.tally outcome = gs.countP fun g => c.counted t g = outcome
  /-- The entries before another one do not change how that one counts. -/
  counted : ∀ before g after, gs = before ++ g :: after →
    c.counted (c.applyPlan t before).tree g = c.counted t g
  outside : ∀ path, path ∉ gs.map Planned.path →
    (c.applyPlan t gs).tree.node? path = t.node? path
  failed : ∀ g ∈ gs, c.counted t g = .failed ↔ g.Impeded t ∨ c.Unencodable g
  kept : ∀ g ∈ gs, c.counted t g = .failed → (g.action = .create → g.Impeded t) →
    (c.applyPlan t gs).tree.node? g.path = t.node? g.path
  emptied : ∀ g ∈ gs, g.action = .create → ¬g.Impeded t → c.Unencodable g →
    (c.applyPlan t gs).tree.node? g.path = some (.file [])
  /-- What is left at a path is the same after any other run with its entry, if it starts with the
  same there and, for a companion that is to be created, with a directory for it or without one as
  this run does. -/
  own : ∀ g ∈ gs, ∀ (t' : FileTree) (gs' : List Planned), Proper gs' → g ∈ gs' →
    t'.node? g.path = t.node? g.path →
    (g.action = .create → t'.isDirectory g.path.parent = t.isDirectory g.path.parent) →
    (c.applyPlan t' gs').tree.node? g.path = (c.applyPlan t gs).tree.node? g.path

/-- A plan with different paths and dense occurrences is carried out to its end over any tree, and
no entry gets in the way of another: the summary counts each entry once, paths without an entry
stay as they are, and so does the path of an entry that fails, unless it is a new companion that
fails for its text alone. -/
theorem applyPlan_isolated {gs : List Planned} (h : Proper gs) (c : Companions) (t : FileTree) :
    ∃ summary, (c.applyPlan t gs).result = .ok summary ∧ Isolated c t gs summary := by
  obtain ⟨summary, hrun⟩ := h.exists_summary c t
  have htally := h.tally hrun
  have hbecomes : ∀ g ∈ gs, c.becomeIn t g =
      .ok ((c.applyPlan t gs).tree.node? g.path, c.counted t g) := fun g hg => h.becomeIn_run c t hg
  refine ⟨summary, hrun, ?_, htally, ?_, ?_, ?_, ?_, ?_, ?_⟩
  · have htotal := length_eq_countP (c.counted t) gs
    simp only [← htally] at htotal
    exact htotal
  · rintro before g after rfl
    exact h.counted_run c t
  · exact fun path hpath => applyFrom_node?_of_not_mem hpath
  · exact fun g hg => failed_iff (hbecomes g hg) (h.emits hg c)
  · intro g hg hfailed hstays
    have hbecome := hbecomes g hg
    rw [hfailed] at hbecome
    exact eq_of_failed hbecome hstays
  · exact fun g hg haction => (create_failed_iff (hbecomes g hg) haction).2
  · intro g hg t' gs' h' hg' hnode hdir
    have hbecome := h'.becomeIn_run c t' hg'
    rw [becomeIn_of_agree hnode hdir, hbecomes g hg] at hbecome
    exact (congrArg Prod.fst (Except.ok.inj hbecome)).symm

def appCompanions (name : CodedText) : Companions :=
  ⟨("app" : Text), ⟨("querygen" : Text), name, false⟩⟩

def appDirectory : Path := ⟨.root, ["app"]⟩

def oneField : ParamSet := ⟨"AQueryParams", [⟨"id", "int", [⟨0, "%d"⟩]⟩]⟩

def fresh : Planned := ⟨appDirectory.child "a_query_gen.py", .absent, [oneField], none⟩

def doomed : Planned := ⟨appDirectory.child "b_query_gen.py", .malformed, [], none⟩

def stale : Planned := ⟨appDirectory.child "c_query_gen.py", .module [], [oneField], none⟩

/-- A directory for the companions, with another directory in the way of one of them. -/
def obstructed : FileTree :=
  ⟨[(⟨.root, []⟩, .directory), (appDirectory, .directory), (doomed.path, .directory)]⟩

theorem dense_oneField : Dense oneField := by
  unfold Dense
  decide

theorem proper_fresh : Proper [fresh] where
  distinct := by decide
  dense := by simp [fresh, dense_oneField]

theorem proper_three : Proper [fresh, doomed, stale] where
  distinct := by decide
  dense := by simp [fresh, doomed, stale, dense_oneField]

/-- The companion that is not there and the directory that is in the way keep neither each other nor
the new companion from what becomes of it. -/
theorem applyPlan_isolated_obstructed :
    Proper [fresh, doomed, stale] ∧
      ∃ summary, ((appCompanions ("interpolate" : Text)).applyPlan obstructed
          [fresh, doomed, stale]).result = .ok summary ∧
        Isolated (appCompanions ("interpolate" : Text)) obstructed [fresh, doomed, stale] summary ∧
        summary.created = 1 ∧ summary.failed = 2 ∧
        ((appCompanions ("interpolate" : Text)).applyPlan obstructed
          [fresh, doomed, stale]).tree.node? doomed.path = some .directory := by
  obtain ⟨summary, hrun, hisolated⟩ :=
    applyPlan_isolated proper_three (appCompanions ("interpolate" : Text)) obstructed
  have hdoomed : (appCompanions ("interpolate" : Text)).counted obstructed doomed = .failed := by
    decide
  refine ⟨proper_three, summary, hrun, hisolated, ?_, ?_, ?_⟩
  · exact (hisolated.tally .created).trans (by decide +kernel)
  · exact (hisolated.tally .failed).trans (by decide +kernel)
  · rw [hisolated.kept doomed (by simp) hdoomed nofun]
    decide

/-- A new companion whose text has half a surrogate pair in it fails, and an empty file is left at
its path, where nothing was. -/
theorem failed_create_leaves_empty :
    Proper [fresh] ∧ obstructed.node? fresh.path = none ∧
      ((appCompanions [.half 0]).applyPlan obstructed [fresh]).result =
        .ok ⟨0, 0, 0, 0, 1⟩ ∧
      ((appCompanions [.half 0]).applyPlan obstructed [fresh]).tree.node? fresh.path =
        some (.file []) :=
  ⟨proper_fresh, by decide, by decide +kernel, by decide +kernel⟩

end TypedQueries.Companion
