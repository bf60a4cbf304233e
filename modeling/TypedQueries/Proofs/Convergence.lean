import TypedQueries.Proofs.Applying
import TypedQueries.Proofs.Characters
import TypedQueries.Proofs.Planning
import TypedQueries.Proofs.Results
import TypedQueries.Source.Plain

/-!
# Convergence of companions

After a run without failures a companion is there when its files want something, and a second run
creates and deletes nothing: unless the last of several files with the same companion takes back
what an earlier one wanted. Then the companion is made for nothing, and the next run deletes it.
-/

namespace TypedQueries.Companion

/-! ### Emission -/

def Emits (c : Companions) (wanted : List ParamSet) : Prop :=
  ∃ text, emit (c.runtime.name ++ ".") wanted = .ok text

theorem emits_nil (c : Companions) : Emits c [] := ⟨[], rfl⟩

theorem Emits.render {c : Companions} {wanted : List ParamSet} (h : Emits c wanted) :
    ∃ text, render c.package c.runtime wanted = .ok text := by
  obtain ⟨text, htext⟩ := h
  rw [Companion.render, htext]
  exact ⟨_, rfl⟩

theorem emits_of_render {c : Companions} {wanted : List ParamSet} {text : CodedText}
    (h : render c.package c.runtime wanted = .ok text) : Emits c wanted := by
  rw [render] at h
  cases he : emit (c.runtime.name ++ ".") wanted with
  | error e =>
    rw [he] at h
    cases h
  | ok body => exact ⟨body, he⟩

theorem Emits.becomes {c : Companions} {g : Planned} (h : Emits c g.wanted) (t : FileTree) :
    ∃ node outcome, c.becomeIn t g = .ok (node, outcome) := by
  obtain ⟨module, hmodule⟩ := h.render
  obtain ⟨body, hbody⟩ := h
  unfold Companions.becomeIn Companions.become
  rw [hmodule, Companions.body, hbody]
  split
  · dsimp only
    split
    · split <;> exact ⟨_, _, rfl⟩
    · exact ⟨_, _, rfl⟩
  · split <;> exact ⟨_, _, rfl⟩
  · split
    · simp only [bind, Except.bind, mapError_ok]
      cases Text.Utf8.encodeCoded body with
      | error e => exact ⟨_, _, rfl⟩
      | ok bytes =>
        simp only [mapError_ok]
        split
        · split <;> exact ⟨_, _, rfl⟩
        · exact ⟨_, _, rfl⟩
    · exact ⟨_, _, rfl⟩

/-- A companion that was created or updated has classes that can be written. -/
theorem emits_of_becomes {c : Companions} {t : FileTree} {g : Planned} {node : Option Node}
    {outcome : SyncOutcome} (h : c.becomeIn t g = .ok (node, outcome)) (ho : outcome ≠ .failed)
    (haction : g.action ≠ .delete) : Emits c g.wanted := by
  unfold Companions.becomeIn Companions.become at h
  split at h
  · split at h
    · cases h
    · rename_i hmodule
      exact emits_of_render hmodule
  · rename_i hdelete
    exact absurd hdelete haction
  · split at h
    · split at h
      · cases h
      · cases h
        exact absurd rfl ho
      · rename_i hbody
        obtain ⟨text, htext, -⟩ := body_eq_ok_iff.1 hbody
        exact ⟨_, htext⟩
    · cases h
      exact absurd rfl ho

theorem becomeIn_create {c : Companions} {t : FileTree} {g : Planned} (haction : g.action = .create)
    (h : Emits c g.wanted) (hplain : c.IsPlain) (hnode : t.node? g.path = none)
    (hdir : t.isDirectory g.path.parent = true) :
    ∃ node, c.becomeIn t g = .ok (node, .created) := by
  obtain ⟨module, hmodule⟩ := h.render
  obtain ⟨bytes, hbytes⟩ := (encodes_render_iff hmodule).2 hplain
  unfold Companions.becomeIn Companions.become
  rw [haction, hmodule, hnode, hdir]
  simp only [hbytes]
  exact ⟨_, rfl⟩

/-- Nothing is created where the names of the package and the runtime module cannot be written. -/
theorem isPlain_of_created {c : Companions} {t : FileTree} {g : Planned} {node : Option Node}
    (h : c.becomeIn t g = .ok (node, .created)) : c.IsPlain := by
  have haction := (passes_of_become h).action_of_created
  unfold Companions.becomeIn Companions.become at h
  rw [haction] at h
  dsimp only at h
  split at h
  · cases h
  · rename_i hrender
    split at h
    · split at h
      · rename_i hbytes
        exact (encodes_render_iff hrender).1 ⟨_, hbytes⟩
      · cases h
    · cases h

theorem becomeIn_delete {c : Companions} {t : FileTree} {g : Planned} (haction : g.action = .delete)
    (hfile : t.isFile g.path = true) : ∃ node, c.becomeIn t g = .ok (node, .deleted) := by
  obtain ⟨contents, hnode⟩ := FileTree.isFile_iff.1 hfile
  unfold Companions.becomeIn Companions.become
  rw [haction, hnode]
  exact ⟨_, rfl⟩

/-! ### Listings -/

/-- Some companions as they are loaded from a tree; every file at one of the paths is among them. -/
structure IsListing [Source.Release] (t : FileTree) (paths : List Path) (existing : List Existing) :
    Prop where
  loaded : ∀ e ∈ existing, ∃ log, Existing.load t e.path = .ok (e, log)
  complete : ∀ path ∈ paths, t.isFile path = true → path ∈ existing.map Existing.path

section Listing

variable [Source.Release]

theorem load_ok {t : FileTree} {path : Path} {e : Existing} {log : List LogEntry}
    (h : Existing.load t path = .ok (e, log)) :
    t.isFile path = true ∧ e.standing.isPresent = true := by
  unfold Existing.load at h
  obtain ⟨contents, hread, h⟩ := exists_of_bind h
  refine ⟨FileTree.isFile_iff.2 ⟨contents, FileTree.read_eq_ok_iff.1 hread⟩, ?_⟩
  have hpresent : (Standing.ofContents contents).isPresent = true := by
    rw [Standing.ofContents]
    split <;> rfl
  split at h
  · cases h
    rfl
  · cases h
    exact hpresent

theorem exists_load {t : FileTree} {path : Path} (h : t.isFile path = true) :
    ∃ e log, e.path = path ∧ Existing.load t path = .ok (e, log) := by
  obtain ⟨contents, hnode⟩ := FileTree.isFile_iff.1 h
  rw [Existing.load, FileTree.read_eq_ok_iff.2 hnode]
  simp only [bind, Except.bind]
  split
  · exact ⟨_, _, rfl, rfl⟩
  · exact ⟨_, _, rfl, rfl⟩

theorem exists_listing (t : FileTree) (paths : List Path) :
    ∃ existing, IsListing t paths existing ∧ ∀ e ∈ existing, e.path ∈ paths := by
  induction paths with
  | nil => exact ⟨[], ⟨by simp, by simp⟩, by simp⟩
  | cons path paths ih =>
    obtain ⟨existing, hlist, hwithin⟩ := ih
    by_cases hfile : t.isFile path = true
    · obtain ⟨e, log, rfl, hload⟩ := exists_load hfile
      refine ⟨e :: existing, ⟨?_, ?_⟩, ?_⟩
      · intro e' he'
        rcases List.mem_cons.1 he' with rfl | he'
        · exact ⟨log, hload⟩
        · exact hlist.loaded e' he'
      · intro path' hpath' hfile'
        rcases List.mem_cons.1 hpath' with rfl | hpath'
        · exact List.mem_cons_self
        · exact List.mem_cons_of_mem _ (hlist.complete path' hpath' hfile')
      · intro e' he'
        rcases List.mem_cons.1 he' with rfl | he'
        · exact List.mem_cons_self
        · exact List.mem_cons_of_mem _ (hwithin e' he')
    · refine ⟨existing, ⟨hlist.loaded, ?_⟩, fun e he => List.mem_cons_of_mem _ (hwithin e he)⟩
      intro path' hpath' hfile'
      rcases List.mem_cons.1 hpath' with rfl | hpath'
      · exact absurd hfile' hfile
      · exact hlist.complete path' hpath' hfile'

theorem IsListing.isFile {t : FileTree} {paths : List Path} {existing : List Existing}
    (h : IsListing t paths existing) {path : Path} (hpath : path ∈ existing.map Existing.path) :
    t.isFile path = true := by
  obtain ⟨e, he, rfl⟩ := List.mem_map.1 hpath
  obtain ⟨log, hload⟩ := h.loaded e he
  exact (load_ok hload).1

theorem IsListing.isPresent {t : FileTree} {paths : List Path} {existing : List Existing}
    (h : IsListing t paths existing) {e : Existing} (he : e ∈ existing) :
    e.standing.isPresent = true := by
  obtain ⟨log, hload⟩ := h.loaded e he
  exact (load_ok hload).2

/-- Exactly those companions are planned with something there that are listed. -/
theorem IsListing.isPresent_iff {t : FileTree} {paths : List Path} {existing : List Existing}
    (h : IsListing t paths existing) {results : List FileResult} {g : Planned}
    (hg : g ∈ plan existing results) :
    g.standing.isPresent = true ↔ g.path ∈ existing.map Existing.path := by
  obtain ⟨_, _, ⟨e, he, hpath, hstanding⟩ | ⟨hthere, _, hstanding⟩⟩ := of_mem_plan hg
  · rw [hstanding, h.isPresent he, ← hpath]
    exact iff_of_true rfl (List.mem_map_of_mem he)
  · rw [hstanding]
    exact iff_of_false (by decide) hthere

end Listing

/-! ### A run without failures -/

section Run

variable {c : Companions} {t : FileTree} {existing : List Existing} {results : List FileResult}
  {summary : Summary}

theorem becomes_of_mem_plan (hrun : (c.sync t existing results).result = .ok summary)
    (hfailed : summary.failed = 0) {g : Planned} (hg : g ∈ plan existing results) :
    ∃ outcome, outcome ≠ .failed ∧
      c.becomeIn t g = .ok ((c.sync t existing results).tree.node? g.path, outcome) := by
  rw [sync_result] at hrun
  have hn := nodup_plan existing results
  obtain ⟨outcome, hbecome⟩ := (applyFrom_ok hn hrun).1 g hg
  refine ⟨outcome, ?_, by rw [sync_tree]; exact hbecome⟩
  rintro rfl
  have hpos : 0 < summary.failed := (tally_pos_iff hn hrun .failed).2 ⟨g, hg, _, hbecome⟩
  omega

theorem isFile_of_mem_plan (hrun : (c.sync t existing results).result = .ok summary)
    (hfailed : summary.failed = 0) {g : Planned} (hg : g ∈ plan existing results) :
    (c.sync t existing results).tree.isFile g.path = true ↔ g.action ≠ .delete := by
  obtain ⟨outcome, ho, hbecome⟩ := becomes_of_mem_plan hrun hfailed hg
  rw [FileTree.isFile_iff]
  exact (passes_of_become hbecome).isFile_iff ho

/-- A file is there after the run when the last result about it wants something. It is also there
when the last result takes back what an earlier one wanted, unless it was there before. -/
theorem isFile_sync_iff [Source.Release]
    (hlist : IsListing t (results.filterMap destination?) existing)
    (hrun : (c.sync t existing results).result = .ok summary) (hfailed : summary.failed = 0)
    {path : Path} (hpath : path ∈ destinations existing results)
    (hheld : isHeld results path = false) :
    (c.sync t existing results).tree.isFile path = true ↔
      lastWanted results path ≠ [] ∨
        (path ∉ existing.map Existing.path ∧ Overruled results path) := by
  by_cases hthere : path ∈ existing.map Existing.path
  · obtain ⟨e, he, rfl, source, hsettle⟩ := settle_of_present hheld hthere
    have hfile := isFile_of_mem_plan hrun hfailed (mem_plan_of_settle hsettle)
    rw [hfile, Ne, action_eq_delete_iff]
    simp [hlist.isPresent he, hthere]
  · obtain ⟨source, hsettle⟩ := settle_of_absent hheld hthere
    by_cases hnone : NoneWanted results path
    · -- nothing is planned, and the path is as it was
      rw [if_pos hnone] at hsettle
      have hnot : path ∉ (plan existing results).map Planned.path := by
        intro hmem
        obtain ⟨g, hg, rfl⟩ := List.mem_map.1 hmem
        rw [mem_plan.1 hg] at hsettle
        cases hsettle
      have hnode : (c.sync t existing results).tree.node? path = t.node? path := by
        rw [sync_tree]
        exact applyFrom_node?_of_not_mem hnot
      have hdest : path ∈ results.filterMap destination? :=
        (mem_destinations.1 hpath).resolve_left hthere
      have habsent : ¬t.isFile path = true := fun hfile => hthere (hlist.complete path hdest hfile)
      rw [FileTree.isFile, hnode, ← FileTree.isFile]
      simp [habsent, hnone.lastWanted_eq, Overruled, hnone]
    · rw [if_neg hnone] at hsettle
      have hfile := isFile_of_mem_plan hrun hfailed (mem_plan_of_settle hsettle)
      rw [hfile, Ne, action_eq_delete_iff]
      by_cases hwanted : lastWanted results path = []
      · simp [Standing.isPresent, Overruled, hwanted, hnone, hthere]
      · simp [Standing.isPresent, hwanted]

/-- Where the names in a preamble cannot be written, what is taken back was there before the run. -/
theorem mem_existing_of_overruled (hrun : (c.sync t existing results).result = .ok summary)
    (hfailed : summary.failed = 0) (hplain : ¬c.IsPlain) {path : Path}
    (hheld : isHeld results path = false) (hover : Overruled results path) :
    path ∈ existing.map Existing.path := by
  by_contra hthere
  obtain ⟨source, hsettle⟩ := settle_of_absent hheld hthere
  rw [if_neg hover.2] at hsettle
  have hcreate : Planned.action ⟨path, .absent, lastWanted results path, source⟩ = .create :=
    action_eq_create_iff.2 rfl
  obtain ⟨outcome, ho, hbecome⟩ := becomes_of_mem_plan hrun hfailed (mem_plan_of_settle hsettle)
  obtain rfl : outcome = .created := (passes_of_become hbecome).created_of_create ho hcreate
  exact hplain (isPlain_of_created hbecome)

theorem emits_lastWanted (hrun : (c.sync t existing results).result = .ok summary)
    (hfailed : summary.failed = 0) {path : Path} (hheld : isHeld results path = false) :
    Emits c (lastWanted results path) := by
  by_cases hwanted : lastWanted results path = []
  · rw [hwanted]
    exact emits_nil c
  have hplanned : ∃ standing source,
      settle existing results path = some ⟨path, standing, lastWanted results path, source⟩ := by
    by_cases hthere : path ∈ existing.map Existing.path
    · obtain ⟨e, _, _, source, hsettle⟩ := settle_of_present hheld hthere
      exact ⟨_, _, hsettle⟩
    · obtain ⟨source, hsettle⟩ := settle_of_absent hheld hthere
      rw [if_neg fun hnone => hwanted hnone.lastWanted_eq] at hsettle
      exact ⟨_, _, hsettle⟩
  obtain ⟨standing, source, hsettle⟩ := hplanned
  obtain ⟨outcome, ho, hbecome⟩ :=
    becomes_of_mem_plan hrun hfailed (mem_plan_of_settle hsettle)
  refine emits_of_becomes hbecome ho fun hdelete => hwanted ?_
  exact (action_eq_delete_iff.1 hdelete).2

/-- The parameter sets that a plan settles on for a companion; none when nothing is planned. -/
def settledWanted (existing : List Existing) (results : List FileResult) (path : Path) :
    List ParamSet :=
  ((settle existing results path).map Planned.wanted).getD []

theorem settledWanted_eq {path : Path} (hheld : isHeld results path = false) :
    settledWanted existing results path = lastWanted results path := by
  by_cases hthere : path ∈ existing.map Existing.path
  · obtain ⟨e, _, _, source, hsettle⟩ := settle_of_present hheld hthere
    rw [settledWanted, hsettle]
    rfl
  · obtain ⟨source, hsettle⟩ := settle_of_absent hheld hthere
    rw [settledWanted, hsettle]
    by_cases hnone : NoneWanted results path
    · rw [if_pos hnone, hnone.lastWanted_eq]
      rfl
    · rw [if_neg hnone]
      rfl

end Run

/-! ### The next run -/

section NextRun

variable {c : Companions} {t : FileTree} {existing existing' : List Existing}
  {results : List FileResult} {summary summary' : Summary}

/-- After a run without failures, the next one has in its plan only companions that the first one
decided on. -/
theorem mem_destinations_of_mem_plan
    (hwithin : ∀ e ∈ existing', e.path ∈ destinations existing results) {g : Planned}
    (hg : g ∈ plan existing' results) : g.path ∈ destinations existing results := by
  rcases mem_destinations.1 (mem_destinations_of_settle (mem_plan.1 hg)) with hthere | hdest
  · obtain ⟨e, he, hpath⟩ := List.mem_map.1 hthere
    exact hpath ▸ hwithin e he
  · exact mem_destinations.2 (.inr hdest)

theorem exists_summary_next (hrun : (c.sync t existing results).result = .ok summary)
    (hfailed : summary.failed = 0) (existing' : List Existing) (t' : FileTree) :
    ∃ summary', (c.sync t' existing' results).result = .ok summary' := by
  rw [sync_result]
  refine exists_summary (nodup_plan existing' results) fun g hg => ?_
  obtain ⟨hheld, hwanted, _⟩ := of_mem_plan hg
  have hemits : Emits c g.wanted := hwanted ▸ emits_lastWanted hrun hfailed hheld
  obtain ⟨node, outcome, hbecome⟩ := hemits.becomes t'
  exact ⟨_, hbecome⟩

variable [Source.Release]

/-- The next run updates a companion unless the last result about it takes back what an earlier
one wanted. -/
theorem updates_iff_not_overruled (hlist : IsListing t (results.filterMap destination?) existing)
    (hrun : (c.sync t existing results).result = .ok summary) (hfailed : summary.failed = 0)
    (hagain : IsListing (c.sync t existing results).tree (destinations existing results) existing')
    (hwithin : ∀ e ∈ existing', e.path ∈ destinations existing results) {g : Planned}
    (hg : g ∈ plan existing' results) : g.action = .update ↔ ¬Overruled results g.path := by
  have hpath := mem_destinations_of_mem_plan hwithin hg
  obtain ⟨hheld, hwanted, hcases⟩ := of_mem_plan hg
  have hfile := isFile_sync_iff hlist hrun hfailed hpath hheld
  rw [action_eq_update_iff, hagain.isPresent_iff hg, hwanted]
  by_cases hlast : lastWanted results g.path = []
  · -- had no result wanted anything, the companion would not be there
    have hover : Overruled results g.path := by
      refine ⟨hlast, fun hnone => ?_⟩
      rcases hcases with ⟨e, he, hep, _⟩ | ⟨_, hsome, _⟩
      · have hthere : g.path ∈ existing'.map Existing.path := hep ▸ List.mem_map_of_mem he
        rcases hfile.1 (hagain.isFile hthere) with hne | ⟨_, hover⟩
        · exact hne hlast
        · exact hover.2 hnone
      · exact hsome hnone
    exact iff_of_false (fun hupdate => hupdate.2 hlast) fun hno => hno hover
  · have hthere := hagain.complete g.path hpath (hfile.2 (.inl hlast))
    exact iff_of_true ⟨hthere, hlast⟩ fun hover => hlast hover.1

theorem deleted_of_overruled {t' : FileTree} {paths : List Path}
    (hagain : IsListing t' paths existing') {path : Path} (hheld : isHeld results path = false)
    (hover : Overruled results path) (hthere : path ∈ existing'.map Existing.path) :
    ∃ g ∈ plan existing' results, ∃ node, c.becomeIn t' g = .ok (node, .deleted) := by
  obtain ⟨e, he, rfl, source, hsettle⟩ := settle_of_present hheld hthere
  have hdelete : Planned.action ⟨e.path, e.standing, lastWanted results e.path, source⟩ =
      .delete := action_eq_delete_iff.2 ⟨hagain.isPresent he, hover.1⟩
  obtain ⟨node, hbecome⟩ := becomeIn_delete (c := c) hdelete (hagain.isFile hthere)
  exact ⟨_, mem_plan_of_settle hsettle, node, hbecome⟩

/-- One that was there before the first run is deleted by it, and created by the next one, which
goes by the earlier results, if its preamble can be written. -/
theorem created_of_overruled (hplain : c.IsPlain) (hrooted : t.Rooted)
    (hlist : IsListing t (results.filterMap destination?) existing)
    (hrun : (c.sync t existing results).result = .ok summary) (hfailed : summary.failed = 0)
    {path : Path} (hheld : isHeld results path = false) (hover : Overruled results path)
    (hbefore : path ∈ existing.map Existing.path) (hafter : path ∉ existing'.map Existing.path) :
    ∃ g ∈ plan existing' results, ∃ node,
      c.becomeIn (c.sync t existing results).tree g = .ok (node, .created) := by
  have hnode : (c.sync t existing results).tree.node? path = none := by
    obtain ⟨e, he, _, source, hsettle⟩ := settle_of_present hheld hbefore
    have hdelete : Planned.action ⟨path, e.standing, lastWanted results path, source⟩ =
        .delete := action_eq_delete_iff.2 ⟨hlist.isPresent he, hover.1⟩
    obtain ⟨outcome, ho, hbecome⟩ :=
      becomes_of_mem_plan hrun hfailed (mem_plan_of_settle hsettle)
    exact (passes_of_become hbecome).eq_none ho hdelete
  have hdir : (c.sync t existing results).tree.isDirectory path.parent = true := by
    rw [sync_isDirectory]
    exact hrooted path (hlist.isFile hbefore)
  obtain ⟨source, hsettle⟩ := settle_of_absent hheld hafter
  rw [if_neg hover.2] at hsettle
  have hcreate : Planned.action ⟨path, .absent, lastWanted results path, source⟩ = .create :=
    action_eq_create_iff.2 rfl
  have hemits : Emits c (lastWanted results path) := emits_lastWanted hrun hfailed hheld
  obtain ⟨node, hbecome⟩ := becomeIn_create hcreate hemits hplain hnode hdir
  exact ⟨_, mem_plan_of_settle hsettle, node, hbecome⟩

/-- A companion whose last result takes back what an earlier one wanted is created or deleted by
the next run. -/
theorem created_or_deleted_of_overruled (hplain : c.IsPlain) (hrooted : t.Rooted)
    (hlist : IsListing t (results.filterMap destination?) existing)
    (hrun : (c.sync t existing results).result = .ok summary) (hfailed : summary.failed = 0)
    (hagain : IsListing (c.sync t existing results).tree (destinations existing results) existing')
    {path : Path} (hheld : isHeld results path = false) (hover : Overruled results path) :
    ∃ g ∈ plan existing' results, ∃ node outcome,
      c.becomeIn (c.sync t existing results).tree g = .ok (node, outcome) ∧
        (outcome = .created ∨ outcome = .deleted) := by
  by_cases hafter : path ∈ existing'.map Existing.path
  · obtain ⟨g, hg, node, hbecome⟩ := deleted_of_overruled hagain hheld hover hafter
    exact ⟨g, hg, node, _, hbecome, .inr rfl⟩
  · have hpath : path ∈ destinations existing results :=
      mem_destinations.2 (.inr (mem_of_overruled hover))
    have hfile := isFile_sync_iff hlist hrun hfailed hpath hheld
    have hbefore : path ∈ existing.map Existing.path := by
      by_contra hno
      exact hafter (hagain.complete path hpath (hfile.2 (.inr ⟨hno, hover⟩)))
    obtain ⟨g, hg, node, hbecome⟩ :=
      created_of_overruled hplain hrooted hlist hrun hfailed hheld hover hbefore hafter
    exact ⟨g, hg, node, _, hbecome, .inl rfl⟩

/-- The next run creates and deletes nothing exactly when no last result takes back what an earlier
one wanted, or nothing can be created at all. -/
theorem next_run_quiet_iff (hrooted : t.Rooted)
    (hlist : IsListing t (results.filterMap destination?) existing)
    (hrun : (c.sync t existing results).result = .ok summary) (hfailed : summary.failed = 0)
    (hagain : IsListing (c.sync t existing results).tree (destinations existing results) existing')
    (hwithin : ∀ e ∈ existing', e.path ∈ destinations existing results)
    (hnext : (c.sync (c.sync t existing results).tree existing' results).result = .ok summary') :
    (summary'.created = 0 ∧ summary'.deleted = 0) ↔
      (c.IsPlain → ∀ path, isHeld results path = false → ¬Overruled results path) := by
  rw [sync_result] at hnext
  have htally := tally_pos_iff (nodup_plan existing' results) hnext
  constructor
  · rintro ⟨hcreated, hdeleted⟩ hplain path hheld hover
    obtain ⟨g, hg, node, outcome, hbecome, rfl | rfl⟩ :=
      created_or_deleted_of_overruled hplain hrooted hlist hrun hfailed hagain hheld hover
    · have hpos : 0 < summary'.created := (htally .created).2 ⟨g, hg, node, hbecome⟩
      omega
    · have hpos : 0 < summary'.deleted := (htally .deleted).2 ⟨g, hg, node, hbecome⟩
      omega
  · intro hquiet
    have hover : ∀ g ∈ plan existing' results, g.action ≠ .update → Overruled results g.path :=
      fun g hg hother => by_contra fun hno => hother
        ((updates_iff_not_overruled hlist hrun hfailed hagain hwithin hg).2 hno)
    constructor
    · refine Nat.eq_zero_of_not_pos fun hpos => ?_
      obtain ⟨g, hg, node, hbecome⟩ := (htally .created).1 hpos
      have haction := (passes_of_become hbecome).action_of_created
      exact hquiet (isPlain_of_created hbecome) g.path (of_mem_plan hg).1
        (hover g hg (by simp [haction]))
    · refine Nat.eq_zero_of_not_pos fun hpos => ?_
      obtain ⟨g, hg, node, hbecome⟩ := (htally .deleted).1 hpos
      have haction := (passes_of_become hbecome).action_of_deleted
      have hheld := (of_mem_plan hg).1
      have hoverruled := hover g hg (by simp [haction])
      by_cases hplain : c.IsPlain
      · exact hquiet hplain g.path hheld hoverruled
      · -- the first run has deleted the companion, and so it is not there any more
        have hbefore := mem_existing_of_overruled hrun hfailed hplain hheld hoverruled
        have hthere := (hagain.isPresent_iff hg).1 (action_eq_delete_iff.1 haction).1
        have hfile := isFile_sync_iff hlist hrun hfailed
          (mem_destinations_of_mem_plan hwithin hg) hheld
        rcases hfile.1 (hagain.isFile hthere) with hne | ⟨hnot, -⟩
        · exact hne hoverruled.1
        · exact hnot hbefore

/-- Existence converges in one run exactly when no last result takes back what an earlier one
wanted. After a run without failures, a companion none of whose files were left unanalysed is there
just in case the plan settled on parameter sets for it, and the next run, with the companions loaded
again and with the same results, creates and deletes nothing: both hold unless there are several
results about some companion of which the last wants nothing and another wants something, and the
names in a preamble can be written. -/
theorem sync_converges_iff (hrooted : t.Rooted)
    (hlist : IsListing t (results.filterMap destination?) existing)
    (hrun : (c.sync t existing results).result = .ok summary) (hfailed : summary.failed = 0)
    (hagain : IsListing (c.sync t existing results).tree (destinations existing results) existing')
    (hwithin : ∀ e ∈ existing', e.path ∈ destinations existing results) :
    ((∀ path ∈ destinations existing results, isHeld results path = false →
        ((c.sync t existing results).tree.isFile path = true ↔
          settledWanted existing results path ≠ [])) ∧
      ∃ summary',
        (c.sync (c.sync t existing results).tree existing' results).result = .ok summary' ∧
        summary'.created = 0 ∧ summary'.deleted = 0) ↔
      (c.IsPlain → ∀ path, isHeld results path = false → ¬Overruled results path) := by
  constructor
  · rintro ⟨_, summary', hnext, hquiet⟩
    exact (next_run_quiet_iff hrooted hlist hrun hfailed hagain hwithin hnext).1 hquiet
  · intro hquiet
    constructor
    · intro path hpath hheld
      rw [isFile_sync_iff hlist hrun hfailed hpath hheld, settledWanted_eq hheld]
      refine or_iff_left fun ⟨habsent, hover⟩ => ?_
      by_cases hplain : c.IsPlain
      · exact hquiet hplain path hheld hover
      · exact habsent (mem_existing_of_overruled hrun hfailed hplain hheld hover)
    · obtain ⟨summary', hnext⟩ :=
        exists_summary_next hrun hfailed existing' (c.sync t existing results).tree
      exact ⟨summary', hnext,
        (next_run_quiet_iff hrooted hlist hrun hfailed hagain hwithin hnext).2 hquiet⟩

end NextRun

/-! ### Two files with one companion -/

def pairTree : FileTree :=
  ⟨[(⟨.root, []⟩, .directory), (⟨.root, ["app"]⟩, .directory),
    (⟨.root, ["app", "a.py"]⟩, .file []), (⟨.root, ["app", "a_query.py"]⟩, .file [])]⟩

/-- The parameter set that the first of the files wants. -/
def pairSet : ParamSet := ⟨"AQueryParams", [⟨"id", "int", [⟨0, "%d"⟩]⟩]⟩

/-- The results for the files, given what the second of them wants. -/
def pairResults (wanted : List ParamSet) : List FileResult :=
  [⟨⟨.root, ["app", "a.py"]⟩, "a", true, [pairSet], []⟩,
    ⟨⟨.root, ["app", "a_query.py"]⟩, "a_query", true, wanted, []⟩]

def pairCompanions : Companions := ⟨"app", ⟨"querygen", "interpolate", false⟩⟩

theorem isPlain_pairCompanions : pairCompanions.IsPlain :=
  ⟨⟨_, rfl⟩, ⟨_, rfl⟩, ⟨_, rfl⟩⟩

theorem pairTree_rooted : pairTree.Rooted := FileTree.Rooted.of_entries (by decide)

section

open scoped Source.Plain

/-- When both files want the parameter set, the companion is made once and for all. -/
theorem sync_converges_pair :
    let after := (pairCompanions.sync pairTree [] (pairResults [pairSet])).tree
    ∃ existing', IsListing after (destinations [] (pairResults [pairSet])) existing' ∧
      ∃ summary', (pairCompanions.sync after existing' (pairResults [pairSet])).result =
        .ok summary' ∧ summary'.created = 0 ∧ summary'.deleted = 0 := by
  intro after
  obtain ⟨existing', hagain, hwithin⟩ :=
    exists_listing after (destinations [] (pairResults [pairSet]))
  have hlist : IsListing pairTree ((pairResults [pairSet]).filterMap destination?) [] :=
    ⟨by simp, by decide +kernel⟩
  have hrun : (pairCompanions.sync pairTree [] (pairResults [pairSet])).result =
      .ok ⟨1, 0, 0, 0, 0⟩ := by decide +kernel
  have hall : ∀ r ∈ pairResults [pairSet], r.wanted ≠ [] := by decide
  refine ⟨existing', hagain,
    ((sync_converges_iff pairTree_rooted hlist hrun rfl hagain hwithin).2 ?_).2⟩
  rintro - path _ ⟨hlast, hsome⟩
  refine hsome fun r hr => ?_
  rw [lastWanted] at hlast
  cases hl : (resultsFor (pairResults [pairSet]) path).getLast? with
  | none =>
    rw [List.getLast?_eq_none_iff.1 hl] at hr
    cases hr
  | some last =>
    rw [hl] at hlast
    exact absurd hlast (hall last (mem_resultsFor.1 (List.mem_of_getLast? hl)).1)

/-- When the second file wants nothing, the companion is made for nothing, and the next run does
not leave it at that. -/
theorem sync_does_not_converge_pair :
    let run := pairCompanions.sync pairTree [] (pairResults [])
    let path : Path := ⟨.root, ["app", "a_query_gen.py"]⟩
    IsListing pairTree ((pairResults []).filterMap destination?) [] ∧
      run.result = .ok ⟨1, 0, 0, 0, 0⟩ ∧
      path ∈ destinations [] (pairResults []) ∧ isHeld (pairResults []) path = false ∧
      settledWanted [] (pairResults []) path = [] ∧ run.tree.isFile path = true ∧
      ∃ existing', IsListing run.tree (destinations [] (pairResults [])) existing' ∧
        ∃ summary', (pairCompanions.sync run.tree existing' (pairResults [])).result =
          .ok summary' ∧ ¬(summary'.created = 0 ∧ summary'.deleted = 0) := by
  intro run path
  obtain ⟨existing', hagain, hwithin⟩ := exists_listing run.tree (destinations [] (pairResults []))
  have hlist : IsListing pairTree ((pairResults []).filterMap destination?) [] :=
    ⟨by simp, by decide +kernel⟩
  have hrun : run.result = .ok ⟨1, 0, 0, 0, 0⟩ := by decide +kernel
  have hheld : isHeld (pairResults []) path = false := by decide +kernel
  have hover : Overruled (pairResults []) path := by
    constructor
    · decide +kernel
    · decide +kernel
  obtain ⟨summary', hnext⟩ := exists_summary_next hrun rfl existing' run.tree
  refine ⟨hlist, hrun, by decide +kernel, hheld, by decide +kernel, by decide +kernel, existing',
    hagain, summary', hnext, fun hquiet => ?_⟩
  exact (next_run_quiet_iff pairTree_rooted hlist hrun rfl hagain hwithin hnext).1 hquiet
    isPlain_pairCompanions path hheld hover

end

end TypedQueries.Companion
