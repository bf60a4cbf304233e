import Mathlib.Data.List.Basic
import TypedQueries.Companion.Sync
import TypedQueries.Proofs.Results

/-!
# What applying a plan does

What becomes of a companion depends on what stands at its path alone, and on whether there is a
directory for it; nothing else is touched. So the entries of a plan do not get in each other's way,
and a run does to each path what its entry does to the tree as it was at first.
-/

namespace TypedQueries

/-! ### Operations on files -/

namespace FileTree

theorem node?_erase_self (t : FileTree) (p : Path) : (t.erase p).node? p = none := by
  rw [node?, erase, List.lookup_eq_none_iff]
  intro e he
  have hne : e.1 ≠ p := by simpa using (List.mem_filter.1 he).2
  simpa using hne.symm

theorem isFile_iff {t : FileTree} {p : Path} :
    t.isFile p = true ↔ ∃ contents, t.node? p = some (.file contents) := by
  rw [isFile]
  split
  · rename_i contents h
    simp [h]
  · rename_i hno
    simp only [Bool.false_eq_true, false_iff]
    rintro ⟨contents, h⟩
    exact hno contents h

theorem mem_entries_of_node? {t : FileTree} {p : Path} {n : Node} (h : t.node? p = some n) :
    (p, n) ∈ t.entries := by
  obtain ⟨before, after, hentries, _⟩ := List.lookup_eq_some_iff.1 h
  simp [hentries]

theorem exists_node?_iff {t : FileTree} {p : Path} :
    (∃ n, t.node? p = some n) ↔ p ∈ t.entries.map (·.1) := by
  constructor
  · rintro ⟨n, hn⟩
    exact List.mem_map_of_mem (mem_entries_of_node? hn)
  · intro hmem
    obtain ⟨e, he, rfl⟩ := List.mem_map.1 hmem
    apply Option.isSome_iff_exists.1
    exact List.lookup_isSome_iff.2 ⟨e, he, beq_self_eq_true e.1⟩

def Rooted (t : FileTree) : Prop := ∀ path, t.isFile path = true → t.isDirectory path.parent = true

theorem Rooted.of_entries {t : FileTree}
    (h : ∀ e ∈ t.entries, t.isDirectory e.1.parent = true) : t.Rooted := by
  intro path hfile
  obtain ⟨contents, hnode⟩ := isFile_iff.1 hfile
  exact h (path, .file contents) (mem_entries_of_node? hnode)

theorem read_eq_ok_iff {t : FileTree} {p : Path} {contents : Bytes} :
    t.read p = .ok contents ↔ t.node? p = some (.file contents) := by
  rw [read]
  split
  · rename_i h
    simp [h]
  · rename_i h
    simp [h]
  · rename_i h
    simp [h]

theorem exists_read_error {t : FileTree} {p : Path}
    (h : ¬∃ contents, t.node? p = some (.file contents)) : ∃ e, t.read p = .error e := by
  rw [read]
  split
  · rename_i contents hnode
    exact absurd ⟨contents, hnode⟩ h
  · exact ⟨_, rfl⟩
  · exact ⟨_, rfl⟩

theorem create_of_free {t : FileTree} {p : Path} (hnode : t.node? p = none)
    (hdir : t.isDirectory p.parent = true) (contents : Bytes) :
    t.create p contents = .ok (t.put p (.file contents)) := by
  simp [create, contains, hnode, hdir]

theorem exists_create_error {t : FileTree} {p : Path}
    (h : ¬(t.node? p = none ∧ t.isDirectory p.parent = true)) (contents : Bytes) :
    ∃ e, t.create p contents = .error e := by
  rw [create]
  split
  · exact ⟨_, rfl⟩
  · rename_i hthere
    split
    · rename_i hdir
      exact absurd ⟨by simpa [contains] using hthere, hdir⟩ h
    · exact ⟨_, rfl⟩

theorem overwrite_of_file {t : FileTree} {p : Path} {contents : Bytes}
    (h : t.node? p = some (.file contents)) (contents' : Bytes) :
    t.overwrite p contents' = .ok (t.put p (.file contents')) := by
  rw [overwrite, read_eq_ok_iff.2 h]
  rfl

theorem delete_of_file {t : FileTree} {p : Path} {contents : Bytes}
    (h : t.node? p = some (.file contents)) : t.delete p = .ok (t.erase p) := by
  rw [delete, read_eq_ok_iff.2 h]
  rfl

end FileTree

namespace Companion

/-! ### One companion -/

theorem action_eq_create_iff {g : Planned} :
    g.action = .create ↔ g.standing.isPresent = false := by
  rw [Planned.action]
  cases g.standing.isPresent <;> cases g.wanted <;> simp

theorem action_eq_update_iff {g : Planned} :
    g.action = .update ↔ g.standing.isPresent = true ∧ g.wanted ≠ [] := by
  rw [Planned.action]
  cases g.standing.isPresent <;> cases g.wanted <;> simp

theorem action_eq_delete_iff {g : Planned} :
    g.action = .delete ↔ g.standing.isPresent = true ∧ g.wanted = [] := by
  rw [Planned.action]
  cases g.standing.isPresent <;> cases g.wanted <;> simp

/-- What is at the path of a planned companion after the plan has been applied to it, and how that
counts, given what is there before and whether there is a directory for it. -/
def Companions.become (c : Companions) (node : Option Node) (inDirectory : Bool) (g : Planned) :
    Except EmissionError (Option Node × SyncOutcome) :=
  match g.action with
  | .create =>
    match render c.package c.runtime g.wanted with
    | .error e => .error e
    | .ok text =>
      match node, inDirectory with
      | none, true =>
        match Text.Utf8.encodeCoded text with
        | .ok contents => .ok (some (.file contents), .created)
        | .error _ => .ok (some (.file []), .failed)
      | n, _ => .ok (n, .failed)
  | .delete =>
    match node with
    | some (.file _) => .ok (none, .deleted)
    | n => .ok (n, .failed)
  | .update =>
    match g.standing with
    | .module statements =>
      match c.body g.wanted with
      | .error (.emission e) => .error e
      | .error _ => .ok (node, .failed)
      | .ok body =>
        match node with
        | some (.file contents) =>
          let n := preambleBytes statements contents
          if contents.drop n = body then .ok (some (.file contents), .unchanged)
          else .ok (some (.file (contents.take n ++ body)), .updated)
        | n => .ok (n, .failed)
    | _ => .ok (node, .failed)

/-- What `become` says of a companion in a tree. -/
def Companions.becomeIn (c : Companions) (t : FileTree) (g : Planned) :
    Except EmissionError (Option Node × SyncOutcome) :=
  c.become (t.node? g.path) (t.isDirectory g.path.parent) g

/-- The result of doing what is to be done about a companion is what becomes of it, and the tree is
the one before but for its path. -/
structure Companions.Carries (c : Companions) (t : FileTree) (g : Planned)
    (r : FileTree × Except SyncError SyncOutcome) : Prop where
  other : ∀ path, path ≠ g.path → r.1.node? path = t.node? path
  own : match r.2 with
    | .ok outcome => c.becomeIn t g = .ok (r.1.node? g.path, outcome)
    | .error (.emission e) => r.1 = t ∧ c.becomeIn t g = .error e
    | .error _ => c.becomeIn t g = .ok (r.1.node? g.path, .failed)

theorem carries_create {c : Companions} {g : Planned} (haction : g.action = .create)
    (t : FileTree) : c.Carries t g (c.perform t g) := by
  rw [Companions.perform, haction]
  simp only [Companions.create]
  cases hrender : render c.package c.runtime g.wanted with
  | error e =>
    refine ⟨fun _ _ => rfl, rfl, ?_⟩
    simp only [Companions.becomeIn, Companions.become, haction, hrender]
  | ok text =>
    by_cases hfree : t.node? g.path = none ∧ t.isDirectory g.path.parent = true
    · obtain ⟨hnode, hdir⟩ := hfree
      simp only [FileTree.create_of_free hnode hdir]
      cases hbytes : Text.Utf8.encodeCoded text with
      | error e =>
        refine ⟨fun path hne => FileTree.node?_put_of_ne t _ hne, ?_⟩
        simp only [Except.map, Companions.becomeIn, Companions.become, haction, hrender, hnode,
          hdir, hbytes, FileTree.node?_put_self]
      | ok contents =>
        refine ⟨fun path hne => ?_, ?_⟩
        · exact (FileTree.node?_put_of_ne _ _ hne).trans (FileTree.node?_put_of_ne t _ hne)
        · simp only [Except.map, Companions.becomeIn, Companions.become, haction, hrender, hnode,
            hdir, hbytes, FileTree.node?_put_self]
    · obtain ⟨e, he⟩ := FileTree.exists_create_error hfree []
      simp only [he]
      refine ⟨fun _ _ => rfl, ?_⟩
      simp only [Except.map, Companions.becomeIn, Companions.become, haction, hrender]
      split
      · rename_i hnode hdir
        exact absurd ⟨hnode, hdir⟩ hfree
      · rfl

theorem carries_delete {c : Companions} {g : Planned} (haction : g.action = .delete)
    (t : FileTree) : c.Carries t g (c.perform t g) := by
  rw [Companions.perform, haction]
  by_cases hfile : ∃ contents, t.node? g.path = some (.file contents)
  · obtain ⟨contents, hnode⟩ := hfile
    simp only [FileTree.delete_of_file hnode]
    refine ⟨fun path hne => FileTree.node?_erase_of_ne t hne, ?_⟩
    simp [Companions.becomeIn, Companions.become, haction, hnode, FileTree.node?_erase_self]
  · obtain ⟨e, he⟩ := FileTree.exists_read_error hfile
    simp only [FileTree.delete, he, bind, Except.bind]
    refine ⟨fun _ _ => rfl, ?_⟩
    simp only [Companions.becomeIn, Companions.become, haction]
    split
    · rename_i contents hnode
      exact absurd ⟨contents, hnode⟩ hfile
    · rfl

theorem carries_update {c : Companions} {g : Planned} (haction : g.action = .update)
    (t : FileTree) : c.Carries t g (c.perform t g) := by
  rw [Companions.perform, haction]
  simp only [Companions.update]
  cases hstanding : g.standing with
  | absent =>
    exact ⟨fun _ _ => rfl, by simp [Companions.becomeIn, Companions.become, haction, hstanding]⟩
  | malformed =>
    exact ⟨fun _ _ => rfl, by simp [Companions.becomeIn, Companions.become, haction, hstanding]⟩
  | module statements =>
    cases hbody : c.body g.wanted with
    | error e =>
      refine ⟨fun _ _ => rfl, ?_⟩
      simp only [bind, Except.bind, Companions.becomeIn, Companions.become, haction, hstanding,
        hbody]
      cases e <;> simp
    | ok body =>
      by_cases hfile : ∃ contents, t.node? g.path = some (.file contents)
      · obtain ⟨contents, hnode⟩ := hfile
        have hread := FileTree.read_eq_ok_iff.2 hnode
        simp only [hread, FileTree.overwrite_of_file hnode, mapError_ok, bind, Except.bind]
        by_cases hsame : contents.drop (preambleBytes statements contents) = body
        · rw [if_pos hsame]
          refine ⟨fun _ _ => rfl, ?_⟩
          simp only [Companions.becomeIn, Companions.become, haction, hstanding, hbody, hnode,
            hsame, if_true]
        · rw [if_neg hsame]
          refine ⟨fun path hne => FileTree.node?_put_of_ne t _ hne, ?_⟩
          simp only [Companions.becomeIn, Companions.become, haction, hstanding, hbody, hnode,
            hsame, if_false, FileTree.node?_put_self]
      · obtain ⟨e, he⟩ := FileTree.exists_read_error hfile
        simp only [he, mapError_error, bind, Except.bind]
        refine ⟨fun _ _ => rfl, ?_⟩
        simp only [Companions.becomeIn, Companions.become, haction, hstanding, hbody]
        split
        · rename_i contents hnode
          exact absurd ⟨contents, hnode⟩ hfile
        · rfl

theorem carries_perform (c : Companions) (t : FileTree) (g : Planned) :
    c.Carries t g (c.perform t g) := by
  cases haction : g.action with
  | create => exact carries_create haction t
  | update => exact carries_update haction t
  | delete => exact carries_delete haction t

/-- What a companion can come to. One that fails stays as it is, save that a new one whose text
cannot be encoded is left empty; each action has its own effect on what stands at the path. -/
inductive Passes (g : Planned) : Option Node → Option Node → SyncOutcome → Prop where
  | failed (node : Option Node) : Passes g node node .failed
  | emptied (h : g.action = .create) : Passes g none (some (.file [])) .failed
  | created (h : g.action = .create) (contents : Bytes) :
      Passes g none (some (.file contents)) .created
  | deleted (h : g.action = .delete) (contents : Bytes) :
      Passes g (some (.file contents)) none .deleted
  | unchanged (h : g.action = .update) (contents : Bytes) :
      Passes g (some (.file contents)) (some (.file contents)) .unchanged
  | updated (h : g.action = .update) (contents contents' : Bytes) :
      Passes g (some (.file contents)) (some (.file contents')) .updated

theorem passes_of_become {c : Companions} {node node' : Option Node} {inDirectory : Bool}
    {g : Planned} {outcome : SyncOutcome}
    (h : c.become node inDirectory g = .ok (node', outcome)) : Passes g node node' outcome := by
  unfold Companions.become at h
  split at h
  · rename_i haction
    split at h
    · cases h
    · split at h
      · split at h
        · cases h
          exact .created haction _
        · cases h
          exact .emptied haction
      · cases h
        exact .failed node
  · rename_i haction
    split at h
    · cases h
      exact .deleted haction _
    · cases h
      exact .failed node
  · rename_i haction
    split at h
    · split at h
      · cases h
      · cases h
        exact .failed node
      · split at h
        · dsimp only at h
          split at h
          · cases h
            exact .unchanged haction _
          · cases h
            exact .updated haction _ _
        · cases h
          exact .failed node
    · cases h
      exact .failed node

theorem Passes.isFile_iff {g : Planned} {node node' : Option Node} {outcome : SyncOutcome}
    (h : Passes g node node' outcome) (ho : outcome ≠ .failed) :
    (∃ contents, node' = some (.file contents)) ↔ g.action ≠ .delete := by
  cases h with
  | failed => exact absurd rfl ho
  | emptied => exact absurd rfl ho
  | created h => simp [h]
  | deleted h => simp [h]
  | unchanged h => simp [h]
  | updated h => simp [h]

theorem Passes.action_of_created {g : Planned} {node node' : Option Node}
    (h : Passes g node node' .created) : g.action = .create := by
  cases h
  assumption

theorem Passes.action_of_deleted {g : Planned} {node node' : Option Node}
    (h : Passes g node node' .deleted) : g.action = .delete := by
  cases h
  assumption

theorem Passes.created_of_create {g : Planned} {node node' : Option Node} {outcome : SyncOutcome}
    (h : Passes g node node' outcome) (ho : outcome ≠ .failed) (haction : g.action = .create) :
    outcome = .created := by
  cases h with
  | failed => exact absurd rfl ho
  | emptied => exact absurd rfl ho
  | created => rfl
  | deleted h => cases haction.symm.trans h
  | unchanged h => cases haction.symm.trans h
  | updated h => cases haction.symm.trans h

theorem Passes.eq_none {g : Planned} {node node' : Option Node} {outcome : SyncOutcome}
    (h : Passes g node node' outcome) (ho : outcome ≠ .failed) (haction : g.action = .delete) :
    node' = none := by
  cases h with
  | failed => exact absurd rfl ho
  | emptied => exact absurd rfl ho
  | deleted => rfl
  | created h => cases haction.symm.trans h
  | unchanged h => cases haction.symm.trans h
  | updated h => cases haction.symm.trans h

/-- A companion that fails stays as it is when it is to be changed or deleted, or when there is
something at its path. -/
theorem Passes.eq_of_failed {g : Planned} {node node' : Option Node}
    (h : Passes g node node' .failed) (hstays : g.action ≠ .create ∨ node ≠ none) :
    node' = node := by
  cases h with
  | failed => rfl
  | emptied h => exact absurd rfl (hstays.resolve_left (absurd h ·))

theorem Passes.directory_iff {g : Planned} {node node' : Option Node} {outcome : SyncOutcome}
    (h : Passes g node node' outcome) : node' = some .directory ↔ node = some .directory := by
  cases h <;> simp

/-! ### Runs -/

def Summary.tally (s : Summary) : SyncOutcome → Nat
  | .created => s.created
  | .updated => s.updated
  | .unchanged => s.unchanged
  | .deleted => s.deleted
  | .failed => s.failed

theorem tally_zero (outcome : SyncOutcome) : Summary.zero.tally outcome = 0 := by
  cases outcome <;> rfl

theorem tally_count (s : Summary) (outcome outcome' : SyncOutcome) :
    (s.count outcome').tally outcome =
      s.tally outcome + if outcome' = outcome then 1 else 0 := by
  cases outcome <;> cases outcome' <;> rfl

def Companions.outcome? (c : Companions) (t : FileTree) (g : Planned) : Option SyncOutcome :=
  match c.becomeIn t g with
  | .ok (_, outcome) => some outcome
  | .error _ => none

/-- What becomes of a companion is the same in trees that agree on its path and on which paths are
directories. -/
theorem becomeIn_congr {t t' : FileTree} {g : Planned} (hnode : t'.node? g.path = t.node? g.path)
    (hdir : ∀ path, t'.isDirectory path = t.isDirectory path) (c : Companions) :
    c.becomeIn t' g = c.becomeIn t g := by
  rw [Companions.becomeIn, Companions.becomeIn, hnode, hdir]

/-- One step of a run: it ends early, or goes on with a tree that has changed at most at the path
of the entry, where there is what becomes of it. -/
theorem applyFrom_cons (c : Companions) (s : SyncState) (g : Planned) (gs : List Planned) :
    (∃ e, c.becomeIn s.tree g = .error e ∧
      c.applyFrom s (g :: gs) = ⟨s.tree, s.log ++ [g.announcement], .error e⟩) ∨
    ∃ s' outcome, c.becomeIn s.tree g = .ok (s'.tree.node? g.path, outcome) ∧
      (∀ path, path ≠ g.path → s'.tree.node? path = s.tree.node? path) ∧
      s'.summary = s.summary.count outcome ∧ c.applyFrom s (g :: gs) = c.applyFrom s' gs := by
  have hperform := carries_perform c s.tree g
  rw [Companions.applyFrom]
  generalize c.perform s.tree g = r at hperform
  obtain ⟨t', result⟩ := r
  obtain ⟨hother, hown⟩ := hperform
  cases result with
  | ok outcome => exact .inr ⟨_, _, hown, hother, rfl, rfl⟩
  | error e =>
    have hfailed (h : c.becomeIn s.tree g = .ok (t'.node? g.path, .failed)) :
        ∃ s' outcome, c.becomeIn s.tree g = .ok (s'.tree.node? g.path, outcome) ∧
          (∀ path, path ≠ g.path → s'.tree.node? path = s.tree.node? path) ∧
          s'.summary = s.summary.count outcome ∧
          c.applyFrom ⟨t', s.summary.count .failed, s.log ++ [g.announcement] ++ [g.failure e]⟩ gs =
            c.applyFrom s' gs :=
      ⟨⟨t', _, _⟩, .failed, h, hother, rfl, rfl⟩
    cases e with
    | emission e =>
      obtain ⟨rfl, herror⟩ := hown
      exact .inl ⟨e, herror, rfl⟩
    | file e => exact .inr (hfailed hown)
    | malformed path => exact .inr (hfailed hown)
    | encoding e => exact .inr (hfailed hown)

theorem isDirectory_of_becomes {c : Companions} {t t' : FileTree} {g : Planned}
    {outcome : SyncOutcome} (hbecome : c.becomeIn t g = .ok (t'.node? g.path, outcome))
    (hother : ∀ path, path ≠ g.path → t'.node? path = t.node? path) (path : Path) :
    t'.isDirectory path = t.isDirectory path := by
  rw [FileTree.isDirectory, FileTree.isDirectory, decide_eq_decide]
  by_cases hpath : path = g.path
  · rw [hpath]
    exact (passes_of_become hbecome).directory_iff
  · rw [hother path hpath]

theorem applyFrom_node?_of_not_mem {c : Companions} {s : SyncState} {gs : List Planned}
    {path : Path} (h : path ∉ gs.map Planned.path) :
    (c.applyFrom s gs).tree.node? path = s.tree.node? path := by
  induction gs generalizing s with
  | nil => rfl
  | cons g gs ih =>
    rw [List.map_cons, List.mem_cons, not_or] at h
    rcases applyFrom_cons c s g gs with ⟨e, _, hrun⟩ | ⟨s', _, _, hother, _, hrun⟩
    · rw [hrun]
    · rw [hrun, ih h.2, hother path h.1]

theorem applyFrom_isDirectory (c : Companions) (s : SyncState) (gs : List Planned) (path : Path) :
    (c.applyFrom s gs).tree.isDirectory path = s.tree.isDirectory path := by
  induction gs generalizing s with
  | nil => rfl
  | cons g gs ih =>
    rcases applyFrom_cons c s g gs with ⟨e, _, hrun⟩ | ⟨s', _, hbecome, hother, _, hrun⟩
    · rw [hrun]
    · rw [hrun, ih, isDirectory_of_becomes hbecome hother]

/-- The entries after one that bears another path fare as if it had not been there. -/
theorem becomeIn_of_becomes {c : Companions} {t t' : FileTree} {g : Planned}
    {outcome : SyncOutcome} (hbecome : c.becomeIn t g = .ok (t'.node? g.path, outcome))
    (hother : ∀ path, path ≠ g.path → t'.node? path = t.node? path) {gs : List Planned}
    (h : g.path ∉ gs.map Planned.path) : ∀ g' ∈ gs, c.becomeIn t' g' = c.becomeIn t g' := by
  intro g' hg'
  refine becomeIn_congr (hother g'.path fun he => h ?_) (isDirectory_of_becomes hbecome hother) c
  rw [← he]
  exact List.mem_map_of_mem hg'

/-- A run that does not end early does to each of its paths what its entry does to the tree as it
was at first, and counts each entry once. -/
theorem applyFrom_ok {c : Companions} {s : SyncState} {gs : List Planned}
    (hn : (gs.map Planned.path).Nodup) {summary : Summary}
    (h : (c.applyFrom s gs).result = .ok summary) :
    (∀ g ∈ gs, ∃ outcome,
      c.becomeIn s.tree g = .ok ((c.applyFrom s gs).tree.node? g.path, outcome)) ∧
    ∀ outcome, summary.tally outcome =
      s.summary.tally outcome + gs.countP fun g => c.outcome? s.tree g = some outcome := by
  induction gs generalizing s with
  | nil =>
    cases h
    exact ⟨by simp, by simp⟩
  | cons g gs ih =>
    rw [List.map_cons, List.nodup_cons] at hn
    rcases applyFrom_cons c s g gs with ⟨e, _, hrun⟩ | ⟨s', first, hbecome, hother, hcount, hrun⟩
    · rw [hrun] at h
      cases h
    · rw [hrun] at h ⊢
      have hlater := becomeIn_of_becomes hbecome hother hn.1
      obtain ⟨hnodes, htally⟩ := ih hn.2 h
      constructor
      · intro g' hg'
        rcases List.mem_cons.1 hg' with rfl | hg'
        · refine ⟨first, ?_⟩
          rw [applyFrom_node?_of_not_mem hn.1]
          exact hbecome
        · rw [← hlater g' hg']
          exact hnodes g' hg'
      · intro outcome
        have hfirst : c.outcome? s.tree g = some first := by rw [Companions.outcome?, hbecome]
        have hrest : (gs.countP fun g' => c.outcome? s'.tree g' = some outcome) =
            gs.countP fun g' => c.outcome? s.tree g' = some outcome := by
          refine List.countP_congr fun g' hg' => ?_
          rw [Companions.outcome?, Companions.outcome?, hlater g' hg']
        rw [htally, hrest, hcount, tally_count, List.countP_cons, hfirst]
        simp only [Option.some.injEq, decide_eq_true_eq]
        omega

theorem exists_summary {c : Companions} {s : SyncState} {gs : List Planned}
    (hn : (gs.map Planned.path).Nodup) (h : ∀ g ∈ gs, ∃ r, c.becomeIn s.tree g = .ok r) :
    ∃ summary, (c.applyFrom s gs).result = .ok summary := by
  induction gs generalizing s with
  | nil => exact ⟨s.summary, rfl⟩
  | cons g gs ih =>
    rw [List.map_cons, List.nodup_cons] at hn
    rcases applyFrom_cons c s g gs with ⟨e, herror, _⟩ | ⟨s', first, hbecome, hother, _, hrun⟩
    · obtain ⟨r, hr⟩ := h g (by simp)
      rw [hr] at herror
      cases herror
    · rw [hrun]
      refine ih hn.2 fun g' hg' => ?_
      rw [becomeIn_of_becomes hbecome hother hn.1 g' hg']
      exact h g' (List.mem_cons_of_mem _ hg')

/-! ### Whole plans -/

theorem sync_tree (c : Companions) (t : FileTree) (existing : List Existing)
    (results : List FileResult) :
    (c.sync t existing results).tree = (c.applyPlan t (plan existing results)).tree := by
  rw [Companions.sync]
  split <;> rfl

theorem sync_result (c : Companions) (t : FileTree) (existing : List Existing)
    (results : List FileResult) :
    (c.sync t existing results).result = (c.applyPlan t (plan existing results)).result := by
  rw [Companions.sync]
  split <;> rfl

theorem sync_isDirectory (c : Companions) (t : FileTree) (existing : List Existing)
    (results : List FileResult) (path : Path) :
    (c.sync t existing results).tree.isDirectory path = t.isDirectory path := by
  rw [sync_tree]
  exact applyFrom_isDirectory c _ _ path

theorem tally_pos_iff {c : Companions} {t : FileTree} {gs : List Planned}
    (hn : (gs.map Planned.path).Nodup) {summary : Summary}
    (h : (c.applyPlan t gs).result = .ok summary) (outcome : SyncOutcome) :
    0 < summary.tally outcome ↔ ∃ g ∈ gs, ∃ node, c.becomeIn t g = .ok (node, outcome) := by
  rw [(applyFrom_ok hn h).2 outcome, tally_zero, Nat.zero_add, List.countP_pos_iff]
  refine exists_congr fun g => and_congr_right fun _ => ?_
  rw [decide_eq_true_iff, Companions.outcome?]
  cases c.becomeIn t g with
  | error e => simp
  | ok r =>
    obtain ⟨node, o⟩ := r
    simp

end Companion

end TypedQueries
