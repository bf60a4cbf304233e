import TypedQueries.Proofs.Selecting

/-!
# What runs over packages have in common

A run over a package writes companions that lie in its directory, and makes no directory. So two
trees of which one comes from the other by runs over packages differ at most in companions of some
directories. A run over any other package cannot tell them apart: of what lies outside of its
directory it asks only which paths are directories and whether there are initial files.
-/

namespace TypedQueries

open Companion

/-! ### Parts of a tree -/

namespace FileTree

/-- The entries of a tree at the paths with some property. -/
def restrict (t : FileTree) (keep : Path → Bool) : List (Path × Node) :=
  t.entries.filter fun e => keep e.1

variable {t t' : FileTree} {keep keep' : Path → Bool} {p : Path}

theorem restrict_filter_ne (h : keep p = false) :
    (t.entries.filter fun e => e.1 ≠ p).filter (fun e => keep e.1) = t.restrict keep := by
  unfold restrict
  rw [List.filter_filter]
  apply List.filter_congr
  intro e _
  by_cases he : e.1 = p
  · simp [he, h]
  · simp [he]

theorem restrict_put (h : keep p = false) (n : Node) :
    (t.put p n).restrict keep = t.restrict keep := by
  unfold restrict put
  rw [List.filter_cons_of_neg (by simp [h])]
  exact restrict_filter_ne h

theorem restrict_erase (h : keep p = false) : (t.erase p).restrict keep = t.restrict keep :=
  restrict_filter_ne h

theorem restrict_of_imp (h : t'.restrict keep = t.restrict keep)
    (himp : ∀ p, keep' p = true → keep p = true) : t'.restrict keep' = t.restrict keep' := by
  have hpart : ∀ u : FileTree, u.restrict keep' = (u.restrict keep).filter fun e => keep' e.1 := by
    intro u
    unfold restrict
    rw [List.filter_filter]
    apply List.filter_congr
    intro e _
    cases hkeep : keep' e.1 with
    | false => rfl
    | true => rw [himp e.1 hkeep, Bool.and_self]
  rw [hpart t', h, ← hpart t]

theorem node?_of_restrict (h : t'.restrict keep = t.restrict keep) (hp : keep p = true) :
    t'.node? p = t.node? p := by
  have hpart : ∀ u : FileTree, (u.restrict keep).lookup p = u.node? p := by
    intro u
    unfold restrict node?
    induction u.entries with
    | nil => rfl
    | cons e entries ih =>
      by_cases he : p = e.1
      · subst he
        rw [List.filter_cons_of_pos (by exact hp), List.lookup_cons, List.lookup_cons]
        simp
      · have hb : (p == e.1) = false := beq_false_of_ne he
        rw [List.lookup_cons, hb, ← ih, List.filter_cons]
        split
        · rw [List.lookup_cons, hb]
        · rfl
  rw [← hpart t', h, hpart t]

/-- The paths of trees with the same part, filtered by a property that only paths of the part
have. -/
theorem filter_paths_of_restrict (h : t'.restrict keep = t.restrict keep) {select : Path → Bool}
    (himp : ∀ p, select p = true → keep p = true) :
    (t'.entries.map (·.1)).filter select = (t.entries.map (·.1)).filter select := by
  have hpart : ∀ u : FileTree, (u.entries.map (·.1)).filter select =
      ((u.restrict select).map (·.1)) := by
    intro u
    unfold restrict
    rw [List.filter_map]
    rfl
  rw [hpart t', restrict_of_imp h himp, ← hpart t]

theorem create_eq_ok {contents : Bytes} (h : t.create p contents = .ok t') :
    t' = t.put p (.file contents) := by
  unfold create at h
  split at h
  · cases h
  · split at h
    · cases h
      rfl
    · cases h

theorem overwrite_eq_ok {contents : Bytes} (h : t.overwrite p contents = .ok t') :
    t' = t.put p (.file contents) := by
  unfold overwrite at h
  obtain ⟨_, _, h⟩ := exists_of_bind h
  cases h
  rfl

theorem delete_eq_ok (h : t.delete p = .ok t') : t' = t.erase p := by
  unfold delete at h
  obtain ⟨_, _, h⟩ := exists_of_bind h
  cases h
  rfl

end FileTree

/-! ### What bringing companions up to date leaves alone -/

namespace Companion

variable {c : Companions} {t t' : FileTree} {keep : Path → Bool}

theorem restrict_create {path : Path} (hkeep : keep path = false) (wanted : List ParamSet) :
    (c.create t path wanted).1.restrict keep = t.restrict keep := by
  unfold Companions.create
  split
  · rfl
  · split
    · rfl
    · rename_i opened hopened
      have hopen : opened.restrict keep = t.restrict keep := by
        rw [FileTree.create_eq_ok hopened]
        exact FileTree.restrict_put hkeep _
      split
      · exact hopen
      · exact (FileTree.restrict_put hkeep _).trans hopen

theorem restrict_update {path : Path} {standing : Standing} {wanted : List ParamSet}
    (hkeep : keep path = false) (h : c.update t path standing wanted = .ok (some t')) :
    t'.restrict keep = t.restrict keep := by
  unfold Companions.update at h
  split at h
  · obtain ⟨body, _, h⟩ := exists_of_bind h
    obtain ⟨contents, _, h⟩ := exists_of_bind h
    dsimp only at h
    split at h
    · cases h
    · obtain ⟨u, hwrite, h⟩ := exists_of_bind h
      cases h
      rw [FileTree.overwrite_eq_ok (eq_ok_of_mapError hwrite)]
      exact FileTree.restrict_put hkeep _
  · cases h

/-- What is done about a companion changes no entry of the tree but that at its path. -/
theorem restrict_perform {g : Planned} (hkeep : keep g.path = false) :
    (c.perform t g).1.restrict keep = t.restrict keep := by
  unfold Companions.perform
  split
  · exact restrict_create hkeep g.wanted
  · split
    · rename_i hdelete
      rw [FileTree.delete_eq_ok hdelete]
      exact FileTree.restrict_erase hkeep
    · rfl
  · split
    · rename_i hupdate
      exact restrict_update hkeep hupdate
    · rfl
    · rfl

theorem restrict_applyFrom {gs : List Planned} (hkeep : ∀ g ∈ gs, keep g.path = false)
    (s : SyncState) : (c.applyFrom s gs).tree.restrict keep = s.tree.restrict keep := by
  induction gs generalizing s with
  | nil => rfl
  | cons g gs ih =>
    have hrest : ∀ g' ∈ gs, keep g'.path = false :=
      fun g' hg' => hkeep g' (List.mem_cons_of_mem g hg')
    have hfirst : (c.perform s.tree g).1.restrict keep = s.tree.restrict keep :=
      restrict_perform (hkeep g List.mem_cons_self)
    unfold Companions.applyFrom
    dsimp only
    split
    · rename_i hperform
      rw [ih hrest]
      rwa [hperform] at hfirst
    · rename_i hperform
      rwa [hperform] at hfirst
    · rename_i hperform
      rw [ih hrest]
      rwa [hperform] at hfirst

theorem restrict_sync {existing : List Existing} {results : List FileResult}
    (hkeep : ∀ path ∈ destinations existing results, keep path = false) (c : Companions)
    (t : FileTree) : (c.sync t existing results).tree.restrict keep = t.restrict keep := by
  rw [sync_tree]
  apply restrict_applyFrom
  intro g hg
  exact hkeep g.path (mem_destinations_of_settle (mem_plan.1 hg))

theorem Summary.eq_of_tally {a b : Summary} (h : ∀ outcome, a.tally outcome = b.tally outcome) :
    a = b := by
  cases a
  cases b
  have hcreated := h .created
  have hupdated := h .updated
  have hunchanged := h .unchanged
  have hdeleted := h .deleted
  have hfailed := h .failed
  simp only [Summary.tally] at hcreated hupdated hunchanged hdeleted hfailed
  rw [hcreated, hupdated, hunchanged, hdeleted, hfailed]

theorem summary_congr {existing : List Existing} {results : List FileResult}
    {summary summary' : Summary}
    (hnodes : ∀ path ∈ destinations existing results, t'.node? path = t.node? path)
    (hdirs : ∀ path, t'.isDirectory path = t.isDirectory path)
    (h : (c.sync t existing results).result = .ok summary)
    (h' : (c.sync t' existing results).result = .ok summary') : summary' = summary := by
  rw [sync_result] at h h'
  have hn := nodup_plan existing results
  apply Summary.eq_of_tally
  intro outcome
  rw [(applyFrom_ok hn h).2 outcome, (applyFrom_ok hn h').2 outcome]
  congr 1
  apply List.countP_congr
  intro g hg
  rw [Companions.outcome?, Companions.outcome?,
    becomeIn_congr (hnodes g.path (mem_destinations_of_settle (mem_plan.1 hg))) hdirs c]

end Companion

/-! ### Trees that differ in companions -/

/-- Whether runs over packages in some directories leave a path alone. -/
def isBeyond (ds : List Path) (p : Path) : Bool := !(isCompanion p && ds.contains p.parent)

theorem isBeyond_of_source {ds : List Path} {p : Path} (h : isCompanion p = false) :
    isBeyond ds p = true := by
  simp [isBeyond, h]

theorem isBeyond_of_parent {ds : List Path} {p : Path} (h : p.parent ∉ ds) :
    isBeyond ds p = true := by
  simp [isBeyond, h]

theorem isBeyond_eq_false {ds : List Path} {p : Path} (hcompanion : isCompanion p = true)
    (hparent : p.parent ∈ ds) : isBeyond ds p = false := by
  simp [isBeyond, hcompanion, hparent]

namespace FileTree

/-- Two trees differ at most in companions that lie in some directories. -/
structure SameBeyond (ds : List Path) (t t' : FileTree) : Prop where
  entries : t'.restrict (isBeyond ds) = t.restrict (isBeyond ds)
  directories : ∀ p, t'.isDirectory p = t.isDirectory p

/-- A tree as a file system has it: paths are absolute and without double dots, made of names that
can stand in directories, and everything lies in a directory. -/
structure IsWellFormed (t : FileTree) : Prop where
  proper : t.IsProper
  absolute : ∀ e ∈ t.entries, e.1.anchor = .root ∧ ['.', '.'] ∉ e.1.parts
  rooted : ∀ e ∈ t.entries, t.isDirectory e.1.parent = true

namespace SameBeyond

variable {t t' t'' : FileTree} {ds ds' : List Path} {d p : Path}

theorem refl (ds : List Path) (t : FileTree) : SameBeyond ds t t := ⟨rfl, fun _ => rfl⟩

theorem mono (h : SameBeyond ds t t') (hsub : ds ⊆ ds') : SameBeyond ds' t t' := by
  refine ⟨restrict_of_imp h.entries ?_, h.directories⟩
  intro p hp
  by_cases hparent : p.parent ∈ ds
  · cases hcompanion : isCompanion p with
    | false => exact isBeyond_of_source hcompanion
    | true =>
      rw [isBeyond_eq_false hcompanion (hsub hparent)] at hp
      cases hp
  · exact isBeyond_of_parent hparent

theorem trans (h : SameBeyond ds t t') (h' : SameBeyond ds t' t'') : SameBeyond ds t t'' :=
  ⟨h'.entries.trans h.entries, fun p => (h'.directories p).trans (h.directories p)⟩

theorem node?_of_isBeyond (h : SameBeyond ds t t') (hp : isBeyond ds p = true) :
    t'.node? p = t.node? p :=
  node?_of_restrict h.entries hp

theorem isFile_of_isBeyond (h : SameBeyond ds t t') (hp : isBeyond ds p = true) :
    t'.isFile p = t.isFile p := by
  unfold isFile
  rw [h.node?_of_isBeyond hp]

/-! ### What a run asks of a tree -/

theorem children (h : SameBeyond ds t t') (hd : d ∉ ds) : t'.children d = t.children d := by
  apply filter_paths_of_restrict h.entries
  intro p hp
  have hparent : p.parent = d := by
    simp only [Bool.and_eq_true, decide_eq_true_eq] at hp
    exact hp.2
  exact isBeyond_of_parent (hparent ▸ hd)

theorem modulesIn (h : SameBeyond ds t t') (hd : d ∉ ds) : t'.modulesIn d = t.modulesIn d := by
  unfold FileTree.modulesIn
  rw [h.children hd]

theorem sourcesIn (h : SameBeyond ds t t') (hd : d ∉ ds) :
    Share.sourcesIn t' d = Share.sourcesIn t d := by
  unfold Share.sourcesIn
  rw [h.modulesIn hd]

theorem ofSelection (ht : t.IsProper) (h : SameBeyond ds t t') (hd : d ∉ ds)
    (selection : Selection) :
    Share.ofSelection t' d selection = Share.ofSelection t d selection := by
  cases selection with
  | whole =>
    unfold Share.ofSelection
    rw [h.sourcesIn hd, h.modulesIn hd]
  | files selected =>
    have hfiles : (((Share.sourcesIn t d).filter selected.contains).map pathOf).filter t'.isFile =
        (((Share.sourcesIn t d).filter selected.contains).map pathOf).filter t.isFile := by
      apply List.filter_congr
      intro p hp
      obtain ⟨f, hf, rfl⟩ := List.mem_map.1 hp
      have hparent := (pathOf_of_mem_sourcesIn ht (List.mem_filter.1 hf).1).2
      exact h.isFile_of_isBeyond (isBeyond_of_parent (hparent.symm ▸ hd))
    unfold Share.ofSelection Share.companionsOf
    rw [h.sourcesIn hd]
    dsimp only
    rw [hfiles]

theorem ofPath? (h : SameBeyond ds t t') (p : Path) :
    ModuleName.ofPath? t' p = ModuleName.ofPath? t p := by
  have hcontains : ∀ ws, t'.contains (Path.child ⟨p.anchor, ws⟩ Path.initName) =
      t.contains (Path.child ⟨p.anchor, ws⟩ Path.initName) := by
    intro ws
    rw [FileTree.contains, FileTree.contains,
      h.node?_of_isBeyond (isBeyond_of_source (isCompanion_initial _))]
  have henclosing : ∀ up, ModuleName.enclosing? t' p.anchor up =
      ModuleName.enclosing? t p.anchor up := by
    intro up
    induction up with
    | nil =>
      have hroot := hcontains []
      rw [Path.child, List.nil_append] at hroot
      rw [ModuleName.enclosing?, ModuleName.enclosing?, hroot]
    | cons w up ih =>
      have hnext := hcontains (up.reverse ++ [w])
      rw [Path.child, List.append_assoc, List.singleton_append] at hnext
      rw [ModuleName.enclosing?, ModuleName.enclosing?, hnext, ih]
  unfold ModuleName.ofPath?
  rw [henclosing]

end SameBeyond

/-! ### Reading -/

/-- What lies below directories only is found where its path says. -/
theorem follow_eq_ok {t : FileTree} {ws : List Text} {d : Path}
    (hdirs : ∀ k, k < ws.length → t.isDirectory ⟨d.anchor, d.parts ++ ws.take k⟩ = true)
    (hdots : ['.', '.'] ∉ ws) : t.follow d ws = .ok ⟨d.anchor, d.parts ++ ws⟩ := by
  induction ws generalizing d with
  | nil => simp [follow]
  | cons w ws ih =>
    rw [List.mem_cons, not_or] at hdots
    have hfirst : t.node? d = some .directory := by
      have hdir := hdirs 0 (Nat.succ_pos _)
      simpa [isDirectory] using hdir
    have hrest : ∀ k, k < ws.length →
        t.isDirectory ⟨d.anchor, (d.parts ++ [w]) ++ ws.take k⟩ = true := by
      intro k hk
      have hdir := hdirs (k + 1) (Nat.succ_lt_succ hk)
      simpa using hdir
    unfold follow
    rw [hfirst]
    dsimp only
    rw [if_neg (Ne.symm hdots.1)]
    have hfound := ih (d := d.child w) hrest hdots.2
    simpa [Path.child] using hfound

namespace IsWellFormed

variable {t t' : FileTree} {ds : List Path} {p : Path}

theorem isDirectory_take (ht : t.IsWellFormed) (hp : p ∈ t.entries.map (·.1)) :
    ∀ k, k < p.parts.length → t.isDirectory ⟨.root, p.parts.take k⟩ = true := by
  generalize hn : p.parts.length = n
  induction n generalizing p with
  | zero => exact fun k hk => absurd hk (Nat.not_lt_zero k)
  | succ n ih =>
    intro k hk
    obtain ⟨e, he, rfl⟩ := List.mem_map.1 hp
    have hparent : t.isDirectory e.1.parent = true := ht.rooted e he
    have hroot : e.1.parent = ⟨.root, e.1.parts.take n⟩ := by
      rw [Path.parent, (ht.absolute e he).1, List.dropLast_eq_take, hn, Nat.add_sub_cancel]
    by_cases hkn : k = n
    · rw [hkn, ← hroot]
      exact hparent
    · have hmem : e.1.parent ∈ t.entries.map (·.1) :=
        exists_node?_iff.1 ⟨.directory, by simpa [isDirectory] using hparent⟩
      have hlength : e.1.parent.parts.length = n := by simp [Path.parent, hn]
      have habove := ih hmem hlength k (by omega)
      rw [hroot] at habove
      simpa [List.take_take, Nat.min_eq_left (by omega : k ≤ n)] using habove

theorem locate_eq_ok (ht : t.IsWellFormed) (hp : p ∈ t.entries.map (·.1))
    (hdirs : ∀ q, t'.isDirectory q = t.isDirectory q) : t'.locate p = .ok p := by
  have habove := ht.isDirectory_take hp
  obtain ⟨e, he, rfl⟩ := List.mem_map.1 hp
  obtain ⟨hroot, hdots⟩ := ht.absolute e he
  unfold locate
  rw [follow_eq_ok (by simpa [hdirs] using habove) hdots, List.nil_append, ← hroot]

end IsWellFormed

namespace SameBeyond

variable {t t' : FileTree} {ds : List Path} {d p : Path}

theorem read (h : SameBeyond ds t t') (hp : isBeyond ds p = true)
    (hmem : p ∈ t.entries.map (·.1)) : t'.read p = t.read p := by
  obtain ⟨n, hn⟩ := exists_node?_iff.2 hmem
  unfold FileTree.read
  rw [h.node?_of_isBeyond hp, hn]
  cases n <;> rfl

theorem sourceFile_load [Source.Release] (ht : t.IsWellFormed) (h : SameBeyond ds t t')
    (hp : p ∈ Share.sourcesIn t d) : SourceFile.load t' p = SourceFile.load t p := by
  obtain ⟨hchild, _, hcompanion⟩ := mem_sourcesIn_iff.1 hp
  have hmem := (mem_children_iff.1 hchild).1
  have htext : t'.readText p = t.readText p := by
    unfold readText
    rw [ht.locate_eq_ok hmem h.directories, ht.locate_eq_ok hmem fun _ => rfl]
    simp only [mapError_ok, bind, Except.bind]
    rw [h.read (isBeyond_of_source hcompanion) hmem]
  unfold SourceFile.load
  rw [htext, h.ofPath?]

theorem loadFiles [Source.Release] {ps : List Path} (ht : t.IsWellFormed) (h : SameBeyond ds t t')
    (hps : ∀ p ∈ ps, p ∈ Share.sourcesIn t d) :
    TypedQueries.loadFiles t' ps = TypedQueries.loadFiles t ps := by
  induction ps with
  | nil => rfl
  | cons p ps ih =>
    unfold TypedQueries.loadFiles
    rw [h.sourceFile_load ht (hps p List.mem_cons_self),
      ih fun q hq => hps q (List.mem_cons_of_mem p hq)]

theorem load [Source.Release] (ht : t.IsWellFormed) (h : SameBeyond ds t t') (hd : d ∉ ds) :
    Package.load t' d (Share.sourcesIn t' d) = Package.load t d (Share.sourcesIn t d) := by
  have hfiles : TypedQueries.loadFiles t' (Path.sort (Share.sourcesIn t d)) =
      TypedQueries.loadFiles t (Path.sort (Share.sourcesIn t d)) :=
    h.loadFiles ht fun p hp => List.mem_mergeSort.1 hp
  unfold Package.load ModuleName.ofPackage?
  rw [h.sourcesIn hd, hfiles, h.ofPath?]

theorem loadCompanions [Source.Release] {ps : List Path} (h : SameBeyond ds t t')
    (hps : ∀ p ∈ ps, isBeyond ds p = true ∧ p ∈ t.entries.map (·.1)) :
    TypedQueries.loadCompanions t' ps = TypedQueries.loadCompanions t ps := by
  induction ps with
  | nil => rfl
  | cons p ps ih =>
    obtain ⟨hbeyond, hmem⟩ := hps p List.mem_cons_self
    unfold TypedQueries.loadCompanions Existing.load
    rw [h.read hbeyond hmem, ih fun q hq => hps q (List.mem_cons_of_mem p hq)]

end SameBeyond

end FileTree

/-! ### Runs over a package -/

section Runs

variable {t t' : FileTree} {s : Settings} {d p : Path} {selection : Selection} {ds : List Path}

theorem of_mem_companions (ht : t.IsProper)
    (hp : p ∈ (Share.ofSelection t d selection).companions) :
    isCompanion p = true ∧ p.parent = d ∧ p ∈ t.entries.map (·.1) := by
  cases selection with
  | whole =>
    obtain ⟨hmodule, hcompanion⟩ := List.mem_filter.1 hp
    obtain ⟨hmem, _, hparent⟩ := mem_children_iff.1 (mem_modulesIn_iff.1 hmodule).1
    exact ⟨hcompanion, hparent, hmem⟩
  | files selected =>
    obtain ⟨f, hf, rfl⟩ := mem_companionsOf hp
    obtain ⟨hcompanion, hparent⟩ := pathOf_of_mem_sourcesIn ht (List.mem_filter.1 hf).1
    unfold Share.ofSelection Share.companionsOf at hp
    dsimp only at hp
    rw [Path.sort, List.mem_mergeSort, List.mem_eraseDups] at hp
    obtain ⟨contents, hnode⟩ := FileTree.isFile_iff.1 (List.mem_filter.1 hp).2
    exact ⟨hcompanion, hparent, FileTree.exists_node?_iff.1 ⟨_, hnode⟩⟩

theorem beside_of_mem_destinations [NameMatcher] (ht : t.IsProper) {l : Loaded}
    {existing : List Existing}
    (hpaths : existing.map Existing.path = (Share.ofSelection t d selection).companions)
    (hp : p ∈ destinations existing (l.results s (Share.ofSelection t d selection).targets)) :
    isCompanion p = true ∧ p.parent = d := by
  rcases mem_of_mem_destinations hp with hlisted | ⟨f, hf, rfl⟩
  · obtain ⟨hcompanion, hparent, _⟩ := of_mem_companions ht (hpaths ▸ hlisted)
    exact ⟨hcompanion, hparent⟩
  · exact pathOf_of_mem_sourcesIn ht (mem_sourcesIn_of_mem_targets hf)

/-- A run that returns has loaded the package and has listed its companions. -/
theorem exists_listed_of_result [Source.Release] [NameMatcher] {r : List Diagnostic × Summary}
    (h : (generatePackage t s d selection).result = .ok r) :
    ∃ l log existing, Package.load t d (Share.sourcesIn t d) = .ok l ∧
      loadCompanions t (Share.ofSelection t d selection).companions = (log, .ok existing) := by
  cases hload : Package.load t d (Share.sourcesIn t d) with
  | error e =>
    rw [generatePackage_of_load_error hload] at h
    cases h
  | ok l =>
    rw [generatePackage_of_load hload] at h
    unfold Loaded.generate at h
    dsimp only at h
    cases hlisted : loadCompanions t (Share.ofSelection t d selection).companions with
    | mk log loaded =>
      cases loaded with
      | error e =>
        rw [hlisted] at h
        cases h
      | ok existing => exact ⟨l, log, existing, rfl, rfl⟩

/-- A run over a package in another directory than those in which two trees differ returns the same
from both and leaves the same in its directory. Beside this it changes nothing. -/
theorem generatePackage_of_sameBeyond [Source.Release] [NameMatcher] (ht : t.IsWellFormed)
    (h : t.SameBeyond ds t') (hd : d ∉ ds)
    {r : List Diagnostic × Summary} (hrun : (generatePackage t s d selection).result = .ok r) :
    (generatePackage t' s d selection).result = .ok r ∧
      (∀ p, p.parent = d → (generatePackage t' s d selection).tree.node? p =
        (generatePackage t s d selection).tree.node? p) ∧
      t'.SameBeyond [d] (generatePackage t' s d selection).tree := by
  obtain ⟨l, log, existing, hload, hlisted⟩ := exists_listed_of_result hrun
  have hload' : Package.load t' d (Share.sourcesIn t' d) = .ok l := (h.load ht hd).trans hload
  have hlisted' : loadCompanions t' (Share.ofSelection t d selection).companions =
      (log, .ok existing) := by
    rw [← hlisted]
    apply h.loadCompanions
    intro q hq
    obtain ⟨_, hparent, hmem⟩ := of_mem_companions ht.proper hq
    exact ⟨isBeyond_of_parent (hparent.symm ▸ hd), hmem⟩
  have hbeside : ∀ q ∈ destinations existing
      (l.results s (Share.ofSelection t d selection).targets),
      isCompanion q = true ∧ q.parent = d := fun q hq =>
    beside_of_mem_destinations ht.proper (paths_of_loadCompanions hlisted) hq
  have hnode : ∀ q, q.parent = d → t'.node? q = t.node? q := fun q hq =>
    h.node?_of_isBeyond (isBeyond_of_parent (hq.symm ▸ hd))
  have hemits : ∀ r ∈ l.results s (Share.ofSelection t d selection).targets,
      Emits (l.companions s) r.wanted := fun r hr => emits_of_mem_results hr _
  rw [generatePackage_of_load hload] at hrun ⊢
  rw [generatePackage_of_load hload', h.ofSelection ht.proper hd]
  obtain ⟨htree, summary, hsync, hresult⟩ := generate_of_listed hlisted l s d
  obtain ⟨htree', summary', hsync', hresult'⟩ := generate_of_listed hlisted' l s d
  have hsummary : summary' = summary :=
    summary_congr (fun q hq => hnode q (hbeside q hq).2) h.directories hsync hsync'
  refine ⟨?_, ?_, ?_, ?_⟩
  · rw [hresult', hsummary, ← hresult]
    exact hrun
  · intro q hq
    rw [htree', htree]
    exact sync_node?_congr hemits hemits (hnode q hq) h.directories rfl
  · rw [htree']
    apply restrict_sync
    intro q hq
    obtain ⟨hcompanion, hparent⟩ := hbeside q hq
    exact isBeyond_eq_false hcompanion (hparent ▸ List.mem_singleton_self _)
  · intro q
    rw [htree', sync_isDirectory]

end Runs

end TypedQueries
