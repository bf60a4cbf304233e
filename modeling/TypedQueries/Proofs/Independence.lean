import TypedQueries.Generation.Basic
import TypedQueries.Proofs.Collecting
import TypedQueries.Proofs.Frames

/-!
# Packages are independent

A command goes through the packages that its arguments select. A run over one package is the same
whichever others have been gone through before, so it does not matter in which order that happens,
nor whether it happens in one command or in several. What arguments select is the same before and
after a command that selects other packages: a companion that it makes lies in a directory that a
further argument would have selected already.
-/

namespace TypedQueries

open Companion

/-! ### Arguments -/

namespace Choice

variable {t t' : FileTree} {here : Path} {argument : Text} {ds : List Path}

/-- What a command may be given: a directory, or a file that is no companion. -/
def IsArgument (t : FileTree) (here : Path) (argument : Text) : Prop :=
  let p := Path.resolve here (.ofText argument)
  t.isDirectory p = true ∨ isCompanion p = false

instance (t : FileTree) (here : Path) (argument : Text) : Decidable (IsArgument t here argument) :=
  inferInstanceAs (Decidable (_ ∨ _))

def HasModule (t : FileTree) (d : Path) : Prop :=
  ∃ p ∈ t.entries.map (·.1), p.parent = d ∧ p.isModule = true

theorem isModule_of_suffix {p : Path} (h : p.suffix = moduleEnding) : p.isModule = true := by
  unfold Path.isModule
  rw [List.isSuffixOf_iff_suffix, ← h]
  exact p.suffix_suffix_name

theorem mem_ofDirectory {d : Path} {c : Choice} :
    c ∈ ofDirectory t d ↔ ∃ p ∈ t.entries.map (·.1), d.isBelow p = true ∧ p.isModule = true ∧
      isReached d p = true ∧ c = ⟨p.parent, none⟩ := by
  unfold ofDirectory FileTree.descendants
  simp only [List.mem_map, List.mem_filter, Bool.and_eq_true, and_assoc, eq_comm (a := c)]

theorem hasModule_of_mem {choices : List Choice} (h : ofArgument t here argument = .ok choices) :
    ∀ c ∈ choices, HasModule t c.directory := by
  unfold ofArgument at h
  dsimp only at h
  intro c hc
  split at h
  · cases h
  · split at h
    · rename_i hfile
      cases h
      unfold ofFile at hc
      split at hc
      · rename_i hsource
        simp only [Bool.and_eq_true, decide_eq_true_eq] at hsource
        obtain ⟨contents, hnode⟩ := FileTree.isFile_iff.1 hfile
        rw [List.mem_singleton.1 hc]
        exact ⟨_, FileTree.exists_node?_iff.1 ⟨_, hnode⟩, rfl, isModule_of_suffix hsource.1⟩
      · cases hc
    · split at h
      · cases h
        obtain ⟨p, hp, _, hmodule, _, rfl⟩ := mem_ofDirectory.1 hc
        exact ⟨p, hp, rfl, hmodule⟩
      · cases h

/-- When something in a directory is reached from another one, so is all that lies in it. -/
theorem isReached_of_parent {d p q : Path} (hbelow : d.isBelow p = true)
    (hreached : isReached d p = true) (hq : q.parts ≠ []) (hparent : q.parent = p.parent) :
    d.isBelow q = true ∧ isReached d q = true := by
  unfold Path.isBelow at hbelow ⊢
  simp only [Bool.and_eq_true, decide_eq_true_eq, List.isPrefixOf_iff_prefix] at hbelow ⊢
  obtain ⟨⟨hanchor, hlength⟩, hprefix⟩ := hbelow
  have hanchor' : q.parent.anchor = p.parent.anchor := congrArg Path.anchor hparent
  have hparts : q.parent.parts = p.parent.parts := congrArg Path.parts hparent
  unfold Path.parent at hanchor' hparts
  dsimp only at hanchor' hparts
  have hpositive : 0 < q.parts.length := List.length_pos_iff.2 hq
  have hsame : q.parts.length - 1 = p.parts.length - 1 := by
    simpa using congrArg List.length hparts
  have habove : d.parts <+: q.parts.dropLast := by
    rw [hparts]
    refine List.prefix_of_prefix_length_le hprefix (List.dropLast_prefix _) ?_
    rw [List.length_dropLast]
    omega
  refine ⟨⟨⟨hanchor.trans hanchor'.symm, by omega⟩, habove.trans (List.dropLast_prefix _)⟩, ?_⟩
  unfold isReached at hreached ⊢
  rw [List.dropLast_drop_eq_drop_dropLast, hparts, ← List.dropLast_drop_eq_drop_dropLast]
  exact hreached

theorem parts_ne_nil_of_isModule {p : Path} (h : p.isModule = true) : p.parts ≠ [] := by
  intro hnil
  rw [Path.isModule, Path.name, hnil] at h
  exact absurd h (by decide)

/-- A directory selects the same in trees that differ in companions of directories that it does not
select: each of these has had a module in it before. -/
theorem ofDirectory_of_sameBeyond (h : t.SameBeyond ds t') (hds : ∀ d ∈ ds, HasModule t d)
    {d : Path} (hdisjoint : ∀ c ∈ ofDirectory t d, c.directory ∉ ds) :
    ofDirectory t' d = ofDirectory t d := by
  have hpaths : ((t'.descendants d).filter fun p => p.isModule && isReached d p) =
      (t.descendants d).filter fun p => p.isModule && isReached d p := by
    unfold FileTree.descendants
    rw [List.filter_filter, List.filter_filter]
    apply FileTree.filter_paths_of_restrict h.entries
    intro p hp
    simp only [Bool.and_eq_true] at hp
    obtain ⟨⟨_, hreached⟩, hbelow⟩ := hp
    apply isBeyond_of_parent
    intro hparent
    obtain ⟨q, hq, hqparent, hqmodule⟩ := hds p.parent hparent
    have hqreached :=
      isReached_of_parent hbelow hreached (parts_ne_nil_of_isModule hqmodule) hqparent
    have hchoice : (⟨q.parent, none⟩ : Choice) ∈ ofDirectory t d :=
      mem_ofDirectory.2 ⟨q, hq, hqreached.1, hqmodule, hqreached.2, rfl⟩
    exact hdisjoint _ hchoice (hqparent ▸ hparent)
  unfold ofDirectory
  rw [hpaths]

/-- An argument selects the same in trees that differ in companions of directories in which it
selects nothing. -/
theorem ofArgument_of_sameBeyond (h : t.SameBeyond ds t') (hds : ∀ d ∈ ds, HasModule t d)
    (hargument : IsArgument t here argument)
    (hdisjoint : ∀ choices, ofArgument t here argument = .ok choices →
      ∀ c ∈ choices, c.directory ∉ ds) :
    ofArgument t' here argument = ofArgument t here argument := by
  unfold ofArgument at hdisjoint ⊢
  unfold IsArgument at hargument
  dsimp only at hdisjoint hargument ⊢
  generalize Path.resolve here (.ofText argument) = p at hdisjoint hargument ⊢
  rw [h.directories p]
  by_cases hnul : (argument.any fun c => decide (c.toNat = 0)) = true
  · rw [if_pos hnul, if_pos hnul]
  rw [if_neg hnul] at hdisjoint
  rw [if_neg hnul, if_neg hnul]
  rcases hargument with hdir | hcompanion
  · have hnofile : ∀ u : FileTree, u.isDirectory p = true → u.isFile p = false := by
      intro u hu
      unfold FileTree.isDirectory at hu
      unfold FileTree.isFile
      rw [of_decide_eq_true hu]
    rw [hnofile t hdir] at hdisjoint ⊢
    rw [hnofile t' ((h.directories p).trans hdir)]
    rw [hdir] at hdisjoint ⊢
    simp only [Bool.false_eq_true, if_false, if_true] at hdisjoint ⊢
    rw [ofDirectory_of_sameBeyond h hds (hdisjoint _ rfl)]
  · rw [h.isFile_of_isBeyond (isBeyond_of_source hcompanion)]
    by_cases hfile : t.isFile p = true
    · rw [if_pos hfile, if_pos hfile]
    rw [if_neg hfile] at hdisjoint
    rw [if_neg hfile, if_neg hfile]
    by_cases hdir : t.isDirectory p = true
    · rw [if_pos hdir] at hdisjoint
      rw [if_pos hdir, if_pos hdir, ofDirectory_of_sameBeyond h hds (hdisjoint _ rfl)]
    · rw [if_neg hdir, if_neg hdir]

end Choice

namespace Selection

variable {t t' : FileTree} {here : Path} {arguments : List Text}
  {packages : List (Path × Selection)}

theorem hasModule_of_ofArguments (h : ofArguments t here arguments = .ok packages) :
    ∀ d ∈ packages.map Prod.fst, Choice.HasModule t d := by
  obtain ⟨choices, hchoices, rfl, _⟩ := ofArguments_eq_ok h
  intro d hd
  obtain ⟨c, hc, rfl⟩ := List.mem_map.1 (mem_directories_gather.1 hd)
  obtain ⟨cs, hcs, hc⟩ := List.mem_flatten.1 hc
  obtain ⟨argument, _, hargument⟩ := (mem_of_mapM hchoices).1 hcs
  exact Choice.hasModule_of_mem hargument c hc

/-- Arguments select the same after runs over packages that they do not select. -/
theorem ofArguments_of_sameBeyond {ds : List Path} (h : t.SameBeyond ds t')
    (hds : ∀ d ∈ ds, Choice.HasModule t d)
    (harguments : ∀ a ∈ arguments, Choice.IsArgument t here a)
    (hpackages : ofArguments t here arguments = .ok packages)
    (hdisjoint : ∀ x ∈ packages, x.1 ∉ ds) : ofArguments t' here arguments = .ok packages := by
  obtain ⟨choices, hchoices, rfl, _⟩ := ofArguments_eq_ok hpackages
  have hsame : arguments.mapM (Choice.ofArgument t' here) =
      arguments.mapM (Choice.ofArgument t here) := by
    apply mapM_congr
    intro a ha
    apply Choice.ofArgument_of_sameBeyond h hds (harguments a ha)
    intro cs hcs c hc hmem
    have hdir : c.directory ∈ choices.flatten.map Choice.directory :=
      List.mem_map_of_mem (List.mem_flatten.2 ⟨cs, (mem_of_mapM hchoices).2 ⟨a, ha, hcs⟩, hc⟩)
    obtain ⟨x, hx, hxdir⟩ := List.mem_map.1 (mem_directories_gather.2 hdir)
    exact hdisjoint x hx (hxdir ▸ hmem)
  rw [ofArguments_eq] at hpackages ⊢
  rw [hsame]
  exact hpackages

/-- Arguments that select different directories select together what they select separately. -/
theorem ofArguments_append {more : List Text} {others : List (Path × Selection)}
    (h : ofArguments t here arguments = .ok packages) (hmore : ofArguments t here more = .ok others)
    (hdisjoint : ∀ x ∈ packages, ∀ y ∈ others, x.1 ≠ y.1) :
    ∃ joint, ofArguments t here (arguments ++ more) = .ok joint ∧
      joint.Perm (packages ++ others) := by
  obtain ⟨choices, hchoices, rfl, hne⟩ := ofArguments_eq_ok h
  obtain ⟨choices', hchoices', rfl, _⟩ := ofArguments_eq_ok hmore
  have hdirs : ∀ d ∈ choices.flatten.map Choice.directory,
      d ∉ choices'.flatten.map Choice.directory := by
    intro d hd hd'
    obtain ⟨x, hx, hxd⟩ := List.mem_map.1 (mem_directories_gather.2 hd)
    obtain ⟨y, hy, hyd⟩ := List.mem_map.1 (mem_directories_gather.2 hd')
    exact hdisjoint x hx y hy (hxd.trans hyd.symm)
  have hperm := gather_append_perm hdirs
  rw [← List.flatten_append] at hperm
  have hall : (arguments ++ more).mapM (Choice.ofArgument t here) = .ok (choices ++ choices') := by
    rw [List.mapM_append, hchoices, hchoices']
    rfl
  have hsome : gather (choices ++ choices').flatten ≠ [] := by
    intro hnil
    rw [hnil] at hperm
    exact hne (List.append_eq_nil_iff.1 hperm.nil_eq.symm).1
  exact ⟨_, ofArguments_of_choices hall hsome, hperm⟩

end Selection

/-! ### Runs over packages -/

namespace Companion.Summary

theorem add_assoc (a b c : Summary) : (a.add b).add c = a.add (b.add c) := by
  simp [add, Nat.add_assoc]

theorem add_left_comm (a b c : Summary) : a.add (b.add c) = b.add (a.add c) := by
  simp [add, Nat.add_left_comm]

@[simp] theorem zero_add (a : Summary) : Summary.add .zero a = a := by
  simp [add, zero]

end Companion.Summary

/-- What a run over a package counts, if it returns. -/
def PackageRun.counted (run : PackageRun) : Summary :=
  match run.result with
  | .ok (_, summary) => summary
  | .error _ => .zero

/-- What runs over packages count, each of them by itself from one tree. -/
def total [Source.Release] [NameMatcher] (s : Settings) (t : FileTree)
    (packages : List (Path × Selection)) : Summary :=
  packages.foldr (fun x sum => (generatePackage t s x.1 x.2).counted.add sum) .zero

/-- A tree that runs over packages have left, each of which has done in its directory what it does
by itself. -/
structure Leaves [Source.Release] [NameMatcher] (s : Settings) (t : FileTree)
    (packages : List (Path × Selection)) (t' : FileTree) : Prop where
  beyond : t.SameBeyond (packages.map Prod.fst) t'
  within : ∀ x ∈ packages, ∀ p, p.parent = x.1 →
    t'.node? p = (generatePackage t s x.1 x.2).tree.node? p

section Packages

variable [Source.Release] [NameMatcher] {s : Settings} {t t' t'' : FileTree}
  {packages others : List (Path × Selection)}

theorem total_cons (x : Path × Selection) : total s t (x :: packages) =
    (generatePackage t s x.1 x.2).counted.add (total s t packages) := rfl

theorem total_append : total s t (packages ++ others) =
    (total s t packages).add (total s t others) := by
  induction packages with
  | nil => exact (Summary.zero_add _).symm
  | cons x packages ih => rw [List.cons_append, total_cons, total_cons, ih, Summary.add_assoc]

theorem total_perm (h : packages.Perm others) : total s t packages = total s t others := by
  have hcomm : LeftCommutative fun (x : Path × Selection) sum =>
      (generatePackage t s x.1 x.2).counted.add sum := ⟨fun _ _ _ => Summary.add_left_comm _ _ _⟩
  exact h.foldr_eq _

namespace Leaves

theorem nil (s : Settings) (t : FileTree) : Leaves s t [] t := by
  constructor
  · exact .refl _ t
  · simp

theorem perm (h : Leaves s t packages t') (hperm : packages.Perm others) :
    Leaves s t others t' := by
  constructor
  · exact h.beyond.mono (hperm.map Prod.fst).subset
  · exact fun x hx => h.within x (hperm.mem_iff.2 hx)

/-- What the runs leave is determined, whatever their order. -/
theorem node?_eq (h : Leaves s t packages t') (h' : Leaves s t packages t'') (p : Path) :
    t''.node? p = t'.node? p := by
  by_cases hp : p.parent ∈ packages.map Prod.fst
  · obtain ⟨x, hx, hparent⟩ := List.mem_map.1 hp
    rw [h.within x hx p hparent.symm, h'.within x hx p hparent.symm]
  · rw [h.beyond.node?_of_isBeyond (isBeyond_of_parent hp),
      h'.beyond.node?_of_isBeyond (isBeyond_of_parent hp)]

theorem step (ht : t.IsWellFormed) (h : Leaves s t packages t') {x : Path × Selection}
    (hx : x.1 ∉ packages.map Prod.fst) {r : List Diagnostic × Summary}
    (hrun : (generatePackage t s x.1 x.2).result = .ok r) :
    (generatePackage t' s x.1 x.2).result = .ok r ∧
      Leaves s t (packages ++ [x]) (generatePackage t' s x.1 x.2).tree := by
  obtain ⟨hresult, hwithin, hbeyond⟩ := generatePackage_of_sameBeyond ht h.beyond hx hrun
  refine ⟨hresult, ?_, ?_⟩
  · rw [List.map_append]
    exact (h.beyond.mono (List.subset_append_left _ _)).trans
      (hbeyond.mono (List.subset_append_right _ _))
  · intro y hy p hp
    rcases List.mem_append.1 hy with hy | hy
    · have hne : p.parent ∉ [x.1] := by
        rw [List.mem_singleton, hp]
        exact fun he => hx (he ▸ List.mem_map_of_mem hy)
      rw [hbeyond.node?_of_isBeyond (isBeyond_of_parent hne)]
      exact h.within y hy p hp
    · obtain rfl := List.mem_singleton.1 hy
      exact hwithin p hp

/-- When each of some runs returns by itself, they also return one after the other, and count
together what they count separately. -/
theorem generateFrom (ht : t.IsWellFormed)
    (hreturn : ∀ x ∈ others, ∃ r, (generatePackage t s x.1 x.2).result = .ok r)
    (hnodup : ((packages ++ others).map Prod.fst).Nodup) (h : Leaves s t packages t')
    (log : List LogEntry) (report : Report) :
    ∃ report', (TypedQueries.generateFrom s t' log report others).result = .ok report' ∧
      report'.summary = report.summary.add (total s t others) ∧
      Leaves s t (packages ++ others)
        (TypedQueries.generateFrom s t' log report others).tree := by
  induction others generalizing packages t' log report with
  | nil =>
    refine ⟨report, rfl, rfl, ?_⟩
    rw [List.append_nil]
    exact h
  | cons x others ih =>
    obtain ⟨⟨diagnostics, summary⟩, hrun⟩ := hreturn x List.mem_cons_self
    have hsplit : packages ++ x :: others = (packages ++ [x]) ++ others := by simp
    have hx : x.1 ∉ packages.map Prod.fst := by
      rw [List.map_append, List.nodup_append] at hnodup
      intro hmem
      exact hnodup.2.2 x.1 hmem x.1 (List.mem_map_of_mem List.mem_cons_self) rfl
    obtain ⟨hresult, hstep⟩ := h.step ht hx hrun
    obtain ⟨report', hresult', hsummary, hleaves⟩ :=
      ih (fun y hy => hreturn y (List.mem_cons_of_mem x hy)) (hsplit ▸ hnodup) hstep
        (log ++ (generatePackage t' s x.1 x.2).log) (report.add diagnostics summary)
    have hcounted : (generatePackage t s x.1 x.2).counted = summary := by
      unfold PackageRun.counted
      rw [hrun]
    have hnext : TypedQueries.generateFrom s t' log report (x :: others) =
        TypedQueries.generateFrom s (generatePackage t' s x.1 x.2).tree
          (log ++ (generatePackage t' s x.1 x.2).log) (report.add diagnostics summary) others := by
      rw [TypedQueries.generateFrom, hresult]
    rw [hnext, hsplit]
    refine ⟨report', hresult', ?_, hleaves⟩
    rw [hsummary, total_cons, hcounted]
    exact Summary.add_assoc _ _ _

end Leaves

end Packages

/-! ### Commands -/

/-- A command with given settings returns from a tree: its arguments select packages, and the runs
over these return. -/
def Yields [Source.Release] [NameMatcher] (s : Settings) (here : Path) (t : FileTree)
    (arguments : List Text) (t' : FileTree) (report : Report) : Prop :=
  ∃ packages, Selection.ofArguments t here arguments = .ok packages ∧
    (generate s t packages).tree = t' ∧ (generate s t packages).result = .ok report

section Commands

variable {s : Settings} {t : FileTree} {here : Path} {as bs : List Text}
  {pa pb : List (Path × Selection)}

theorem nodup_directories {arguments : List Text} {packages : List (Path × Selection)}
    (h : Selection.ofArguments t here arguments = .ok packages) :
    (packages.map Prod.fst).Nodup := by
  obtain ⟨choices, _, rfl, _⟩ := Selection.ofArguments_eq_ok h
  exact Selection.nodup_directories_gather _

theorem nodup_directories_append (ha : Selection.ofArguments t here as = .ok pa)
    (hb : Selection.ofArguments t here bs = .ok pb)
    (hdisjoint : ∀ x ∈ pa, ∀ y ∈ pb, x.1 ≠ y.1) : ((pa ++ pb).map Prod.fst).Nodup := by
  rw [List.map_append, List.nodup_append]
  refine ⟨nodup_directories ha, nodup_directories hb, ?_⟩
  intro d hd d' hd'
  obtain ⟨x, hx, rfl⟩ := List.mem_map.1 hd
  obtain ⟨y, hy, rfl⟩ := List.mem_map.1 hd'
  exact hdisjoint x hx y hy

variable [Source.Release] [NameMatcher]

theorem exists_yields_joint (ht : t.IsWellFormed) (ha : Selection.ofArguments t here as = .ok pa)
    (hb : Selection.ofArguments t here bs = .ok pb) (hdisjoint : ∀ x ∈ pa, ∀ y ∈ pb, x.1 ≠ y.1)
    (hreturn : ∀ x ∈ pa ++ pb, ∃ r, (generatePackage t s x.1 x.2).result = .ok r) :
    ∃ joint report, Yields s here t (as ++ bs) joint report ∧ Leaves s t (pa ++ pb) joint ∧
      report.summary = total s t (pa ++ pb) := by
  obtain ⟨packages, hpackages, hperm⟩ := Selection.ofArguments_append ha hb hdisjoint
  obtain ⟨report, hresult, hsummary, hleaves⟩ :=
    (Leaves.nil s t).generateFrom ht (fun x hx => hreturn x (hperm.mem_iff.1 hx))
      (nodup_directories hpackages) [] .empty
  refine ⟨_, report, ⟨packages, hpackages, rfl, hresult⟩, hleaves.perm hperm, ?_⟩
  rw [hsummary, total_perm hperm]
  exact Summary.zero_add _

/-- Two commands go through the same packages, one after the other. -/
theorem exists_yields_sequence (ht : t.IsWellFormed)
    (harguments : ∀ b ∈ bs, Choice.IsArgument t here b)
    (ha : Selection.ofArguments t here as = .ok pa) (hb : Selection.ofArguments t here bs = .ok pb)
    (hdisjoint : ∀ x ∈ pa, ∀ y ∈ pb, x.1 ≠ y.1)
    (hreturn : ∀ x ∈ pa ++ pb, ∃ r, (generatePackage t s x.1 x.2).result = .ok r) :
    ∃ between first final last, Yields s here t as between first ∧
      Yields s here between bs final last ∧ Leaves s t (pa ++ pb) final ∧
      first.summary.add last.summary = total s t (pa ++ pb) := by
  obtain ⟨first, hfirst, hfirstSummary, hbetween⟩ :=
    (Leaves.nil s t).generateFrom ht (fun x hx => hreturn x (List.mem_append_left _ hx))
      (nodup_directories ha) [] .empty
  have hselected : Selection.ofArguments (generate s t pa).tree here bs = .ok pb := by
    apply Selection.ofArguments_of_sameBeyond hbetween.beyond
      (Selection.hasModule_of_ofArguments ha) harguments hb
    intro y hy hmem
    obtain ⟨x, hx, hxy⟩ := List.mem_map.1 hmem
    exact hdisjoint x hx y hy hxy
  obtain ⟨last, hlast, hlastSummary, hfinal⟩ :=
    hbetween.generateFrom ht (fun y hy => hreturn y (List.mem_append_right _ hy))
      (nodup_directories_append ha hb hdisjoint) [] .empty
  refine ⟨_, first, _, last, ⟨pa, ha, rfl, hfirst⟩, ⟨pb, hselected, rfl, hlast⟩, hfinal, ?_⟩
  rw [hfirstSummary, hlastSummary, total_append]
  simp [Report.empty]

/-- Packages are independent. When arguments select different directories, and the run over each
package that they select returns, then one command with all of them, and two commands in either
order, return with the same tree, and the single command counts what the two count together. -/
theorem commands_independent (ht : t.IsWellFormed)
    (harguments : ∀ a ∈ as ++ bs, Choice.IsArgument t here a)
    (ha : Selection.ofArguments t here as = .ok pa) (hb : Selection.ofArguments t here bs = .ok pb)
    (hdisjoint : ∀ x ∈ pa, ∀ y ∈ pb, x.1 ≠ y.1)
    (hreturn : ∀ x ∈ pa ++ pb, ∃ r, (generatePackage t s x.1 x.2).result = .ok r) :
    ∃ joint report, Yields s here t (as ++ bs) joint report ∧
      (∃ between first final last, Yields s here t as between first ∧
        Yields s here between bs final last ∧ (∀ p, final.node? p = joint.node? p) ∧
        report.summary = first.summary.add last.summary) ∧
      ∃ between first final last, Yields s here t bs between first ∧
        Yields s here between as final last ∧ (∀ p, final.node? p = joint.node? p) ∧
        report.summary = first.summary.add last.summary := by
  have hswap : (pb ++ pa).Perm (pa ++ pb) := List.perm_append_comm
  obtain ⟨joint, report, hjoint, hleaves, hsummary⟩ :=
    exists_yields_joint ht ha hb hdisjoint hreturn
  obtain ⟨between, first, final, last, hfirst, hlast, hfinal, htotal⟩ :=
    exists_yields_sequence ht (fun b hb => harguments b (List.mem_append_right _ hb)) ha hb
      hdisjoint hreturn
  obtain ⟨between', first', final', last', hfirst', hlast', hfinal', htotal'⟩ :=
    exists_yields_sequence ht (fun a ha => harguments a (List.mem_append_left _ ha)) hb ha
      (fun y hy x hx => (hdisjoint x hx y hy).symm) fun x hx => hreturn x (hswap.mem_iff.1 hx)
  refine ⟨joint, report, hjoint, ⟨between, first, final, last, hfirst, hlast, ?_, ?_⟩,
    between', first', final', last', hfirst', hlast', ?_, ?_⟩
  · exact hleaves.node?_eq hfinal
  · exact hsummary.trans htotal.symm
  · exact hleaves.node?_eq (hfinal'.perm hswap)
  · rw [hsummary, htotal', total_perm hswap]

end Commands

/-! A directory with a file and its companion, and another one with a file, for the case below. -/

def libDir : Path := ⟨.root, ["lib"]⟩

def libFile : Path := ⟨.root, ["lib", "b.py"]⟩

def twinTree : FileTree :=
  ⟨[(⟨.root, []⟩, .directory), (appDir, .directory), (appFile, .file []),
    (appCompanion, .file []), (libDir, .directory), (libFile, .file [])]⟩

section

open scoped Source.Plain NamePattern.Standard

theorem load_twins : ∀ p, p = appFile ∨ p = libFile →
    ∃ r, SourceFile.load twinTree p = .ok r := by
  rintro p (rfl | rfl)
  · have hmodule : ModuleName.ofPath? twinTree appFile.collapsed = some "a" := by decide
    exact ⟨_, load_of_empty (by decide +kernel) hmodule⟩
  · have hmodule : ModuleName.ofPath? twinTree libFile.collapsed = some "b" := by decide
    exact ⟨_, load_of_empty (by decide +kernel) hmodule⟩

/-- A whole directory and a file of another one can be given to one command or to two. -/
theorem commands_independent_twins :
    Selection.ofArguments twinTree ⟨.root, []⟩ ["app"] = .ok [(appDir, .whole)] ∧
      Selection.ofArguments twinTree ⟨.root, []⟩ ["lib/b.py"] =
        .ok [(libDir, .files [libFile])] ∧
      ∃ joint report, Yields .usual ⟨.root, []⟩ twinTree ["app", "lib/b.py"] joint report ∧
        (∃ between first final last, Yields .usual ⟨.root, []⟩ twinTree ["app"] between first ∧
          Yields .usual ⟨.root, []⟩ between ["lib/b.py"] final last ∧
          (∀ p, final.node? p = joint.node? p) ∧
          report.summary = first.summary.add last.summary) ∧
        ∃ between first final last,
          Yields .usual ⟨.root, []⟩ twinTree ["lib/b.py"] between first ∧
          Yields .usual ⟨.root, []⟩ between ["app"] final last ∧
          (∀ p, final.node? p = joint.node? p) ∧
          report.summary = first.summary.add last.summary := by
  have hwellFormed : twinTree.IsWellFormed := ⟨by decide, by decide, by decide⟩
  have hdirs : twinTree.NoModuleDirectories := by decide
  have harguments : ∀ a ∈ (["app"] ++ ["lib/b.py"] : List Text),
      Choice.IsArgument twinTree ⟨.root, []⟩ a := by decide
  have happ : Selection.ofArguments twinTree ⟨.root, []⟩ ["app"] = .ok [(appDir, .whole)] := by decide +kernel
  have hlib : Selection.ofArguments twinTree ⟨.root, []⟩ ["lib/b.py"] =
      .ok [(libDir, .files [libFile])] := by decide +kernel
  have hsources : ∀ d p, p ∈ Share.sourcesIn twinTree d → p = appFile ∨ p = libFile := by
    have hpaths : ∀ p ∈ twinTree.entries.map (·.1), p.isModule = true → isCompanion p = false →
        p = appFile ∨ p = libFile := by decide
    intro d p hp
    obtain ⟨hchild, hmodule, hcompanion⟩ := mem_sourcesIn_iff.1 hp
    exact hpaths p (mem_children_iff.1 hchild).1 hmodule hcompanion
  have hnames : ∀ x ∈ [(appDir, Selection.whole)] ++ [(libDir, Selection.files [libFile])],
      (ModuleName.ofPackage? twinTree x.1.collapsed).isSome = true := by decide
  refine ⟨happ, hlib, ?_⟩
  apply commands_independent hwellFormed harguments happ hlib
  · decide
  · intro x hx
    exact generatePackage_returns hdirs (fun p hp => load_twins p (hsources x.1 p hp))
      (Option.isSome_iff_exists.1 (hnames x hx)) .usual x.2

end

end TypedQueries
