import Mathlib.Data.Char
import Mathlib.Data.List.Lex
import TypedQueries.Proofs.Independence

/-!
# The order of arguments

What arguments select depends on which arguments there are, and neither on their order nor on how
often each is named. A directory is selected as a whole exactly if some argument reaches it;
otherwise those of its source files are selected that arguments name. So overlapping arguments may
come in any order: a directory that is reached absorbs the files of it that are named.
-/

namespace TypedQueries

/-! ### Sorted paths -/

theorem Text.isBefore_iff {a b : Text} : isBefore a b = true ↔ a < b := by
  have hchar : (fun c d : Char => decide (c.toNat < d.toNat)) = fun c d => decide (c < d) := rfl
  rw [isBefore, hchar]
  exact List.lex_eq_true_iff_lt

namespace Path

variable {p q : Path} {ps qs : List Path} {a : Anchor}

theorem atMost_iff : p.atMost q = true ↔ p.key ≤ q.key := by
  have hbefore : Text.isBefore = fun a b => decide (a < b) := by
    funext a b
    rw [Bool.eq_iff_iff, Text.isBefore_iff, decide_eq_true_iff]
  have hlex : q.key.lex p.key Text.isBefore = true ↔ q.key < p.key := by
    rw [hbefore]
    exact List.lex_eq_true_iff_lt
  rw [atMost, Bool.not_eq_true', ← Bool.not_eq_true, hlex, not_lt]

theorem eq_of_key (ha : p.anchor = q.anchor) (h : p.key = q.key) : p = q := by
  obtain ⟨a, parts⟩ := p
  obtain ⟨b, parts'⟩ := q
  cases (show a = b from ha)
  cases a <;> cases h <;> rfl

theorem pairwise_sort (ps : List Path) : (sort ps).Pairwise fun p q => p.atMost q = true := by
  apply List.pairwise_mergeSort
  · intro p q r hpq hqr
    exact atMost_iff.2 ((atMost_iff.1 hpq).trans (atMost_iff.1 hqr))
  · intro p q
    rw [Bool.or_eq_true, atMost_iff, atMost_iff]
    exact le_total p.key q.key

/-- Paths with one anchor are sorted in one way only. With several anchors they need not be: the
anchor is told by its text, which may as well be a name. -/
theorem sort_eq_of_perm (ha : ∀ p ∈ ps, p.anchor = a) (h : ps.Perm qs) : sort ps = sort qs := by
  refine List.Perm.eq_of_pairwise ?_ (pairwise_sort ps) (pairwise_sort qs)
    ((List.mergeSort_perm ps _).trans (h.trans (List.mergeSort_perm qs _).symm))
  intro p q hp hq hpq hqp
  have hp := ha p (List.mem_mergeSort.1 hp)
  have hq := ha q (h.mem_iff.2 (List.mem_mergeSort.1 hq))
  exact eq_of_key (hp.trans hq.symm) (le_antisymm (atMost_iff.1 hpq) (atMost_iff.1 hqp))

theorem sort_eraseDups_congr (ha : ∀ p ∈ ps, p.anchor = a) (h : ∀ p, p ∈ ps ↔ p ∈ qs) :
    sort ps.eraseDups = sort qs.eraseDups := by
  apply sort_eq_of_perm fun p hp => ha p (List.mem_eraseDups.1 hp)
  rw [List.perm_ext_iff_of_nodup (nodup_eraseDups ps) (nodup_eraseDups qs)]
  intro p
  rw [List.mem_eraseDups, List.mem_eraseDups, h p]

end Path

/-! ### Choices -/

/-- Choices of and in directories that are given by absolute paths. -/
structure Choice.IsAbsolute (c : Choice) : Prop where
  directory : c.directory.anchor = .root
  file : ∀ p, c.file = some p → p.anchor = .root

namespace Selection

variable {choices more : List Choice} {d p : Path} {paths : List Path}

theorem ofChoices_eq_whole_iff : ofChoices choices d = whole ↔ ⟨d, none⟩ ∈ choices := by
  unfold ofChoices
  rw [← List.contains_iff_mem]
  split
  · rename_i h
    exact iff_of_true rfl h
  · rename_i h
    exact iff_of_false nofun h

theorem ofChoices_eq_files (h : ofChoices choices d = files paths) :
    paths.Nodup ∧ ∀ p, p ∈ paths ↔ ⟨d, some p⟩ ∈ choices := by
  unfold ofChoices at h
  split at h
  · cases h
  · cases h
    refine ⟨(List.mergeSort_perm _ _).nodup_iff.2 (nodup_eraseDups _), fun p => ?_⟩
    rw [Path.sort, List.mem_mergeSort, List.mem_eraseDups, mem_filesOf]

theorem gather_eq_nil_iff : gather choices = [] ↔ choices = [] := by
  constructor
  · intro h
    rw [List.eq_nil_iff_forall_not_mem]
    intro c hc
    have hd := mem_directories_gather.2 (List.mem_map_of_mem (f := Choice.directory) hc)
    rw [h] at hd
    exact List.not_mem_nil hd
  · rintro rfl
    simp [gather, Path.sort]

theorem gather_congr (habsolute : ∀ c ∈ choices, c.IsAbsolute) (h : ∀ c, c ∈ choices ↔ c ∈ more) :
    gather choices = gather more := by
  have hdirectories : Path.sort (choices.map Choice.directory).eraseDups =
      Path.sort (more.map Choice.directory).eraseDups := by
    refine Path.sort_eraseDups_congr (a := .root) ?_ ?_
    · intro d hd
      obtain ⟨c, hc, rfl⟩ := List.mem_map.1 hd
      exact (habsolute c hc).directory
    · intro d
      simp only [List.mem_map, h]
  have hof : ∀ d, ofChoices choices d = ofChoices more d := by
    intro d
    have hfiles : Path.sort (filesOf choices d).eraseDups =
        Path.sort (filesOf more d).eraseDups := by
      refine Path.sort_eraseDups_congr (a := .root) ?_ ?_
      · exact fun p hp => (habsolute _ (mem_filesOf.1 hp)).file p rfl
      · intro p
        rw [mem_filesOf, mem_filesOf, h]
    have hwhole : choices.contains ⟨d, none⟩ = more.contains ⟨d, none⟩ := by
      rw [Bool.eq_iff_iff, List.contains_iff_mem, List.contains_iff_mem, h]
    unfold ofChoices
    rw [hfiles, hwhole]
  unfold gather
  rw [hdirectories]
  exact List.map_congr_left fun d _ => by rw [hof d]

end Selection

/-! ### What is reached and what is named -/

namespace Choice

variable {t : FileTree} {here top d p : Path} {argument : Text} {arguments : List Text} {c : Choice}

/-- From `top` one comes to `d` without passing a name that is passed over, and `d` has a module in
it. -/
structure Reaches (t : FileTree) (top d : Path) : Prop where
  steps : ∃ names, d = { top with parts := top.parts ++ names } ∧
    ∀ name ∈ names, isSkipped name = false
  module : HasModule t d

/-- A file that is a source by its name: a module that is no companion. -/
structure IsSource (t : FileTree) (p : Path) : Prop where
  file : t.isFile p = true
  suffix : p.suffix = moduleEnding
  noCompanion : Companion.isCompanion p = false

theorem mem_ofDirectory_iff :
    c ∈ ofDirectory t top ↔ Reaches t top c.directory ∧ c.file = none := by
  rw [mem_ofDirectory]
  constructor
  · rintro ⟨p, hp, hbelow, hmodule, hreached, rfl⟩
    refine ⟨⟨?_, p, hp, rfl, hmodule⟩, rfl⟩
    unfold Path.isBelow at hbelow
    simp only [Bool.and_eq_true, decide_eq_true_eq, List.isPrefixOf_iff_prefix] at hbelow
    obtain ⟨⟨hanchor, hlength⟩, rest, hparts⟩ := hbelow
    have hrest : rest ≠ [] := by
      rintro rfl
      rw [← hparts, List.append_nil] at hlength
      exact Nat.lt_irrefl _ hlength
    refine ⟨rest.dropLast, ?_, ?_⟩
    · rw [Path.parent, ← hparts, List.dropLast_append_of_ne_nil hrest, hanchor]
    · rw [isReached, ← hparts, List.drop_left] at hreached
      simpa using hreached
  · rintro ⟨⟨⟨names, hd, hnames⟩, p, hp, hparent, hmodule⟩, hfile⟩
    obtain ⟨d, file⟩ := c
    dsimp only at hd hparent hfile
    subst hfile hparent
    have hlast : p.parts = p.parent.parts ++ [p.parts.getLast (parts_ne_nil_of_isModule hmodule)] :=
      (List.dropLast_append_getLast _).symm
    rw [hd, List.append_assoc] at hlast
    refine ⟨p, hp, ?_, hmodule, ?_, rfl⟩
    · have hanchor : top.anchor = p.anchor := (congrArg Path.anchor hd).symm
      unfold Path.isBelow
      rw [hlast]
      simp [hanchor]
    · rw [isReached, hlast, List.drop_left, List.dropLast_concat]
      simpa using hnames

theorem mem_ofFile_iff (hfile : t.isFile p = true) :
    c ∈ ofFile p ↔ IsSource t p ∧ c = ⟨p.parent, some p⟩ := by
  unfold ofFile
  split
  · rename_i h
    simp only [Bool.and_eq_true, decide_eq_true_eq, Bool.not_eq_true'] at h
    rw [List.mem_singleton]
    exact ⟨fun hc => ⟨⟨hfile, h.1, h.2⟩, hc⟩, And.right⟩
  · rename_i h
    refine iff_of_false List.not_mem_nil ?_
    rintro ⟨hsource, _⟩
    exact h (by simp [hsource.suffix, hsource.noCompanion])

structure IsExisting (t : FileTree) (here : Path) (argument : Text) : Prop where
  proper : argument.any (·.toNat = 0) = false
  there : t.isFile (Path.resolve here (.ofText argument)) = true ∨
    t.isDirectory (Path.resolve here (.ofText argument)) = true

/-- Some argument is a directory from which `d` is reached. -/
def IsReachedBy (t : FileTree) (here : Path) (arguments : List Text) (d : Path) : Prop :=
  ∃ argument ∈ arguments, t.isDirectory (Path.resolve here (.ofText argument)) = true ∧
    Reaches t (Path.resolve here (.ofText argument)) d

/-- Some argument is the source file `p`. -/
def IsNamedBy (t : FileTree) (here : Path) (arguments : List Text) (p : Path) : Prop :=
  (∃ argument ∈ arguments, Path.resolve here (.ofText argument) = p) ∧ IsSource t p

theorem IsReachedBy.anchor_eq (h : IsReachedBy t here arguments d) : d.anchor = .root := by
  obtain ⟨_, _, _, hreaches⟩ := h
  obtain ⟨names, rfl, _⟩ := hreaches.steps
  rfl

theorem IsNamedBy.anchor_eq (h : IsNamedBy t here arguments p) : p.anchor = .root := by
  obtain ⟨⟨_, _, rfl⟩, _⟩ := h
  rfl

/-- What is chosen by arguments: the directories that are reached, and the sources that are named in
the directories that they lie in. -/
def IsChosenBy (t : FileTree) (here : Path) (arguments : List Text) : Choice → Prop
  | ⟨d, none⟩ => IsReachedBy t here arguments d
  | ⟨d, some p⟩ => IsNamedBy t here arguments p ∧ p.parent = d

theorem IsChosenBy.isAbsolute (h : IsChosenBy t here arguments c) : c.IsAbsolute := by
  obtain ⟨d, _ | p⟩ := c
  · exact ⟨IsReachedBy.anchor_eq h, nofun⟩
  · obtain ⟨hnamed, rfl⟩ := h
    refine ⟨hnamed.anchor_eq, ?_⟩
    rintro _ ⟨⟩
    exact hnamed.anchor_eq

theorem isChosenBy_iff :
    IsChosenBy t here arguments c ↔ ∃ a ∈ arguments, IsChosenBy t here [a] c := by
  obtain ⟨d, _ | p⟩ := c
  · simp [IsChosenBy, IsReachedBy]
  · simp only [IsChosenBy, IsNamedBy, List.mem_singleton, exists_eq_left]
    constructor
    · rintro ⟨⟨⟨a, ha, hp⟩, hsource⟩, hd⟩
      exact ⟨a, ha, ⟨hp, hsource⟩, hd⟩
    · rintro ⟨a, ha, ⟨hp, hsource⟩, hd⟩
      exact ⟨⟨⟨a, ha, hp⟩, hsource⟩, hd⟩

theorem isChosenBy_congr {more : List Text} (h : ∀ a, a ∈ arguments ↔ a ∈ more) :
    IsChosenBy t here arguments c ↔ IsChosenBy t here more c := by
  rw [isChosenBy_iff, @isChosenBy_iff t here more]
  simp only [h]

/-- An argument chooses what is reached from it, or itself. -/
theorem isChosenBy_singleton :
    let p := Path.resolve here (.ofText argument)
    IsChosenBy t here [argument] c ↔
      (t.isDirectory p = true ∧ Reaches t p c.directory ∧ c.file = none) ∨
        IsSource t p ∧ c = ⟨p.parent, some p⟩ := by
  obtain ⟨d, _ | p⟩ := c
  · simp [IsChosenBy, IsReachedBy]
  · simp only [IsChosenBy, IsNamedBy, List.mem_singleton, exists_eq_left, reduceCtorEq, and_false,
      false_or, Choice.mk.injEq, Option.some.injEq]
    constructor
    · rintro ⟨⟨rfl, hsource⟩, rfl⟩
      exact ⟨hsource, rfl, rfl⟩
    · rintro ⟨hsource, rfl, rfl⟩
      exact ⟨⟨rfl, hsource⟩, rfl⟩

theorem exists_ofArgument (h : IsExisting t here argument) :
    ∃ choices, ofArgument t here argument = .ok choices ∧
      ∀ c, c ∈ choices ↔ IsChosenBy t here [argument] c := by
  obtain ⟨hproper, hthere⟩ := h
  unfold ofArgument
  simp only [isChosenBy_singleton]
  generalize Path.resolve here (.ofText argument) = top at hthere ⊢
  rw [if_neg (by rw [hproper]; exact Bool.noConfusion)]
  cases hfile : t.isFile top with
  | true =>
    have hnodir : ¬t.isDirectory top = true := by
      obtain ⟨contents, hnode⟩ := FileTree.isFile_iff.1 hfile
      rw [FileTree.isDirectory, hnode]
      exact Bool.noConfusion
    refine ⟨_, if_pos rfl, fun c => ?_⟩
    rw [mem_ofFile_iff hfile]
    exact (or_iff_right fun h => hnodir h.1).symm
  | false =>
    have hdir : t.isDirectory top = true :=
      hthere.resolve_left (by rw [hfile]; exact Bool.noConfusion)
    have hnofile : ¬IsSource t top := by
      intro hsource
      rw [hsource.file] at hfile
      cases hfile
    rw [if_neg Bool.noConfusion, if_pos hdir]
    refine ⟨_, rfl, fun c => ?_⟩
    rw [mem_ofDirectory_iff, and_iff_right hdir]
    exact (or_iff_left fun h => hnofile h.1).symm

theorem exists_choices (h : ∀ a ∈ arguments, IsExisting t here a) :
    ∃ choices, arguments.mapM (ofArgument t here) = .ok choices ∧
      ∀ c, c ∈ choices.flatten ↔ IsChosenBy t here arguments c := by
  obtain ⟨choices, hchoices⟩ := exists_mapM fun a ha =>
    (exists_ofArgument (h a ha)).imp fun _ hof => hof.1
  refine ⟨choices, hchoices, fun c => ?_⟩
  rw [List.mem_flatten, isChosenBy_iff]
  constructor
  · rintro ⟨cs, hcs, hc⟩
    obtain ⟨a, ha, hof⟩ := (mem_of_mapM hchoices).1 hcs
    obtain ⟨cs', hof', hiff⟩ := exists_ofArgument (h a ha)
    cases hof.symm.trans hof'
    exact ⟨a, ha, (hiff c).1 hc⟩
  · rintro ⟨a, ha, hc⟩
    obtain ⟨cs, hof, hiff⟩ := exists_ofArgument (h a ha)
    exact ⟨cs, (mem_of_mapM hchoices).2 ⟨a, ha, hof⟩, (hiff c).2 hc⟩

end Choice

/-! ### What is selected -/

namespace Selection

open Choice

variable {t : FileTree} {here : Path} {arguments more : List Text} {choices : List Choice}

/-- The packages that arguments select: the directories that are reached as wholes, and others with
the sources in them that are named. -/
structure Selects (t : FileTree) (here : Path) (arguments : List Text)
    (packages : List (Path × Selection)) : Prop where
  once : (packages.map Prod.fst).Nodup
  whole : ∀ d, (d, whole) ∈ packages ↔ IsReachedBy t here arguments d
  partly : ∀ d, (∃ paths, (d, files paths) ∈ packages) ↔
    ¬IsReachedBy t here arguments d ∧ ∃ p, IsNamedBy t here arguments p ∧ p.parent = d
  files : ∀ d paths, (d, files paths) ∈ packages →
    paths.Nodup ∧ ∀ p, p ∈ paths ↔ IsNamedBy t here arguments p ∧ p.parent = d

theorem mem_directories_iff (h : ∀ c, c ∈ choices ↔ IsChosenBy t here arguments c) {d : Path} :
    d ∈ choices.map Choice.directory ↔
      IsReachedBy t here arguments d ∨ ∃ p, IsNamedBy t here arguments p ∧ p.parent = d := by
  simp only [List.mem_map, h]
  constructor
  · rintro ⟨⟨d, _ | p⟩, hc, rfl⟩
    · exact .inl hc
    · exact .inr ⟨p, hc⟩
  · rintro (hreached | ⟨p, hp⟩)
    · exact ⟨⟨d, none⟩, hreached, rfl⟩
    · exact ⟨⟨d, some p⟩, hp, rfl⟩

theorem selects_gather (h : ∀ c, c ∈ choices ↔ IsChosenBy t here arguments c) :
    Selects t here arguments (gather choices) := by
  have hwhole : ∀ d, ofChoices choices d = whole ↔ IsReachedBy t here arguments d :=
    fun d => ofChoices_eq_whole_iff.trans (h ⟨d, none⟩)
  refine ⟨nodup_directories_gather choices, fun d => ?_, fun d => ?_, fun d paths hmem => ?_⟩
  · rw [mem_gather, mem_directories_iff h, eq_comm (a := Selection.whole), hwhole]
    exact and_iff_right_of_imp .inl
  · simp only [mem_gather, mem_directories_iff h, exists_and_left, ← hwhole]
    cases ofChoices choices d <;> simp
  · obtain ⟨_, hof⟩ := mem_gather.1 hmem
    obtain ⟨hnodup, hpaths⟩ := ofChoices_eq_files hof.symm
    exact ⟨hnodup, fun p => (hpaths p).trans (h ⟨d, some p⟩)⟩

/-- The same arguments, in another order and repeated, select the same packages: as wholes the
directories that are reached, and of others the sources that are named. Or they select nothing, as
nothing is reached and nothing is named. -/
theorem ofArguments_sameMembers (hexisting : ∀ a ∈ arguments, IsExisting t here a)
    (hsame : ∀ a, a ∈ arguments ↔ a ∈ more) :
    (∃ packages, ofArguments t here arguments = .ok packages ∧
        ofArguments t here more = .ok packages ∧ Selects t here arguments packages) ∨
      (ofArguments t here arguments = .error (.noSources arguments) ∧
        ofArguments t here more = .error (.noSources more) ∧
        (∀ d, ¬IsReachedBy t here arguments d) ∧ ∀ p, ¬IsNamedBy t here arguments p) := by
  obtain ⟨choices, hchoices, hare⟩ := exists_choices hexisting
  obtain ⟨choices', hchoices', hare'⟩ := exists_choices fun a ha => hexisting a ((hsame a).2 ha)
  have hmem : ∀ c, c ∈ choices.flatten ↔ c ∈ choices'.flatten :=
    fun c => (hare c).trans ((isChosenBy_congr hsame).trans (hare' c).symm)
  have hgather : gather choices.flatten = gather choices'.flatten :=
    gather_congr (fun c hc => ((hare c).1 hc).isAbsolute) hmem
  by_cases hnil : gather choices.flatten = []
  · have hnone : ∀ c, ¬IsChosenBy t here arguments c := by
      intro c hc
      rw [← hare, gather_eq_nil_iff.1 hnil] at hc
      exact List.not_mem_nil hc
    refine .inr ⟨?_, ?_, fun d => hnone ⟨d, none⟩, fun p hp => hnone ⟨p.parent, some p⟩ ⟨hp, rfl⟩⟩
    · rw [ofArguments_eq, hchoices]
      exact if_pos hnil
    · rw [ofArguments_eq, hchoices']
      exact if_pos (hgather ▸ hnil)
  · exact .inl ⟨_, ofArguments_of_choices hchoices hnil,
      hgather ▸ ofArguments_of_choices hchoices' (hgather ▸ hnil), selects_gather hare⟩

def twoPackages : FileTree :=
  ⟨[(⟨.root, []⟩, .directory), (⟨.root, ["app"]⟩, .directory), (⟨.root, ["app", "a.py"]⟩, .file []),
    (⟨.root, ["lib"]⟩, .directory), (⟨.root, ["lib", "b.py"]⟩, .file []),
    (⟨.root, ["lib", "c.py"]⟩, .file [])]⟩

/-- Whether a file is named before or after the directory that it lies in, or twice, the directory
is selected as a whole, and of another one the file alone that is named. -/
theorem ofArguments_sameMembers_twoPackages :
    let arguments : List Text := ["app/a.py", "lib/b.py", "app"]
    let more : List Text := ["app", "lib/b.py", "app/a.py", "lib/b.py"]
    ((∀ a ∈ arguments, IsExisting twoPackages ⟨.root, []⟩ a) ∧
        ∀ a, a ∈ arguments ↔ a ∈ more) ∧
      ofArguments twoPackages ⟨.root, []⟩ more =
        .ok [(⟨.root, ["app"]⟩, whole), (⟨.root, ["lib"]⟩, files [⟨.root, ["lib", "b.py"]⟩])] := by
  intro arguments more
  have hexisting : ∀ a ∈ arguments, IsExisting twoPackages ⟨.root, []⟩ a := by
    intro a ha
    simp only [arguments, List.mem_cons, List.not_mem_nil, or_false] at ha
    rcases ha with rfl | rfl | rfl
    · exact ⟨by decide, by decide⟩
    · exact ⟨by decide, by decide⟩
    · exact ⟨by decide, by decide⟩
  have hsame : ∀ a, a ∈ arguments ↔ a ∈ more := by
    intro a
    simp only [arguments, more, List.mem_cons, List.not_mem_nil, or_false]
    grind
  have hfirst : ofArguments twoPackages ⟨.root, []⟩ arguments =
      .ok [(⟨.root, ["app"]⟩, whole), (⟨.root, ["lib"]⟩, files [⟨.root, ["lib", "b.py"]⟩])] := by
    have hcollect : (collect twoPackages ⟨.root, []⟩ arguments).map Table.entries =
        .ok [(⟨.root, ["app"]⟩, whole), (⟨.root, ["lib"]⟩, files [⟨.root, ["lib", "b.py"]⟩])] := by
      decide +kernel
    obtain ⟨packages, hpackages, hentries⟩ := exists_of_map hcollect
    rw [ofArguments, hpackages]
    simp only [bind, Except.bind, listing, hentries]
    rw [List.mergeSort_of_pairwise (by decide)]
    simp only [List.map_cons, List.map_nil, sorted, Path.sort, List.mergeSort_singleton]
  refine ⟨⟨hexisting, hsame⟩, ?_⟩
  rcases ofArguments_sameMembers hexisting hsame with ⟨packages, hok, hmore, _⟩ | ⟨herror, _⟩
  · cases hfirst.symm.trans hok
    exact hmore
  · cases hfirst.symm.trans herror

end Selection

end TypedQueries
