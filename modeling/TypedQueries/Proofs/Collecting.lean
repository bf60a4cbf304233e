import TypedQueries.Generation.Selection
import TypedQueries.Proofs.Lists
import TypedQueries.Proofs.Results
import TypedQueries.Proofs.Tables

/-!
# Taking in what arguments choose

The packages that arguments select are taken in choice by choice. What becomes of a directory is
told by the choices in it: it is selected as a whole if one of them is the whole of it, and
otherwise the files are selected that they name. A choice changes this for its own directory only,
and there as it changes the selection so far, so that by induction every run of choices comes to it.
-/

namespace TypedQueries.Selection

variable {choices more : List Choice} {packages : Table Path Selection} {c : Choice} {d : Path}

/-! ### One choice -/

/-- What a choice of the whole or of a file makes of what is selected of its directory. -/
def absorb : Option Selection → Option Path → Selection
  | some whole, _ => whole
  | _, none => whole
  | none, some p => files [p]
  | some (files paths), some p => files (if paths.contains p then paths else paths ++ [p])

theorem get?_select (packages : Table Path Selection) (c : Choice) (d : Path) :
    (select packages c).get? d =
      if d = c.directory then some (absorb (packages.get? d) c.file) else packages.get? d := by
  unfold select
  by_cases hd : d = c.directory
  · subst hd
    rw [if_pos rfl]
    split
    · rename_i hwhole
      rw [hwhole]
      rfl
    all_goals
      rename_i hfile
      simp_all [Table.get?_insert, absorb]
  · rw [if_neg hd]
    split
    · rfl
    all_goals rw [Table.get?_insert, if_neg hd]

theorem keys_select (packages : Table Path Selection) (c : Choice) :
    (select packages c).keys =
      if c.directory ∈ packages.keys then packages.keys else packages.keys ++ [c.directory] := by
  unfold select
  split
  · rename_i hwhole
    have hmem : c.directory ∈ packages.keys :=
      List.mem_map.2 ⟨_, Table.mem_of_get? hwhole, rfl⟩
    rw [if_pos hmem]
  all_goals exact Table.map_fst_insertInto _ _ _

/-! ### Runs of choices -/

def filesOf (choices : List Choice) (d : Path) : List Path :=
  (choices.filter (·.directory = d)).filterMap Choice.file

/-- What choices come to for one directory: a choice of the whole outweighs those of files. -/
def merged (choices : List Choice) (d : Path) : Selection :=
  if choices.contains ⟨d, none⟩ then whole else files (filesOf choices d).eraseDups

theorem mem_filesOf {p : Path} : p ∈ filesOf choices d ↔ ⟨d, some p⟩ ∈ choices := by
  simp only [filesOf, List.mem_filterMap, List.mem_filter, decide_eq_true_eq]
  constructor
  · rintro ⟨c, ⟨hc, rfl⟩, hp⟩
    exact hp ▸ hc
  · exact fun h => ⟨_, ⟨h, rfl⟩, rfl⟩

theorem merged_concat_of_ne (h : d ≠ c.directory) : merged
    (choices ++ [c]) d = merged choices d := by
  have hcontains : (choices ++ [c]).contains ⟨d, none⟩ = choices.contains ⟨d, none⟩ := by
    rw [Bool.eq_iff_iff, List.contains_iff_mem, List.contains_iff_mem, List.mem_append,
      List.mem_singleton]
    exact or_iff_left fun hc => h (congrArg Choice.directory hc)
  have hfiles : filesOf (choices ++ [c]) d = filesOf choices d := by
    unfold filesOf
    rw [List.filter_append, List.filter_singleton, decide_eq_false h.symm]
    exact congrArg _ (List.append_nil _)
  rw [merged, merged, hcontains, hfiles]

/-- A choice changes the selection of its directory as it is absorbed by it. -/
theorem merged_concat_self (choices : List Choice) (c : Choice) :
    merged (choices ++ [c]) c.directory =
      absorb (if c.directory ∈ choices.map Choice.directory then some (merged choices c.directory)
        else none) c.file := by
  obtain ⟨d, file⟩ := c
  dsimp only
  have hcontains : (choices ++ [(⟨d, file⟩ : Choice)]).contains ⟨d, none⟩ =
      (choices.contains ⟨d, none⟩ || file.isNone) := by
    rw [Bool.eq_iff_iff, List.contains_iff_mem, List.mem_append, List.mem_singleton,
      Bool.or_eq_true, List.contains_iff_mem, Option.isNone_iff_eq_none]
    simp [eq_comm]
  have hfiles :
      filesOf (choices ++ [(⟨d, file⟩ : Choice)]) d = filesOf choices d ++ file.toList := by
    unfold filesOf
    rw [List.filter_append, List.filterMap_append]
    cases file <;> simp
  by_cases hdir : d ∈ choices.map Choice.directory
  · rw [if_pos hdir, merged, merged, hcontains, hfiles]
    cases hwhole : choices.contains ⟨d, none⟩ with
    | true => rfl
    | false =>
      cases file with
      | none => rfl
      | some p =>
        simp only [Bool.false_or, Option.isNone_some, Bool.false_eq_true, if_false, absorb,
          Option.toList_some, List.contains_iff_mem, List.mem_eraseDups]
        split
        · rename_i hp
          rw [eraseDups_concat_of_mem hp]
        · rename_i hp
          rw [eraseDups_concat_of_not_mem hp]
  · have hnone (file' : Option Path) : (⟨d, file'⟩ : Choice) ∉ choices :=
      fun hmem => hdir (List.mem_map_of_mem hmem)
    have hempty : filesOf choices d = [] :=
      List.eq_nil_iff_forall_not_mem.2 fun p hp => hnone (some p) (mem_filesOf.1 hp)
    have hwhole : choices.contains ⟨d, none⟩ = false := by
      rw [← Bool.not_eq_true, List.contains_iff_mem]
      exact hnone none
    rw [if_neg hdir, merged, hcontains, hfiles, hempty, hwhole]
    cases file <;> rfl

/-- After a run of choices each of their directories is selected as they come to for it. -/
theorem get?_foldl_select (choices : List Choice) (d : Path) :
    (choices.foldl select .empty).get? d =
      if d ∈ choices.map Choice.directory then some (merged choices d) else none := by
  induction choices using List.reverseRecOn with
  | nil => rfl
  | append_singleton choices c ih =>
    rw [List.foldl_append, List.foldl_cons, List.foldl_nil, get?_select, ih]
    by_cases hd : d = c.directory
    · subst hd
      rw [if_pos rfl, merged_concat_self]
      simp
    · rw [if_neg hd, merged_concat_of_ne hd]
      simp [hd]

theorem keys_foldl_select (choices : List Choice) :
    (choices.foldl select .empty).keys = (choices.map Choice.directory).eraseDups := by
  induction choices using List.reverseRecOn with
  | nil => rfl
  | append_singleton choices c ih =>
    rw [List.foldl_append, List.foldl_cons, List.foldl_nil, keys_select, ih, List.map_append,
      List.map_singleton]
    split
    · rename_i hmem
      exact (eraseDups_concat_of_mem (List.mem_eraseDups.1 hmem)).symm
    · rename_i hmem
      exact (eraseDups_concat_of_not_mem fun h => hmem (List.mem_eraseDups.2 h)).symm

theorem entries_foldl_select (choices : List Choice) :
    (choices.foldl select .empty).entries =
      (choices.map Choice.directory).eraseDups.map fun d => (d, merged choices d) := by
  have hkeys := keys_foldl_select choices
  have hget := get?_foldl_select choices
  generalize choices.foldl select .empty = packages at hkeys hget
  rw [← hkeys, Table.keys, List.map_map]
  have hnodup : packages.keys.Nodup := hkeys ▸ nodup_eraseDups _
  conv_lhs => rw [← List.map_id packages.entries]
  refine List.map_congr_left fun e he => ?_
  have hdir : e.1 ∈ choices.map Choice.directory := by
    rw [← List.mem_eraseDups, ← hkeys]
    exact List.mem_map_of_mem he
  have hentry := (hget e.1).symm.trans (Table.get?_of_mem hnodup he)
  rw [if_pos hdir, Option.some.injEq] at hentry
  exact Prod.ext rfl hentry.symm

/-! ### The listing -/

/-- What choices come to for one directory, with the files in ascending order. -/
def ofChoices (choices : List Choice) (d : Path) : Selection :=
  if choices.contains ⟨d, none⟩ then whole else files (Path.sort (filesOf choices d).eraseDups)

/-- The directories of choices, in ascending order and each once, with what is selected of them. -/
def gather (choices : List Choice) : List (Path × Selection) :=
  (Path.sort (choices.map Choice.directory).eraseDups).map fun d => (d, ofChoices choices d)

theorem listing_foldl_select (choices : List Choice) :
    listing (choices.foldl select .empty) = gather choices := by
  have hsort (ds : List Path) : (ds.map fun d => (d, merged choices d)).mergeSort
      (fun a b => a.1.atMost b.1) = (Path.sort ds).map fun d => (d, merged choices d) :=
    (List.map_mergeSort (r := Path.atMost) (f := fun d => (d, merged choices d))
      fun _ _ _ _ => rfl).symm
  rw [listing, entries_foldl_select, hsort, List.map_map]
  refine List.map_congr_left fun d _ => Prod.ext rfl ?_
  simp only [Function.comp_apply, merged, ofChoices]
  split <;> rfl

/-- Arguments are taken in as their choices are, one after the other. -/
theorem collect_eq (t : FileTree) (here : Path) (arguments : List Text) :
    collect t here arguments =
      (arguments.mapM (Choice.ofArgument t here)).map fun choices =>
        choices.flatten.foldl select .empty := by
  have hfrom : ∀ packages : Table Path Selection,
      arguments.foldlM (fun packages argument => do
          return (← Choice.ofArgument t here argument).foldl select packages) packages =
        (arguments.mapM (Choice.ofArgument t here)).map fun choices =>
          choices.flatten.foldl select packages := by
    induction arguments with
    | nil => exact fun _ => rfl
    | cons argument arguments ih =>
      intro packages
      rw [List.foldlM_cons, List.mapM_cons]
      cases Choice.ofArgument t here argument with
      | error e => rfl
      | ok choices =>
        refine (ih _).trans ?_
        cases arguments.mapM (Choice.ofArgument t here) with
        | error e => rfl
        | ok rest => exact congrArg Except.ok (List.foldl_append ..).symm
  exact hfrom .empty


theorem mem_gather {x : Path × Selection} :
    x ∈ gather choices ↔ x.1 ∈ choices.map Choice.directory ∧ x.2 = ofChoices choices x.1 := by
  unfold gather
  rw [List.mem_map]
  constructor
  · rintro ⟨d, hd, rfl⟩
    rw [Path.sort, List.mem_mergeSort, List.mem_eraseDups] at hd
    exact ⟨hd, rfl⟩
  · rintro ⟨hd, hx⟩
    refine ⟨x.1, ?_, Prod.ext rfl hx.symm⟩
    rw [Path.sort, List.mem_mergeSort, List.mem_eraseDups]
    exact hd

theorem mem_directories_gather :
    d ∈ (gather choices).map Prod.fst ↔ d ∈ choices.map Choice.directory := by
  constructor
  · intro hd
    obtain ⟨x, hx, rfl⟩ := List.mem_map.1 hd
    exact (mem_gather.1 hx).1
  · intro hd
    exact List.mem_map.2 ⟨(d, ofChoices choices d), mem_gather.2 ⟨hd, rfl⟩, rfl⟩

theorem nodup_directories_gather (choices : List Choice) :
    ((gather choices).map Prod.fst).Nodup := by
  have hdirs : (gather choices).map Prod.fst =
      Path.sort (choices.map Choice.directory).eraseDups := by
    unfold gather
    rw [List.map_map]
    exact List.map_id _
  rw [hdirs]
  exact (List.mergeSort_perm _ _).nodup_iff.2 (nodup_eraseDups _)

theorem ofChoices_congr
    (h : (choices.filter fun c => c.directory = d) = more.filter fun c => c.directory = d) :
    ofChoices choices d = ofChoices more d := by
  have hcontains : ∀ cs : List Choice, cs.contains ⟨d, none⟩ =
      (cs.filter fun c => c.directory = d).contains ⟨d, none⟩ := by
    intro cs
    rw [Bool.eq_iff_iff, List.contains_iff_mem, List.contains_iff_mem, List.mem_filter]
    simp
  unfold ofChoices filesOf
  rw [hcontains choices, h, ← hcontains more]

theorem filter_directory_eq_nil (h : d ∉ choices.map Choice.directory) :
    (choices.filter fun c => c.directory = d) = [] := by
  rw [List.filter_eq_nil_iff]
  intro c hc hd
  exact h (of_decide_eq_true hd ▸ List.mem_map_of_mem hc)

/-- Choices in different directories select what they select separately. -/
theorem gather_append_perm
    (h : ∀ d ∈ choices.map Choice.directory, d ∉ more.map Choice.directory) :
    (gather (choices ++ more)).Perm (gather choices ++ gather more) := by
  have hleft : ∀ d ∈ choices.map Choice.directory,
      ofChoices (choices ++ more) d = ofChoices choices d := by
    intro d hd
    apply ofChoices_congr
    rw [List.filter_append, filter_directory_eq_nil (h d hd), List.append_nil]
  have hright : ∀ d ∈ more.map Choice.directory,
      ofChoices (choices ++ more) d = ofChoices more d := by
    intro d hd
    apply ofChoices_congr
    rw [List.filter_append, filter_directory_eq_nil fun hmem => h d hmem hd, List.nil_append]
  have hdisjoint : List.Disjoint ((gather choices).map Prod.fst) ((gather more).map Prod.fst) := by
    intro d hd hd'
    exact h d (mem_directories_gather.1 hd) (mem_directories_gather.1 hd')
  have hnodup : ((gather choices ++ gather more).map Prod.fst).Nodup := by
    rw [List.map_append]
    exact (nodup_directories_gather choices).append (nodup_directories_gather more) hdisjoint
  rw [List.perm_ext_iff_of_nodup (nodup_directories_gather _).of_map hnodup.of_map]
  intro x
  rw [List.mem_append, mem_gather, mem_gather, mem_gather, List.map_append, List.mem_append]
  constructor
  · rintro ⟨hd | hd, hx⟩
    · exact .inl ⟨hd, hx.trans (hleft x.1 hd)⟩
    · exact .inr ⟨hd, hx.trans (hright x.1 hd)⟩
  · rintro (⟨hd, hx⟩ | ⟨hd, hx⟩)
    · exact ⟨.inl hd, hx.trans (hleft x.1 hd).symm⟩
    · exact ⟨.inr hd, hx.trans (hright x.1 hd).symm⟩

theorem ofArguments_eq (t : FileTree) (here : Path) (arguments : List Text) :
    ofArguments t here arguments = arguments.mapM (Choice.ofArgument t here) >>= fun choices =>
      if gather choices.flatten = [] then .error (.noSources arguments)
      else .ok (gather choices.flatten) := by
  rw [ofArguments, collect_eq]
  cases arguments.mapM (Choice.ofArgument t here) with
  | error e => rfl
  | ok choices =>
    simp only [Except.map, bind, Except.bind, listing_foldl_select]
    split
    · rename_i hnil
      rw [if_pos hnil]
    · rename_i hne
      rw [if_neg hne]

theorem ofArguments_eq_ok {t : FileTree} {here : Path} {arguments : List Text}
    {packages : List (Path × Selection)} (h : ofArguments t here arguments = .ok packages) :
    ∃ choices, arguments.mapM (Choice.ofArgument t here) = .ok choices ∧
      packages = gather choices.flatten ∧ packages ≠ [] := by
  rw [ofArguments_eq] at h
  obtain ⟨choices, hchoices, h⟩ := exists_of_bind h
  split at h
  · cases h
  · rename_i hne
    cases h
    exact ⟨choices, hchoices, rfl, hne⟩

theorem ofArguments_of_choices {t : FileTree} {here : Path} {arguments : List Text}
    {choices : List (List Choice)} (h : arguments.mapM (Choice.ofArgument t here) = .ok choices)
    (hne : gather choices.flatten ≠ []) :
    ofArguments t here arguments = .ok (gather choices.flatten) := by
  rw [ofArguments_eq, h]
  exact if_neg hne

end TypedQueries.Selection
