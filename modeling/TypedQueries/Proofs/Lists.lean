import Mathlib.Data.List.Induction
import Mathlib.Data.List.Nodup

/-!
# Lists without repetitions

Facts about lists that the theory of several modules needs: names and paths are kept once each, in
the order in which they came first.
-/

namespace TypedQueries

section EraseDups

variable {α : Type} [BEq α] [LawfulBEq α]

theorem eraseDups_concat_of_mem {l : List α} {a : α} (ha : a ∈ l) :
    (l ++ [a]).eraseDups = l.eraseDups := by
  have hnone : [a].removeAll l = [] := by simp [List.removeAll, ha]
  rw [List.eraseDups_append, hnone, List.eraseDups_nil, List.append_nil]

theorem eraseDups_concat_of_not_mem {l : List α} {a : α} (ha : a ∉ l) :
    (l ++ [a]).eraseDups = l.eraseDups ++ [a] := by
  have hone : [a].removeAll l = [a] := by simp [List.removeAll, ha]
  rw [List.eraseDups_append, hone]
  simp [List.eraseDups_cons]

theorem nodup_eraseDups (l : List α) : l.eraseDups.Nodup := by
  induction l using List.reverseRecOn with
  | nil => simp
  | append_singleton l a ih =>
    by_cases ha : a ∈ l
    · rwa [eraseDups_concat_of_mem ha]
    · rw [eraseDups_concat_of_not_mem ha, List.nodup_append]
      refine ⟨ih, List.nodup_singleton a, fun b hb c hc he => ha ?_⟩
      exact List.mem_singleton.1 hc ▸ he ▸ List.mem_eraseDups.1 hb

end EraseDups

/-- What is made of some members of a list leads back to those of them that something is made of. -/
theorem map_filterMap_eq_filter {α β : Type} {f : α → Option β} {g : β → α}
    (h : ∀ a b, f a = some b → g b = a) (l : List α) :
    (l.filterMap f).map g = l.filter fun a => (f a).isSome := by
  induction l with
  | nil => rfl
  | cons a l ih =>
    cases hf : f a with
    | none => rw [List.filterMap_cons_none hf, List.filter_cons_of_neg (by simp [hf]), ih]
    | some b =>
      rw [List.filterMap_cons_some hf, List.filter_cons_of_pos (by simp [hf]), List.map_cons,
        h a b hf, ih]

/-- Groups by the values of a function are the members of a list in another order. -/
theorem flatMap_filter_perm {α β : Type} [DecidableEq β] (f : α → β) (keys : List β)
    (hn : keys.Nodup) (l : List α) (h : ∀ a ∈ l, f a ∈ keys) :
    (keys.flatMap fun k => l.filter fun a => f a = k).Perm l := by
  induction keys generalizing l with
  | nil =>
    have hl : l = [] := List.eq_nil_iff_forall_not_mem.2 fun a ha => by cases h a ha
    rw [hl]
    exact .nil
  | cons k keys ih =>
    obtain ⟨hk, hn⟩ := List.nodup_cons.1 hn
    -- the other groups are those of the list without the first group
    have hrest : (keys.flatMap fun j => l.filter fun a => f a = j) =
        keys.flatMap fun j => (l.filter fun a => !decide (f a = k)).filter fun a => f a = j := by
      refine List.flatMap_congr fun j hj => ?_
      rw [List.filter_filter]
      refine List.filter_congr fun a _ => ?_
      by_cases ha : f a = j
      · have hjk : j ≠ k := fun he => hk (he ▸ hj)
        simp [ha, hjk]
      · simp [ha]
    rw [List.flatMap_cons, hrest]
    refine ((ih hn _ fun a ha => ?_).append_left _).trans (List.filter_append_perm _ l)
    have hne : f a ≠ k := by simpa using (List.mem_filter.1 ha).2
    exact (List.mem_cons.1 (h a (List.mem_filter.1 ha).1)).resolve_left hne

end TypedQueries
