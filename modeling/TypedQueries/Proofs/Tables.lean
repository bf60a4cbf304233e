import Mathlib.Data.List.Induction
import Mathlib.Data.List.Nodup
import TypedQueries.Table

/-!
# Tables

A table has each key once, so an entry of it is what it holds under its key. Its entries follow the
list that it was made of, less those under keys that came before.
-/

namespace TypedQueries.Table

variable {κ α : Type} [DecidableEq κ] {t : Table κ α} {key : κ} {a : α}

theorem map_fst_insertInto (entries : List (κ × α)) (key : κ) (a : α) :
    (insertInto key a entries).map Prod.fst =
      if key ∈ entries.map Prod.fst then entries.map Prod.fst
      else entries.map Prod.fst ++ [key] := by
  induction entries with
  | nil => rfl
  | cons e rest ih =>
    obtain ⟨n, b⟩ := e
    by_cases hn : n = key
    · subst hn
      simp [insertInto]
    · rw [insertInto, if_neg hn, List.map_cons, ih, List.map_cons]
      by_cases hkey : key ∈ rest.map Prod.fst
      · rw [if_pos hkey, if_pos (List.mem_cons_of_mem _ hkey)]
      · rw [if_neg hkey, if_neg fun h => hkey ((List.mem_cons.1 h).resolve_left (Ne.symm hn))]
        rfl

theorem nodup_insertInto {entries : List (κ × α)} (h : (entries.map Prod.fst).Nodup)
    (key : κ) (a : α) : ((insertInto key a entries).map Prod.fst).Nodup := by
  rw [map_fst_insertInto]
  split
  · exact h
  · rename_i hkey
    refine List.nodup_append.2 ⟨h, List.nodup_singleton key, fun b hb c hc he => hkey ?_⟩
    exact List.mem_singleton.1 hc ▸ he ▸ hb

theorem ofList_concat (entries : List (κ × α)) (key : κ) (a : α) :
    ofList (entries ++ [(key, a)]) = (ofList entries).insert key a := by
  rw [ofList, List.foldl_append]
  rfl

theorem nodup_ofList (entries : List (κ × α)) :
    ((ofList entries).entries.map Prod.fst).Nodup := by
  induction entries using List.reverseRecOn with
  | nil => exact List.nodup_nil
  | append_singleton entries e ih =>
    rw [ofList_concat]
    exact nodup_insertInto ih e.1 e.2

theorem entries_ofList {entries : List (κ × α)} (h : (entries.map Prod.fst).Nodup) :
    (ofList entries).entries = entries := by
  induction entries using List.reverseRecOn with
  | nil => rfl
  | append_singleton entries e ih =>
    rw [List.map_append, List.nodup_append] at h
    have hnew : e.1 ∉ (ofList entries).entries.map Prod.fst := by
      rw [ih h.1]
      exact fun hmem => h.2.2 e.1 hmem e.1 (by simp) rfl
    rw [ofList_concat, insert, insertInto_of_not_mem hnew, ih h.1]

theorem get?_of_mem (h : (t.entries.map Prod.fst).Nodup) (hmem : (key, a) ∈ t.entries) :
    t.get? key = some a := by
  cases hget : t.get? key with
  | none =>
    have hnone := List.lookup_eq_none_iff.1 hget (key, a) hmem
    simp at hnone
  | some b =>
    have hsame := List.inj_on_of_nodup_map h (mem_of_get? hget) hmem rfl
    rw [(Prod.mk.inj hsame).2]

/-- An entry that is left out by its key is one that need not be put in. -/
theorem filter_insertInto (keep : κ → Bool) (key : κ) (a : α) (entries : List (κ × α)) :
    (insertInto key a entries).filter (fun e => keep e.1) =
      if keep key then insertInto key a (entries.filter fun e => keep e.1)
      else entries.filter fun e => keep e.1 := by
  induction entries with
  | nil => cases h : keep key <;> simp [insertInto, h]
  | cons e rest ih =>
    obtain ⟨n, b⟩ := e
    by_cases hn : n = key
    · subst hn
      cases h : keep n <;> simp [insertInto, h]
    · cases h : keep key <;> cases h' : keep n <;> simp_all [insertInto]

theorem filter_ofList (keep : κ → Bool) (entries : List (κ × α)) :
    (ofList entries).entries.filter (fun e => keep e.1) =
      (ofList (entries.filter fun e => keep e.1)).entries := by
  induction entries using List.reverseRecOn with
  | nil => rfl
  | append_singleton entries e ih =>
    obtain ⟨key, a⟩ := e
    rw [ofList_concat, insert, filter_insertInto, ih, List.filter_append]
    cases h : keep key
    · simp [h]
    · simp only [List.filter_singleton, h, if_true]
      exact (congrArg Table.entries (ofList_concat _ key a)).symm

end TypedQueries.Table
