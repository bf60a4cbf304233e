import TypedQueries.Text.Basic

/-!
# Tables

Values under keys, in the order in which the keys came first. Giving a key another value leaves it
where it is. Most keys are names; packages and plans are tables of paths.
-/

namespace TypedQueries

/-- Values under keys, each key once. -/
structure Table (κ α : Type) where
  entries : List (κ × α)

namespace Table

variable {κ α : Type} [DecidableEq κ]

def empty : Table κ α := ⟨[]⟩

def get? (t : Table κ α) (key : κ) : Option α := t.entries.lookup key

def contains (t : Table κ α) (key : κ) : Bool := (t.get? key).isSome

def keys (t : Table κ α) : List κ := t.entries.map (·.1)

def values (t : Table κ α) : List α := t.entries.map (·.2)

/-- The entries with another value under a key, which goes to the end if it is new. -/
def insertInto (key : κ) (a : α) : List (κ × α) → List (κ × α)
  | [] => [(key, a)]
  | (n, b) :: rest => if n = key then (key, a) :: rest else (n, b) :: insertInto key a rest

def insert (t : Table κ α) (key : κ) (a : α) : Table κ α := ⟨insertInto key a t.entries⟩

/-- The table of some entries; of two under one key, the later one counts. -/
def ofList (entries : List (κ × α)) : Table κ α :=
  entries.foldl (fun t (key, a) => t.insert key a) empty

def erase (t : Table κ α) (key : κ) : Table κ α :=
  ⟨t.entries.filter fun (n, _) => n ≠ key⟩

theorem lookup_insertInto (entries : List (κ × α)) (key : κ) (a : α) (n : κ) :
    (insertInto key a entries).lookup n = if n = key then some a else entries.lookup n := by
  induction entries with
  | nil =>
    by_cases h : n = key
    · simp [insertInto, h]
    · have hb : (n == key) = false := beq_false_of_ne h
      simp [insertInto, List.lookup_cons, h, hb]
  | cons e rest ih =>
    obtain ⟨m, b⟩ := e
    by_cases hm : m = key
    · subst hm
      by_cases h : n = m
      · simp [insertInto, h]
      · have hb : (n == m) = false := beq_false_of_ne h
        simp [insertInto, List.lookup_cons, h, hb]
    · by_cases h : n = m
      · subst h
        simp [insertInto, hm]
      · have hb : (n == m) = false := beq_false_of_ne h
        simp [insertInto, List.lookup_cons, hm, hb, ih]

theorem get?_insert (t : Table κ α) (key : κ) (a : α) (n : κ) :
    (t.insert key a).get? n = if n = key then some a else t.get? n :=
  lookup_insertInto t.entries key a n

theorem contains_insert (t : Table κ α) (key : κ) (a : α) (n : κ) :
    (t.insert key a).contains n = true ↔ n = key ∨ t.contains n = true := by
  rw [contains, get?_insert]
  by_cases h : n = key <;> simp [h, contains]

theorem contains_ofList (entries : List (κ × α)) (n : κ) :
    (ofList entries).contains n = true ↔ n ∈ entries.map (·.1) := by
  have hfold : ∀ t : Table κ α,
      (entries.foldl (fun t (key, a) => t.insert key a) t).contains n = true ↔
        t.contains n = true ∨ n ∈ entries.map (·.1) := by
    induction entries with
    | nil => simp
    | cons e entries ih =>
      intro t
      rw [List.foldl_cons, ih, contains_insert, List.map_cons, List.mem_cons, or_assoc,
        or_left_comm]
  rw [ofList, hfold]
  exact or_iff_right Bool.false_ne_true

theorem mem_of_get? {t : Table κ α} {key : κ} {a : α} (h : t.get? key = some a) :
    (key, a) ∈ t.entries := by
  unfold get? at h
  generalize t.entries = l at h
  induction l with
  | nil => simp at h
  | cons e l ih =>
    obtain ⟨m, b⟩ := e
    by_cases hm : key = m
    · subst hm
      simp only [List.lookup_cons, beq_self_eq_true, Option.some.injEq] at h
      subst h
      exact List.mem_cons_self
    · have hb : (key == m) = false := beq_false_of_ne hm
      simp only [List.lookup_cons, hb] at h
      exact List.mem_cons_of_mem _ (ih h)

theorem insertInto_of_not_mem {entries : List (κ × α)} {key : κ}
    (h : key ∉ entries.map Prod.fst) (a : α) :
    insertInto key a entries = entries ++ [(key, a)] := by
  induction entries with
  | nil => rfl
  | cons e rest ih =>
    obtain ⟨n, b⟩ := e
    rw [List.map_cons, List.mem_cons, not_or] at h
    rw [insertInto, if_neg (Ne.symm h.1), ih h.2]
    rfl

theorem mem_insertInto {entries : List (κ × α)} {key : κ} {a : α} {e : κ × α}
    (h : e ∈ insertInto key a entries) : e = (key, a) ∨ e ∈ entries := by
  induction entries with
  | nil => exact .inl (List.mem_singleton.1 h)
  | cons d rest ih =>
    obtain ⟨n, b⟩ := d
    unfold insertInto at h
    split at h
    · rcases List.mem_cons.1 h with rfl | h
      · exact .inl rfl
      · exact .inr (List.mem_cons_of_mem _ h)
    · rcases List.mem_cons.1 h with rfl | h
      · exact .inr List.mem_cons_self
      · exact (ih h).imp_right (List.mem_cons_of_mem _)

theorem mem_ofList {entries : List (κ × α)} {e : κ × α} (h : e ∈ (ofList entries).entries) :
    e ∈ entries := by
  have hfold : ∀ t : Table κ α,
      e ∈ (entries.foldl (fun t (key, a) => t.insert key a) t).entries →
        e ∈ t.entries ∨ e ∈ entries := by
    clear h
    induction entries with
    | nil => exact fun t h => .inl h
    | cons d entries ih =>
      intro t h
      rcases ih _ h with h | h
      · rcases mem_insertInto h with rfl | h
        · exact .inr List.mem_cons_self
        · exact .inl h
      · exact .inr (List.mem_cons_of_mem _ h)
  exact (hfold empty h).resolve_left List.not_mem_nil

end Table

end TypedQueries
