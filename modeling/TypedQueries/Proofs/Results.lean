/-!
# Results and errors

What follows when a computation that may fail returns: each of its steps has returned, and a list
is mapped or filtered as a whole when each of its members is.
-/

namespace TypedQueries

variable {ε ε' α β : Type}

theorem exists_of_bind {x : Except ε α} {f : α → Except ε β} {b : β} (h : x >>= f = .ok b) :
    ∃ a, x = .ok a ∧ f a = .ok b := by
  cases x with
  | error e => cases h
  | ok a => exact ⟨a, rfl, h⟩

theorem exists_of_map {x : Except ε α} {f : α → β} {b : β} (h : x.map f = .ok b) :
    ∃ a, x = .ok a ∧ f a = b := by
  cases x with
  | error e => cases h
  | ok a => exact ⟨a, rfl, Except.ok.inj h⟩

theorem mapError_ok (a : α) (f : ε → ε') : (Except.ok a : Except ε α).mapError f = .ok a := rfl

theorem mapError_error (e : ε) (f : ε → ε') :
    (Except.error e : Except ε α).mapError f = .error (f e) := rfl

theorem eq_ok_of_mapError {x : Except ε α} {f : ε → ε'} {a : α} (h : x.mapError f = .ok a) :
    x = .ok a := by
  cases x with
  | error e => cases h
  | ok b =>
    cases h
    rfl

/-! ### Lists -/

section Lists

variable {f g : α → Except ε β} {l : List α}

theorem mapM_congr (h : ∀ a ∈ l, f a = g a) : l.mapM f = l.mapM g := by
  induction l with
  | nil => rfl
  | cons a l ih =>
    rw [List.mapM_cons, List.mapM_cons, h a List.mem_cons_self,
      ih fun b hb => h b (List.mem_cons_of_mem a hb)]

theorem exists_mapM (h : ∀ a ∈ l, ∃ b, f a = .ok b) : ∃ bs, l.mapM f = .ok bs := by
  induction l with
  | nil => exact ⟨[], rfl⟩
  | cons a l ih =>
    obtain ⟨b, hb⟩ := h a List.mem_cons_self
    obtain ⟨bs, hbs⟩ := ih fun c hc => h c (List.mem_cons_of_mem a hc)
    refine ⟨b :: bs, ?_⟩
    rw [List.mapM_cons, hb, hbs]
    rfl

theorem mem_of_mapM {bs : List β} (h : l.mapM f = .ok bs) {b : β} :
    b ∈ bs ↔ ∃ a ∈ l, f a = .ok b := by
  induction l generalizing bs with
  | nil =>
    cases h
    simp
  | cons a l ih =>
    rw [List.mapM_cons] at h
    obtain ⟨c, hfirst, h⟩ := exists_of_bind h
    obtain ⟨cs, hrest, h⟩ := exists_of_bind h
    cases h
    simp [ih hrest, hfirst, eq_comm]

theorem filterM_of_ok {f : α → Except ε Bool} {g : α → Bool} (h : ∀ a, f a = .ok (g a))
    (l : List α) : l.filterM f = .ok (l.filter g) := by
  have hrun : ∀ acc, l.filterAuxM f acc = .ok ((l.filter g).reverse ++ acc) := by
    induction l with
    | nil => exact fun acc => rfl
    | cons a l ih =>
      intro acc
      have hstep : (a :: l).filterAuxM f acc = l.filterAuxM f (bif g a then a :: acc else acc) := by
        rw [List.filterAuxM, h a]
        rfl
      rw [hstep, ih]
      cases ha : g a <;> simp [ha]
  rw [List.filterM, hrun, List.append_nil]
  exact congrArg Except.ok (List.reverse_reverse _)

theorem mem_of_filterM {f : α → Except ε Bool} {kept : List α} (h : l.filterM f = .ok kept) {a : α}
    (ha : a ∈ kept) : a ∈ l := by
  have hrun : ∀ {acc out : List α}, l.filterAuxM f acc = .ok out → a ∈ out → a ∈ l ∨ a ∈ acc := by
    clear h
    induction l with
    | nil =>
      intro acc out hout hmem
      cases hout
      exact .inr hmem
    | cons b l ih =>
      intro acc out hout hmem
      obtain ⟨keep, _, hout⟩ := exists_of_bind hout
      rcases ih hout hmem with hl | hacc
      · exact .inl (List.mem_cons_of_mem b hl)
      · cases keep with
        | false => exact .inr hacc
        | true =>
          rcases List.mem_cons.1 hacc with rfl | hacc
          · exact .inl List.mem_cons_self
          · exact .inr hacc
  obtain ⟨out, hout, hkept⟩ := exists_of_bind h
  cases hkept
  exact (hrun hout (List.mem_reverse.1 ha)).resolve_right List.not_mem_nil

end Lists

end TypedQueries
