import Mathlib.Data.List.Basic
import TypedQueries.Proofs.LineFeeds

/-!
# Lines of a file

A line of the source ends at a line feed, at a carriage return, or at both together. A preamble is
counted in such lines, but it is cut where as many line feeds have passed. So the cut may lie
behind the lines that were counted and never before their end.
-/

namespace TypedQueries.Companion

/-- Whether a line of the source ends at a byte that stands before `rest`. -/
def endsLine (b : UInt8) (rest : Bytes) : Bool :=
  b = lineFeed || (b = carriageReturn && rest.head? ≠ some lineFeed)

/-- The first `n` lines of a file, with what ends them; all of it when there are fewer. -/
def firstLines : (n : Nat) → Bytes → Bytes
  | 0, _ => []
  | _ + 1, [] => []
  | n + 1, b :: r => b :: firstLines (if endsLine b r then n else n + 1) r

def lineEnds : Bytes → Nat
  | [] => 0
  | b :: r => (if endsLine b r then 1 else 0) + lineEnds r

@[simp] theorem firstLines_nil (n : Nat) : firstLines n [] = [] := by
  cases n <;> rfl

theorem endsLine_lineFeed (rest : Bytes) : endsLine lineFeed rest = true := rfl

theorem endsLine_iff {b : UInt8} {rest : Bytes} :
    endsLine b rest = true ↔
      b = lineFeed ∨ (b = carriageReturn ∧ rest.head? ≠ some lineFeed) := by
  simp [endsLine]

/-! ### The lines that a file begins with -/

theorem isPrefix_firstLines (n : Nat) (bs : Bytes) : firstLines n bs <+: bs := by
  induction bs generalizing n with
  | nil => simp
  | cons b r ih =>
    cases n with
    | zero => exact List.nil_prefix
    | succ n => exact List.cons_prefix_cons.2 ⟨rfl, ih _⟩

/-- One line more begins with the lines before, and there is more of it unless these are all. -/
theorem firstLines_succ (n : Nat) (bs : Bytes) :
    firstLines n bs <+: firstLines (n + 1) bs ∧
      (firstLines (n + 1) bs = firstLines n bs → firstLines n bs = bs) := by
  induction bs generalizing n with
  | nil => simp
  | cons b r ih =>
    cases n with
    | zero =>
      refine ⟨List.nil_prefix, fun h => ?_⟩
      rw [firstLines, firstLines] at h
      cases h
    | succ n =>
      rw [firstLines, firstLines, List.cons_prefix_cons, List.cons.injEq, List.cons.injEq]
      split
      · exact ⟨⟨rfl, (ih n).1⟩, fun h => ⟨rfl, (ih n).2 h.2⟩⟩
      · exact ⟨⟨rfl, (ih (n + 1)).1⟩, fun h => ⟨rfl, (ih (n + 1)).2 h.2⟩⟩

theorem firstLines_mono {m n : Nat} (h : m ≤ n) (bs : Bytes) :
    firstLines m bs <+: firstLines n bs := by
  induction h with
  | refl => exact List.prefix_rfl
  | step _ ih => exact ih.trans (firstLines_succ _ bs).1

theorem length_firstLines_le (n : Nat) (bs : Bytes) :
    (firstLines n bs).length ≤ bytesOfLines n bs := by
  induction bs generalizing n with
  | nil => simp
  | cons b r ih =>
    cases n with
    | zero => simp [firstLines]
    | succ n =>
      rw [firstLines, bytesOfLines, List.length_cons, Nat.add_le_add_iff_right]
      by_cases hb : b = lineFeed
      · subst hb
        rw [endsLine_lineFeed, if_pos rfl, if_pos rfl]
        exact ih n
      · rw [if_neg hb]
        split
        · exact (firstLines_succ n r).1.length_le.trans (ih (n + 1))
        · exact ih (n + 1)

theorem firstLines_prefix_take (n : Nat) (bs : Bytes) :
    firstLines n bs <+: bs.take (bytesOfLines n bs) :=
  List.prefix_of_prefix_length_le (isPrefix_firstLines n bs) (List.take_prefix _ bs) (by
    rw [length_take_bytesOfLines]
    exact length_firstLines_le n bs)

/-! ### Ends of lines -/

/-- No line ends among bytes that are neither line feeds nor carriage returns. -/
theorem lineEnds_append {w : Bytes} (hfeed : lineFeed ∉ w) (hreturn : carriageReturn ∉ w)
    (r : Bytes) : lineEnds (w ++ r) = lineEnds r := by
  induction w with
  | nil => rfl
  | cons b w ih =>
    obtain ⟨hb, hw⟩ := List.ne_and_not_mem_of_not_mem_cons hfeed
    obtain ⟨hb', hw'⟩ := List.ne_and_not_mem_of_not_mem_cons hreturn
    rw [List.cons_append, lineEnds, ih hw hw']
    simp [endsLine, hb.symm, hb'.symm]

theorem isPrefix_firstLines_of_lineEnds {n : Nat} {front : Bytes} (h : lineEnds front < n)
    (back : Bytes) : front <+: firstLines n (front ++ back) := by
  induction front generalizing n with
  | nil => exact List.nil_prefix
  | cons b r ih =>
    have hless : endsLine b (r ++ back) = true → endsLine b r = true := by
      simp only [endsLine_iff]
      rintro (hb | ⟨hb, hnext⟩)
      · exact .inl hb
      · refine .inr ⟨hb, fun hr => hnext ?_⟩
        rw [List.head?_append, hr]
        rfl
    cases n with
    | zero => cases h
    | succ n =>
      rw [lineEnds] at h
      rw [List.cons_append, firstLines, List.cons_prefix_cons]
      refine ⟨rfl, ih ?_⟩
      split
      · rename_i hend
        rw [if_pos (hless hend)] at h
        omega
      · exact (Nat.le_add_left _ _).trans_lt h

/-! ### Carriage returns -/

/-- Whether each carriage return is followed by a line feed, so that line feeds alone end lines. -/
def HasNoBareReturn (bs : Bytes) : Prop :=
  ∀ r, carriageReturn :: r <:+ bs → r.head? = some lineFeed

theorem hasNoBareReturn_nil : HasNoBareReturn [] := by
  intro r h
  cases List.suffix_nil.1 h

theorem hasNoBareReturn_cons {b : UInt8} {r : Bytes} :
    HasNoBareReturn (b :: r) ↔
      (b = carriageReturn → r.head? = some lineFeed) ∧ HasNoBareReturn r := by
  constructor
  · intro h
    exact ⟨fun hb => h r (hb ▸ List.suffix_rfl), fun s hs => h s (hs.trans (List.suffix_cons b r))⟩
  · rintro ⟨hb, hr⟩ s hs
    rcases List.suffix_cons_iff.1 hs with he | hs
    · obtain ⟨rfl, rfl⟩ := List.cons.inj he
      exact hb rfl
    · exact hr s hs

theorem hasNoBareReturn_of_notMem {bs : Bytes} (h : carriageReturn ∉ bs) : HasNoBareReturn bs :=
  fun _ hr => absurd (hr.subset List.mem_cons_self) h

/-- One more line feed passes within the first `n` lines only where the file ends with them. -/
theorem bytesOfLines_succ_eq_iff (n : Nat) (bs : Bytes) :
    bytesOfLines (n + 1) bs = (firstLines n bs).length ↔ firstLines n bs = bs := by
  have hlines := length_firstLines_le (n + 1) bs
  obtain ⟨hpre, hall⟩ := firstLines_succ n bs
  have hmore := hpre.length_le
  constructor
  · intro h
    exact hall (hpre.eq_of_length (by omega)).symm
  · intro h
    have hbytes := bytesOfLines_le_length (n + 1) bs
    rw [h] at hmore ⊢
    omega

/-- The first `n` lines end where `n` line feeds have passed exactly when they are the whole file
or no line of them ends at a carriage return alone. -/
theorem bytesOfLines_eq_iff (n : Nat) (bs : Bytes) :
    bytesOfLines n bs = (firstLines n bs).length ↔
      firstLines n bs = bs ∨ HasNoBareReturn (firstLines n bs) := by
  induction bs generalizing n with
  | nil => cases n <;> simp [bytesOfLines]
  | cons b r ih =>
    cases n with
    | zero => simp [bytesOfLines, firstLines, hasNoBareReturn_nil]
    | succ n =>
      have hkept : (firstLines (n + 1) r).head? = r.head? := by
        cases r <;> rfl
      rw [firstLines, bytesOfLines, List.length_cons, Nat.add_right_cancel_iff, List.cons.injEq,
        hasNoBareReturn_cons]
      by_cases hfeed : b = lineFeed
      · have hreturn : lineFeed ≠ carriageReturn := by decide
        subst hfeed
        rw [endsLine_lineFeed, if_pos rfl, if_pos rfl, ih]
        simp [hreturn]
      · rw [if_neg hfeed]
        by_cases hend : endsLine b r = true
        · -- the line ends here, but no line feed has passed
          rw [if_pos hend, bytesOfLines_succ_eq_iff]
          obtain ⟨rfl, hnext⟩ := (endsLine_iff.1 hend).resolve_left hfeed
          have hbare : (firstLines n r).head? ≠ some lineFeed := by
            intro hhead
            obtain ⟨s, hs⟩ := isPrefix_firstLines n r
            rw [← hs, List.head?_append, hhead] at hnext
            exact hnext rfl
          rw [and_iff_right rfl, or_iff_left fun h => hbare (h.1 rfl)]
        · rw [if_neg hend, ih]
          have hnext : b = carriageReturn → (firstLines (n + 1) r).head? = some lineFeed := by
            intro hb
            rw [hkept]
            by_contra hne
            exact hend (endsLine_iff.2 (.inr ⟨hb, hne⟩))
          rw [and_iff_right hnext, and_iff_right rfl]

end TypedQueries.Companion
