import Mathlib.Data.List.Basic
import Mathlib.Order.Nat
import TypedQueries.Companion.Preamble

/-!
# Where a file is cut

A companion is cut where as many line feeds have passed as its preamble has lines. That is the
first place with so many line feeds before it, and whether a place is that one is settled by the
bytes before it. So whatever is written behind a cut, the file is cut there again.
-/

namespace TypedQueries.Companion

open Text

/-- Whether a file begins with these bytes and the `n`-th line feed is the last of them. -/
structure IsCut (n : Nat) (bs front : Bytes) : Prop where
  isPrefix : front <+: bs
  ends : front.getLast? = some lineFeed
  count : front.count lineFeed = n
  shortest : ∀ p, p <+: bs → p.length < front.length → p.count lineFeed < n

@[simp] theorem bytesOfLines_nil (n : Nat) : bytesOfLines n [] = 0 := by
  cases n <;> rfl

/-! ### Which bytes settle a cut -/

/-- The bytes behind a place matter only when too few line feeds stand before it, and then only the
line feeds that are missing are sought among them. -/
theorem bytesOfLines_append (n : Nat) (front rest : Bytes) :
    bytesOfLines n (front ++ rest) =
      if n ≤ front.count lineFeed then bytesOfLines n front
      else front.length + bytesOfLines (n - front.count lineFeed) rest := by
  induction front generalizing n with
  | nil => cases n <;> simp [bytesOfLines]
  | cons b front ih =>
    cases n with
    | zero => simp [bytesOfLines]
    | succ n =>
      rw [List.cons_append, bytesOfLines, bytesOfLines, ih, List.length_cons]
      by_cases hb : b = lineFeed
      · subst hb
        simp only [↓reduceIte, List.count_cons_self, Nat.add_le_add_iff_right,
          Nat.add_sub_add_right]
        split
        · rfl
        · omega
      · rw [if_neg hb, List.count_cons_of_ne hb]
        split
        · rfl
        · omega

theorem bytesOfLines_of_count_lt {n : Nat} {bs : Bytes} (h : bs.count lineFeed < n) :
    bytesOfLines n bs = bs.length := by
  have happend := bytesOfLines_append n bs []
  rwa [if_neg (Nat.not_le.2 h), bytesOfLines_nil, List.append_nil] at happend

theorem bytesOfLines_of_isPrefix {n : Nat} {p bs : Bytes} (hp : p <+: bs)
    (h : n ≤ p.count lineFeed) : bytesOfLines n bs = bytesOfLines n p := by
  obtain ⟨rest, rfl⟩ := hp
  rw [bytesOfLines_append, if_pos h]

theorem count_lt_of_length_lt {n : Nat} {p bs : Bytes} (hp : p <+: bs)
    (h : p.length < bytesOfLines n bs) : p.count lineFeed < n := by
  by_contra hcount
  rw [bytesOfLines_of_isPrefix hp (Nat.not_lt.1 hcount)] at h
  exact absurd (bytesOfLines_le_length n p) (Nat.not_le.2 h)

/-! ### What stands before a cut -/

theorem length_take_bytesOfLines (n : Nat) (bs : Bytes) :
    (bs.take (bytesOfLines n bs)).length = bytesOfLines n bs := by
  rw [List.length_take, Nat.min_eq_left (bytesOfLines_le_length n bs)]

theorem count_take_bytesOfLines {n : Nat} {bs : Bytes} (h : n ≤ bs.count lineFeed) :
    (bs.take (bytesOfLines n bs)).count lineFeed = n := by
  induction bs generalizing n with
  | nil =>
    obtain rfl := Nat.le_zero.1 h
    rfl
  | cons b r ih =>
    cases n with
    | zero => simp [bytesOfLines]
    | succ n =>
      rw [bytesOfLines, List.take_succ_cons]
      by_cases hb : b = lineFeed
      · subst hb
        rw [List.count_cons_self] at h
        rw [if_pos rfl, List.count_cons_self, ih (Nat.le_of_succ_le_succ h)]
      · rw [List.count_cons_of_ne hb] at h
        rw [if_neg hb, List.count_cons_of_ne hb, ih h]

/-- The last byte before the cut is a line feed, since without it there is one line feed less. -/
theorem getLast?_take_bytesOfLines {n : Nat} {bs : Bytes} (hn : 0 < n)
    (h : n ≤ bs.count lineFeed) :
    (bs.take (bytesOfLines n bs)).getLast? = some lineFeed := by
  have hcount := count_take_bytesOfLines h
  have hlength := length_take_bytesOfLines n bs
  have hprefix := List.take_prefix (bytesOfLines n bs) bs
  rcases List.eq_nil_or_concat' (bs.take (bytesOfLines n bs)) with hnil | ⟨front, b, hfront⟩
  · rw [hnil] at hcount
    exact absurd hcount hn.ne
  · rw [hfront] at hcount hlength hprefix ⊢
    have hless : front.count lineFeed < n := by
      refine count_lt_of_length_lt ((List.prefix_append front [b]).trans hprefix) ?_
      rw [← hlength, List.length_append]
      exact Nat.lt_succ_self _
    have hb : b = lineFeed := by
      by_contra hne
      rw [List.count_append, List.count_singleton, if_neg (by simpa using hne)] at hcount
      omega
    rw [List.getLast?_concat, hb]

theorem isCut_take_bytesOfLines {n : Nat} {bs : Bytes} (hn : 0 < n)
    (h : n ≤ bs.count lineFeed) : IsCut n bs (bs.take (bytesOfLines n bs)) where
  isPrefix := List.take_prefix _ bs
  ends := getLast?_take_bytesOfLines hn h
  count := count_take_bytesOfLines h
  shortest _ hp hlt := count_lt_of_length_lt hp (length_take_bytesOfLines n bs ▸ hlt)

/-- Some bytes are cut behind the last one of them when it is a line feed and all line feeds are
sought. -/
theorem bytesOfLines_concat (front : Bytes) :
    bytesOfLines (front.count lineFeed + 1) (front ++ [lineFeed]) = front.length + 1 := by
  rw [bytesOfLines_append, if_neg (Nat.not_succ_le_self _), Nat.add_sub_cancel_left]
  rfl

/-- A file is cut where the bytes `rest` begin exactly when these begin a line and as many lines
stand before them. -/
theorem bytesOfLines_eq_length_iff {kept rest : Bytes} (hrest : rest ≠ []) (lines : Nat) :
    bytesOfLines lines (kept ++ rest) = kept.length ↔
      (kept = [] ∨ kept.getLast? = some lineFeed) ∧ lines = kept.count lineFeed := by
  rw [bytesOfLines_append]
  by_cases h : lines ≤ kept.count lineFeed
  · rw [if_pos h]
    constructor
    · intro hlength
      have hall : kept.take (bytesOfLines lines kept) = kept := by rw [hlength, List.take_length]
      have hcount := count_take_bytesOfLines h
      rw [hall] at hcount
      refine ⟨?_, hcount.symm⟩
      rcases Nat.eq_zero_or_pos lines with rfl | hpos
      · rw [bytesOfLines] at hlength
        exact .inl (List.length_eq_zero_iff.1 hlength.symm)
      · have hlast := getLast?_take_bytesOfLines hpos h
        rw [hall] at hlast
        exact .inr hlast
    · rintro ⟨rfl | hlast, rfl⟩
      · rfl
      · obtain ⟨front, rfl⟩ := List.getLast?_eq_some_iff.1 hlast
        rw [List.count_append, List.count_singleton_self, bytesOfLines_concat, List.length_append,
          List.length_singleton]
  · rw [if_neg h]
    constructor
    · -- a line feed is missing, so the cut lies behind the first byte of `rest`
      intro hlength
      obtain ⟨b, r, rfl⟩ := List.exists_cons_of_ne_nil hrest
      obtain ⟨m, hm⟩ := Nat.exists_eq_add_of_lt (Nat.not_le.1 h)
      rw [hm, Nat.add_assoc, Nat.add_sub_cancel_left, bytesOfLines] at hlength
      omega
    · rintro ⟨_, rfl⟩
      exact absurd le_rfl h

/-! ### Other ends and other counts -/

/-- Another end of the file behind the cut leaves the cut where it is. -/
theorem bytesOfLines_take_append {n : Nat} {bs : Bytes} (h : n ≤ bs.count lineFeed)
    (rest : Bytes) : bytesOfLines n (bs.take (bytesOfLines n bs) ++ rest) = bytesOfLines n bs := by
  have hcount := (count_take_bytesOfLines h).ge
  exact (bytesOfLines_of_isPrefix (List.prefix_append _ rest) hcount).trans
    (bytesOfLines_of_isPrefix (List.take_prefix _ bs) hcount).symm

theorem bytesOfLines_mono {m n : Nat} (hmn : m ≤ n) (bs : Bytes) :
    bytesOfLines m bs ≤ bytesOfLines n bs := by
  by_cases h : n ≤ bs.count lineFeed
  · have hcount := hmn.trans (count_take_bytesOfLines h).ge
    rw [bytesOfLines_of_isPrefix (List.take_prefix _ bs) hcount]
    exact (bytesOfLines_le_length m _).trans (length_take_bytesOfLines n bs).le
  · rw [bytesOfLines_of_count_lt (Nat.not_le.1 h)]
    exact bytesOfLines_le_length m bs

/-- A file with `n` line feeds or more is cut behind the `n`-th of them, and a file that is the same
up to there and differs behind it is cut at the same place. A file with fewer is kept as a whole.
The cut for more lines is never an earlier one, and there is none behind the end of the file. -/
theorem cut_shortest_and_stable (n : Nat) (bs : Bytes) :
    let k := bytesOfLines n bs
    (0 < n → n ≤ bs.count lineFeed →
        IsCut n bs (bs.take k) ∧ ∀ rest, bytesOfLines n (bs.take k ++ rest) = k) ∧
      (bs.count lineFeed < n → k = bs.length) ∧
      (∀ m ≤ n, bytesOfLines m bs ≤ k) ∧ k ≤ bs.length := by
  intro k
  refine ⟨fun hn h => ⟨isCut_take_bytesOfLines hn h, bytesOfLines_take_append h⟩,
    bytesOfLines_of_count_lt, fun m hm => bytesOfLines_mono hm bs, bytesOfLines_le_length n bs⟩

/-- The last line of three is not ended: two are cut off behind a line feed, three are all. -/
theorem cut_shortest_and_stable_unended :
    let bs := Utf8.encode "a\nbb\nccc"
    (0 < 2 ∧ 2 ≤ bs.count lineFeed ∧ IsCut 2 bs (Utf8.encode "a\nbb\n") ∧
        ∀ rest, bytesOfLines 2 (Utf8.encode "a\nbb\n" ++ rest) = 5) ∧
      bs.count lineFeed < 3 ∧ bytesOfLines 3 bs = bs.length := by
  intro bs
  have hk : bytesOfLines 2 bs = 5 := by decide
  have hfront : bs.take 5 = Utf8.encode "a\nbb\n" := by decide
  obtain ⟨hcut, hstable⟩ := (cut_shortest_and_stable 2 bs).1 (by decide) (by decide)
  rw [hk, hfront] at hcut
  simp only [hk, hfront] at hstable
  have hfew : bs.count lineFeed < 3 := by decide
  exact ⟨⟨by decide, by decide, hcut, hstable⟩, hfew, (cut_shortest_and_stable 3 bs).2.1 hfew⟩

end TypedQueries.Companion
