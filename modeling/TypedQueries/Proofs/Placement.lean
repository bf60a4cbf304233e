import Mathlib
import Std.Tactic.Do
import TypedQueries.Proofs.Extents
import TypedQueries.Proofs.Scanning

/-!
# Where tokens stand

A token of a text is read from a part of it, and what it is said to stand at is where that part
begins and the line on which it ends. Only the tokens that show the layout need not stand anywhere.
-/

namespace TypedQueries.Source

open Std.Do

set_option mvcgen.warning false

/-! ### The end of a token -/

section Ends

variable {t r : Text}

namespace Number

theorem skipMore_suffix (isDigit : Char → Bool) (t : Text) :
    skipDigits?.skipMore isDigit t <:+ t := by
  fun_induction skipDigits?.skipMore isDigit t
  all_goals grind

theorem skipDigits?_suffix {isDigit : Char → Bool} (h : skipDigits? isDigit t = some r) :
    r <:+ t := by
  fun_induction skipDigits? isDigit t
  all_goals grind [skipMore_suffix]

theorem ended?_suffix (h : ended? t = some r) : r <:+ t := by
  unfold ended? at h
  grind

theorem skipExponent?_suffix (h : skipExponent? t = some r) : r <:+ t := by
  unfold skipExponent? at h
  grind [→ skipDigits?_suffix]

theorem skipImaginary_suffix (t : Text) : skipImaginary t <:+ t := by
  unfold skipImaginary
  grind

grind_pattern skipImaginary_suffix => skipImaginary t

@[spec]
theorem skipDigits?_spec (isDigit : Char → Bool) :
    ⦃⌜True⌝⦄ skipDigits? isDigit t ⦃⇓? r => ⌜r <:+ t⌝⦄ :=
  triple_of_forall fun _ => skipDigits?_suffix

@[spec]
theorem ended?_spec : ⦃⌜True⌝⦄ ended? t ⦃⇓? r => ⌜r <:+ t⌝⦄ :=
  triple_of_forall fun _ => ended?_suffix

@[spec]
theorem skipExponent?_spec : ⦃⌜True⌝⦄ skipExponent? t ⦃⇓? r => ⌜r <:+ t⌝⦄ :=
  triple_of_forall fun _ => skipExponent?_suffix

@[spec]
theorem skipFraction?_spec : ⦃⌜True⌝⦄ skipFraction? t ⦃⇓? r => ⌜r <:+ t⌝⦄ := by
  unfold skipFraction?
  mvcgen
  all_goals grind -linarith

@[spec]
theorem skipBased?_spec (isDigit : Char → Bool) :
    ⦃⌜True⌝⦄ skipBased? isDigit t ⦃⇓? r => ⌜r <:+ t⌝⦄ := by
  unfold skipBased?
  mvcgen
  all_goals grind -linarith

theorem skip?_suffix (h : skip? t = some r) : r <:+ t := by
  refine of_triple (p := (· <:+ t)) ?_ h
  unfold skip?
  mvcgen
  all_goals grind -linarith

end Number

namespace Literal

theorem opening?_suffix {o : Opening} (h : opening? t = some (o, r)) : r <:+ t := by
  have hletters := List.dropWhile_suffix (l := t) Text.isAsciiLetter
  unfold opening? at h
  grind [Option.bind_eq_some_iff]

theorem readBody?_suffix {quote : Char} {triple : Bool} {body rest : Text}
    (h : readBody? quote triple t = some (body, rest)) : rest <:+ t := by
  fun_induction readBody? quote triple t generalizing body
  all_goals grind [List.drop_suffix, Option.map_eq_some_iff]

end Literal

namespace TokenKind

theorem readPlain?_suffix [Release] {f : Found (List TokenKind) t} (h : readPlain? t = some f) :
    f.rest <:+ t := by
  unfold readPlain? at h
  split at h
  · obtain ⟨r, hr, h⟩ := Option.bind_eq_some_iff.1 h
    rw [of_triple leaving?_spec h]
    exact Number.skip?_suffix hr
  split at h
  · obtain ⟨k, _, h⟩ := Option.bind_eq_some_iff.1 h
    rw [of_triple leaving?_spec h]
    exact List.dropWhile_suffix isWordPart
  · obtain ⟨s, _, h⟩ := Option.bind_eq_some_iff.1 h
    rw [of_triple leaving?_spec h]
    exact List.drop_suffix _ t

/-- A token is taken from the head of a text, and what follows it is left as it is. -/
theorem read?_suffix [Release] {f : Found (List TokenKind) t} (h : read? t = some f) :
    f.rest <:+ t := by
  unfold read? at h
  split at h
  · rename_i o r ho
    obtain ⟨⟨body, rest⟩, hbody, h⟩ := Option.bind_eq_some_iff.1 h
    have hrest := (Literal.readBody?_suffix hbody).trans (Literal.opening?_suffix ho)
    dsimp only at h
    split at h
    · cases h
    split at h
    · obtain ⟨v, _, h⟩ := Option.bind_eq_some_iff.1 h
      exact of_triple leaving?_spec h ▸ hrest
    · obtain ⟨v, _, h⟩ := Option.bind_eq_some_iff.1 h
      exact of_triple leaving?_spec h ▸ hrest
    · obtain ⟨es, _, h⟩ := Option.bind_eq_some_iff.1 h
      obtain ⟨fields, _, h⟩ := Option.bind_eq_some_iff.1 h
      exact of_triple leaving?_spec h ▸ hrest
  · exact readPlain?_suffix h

end TokenKind

end Ends

/-! ### The places of tokens -/

/-- Whether a token stands in a text that begins at a position: behind `front` it is read from `w`,
with `rest` after it. What a formatted string holds stands where the string stands. -/
structure StandsAt [Release] (p : Position) (t : Text) (u : Token) (front w rest : Text) :
    Prop where
  split : t = front ++ (w ++ rest)
  reads : ∃ kinds h, TokenKind.read? (w ++ rest) = some ⟨kinds, rest, h⟩ ∧ u.kind ∈ kinds
  start : u.start = p.afterText front
  ends : u.lastLine = (p.afterText (front ++ w)).line
  /-- At least the line feed that ends the text follows. -/
  follows : rest ≠ []

/-- Whether a token stands somewhere in a text, unless it shows the layout. -/
def IsPlaced [Release] (p : Position) (t : Text) (u : Token) : Prop :=
  u.kind.isLayout = false → ∃ front w rest, StandsAt p t u front w rest

theorem afterText_append (p : Position) (a b : Text) :
    p.afterText (a ++ b) = (p.afterText a).afterText b := List.foldl_append

theorem IsPlaced.of_past [Release] {p : Progress} {t r : Text} {u : Token} (hr : r <:+ t)
    (h : IsPlaced (p.past t r).position r u) : IsPlaced p.position t u := by
  obtain ⟨a, rfl⟩ := hr
  rw [past_append] at h
  intro hlayout
  obtain ⟨front, w, rest, hsplit, hreads, hstart, hends, hfollows⟩ := h hlayout
  refine ⟨a ++ front, w, rest, ?_, hreads, ?_, ?_, hfollows⟩
  · rw [hsplit, List.append_assoc]
  · rw [hstart, afterText_append]
  · rw [hends, List.append_assoc, afterText_append p.position a]

theorem isPlaced_of_read? [Release] {p : Progress} {t : Text} {f : Found (List TokenKind) t}
    (h : TokenKind.read? t = some f) (hfollows : f.rest ≠ []) {u : Token}
    (hu : u ∈ f.value.map (⟨·, p.position, (p.past t f.rest).position.line⟩)) :
    IsPlaced p.position t u := by
  obtain ⟨kinds, rest, hshorter⟩ := f
  obtain ⟨w, hw⟩ := TokenKind.read?_suffix h
  obtain ⟨k, hk, rfl⟩ := List.mem_map.1 hu
  dsimp only at hw
  subst hw
  intro _
  refine ⟨[], w, rest, rfl, ⟨kinds, hshorter, h, hk⟩, rfl, ?_, hfollows⟩
  rw [past_append]
  rfl

theorem position_of_nested? {p q : Progress} {kinds : List TokenKind}
    (h : p.nested? kinds = some q) : q.position = p.position := by
  unfold Progress.nested? at h
  grind

def passed {t u : Text} (hle : u.length ≤ t.length) (i : Option (Reached Indentation u)) :
    Option (Reached Indentation t) :=
  i.bind fun j => some ⟨j.value, j.rest, atMost_trans hle j.atMost⟩

-- The equations are shown by `delta`, for those that come with the reader name the proofs inside
-- it, and these have no name of their own.
theorem read?_cons_cases (now : Indentation) (first : Nat) (c : Char) (r : Text) :
    (∃ t, t <:+ r ∧ ∃ hle now' first',
      Indentation.read? now first (c :: r) = passed hle (Indentation.read? now' first' t)) ∨
    Indentation.read? now first (c :: r) = none ∨
    ∃ now', Indentation.read? now first (c :: r) = some (Reached.none now' (c :: r)) := by
  have hr := List.suffix_refl r
  by_cases hblank : c = ' '
  · subst hblank
    refine .inl ⟨r, hr, atMost_tail _ r, ⟨now.wide + 1, now.narrow + 1⟩, first, ?_⟩
    delta Indentation.read?
    rfl
  by_cases htab : c = '\t'
  · subst htab
    refine .inl ⟨r, hr, atMost_tail _ r, ⟨(now.wide / 8 + 1) * 8, now.narrow + 1⟩, first, ?_⟩
    delta Indentation.read?
    rfl
  by_cases hfeed : c = '\x0c'
  · subst hfeed
    refine .inl ⟨r, hr, atMost_tail _ r, ⟨0, 0⟩, first, ?_⟩
    delta Indentation.read?
    rfl
  by_cases hslash : c = '\\'
  · subst hslash
    cases r with
    | nil =>
      delta Indentation.read?
      exact .inr (.inl rfl)
    | cons d r' =>
      by_cases hd : (d = '\n' && !r'.isEmpty) = true
      · refine .inl ⟨r', List.suffix_cons d r', atMost_cons _ (atMost_tail d r'), now,
          if first = 0 then now.wide else first, ?_⟩
        delta Indentation.read?
        exact if_pos hd
      · refine .inr (.inl ?_)
        delta Indentation.read?
        exact if_neg hd
  · refine .inr (.inr ⟨if first = 0 then now else ⟨first, first⟩, ?_⟩)
    delta Indentation.read?
    exact (if_neg hblank).trans <| (if_neg htab).trans <| (if_neg hfeed).trans (if_neg hslash)

theorem indentation_suffix {now : Indentation} {first : Nat} {t : Text}
    {i : Reached Indentation t} (h : Indentation.read? now first t = some i) : i.rest <:+ t := by
  induction hn : t.length using Nat.strongRecOn generalizing now first t with
  | _ n ih =>
    subst hn
    cases t with
    | nil =>
      cases h
      exact List.suffix_refl _
    | cons c r =>
      rcases read?_cons_cases now first c r with ⟨t, ht, hle, now', first', heq⟩ | heq | ⟨_, heq⟩
      · obtain ⟨j, hj, hi⟩ := Option.bind_eq_some_iff.1 (heq.symm.trans h)
        cases hi
        exact (ih t.length (Nat.lt_succ_of_le ht.length_le) hj rfl).trans
          (ht.trans (List.suffix_cons c r))
      · cases heq.symm.trans h
      · cases heq.symm.trans h
        exact List.suffix_refl _
theorem isPlaced_of_isLayout [Release] {p : Position} {t : Text} {u : Token}
    (h : u.kind.isLayout = true) : IsPlaced p t u := fun h' => absurd h (by simp [h'])

theorem isLayout_of_enter? {stack stack' : List Indentation} {i : Indentation}
    {kinds : List TokenKind} (h : Indentation.enter? stack i = some (kinds, stack')) :
    ∀ k ∈ kinds, k.isLayout = true := by
  unfold Indentation.enter? at h
  grind

theorem ne_nil_of_scanRest? [Release] {p : Progress} {t : Text} {ts : List Token}
    (h : scanRest? p t = some ts) : t ≠ [] := by
  rintro rfl
  rw [scanRest?.eq_def] at h
  cases h

-- By induction along the scan: each step passes over a part of the text, and the tokens of the
-- rest stand in the rest.

mutual

theorem scanLines?_placed [Release] {p : Progress} {t : Text} {ts : List Token}
    (h : scanLines? p t = some ts) : ∀ u ∈ ts, IsPlaced p.position t u := by
  rw [scanLines?] at h
  obtain ⟨⟨i, r, _⟩, hi, h⟩ := Option.bind_eq_some_iff.1 h
  have hr : r <:+ t := indentation_suffix hi
  have hle := hr.length_le
  dsimp only at h
  intro u hu
  apply IsPlaced.of_past hr
  split at h
  · cases h
    obtain ⟨_, _, rfl⟩ := List.mem_map.1 hu
    exact isPlaced_of_isLayout rfl
  · rename_i c r' _
    have hnext := List.suffix_cons c r'
    split at h
    · exact (scanLines?_placed h u hu).of_past hnext
    split at h
    · have hlt := (Reached.while (fun d : Char => d ≠ '\n') r').atMost
      have hcomment := List.dropWhile_suffix (l := r') (fun d : Char => d ≠ '\n')
      exact (scanLines?_placed h u hu).of_past (hcomment.trans hnext)
    · obtain ⟨⟨kinds, stack⟩, hkinds, h⟩ := Option.bind_eq_some_iff.1 h
      obtain ⟨more, hmore, h⟩ := Option.bind_eq_some_iff.1 h
      cases h
      rcases List.mem_append.1 hu with hu | hu
      · obtain ⟨k, hk, rfl⟩ := List.mem_map.1 hu
        exact isPlaced_of_isLayout (isLayout_of_enter? hkinds k hk)
      · exact scanRest?_placed hmore u hu
termination_by 2 * t.length + 1
decreasing_by all_goals simp only [List.length_cons] at *; omega

theorem scanRest?_placed [Release] {p : Progress} : {t : Text} → {ts : List Token} →
    scanRest? p t = some ts → ∀ u ∈ ts, IsPlaced p.position t u
  | [], _, h => by
    rw [scanRest?.eq_def] at h
    cases h
  | c :: r, ts, h => by
    rw [scanRest?.eq_def] at h
    dsimp only at h
    have hnext := List.suffix_cons c r
    intro u hu
    split at h
    · exact (scanRest?_placed h u hu).of_past hnext
    split at h
    · have hlt := (Reached.while (fun d : Char => d ≠ '\n') r).atMost
      have hcomment := List.dropWhile_suffix (l := r) (fun d : Char => d ≠ '\n')
      exact (scanRest?_placed h u hu).of_past (hcomment.trans hnext)
    split at h
    · split at h
      · obtain ⟨more, hmore, h⟩ := Option.bind_eq_some_iff.1 h
        cases h
        rcases List.mem_cons.1 hu with rfl | hu
        · exact isPlaced_of_isLayout rfl
        · exact (scanLines?_placed hmore u hu).of_past hnext
      · exact (scanRest?_placed h u hu).of_past hnext
    split at h
    · cases hr : r with
      | nil =>
        rw [hr] at h
        cases h
      | cons d r' =>
        have hlt : r'.length < r.length := hr ▸ Nat.lt_succ_self _
        rw [hr] at h hnext
        dsimp only at h
        split at h
        · exact (scanRest?_placed h u hu).of_past ((List.suffix_cons d r').trans hnext)
        · cases h
    · obtain ⟨f, hf, h⟩ := Option.bind_eq_some_iff.1 h
      have hlt := f.shorter
      obtain ⟨q, hq, h⟩ := Option.bind_eq_some_iff.1 h
      obtain ⟨more, hmore, h⟩ := Option.bind_eq_some_iff.1 h
      cases h
      rcases List.mem_append.1 hu with hu | hu
      · exact isPlaced_of_read? hf (ne_nil_of_scanRest? hmore) hu
      · have hu := scanRest?_placed hmore u hu
        rw [position_of_nested? hq] at hu
        exact hu.of_past (TokenKind.read?_suffix hf)
termination_by t => 2 * t.length
decreasing_by all_goals simp only [List.length_cons] at *; omega

end

theorem scan?_placed [Release] {t : Text} {ts : List Token} (h : scan? t = some ts) :
    ∀ u ∈ ts, IsPlaced ⟨1, 0⟩ (endLine t) u := scanLines?_placed h

/-- What stands before the end of a token belongs to the text without the line feed that may have
been added to it. -/
theorem StandsAt.isPrefix [Release] {p : Position} {t : Text} {u : Token} {front w rest : Text}
    (h : StandsAt p (endLine t) u front w rest) : front ++ w <+: t := by
  have hsplit := h.split
  rw [← List.append_assoc] at hsplit
  unfold endLine at hsplit
  split at hsplit
  · exact ⟨rest, hsplit.symm⟩
  · rcases List.prefix_concat_iff.1 ⟨rest, hsplit.symm⟩ with hall | hpre
    · rw [hall] at hsplit
      exact absurd (List.self_eq_append_right.1 hsplit) h.follows
    · exact hpre

end TypedQueries.Source
