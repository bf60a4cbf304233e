import TypedQueries.Query.Interpolation
import TypedQueries.Proofs.DirectiveGrammar

/-!
# Templates cut at their directives

A template is a text up to the first directive and then directives, each with the text up to the
next one. Putting the directives back between these texts gives the template, and putting formats
in their place gives the text of the query.
-/

namespace TypedQueries

/-- A text and then fillers, each with the text after it. -/
def weave (first : Text) : List (Text × Text) → Text
  | [] => first
  | (filler, after) :: rest => first ++ (filler ++ weave after rest)

@[simp] theorem weave_nil (first : Text) : weave first [] = first := rfl

@[simp] theorem weave_nil_cons (filler after : Text) (rest : List (Text × Text)) :
    weave [] ((filler, after) :: rest) = filler ++ weave after rest := rfl

@[simp] theorem weave_cons (c : Char) (first : Text) (rest : List (Text × Text)) :
    weave (c :: first) rest = c :: weave first rest := by
  cases rest <;> rfl

namespace Template

/-- A directive of a template with the text it was read from and the text up to the next one. -/
structure Segment where
  directive : Directive
  source : Text
  after : Text

def leading : List Piece → Text
  | .char c :: ps => c :: leading ps
  | _ => []

/-- The directives, each with the text after it. -/
def segments : List Piece → List Segment
  | [] => []
  | .char _ :: ps => segments ps
  | .directive d s :: ps => ⟨d, s, leading ps⟩ :: segments ps

/-! ### Pieces -/

@[simp] theorem pieces_nil : pieces [] = [] := by
  rw [pieces]
  rfl

theorem pieces_cons {c : Char} {r : Text} (h : Directive.read? (c :: r) = none) :
    pieces (c :: r) = .char c :: pieces r := by
  rw [pieces]
  split
  · rename_i h'
    rw [h] at h'
    cases h'
  · rfl

theorem pieces_append {d : Directive} {s : Text} (h : Directive.Writes d s) (rest : Text) :
    pieces (s ++ rest) = .directive d s :: pieces rest := by
  rw [pieces]
  split
  · rename_i h'
    rw [Directive.read?_append h] at h'
    cases h'
    simp
  · rename_i h'
    rw [Directive.read?_append h] at h'
    cases h'

/-- A text is empty, or begins with a character that belongs to no directive, or with a directive;
what follows is again such a text. -/
@[elab_as_elim]
theorem text_induction {P : Text → Prop} (nil : P [])
    (char : ∀ c r, Directive.read? (c :: r) = none → P r → P (c :: r))
    (directive : ∀ d s r, Directive.Writes d s → P r → P (s ++ r)) (t : Text) : P t := by
  induction h : t.length using Nat.strong_induction_on generalizing t with
  | _ n ih =>
    cases hr : Directive.read? t with
    | none =>
      cases t with
      | nil => exact nil
      | cons c r => exact char c r hr (ih r.length (by simp [← h]) r rfl)
    | some found =>
      obtain ⟨d, rest⟩ := found
      have hlt := Directive.length_of_read? hr
      obtain ⟨s, hs, rfl⟩ := Directive.writes_of_read? hr
      exact directive d s rest hs (ih rest.length (h ▸ hlt) rest rfl)

theorem flatMap_source_pieces (t : Text) : (pieces t).flatMap Piece.source = t := by
  induction t using text_induction with
  | nil => simp
  | char c r h ih => simp [pieces_cons h, Piece.source, ih]
  | directive d s r h ih => simp [pieces_append h, Piece.source, ih]

theorem writes_of_mem_pieces {t : Text} {d : Directive} {s : Text}
    (h : .directive d s ∈ pieces t) : Directive.Writes d s := by
  induction t using text_induction with
  | nil => simp at h
  | char c r hr ih =>
    rw [pieces_cons hr] at h
    exact ih (by simpa using h)
  | directive d' s' r hw ih =>
    rw [pieces_append hw] at h
    rcases List.mem_cons.1 h with he | h
    · cases he
      exact hw
    · exact ih h

/-! ### Segments -/

theorem weave_source (ps : List Piece) :
    weave (leading ps) ((segments ps).map fun g => (g.source, g.after)) =
      ps.flatMap Piece.source := by
  induction ps with
  | nil => rfl
  | cons p ps ih =>
    cases p with
    | char c => simpa [leading, segments, Piece.source] using ih
    | directive d s => simpa [leading, segments, Piece.source] using ih

theorem weave_segments (t : Text) :
    weave (leading (pieces t)) ((segments (pieces t)).map fun g => (g.source, g.after)) = t := by
  rw [weave_source, flatMap_source_pieces]

theorem filterMap_directive? (ps : List Piece) :
    ps.filterMap Piece.directive? = (segments ps).map Segment.directive := by
  induction ps with
  | nil => rfl
  | cons p ps ih =>
    cases p with
    | char c =>
      rw [List.filterMap_cons_none rfl]
      exact ih
    | directive d s =>
      have hd : (Piece.directive d s).directive? = some d := rfl
      rw [List.filterMap_cons_some hd, ih]
      rfl

theorem directives_eq (t : Text) :
    directives t = (segments (pieces t)).map Segment.directive :=
  filterMap_directive? (pieces t)

theorem writes_of_mem_segments {t : Text} {g : Segment} (h : g ∈ segments (pieces t)) :
    Directive.Writes g.directive g.source := by
  refine writes_of_mem_pieces (t := t) ?_
  generalize pieces t = ps at h
  induction ps with
  | nil => cases h
  | cons p ps ih =>
    cases p with
    | char c => exact List.mem_cons_of_mem _ (ih h)
    | directive d s =>
      rcases List.mem_cons.1 h with rfl | h
      · exact List.mem_cons_self
      · exact List.mem_cons_of_mem _ (ih h)

theorem exists_writes_of_mem_directives {t : Text} {d : Directive} (h : d ∈ directives t) :
    ∃ s, Directive.Writes d s := by
  rw [directives_eq] at h
  obtain ⟨g, hg, rfl⟩ := List.mem_map.1 h
  exact ⟨g.source, writes_of_mem_segments hg⟩

/-! ### Texts without directives -/

/-- No two opening braces stand side by side. -/
def HasNoOpening (s : Text) : Prop := ¬ ['{', '{'] <:+: s

instance : DecidablePred HasNoOpening := fun s =>
  inferInstanceAs (Decidable ¬ ['{', '{'] <:+: s)

theorem hasNoOpening_cons_iff {c : Char} {s : Text} :
    HasNoOpening (c :: s) ↔ ¬(c = '{' ∧ s.head? = some '{') ∧ HasNoOpening s := by
  have hprefix : ['{', '{'] <+: c :: s ↔ c = '{' ∧ s.head? = some '{' := by
    rw [List.cons_prefix_cons, eq_comm]
    cases s with
    | nil => simp
    | cons d s => simp [List.cons_prefix_cons, eq_comm]
  rw [HasNoOpening, List.infix_cons_iff, not_or, hprefix, HasNoOpening]

theorem HasNoOpening.tail {c : Char} {s : Text} (h : HasNoOpening (c :: s)) : HasNoOpening s :=
  (hasNoOpening_cons_iff.1 h).2

/-- No directive begins within a text without two opening braces, not even with its last character
and the braces of a directive that follows. -/
theorem read?_of_hasNoOpening {c : Char} {s rest : Text} (h : HasNoOpening (c :: s))
    (hrest : rest = [] ∨ ∃ r, rest = '{' :: '{' :: r) :
    Directive.read? (c :: (s ++ rest)) = none := by
  by_cases hc : c = '{'
  · subst hc
    cases s with
    | nil =>
      rcases hrest with rfl | ⟨r, rfl⟩
      · rfl
      · have hblank : Text.isBlank '{' = false := by decide
        have hstart : Directive.isNameStart '{' = false := by decide
        simp [Directive.read?, Directive.after?, Directive.skipBlanks, hblank,
          Directive.readName?, hstart]
    | cons d s =>
      have hd : '{' ≠ d := by
        rintro rfl
        exact h (List.prefix_append ['{', '{'] s).isInfix
      simp [Directive.read?, Directive.after?, hd]
  · have hc' : '{' ≠ c := fun he => hc he.symm
    simp [Directive.read?, Directive.after?, hc']

theorem pieces_append_of_hasNoOpening {s rest : Text} (h : HasNoOpening s)
    (hrest : rest = [] ∨ ∃ r, rest = '{' :: '{' :: r) :
    pieces (s ++ rest) = s.map Piece.char ++ pieces rest := by
  induction s with
  | nil => rfl
  | cons c s ih =>
    rw [List.cons_append, pieces_cons (read?_of_hasNoOpening h hrest), ih h.tail]
    rfl

theorem leading_map_char_append (s : Text) (ps : List Piece) :
    leading (s.map Piece.char ++ ps) = s ++ leading ps := by
  induction s with
  | nil => rfl
  | cons c s ih => simp [leading, ih]

theorem segments_map_char_append (s : Text) (ps : List Piece) :
    segments (s.map Piece.char ++ ps) = segments ps := by
  induction s with
  | nil => rfl
  | cons c s ih => simpa [segments] using ih

/-- A template that is woven from written directives and texts without directives is cut into
them again. -/
theorem cut_weave {first : Text} {gs : List Segment} (hfirst : HasNoOpening first)
    (hgs : ∀ g ∈ gs, Directive.Writes g.directive g.source ∧ HasNoOpening g.after) :
    leading (pieces (weave first (gs.map fun g => (g.source, g.after)))) = first ∧
      segments (pieces (weave first (gs.map fun g => (g.source, g.after)))) = gs := by
  induction gs generalizing first with
  | nil =>
    have h := pieces_append_of_hasNoOpening hfirst (.inl rfl)
    rw [List.append_nil] at h
    rw [List.map_nil, weave_nil, h, leading_map_char_append, segments_map_char_append]
    simp [leading, segments]
  | cons g gs ih =>
    obtain ⟨hwrites, hafter⟩ := hgs g (by simp)
    obtain ⟨hleading, hsegments⟩ := ih hafter fun g' hg' => hgs g' (List.mem_cons_of_mem _ hg')
    obtain ⟨r, hr⟩ := hwrites.exists_eq_cons
    have hopen : ∀ t, ∃ r', g.source ++ t = '{' :: '{' :: r' := fun t => ⟨r ++ t, by rw [hr]; rfl⟩
    rw [List.map_cons, weave, pieces_append_of_hasNoOpening hfirst (.inr (hopen _)),
      pieces_append hwrites, leading_map_char_append, segments_map_char_append]
    simp [leading, segments, hleading, hsegments]

/-! ### Filling in formats -/

/-- Filling in formats weaves a text from them; they must be at least as many as the directives. -/
theorem fillSpecs_eq (specs : List Text) (ps : List Piece) :
    fillSpecs specs ps =
      if (segments ps).length ≤ specs.length then
        some (weave (leading ps) (List.zipWith (fun spec g => (spec, g.after)) specs (segments ps)))
      else none := by
  induction ps generalizing specs with
  | nil => cases specs <;> rfl
  | cons p ps ih =>
    cases p with
    | char c =>
      rw [fillSpecs, ih]
      simp only [segments, leading, weave_cons]
      split <;> rfl
    | directive d s =>
      cases specs with
      | nil => simp [fillSpecs, segments]
      | cons spec specs =>
        rw [fillSpecs, ih]
        simp only [segments, leading, List.length_cons, Nat.add_le_add_iff_right,
          List.zipWith_cons_cons, weave_nil_cons]
        split <;> rfl

/-- The second text is the first with its directives replaced, in order, by the given texts, and
with all that stands between them as it was. -/
def Replaces (t : Text) (fillers : List Text) (t' : Text) : Prop :=
  ∃ first gs, t = weave first (gs.map fun g => (g.source, g.after)) ∧
    gs.map Segment.directive = directives t ∧ (∀ g ∈ gs, Directive.Writes g.directive g.source) ∧
    fillers.length = gs.length ∧
    t' = weave first (List.zipWith (fun filler g => (filler, g.after)) fillers gs)

end Template

namespace Query

open Template

theorem interpolate_eq {α : Type} (t : Text) (params : ParamValues α) :
    interpolate t params =
      let gs := segments (pieces t)
      if params.specs.length < gs.length then .error .missingSpec
      else if gs = [] then .error .noDirectives
      else
        .ok ⟨weave (leading (pieces t))
          (List.zipWith (fun spec g => (spec, g.after)) params.specs gs), params.args⟩ := by
  rw [interpolate, fillSpecs_eq, directives_eq]
  by_cases h : (segments (pieces t)).length ≤ params.specs.length
  · simp only [if_pos h, if_neg (Nat.not_lt.2 h), List.isEmpty_map, List.isEmpty_iff]
  · simp only [if_neg h, if_pos (Nat.lt_of_not_le h)]

/-- With one format for each directive, of which there is at least one, the formats replace the
directives. -/
theorem interpolate_replaces {α : Type} {t : Text} {params : ParamValues α}
    (hlen : params.specs.length = (directives t).length) (hne : directives t ≠ []) :
    ∃ q, interpolate t params = .ok q ∧ Replaces t params.specs q.text ∧ q.args = params.args := by
  rw [directives_eq] at hne
  rw [directives_eq, List.length_map] at hlen
  have hgs : segments (pieces t) ≠ [] := fun h => hne (by rw [h]; rfl)
  rw [interpolate_eq]
  simp only [if_neg (Nat.not_lt.2 hlen.ge), if_neg hgs]
  refine ⟨_, rfl, ⟨leading (pieces t), segments (pieces t), (weave_segments t).symm,
    (directives_eq t).symm, fun g hg => writes_of_mem_segments hg, hlen, rfl⟩, rfl⟩

end Query

end TypedQueries
