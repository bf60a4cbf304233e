import Mathlib.Data.List.Permutation
import TypedQueries.Proofs.Cutting

/-!
# Rendering queries

The text of a query reaches its verbs through two readers: the directives of the template give way
to formats, and the formats, read as verbs, give way to placeholders. Percent signs that are
doubled in the template come out as single ones, and stand next to a verb without becoming part of
it.
-/

namespace TypedQueries

namespace Text

theorem isAsciiLetter_toNat {c : Char} (h : isAsciiLetter c = true) :
    (65 ≤ c.toNat ∧ c.toNat ≤ 90) ∨ (97 ≤ c.toNat ∧ c.toNat ≤ 122) := by
  simp only [isAsciiLetter, Bool.or_eq_true, Bool.and_eq_true, decide_eq_true_eq] at h
  rcases h with h | h
  · exact .inr h
  · exact .inl h

theorem isDigit_toNat {c : Char} (h : isDigit c = true) :
    (48 ≤ c.toNat ∧ c.toNat ≤ 57) ∨ 0x660 ≤ c.toNat := by
  have hranges : ∀ r ∈ digitRanges, r = (0x30, 0x39) ∨ 0x660 ≤ r.1 := by decide
  rw [isDigit, digitValue?, Option.isSome_map] at h
  obtain ⟨r, hr⟩ := Option.isSome_iff_exists.1 h
  have hin : r.1 ≤ c.toNat ∧ c.toNat ≤ r.2 := by simpa using List.find?_some hr
  rcases hranges r (List.mem_of_find?_eq_some hr) with rfl | hr
  · exact .inl hin
  · exact .inr (hr.trans hin.1)

theorem isDigit_of_isAsciiLetter {c : Char} (h : isAsciiLetter c = true) : isDigit c = false := by
  have hc := isAsciiLetter_toNat h
  by_contra hd
  have hd := isDigit_toNat (by simpa using hd)
  omega

end Text

namespace FormatPiece

open Directive (Stops stops_cons dropWhile_append_of_stops)

/-! ### The written forms of verbs -/

theorem isFlag_toNat {c : Char} (h : isFlag c = true) : c.toNat ≤ 48 ∧ c ≠ '%' := by
  simp only [isFlag, Bool.or_eq_true, decide_eq_true_eq] at h
  rcases h with (((rfl | rfl) | rfl) | rfl) | rfl <;> exact ⟨by decide, by decide⟩

theorem isFlag_of_isAsciiLetter {c : Char} (h : Text.isAsciiLetter c = true) :
    isFlag c = false := by
  have hc := Text.isAsciiLetter_toNat h
  by_contra hf
  have hf := isFlag_toNat (by simpa using hf)
  omega

inductive IsPrecision : Text → Prop where
  | absent : IsPrecision []
  | digits {d : Char} {ds : Text} (hd : Text.isDigit d = true)
      (hds : ∀ c ∈ ds, Text.isDigit c = true) : IsPrecision ('.' :: d :: ds)

/-- What stands after the percent sign of a verb: flags, a width, a precision and a letter. -/
inductive IsVerbBody : Text → Prop where
  | parts {flags width precision : Text} {letter : Char} (hflags : ∀ c ∈ flags, isFlag c = true)
      (hwidth : ∀ c ∈ width, Text.isDigit c = true) (hprecision : IsPrecision precision)
      (hletter : Text.isAsciiLetter letter = true) :
      IsVerbBody (flags ++ (width ++ (precision ++ [letter])))

/-- A verb that takes an argument. -/
def IsVerb (s : Text) : Prop := ∃ body, IsVerbBody body ∧ s = '%' :: body

/-- A zero may be a flag or belong to the width; what is left after both is the same. -/
theorem dropWhile_width {width t : Text} (hwidth : ∀ c ∈ width, Text.isDigit c = true)
    (hflag : Stops isFlag t) (hdigit : Stops Text.isDigit t) :
    ((width ++ t).dropWhile isFlag).dropWhile Text.isDigit = t := by
  induction width with
  | nil =>
    have h1 := @dropWhile_append_of_stops isFlag [] t (by simp) hflag
    have h2 := @dropWhile_append_of_stops Text.isDigit [] t (by simp) hdigit
    rw [List.nil_append] at h1 h2
    rw [List.nil_append, h1, h2]
  | cons c width ih =>
    by_cases hc : isFlag c = true
    · rw [List.cons_append, List.dropWhile_cons_of_pos hc]
      exact ih fun c' hc' => hwidth c' (List.mem_cons_of_mem c hc')
    · rw [List.cons_append, List.dropWhile_cons_of_neg hc]
      exact dropWhile_append_of_stops hwidth hdigit

theorem skipPrecision_append {precision : Text} (h : IsPrecision precision) {letter : Char}
    (hletter : Text.isAsciiLetter letter = true) (rest : Text) :
    skipPrecision (precision ++ letter :: rest) = letter :: rest := by
  cases h with
  | absent =>
    have hpoint : letter ≠ '.' := by
      rintro rfl
      exact absurd hletter (by decide)
    simp [skipPrecision, hpoint]
  | digits hd hds =>
    have hstop : Stops Text.isDigit (letter :: rest) :=
      stops_cons (Text.isDigit_of_isAsciiLetter hletter)
    simp only [List.cons_append, skipPrecision, if_pos hd]
    exact dropWhile_append_of_stops hds hstop

theorem afterVerb?_append {body : Text} (h : IsVerbBody body) (rest : Text) :
    afterVerb? (body ++ rest) = some rest := by
  obtain ⟨hflags, hwidth, hprecision, hletter⟩ := h
  rename_i flags width precision letter
  have hstops : Stops isFlag (precision ++ letter :: rest) ∧
      Stops Text.isDigit (precision ++ letter :: rest) := by
    cases hprecision with
    | absent =>
      exact ⟨stops_cons (isFlag_of_isAsciiLetter hletter),
        stops_cons (Text.isDigit_of_isAsciiLetter hletter)⟩
    | digits => exact ⟨stops_cons (by decide), stops_cons (by decide)⟩
  have hbody : flags ++ (width ++ (precision ++ [letter])) ++ rest =
      flags ++ (width ++ (precision ++ letter :: rest)) := by simp
  rw [hbody, afterVerb?, List.dropWhile_append_of_pos hflags,
    dropWhile_width hwidth hstops.1 hstops.2, skipPrecision_append hprecision hletter]
  simp [hletter]

theorem percent_not_mem_of_isDigit {ds : Text} (h : ∀ c ∈ ds, Text.isDigit c = true) : '%' ∉ ds :=
  fun hmem => absurd (h '%' hmem) (by decide)

theorem IsPrecision.percent_not_mem {precision : Text} (h : IsPrecision precision) :
    '%' ∉ precision := by
  cases h with
  | absent => exact List.not_mem_nil
  | @digits d ds hd hds =>
    have hall : ∀ c ∈ d :: ds, Text.isDigit c = true := by
      intro c hc
      rcases List.mem_cons.1 hc with rfl | hc
      · exact hd
      · exact hds c hc
    intro hmem
    rcases List.mem_cons.1 hmem with he | hmem
    · exact absurd he (by decide)
    · exact percent_not_mem_of_isDigit hall hmem

/-- No percent sign pairs with that of a verb, since none is left in what stands after it. -/
theorem IsVerbBody.percent_not_mem {body : Text} (h : IsVerbBody body) : '%' ∉ body := by
  obtain ⟨hflags, hwidth, hprecision, hletter⟩ := h
  simp only [List.mem_append, List.mem_singleton, not_or]
  refine ⟨fun hmem => (isFlag_toNat (hflags '%' hmem)).2 rfl, percent_not_mem_of_isDigit hwidth,
    hprecision.percent_not_mem, ?_⟩
  rintro rfl
  exact absurd hletter (by decide)

theorem IsVerbBody.ne_nil {body : Text} (h : IsVerbBody body) : body ≠ [] := by
  obtain ⟨_, _, _, _⟩ := h
  simp

theorem read?_append {s : Text} (h : IsVerb s) (rest : Text) :
    read? (s ++ rest) = some (.verb s, rest) := by
  obtain ⟨body, hbody, rfl⟩ := h
  obtain ⟨c, tail, rfl⟩ := List.exists_cons_of_ne_nil hbody.ne_nil
  have hc : c ≠ '%' := fun he => hbody.percent_not_mem (he ▸ List.mem_cons_self)
  have hafter := afterVerb?_append hbody rest
  have htake : ((c :: tail) ++ rest).take (((c :: tail) ++ rest).length - rest.length) =
      c :: tail := by
    rw [List.length_append, Nat.add_sub_cancel, List.take_left]
  rw [List.cons_append] at hafter htake
  rw [List.cons_append, List.cons_append, read?]
  · rw [hafter, Option.map_some, htake]
  · rintro r he
    exact hc (List.cons.inj he).1

/-! ### Pieces -/

@[simp] theorem pieces_nil : pieces [] = [] := by
  rw [pieces]
  rfl

theorem pieces_append {s : Text} (h : IsVerb s) (rest : Text) :
    pieces (s ++ rest) = .verb s :: pieces rest := by
  rw [pieces]
  split
  · rename_i h'
    rw [read?_append h] at h'
    cases h'
    rfl
  · rename_i h'
    rw [read?_append h] at h'
    cases h'

theorem pieces_percent (rest : Text) : pieces ('%' :: '%' :: rest) = .percent :: pieces rest := by
  rw [pieces]
  rfl

theorem pieces_char {c : Char} (h : c ≠ '%') (rest : Text) :
    pieces (c :: rest) = .char c :: pieces rest := by
  have hread : read? (c :: rest) = none := by simp [read?, h]
  rw [pieces]
  split
  · rename_i h'
    rw [hread] at h'
    cases h'
  · rfl

end FormatPiece

namespace Query

open FormatPiece
open Template (HasNoOpening Segment)

def escape (s : Text) : Text := s.flatMap fun c => if c = '%' then ['%', '%'] else [c]

@[simp] theorem escape_percent (s : Text) : escape ('%' :: s) = '%' :: '%' :: escape s := rfl

@[simp] theorem escape_char {c : Char} (h : c ≠ '%') (s : Text) :
    escape (c :: s) = c :: escape s := by
  simp [escape, h]

theorem head?_escape (s : Text) : (escape s).head? = s.head? := by
  cases s with
  | nil => rfl
  | cons c s =>
    by_cases hc : c = '%'
    · subst hc
      rfl
    · rw [escape_char hc]
      rfl

theorem hasNoOpening_escape {s : Text} (h : HasNoOpening s) : HasNoOpening (escape s) := by
  induction s with
  | nil => exact h
  | cons c s ih =>
    obtain ⟨hhead, htail⟩ := Template.hasNoOpening_cons_iff.1 h
    by_cases hc : c = '%'
    · subst hc
      have hopen : ∀ t : Text, ¬('%' = '{' ∧ t.head? = some '{') := fun t ht =>
        absurd ht.1 (by decide)
      rw [escape_percent]
      exact Template.hasNoOpening_cons_iff.2
        ⟨hopen _, Template.hasNoOpening_cons_iff.2 ⟨hopen _, ih htail⟩⟩
    · rw [escape_char hc]
      exact Template.hasNoOpening_cons_iff.2 ⟨by rwa [head?_escape], ih htail⟩

/-! ### Placeholders -/

/-- Before a text whose percent signs are doubled nothing is counted, and it comes out as it was. -/
theorem verbCount_escape_append (s rest : Text) :
    verbCount (pieces (escape s ++ rest)) = verbCount (pieces rest) := by
  induction s with
  | nil => rfl
  | cons c s ih =>
    by_cases hc : c = '%'
    · subst hc
      rw [escape_percent, List.cons_append, List.cons_append, pieces_percent, ← ih]
      rfl
    · rw [escape_char hc, List.cons_append, pieces_char hc, ← ih]
      rfl

theorem place_escape_append (ph : Placeholder) (n : Nat) (s rest : Text) :
    place ph n (pieces (escape s ++ rest)) = s ++ place ph n (pieces rest) := by
  induction s with
  | nil => rfl
  | cons c s ih =>
    by_cases hc : c = '%'
    · subst hc
      rw [escape_percent, List.cons_append, List.cons_append, pieces_percent, place, ih]
      rfl
    · rw [escape_char hc, List.cons_append, pieces_char hc, place, ih]
      rfl

/-- Among texts whose percent signs are doubled the verbs are those that were put there, and the
placeholders take their places. -/
theorem place_weave (ph : Placeholder) (n : Nat) (first : Text) {parts : List (Text × Text)}
    (hparts : ∀ part ∈ parts, IsVerb part.1) :
    let ps := pieces (weave (escape first) (parts.map fun part => (part.1, escape part.2)))
    verbCount ps = parts.length ∧
      place ph n ps = weave first ((parts.zipIdx n).map fun p => (ph p.2, p.1.2)) := by
  induction parts generalizing first n with
  | nil =>
    have hcount := verbCount_escape_append first []
    have hplace := place_escape_append ph n first []
    rw [List.append_nil, pieces_nil] at hcount hplace
    refine ⟨hcount, ?_⟩
    simpa [place] using hplace
  | cons part parts ih =>
    obtain ⟨spec, after⟩ := part
    have hspec : IsVerb spec := hparts (spec, after) (by simp)
    obtain ⟨hcount, hplace⟩ := ih (n + 1) after fun p hp => hparts p (List.mem_cons_of_mem _ hp)
    simp only [List.map_cons, weave, List.zipIdx_cons]
    rw [verbCount_escape_append, place_escape_append, FormatPiece.pieces_append hspec, place,
      hplace]
    refine ⟨?_, rfl⟩
    rw [List.length_cons, ← hcount]
    simp [verbCount]

/-! ### From the template to the placeholders -/

/-- A template whose directives stand among the given texts, in which percent signs are doubled. -/
def escapedTemplate (first : Text) (gs : List Segment) : Text :=
  weave (escape first) (gs.map fun g => (g.source, escape g.after))

theorem interpolate_escapedTemplate {α : Type} {first : Text} {gs : List Segment}
    (hfirst : HasNoOpening first)
    (hgs : ∀ g ∈ gs, Directive.Writes g.directive g.source ∧ HasNoOpening g.after)
    (params : ParamValues α) :
    interpolate (escapedTemplate first gs) params =
      if params.specs.length < gs.length then .error .missingSpec
      else if gs = [] then .error .noDirectives
      else
        .ok ⟨weave (escape first)
          ((params.specs.zip (gs.map Segment.after)).map fun part => (part.1, escape part.2)),
          params.args⟩ := by
  let escaped := gs.map fun g => (⟨g.directive, g.source, escape g.after⟩ : Segment)
  have hescaped : ∀ g ∈ escaped, Directive.Writes g.directive g.source ∧ HasNoOpening g.after := by
    intro g hg
    obtain ⟨g', hg', rfl⟩ := List.mem_map.1 hg
    exact ⟨(hgs g' hg').1, hasNoOpening_escape (hgs g' hg').2⟩
  obtain ⟨hleading, hsegments⟩ := Template.cut_weave (hasNoOpening_escape hfirst) hescaped
  have htemplate : escapedTemplate first gs =
      weave (escape first) (escaped.map fun g => (g.source, g.after)) := by
    rw [escapedTemplate, List.map_map]
    rfl
  have hfillers : List.zipWith (fun spec g => (spec, g.after)) params.specs escaped =
      (params.specs.zip (gs.map Segment.after)).map fun part => (part.1, escape part.2) := by
    rw [List.zipWith_map_right, List.zip_map_right, List.map_map, List.map_zip_eq_zipWith]
    rfl
  rw [interpolate_eq, htemplate, hleading, hsegments]
  simp only [hfillers]
  simp only [escaped, List.length_map, List.map_eq_nil_iff]

theorem render_weave {α : Type} (first : Text) {parts : List (Text × Text)}
    (hparts : ∀ part ∈ parts, IsVerb part.1) (args : List α) (ph : Placeholder) :
    render ⟨weave (escape first) (parts.map fun part => (part.1, escape part.2)), args⟩ ph =
      if parts.length = args.length then
        .ok (weave first (((parts.map Prod.snd).zipIdx 1).map fun p => (ph p.2, p.1)))
      else .error ⟨parts.length, args.length⟩ := by
  obtain ⟨hcount, hplace⟩ := place_weave ph 1 first hparts
  rw [render]
  simp only [hcount, hplace, List.zipIdx_map, List.map_map]
  rfl

/-- Rendering is exact, and formats that differ in number from the directives are never passed
over. A template with doubled percent signs among its directives renders with verbs as formats and
one argument for each format exactly when there is one format for each directive, of which there
is at least one; then each directive has given way to the placeholder of its position and the rest
stands there with its percent signs single again. -/
theorem render_interpolate_iff {α : Type} {first : Text} {gs : List Segment}
    {params : ParamValues α} (hfirst : HasNoOpening first)
    (hgs : ∀ g ∈ gs, Directive.Writes g.directive g.source ∧ HasNoOpening g.after)
    (hspecs : ∀ spec ∈ params.specs, IsVerb spec)
    (hlen : params.specs.length = params.args.length) (ph : Placeholder) :
    (∀ out,
      (∃ q, interpolate (escapedTemplate first gs) params = .ok q ∧ q.render ph = .ok out) ↔
        (gs.length = params.args.length ∧ 1 ≤ gs.length) ∧
          out = weave first ((gs.zipIdx 1).map fun p => (ph p.2, p.1.after))) ∧
    (¬(gs.length = params.args.length ∧ 1 ≤ gs.length) →
      (∃ e, interpolate (escapedTemplate first gs) params = .error e) ∨
        ∃ q e, interpolate (escapedTemplate first gs) params = .ok q ∧ q.render ph = .error e) := by
  rw [interpolate_escapedTemplate hfirst hgs]
  by_cases hlt : params.specs.length < gs.length
  · -- the formats run out
    have hne : gs.length ≠ params.args.length := by omega
    simp only [if_pos hlt]
    simp [hne]
  by_cases hnil : gs = []
  · simp [hnil]
  have hpos : 1 ≤ gs.length := List.length_pos_iff.2 hnil
  have hsnd : (params.specs.zip (gs.map Segment.after)).map Prod.snd = gs.map Segment.after :=
    List.map_snd_zip (by rw [List.length_map]; omega)
  have hcount : (params.specs.zip (gs.map Segment.after)).length = gs.length := by
    rw [List.length_zip, List.length_map]
    omega
  have hrender := @render_weave α first (params.specs.zip (gs.map Segment.after))
    (fun part hpart => hspecs part.1 (List.of_mem_zip hpart).1) params.args ph
  rw [hsnd, hcount] at hrender
  rw [if_neg hlt, if_neg hnil]
  by_cases heq : gs.length = params.args.length
  · rw [if_pos heq, List.zipIdx_map, List.map_map] at hrender
    refine ⟨fun out => ?_, fun hno => absurd ⟨heq, hpos⟩ hno⟩
    constructor
    · rintro ⟨q, hq, hout⟩
      cases hq
      rw [hrender] at hout
      exact ⟨⟨heq, hpos⟩, (Except.ok.inj hout).symm⟩
    · rintro ⟨_, rfl⟩
      exact ⟨_, rfl, hrender⟩
  · rw [if_neg heq] at hrender
    refine ⟨fun out => ?_, fun _ => .inr ⟨_, _, rfl, hrender⟩⟩
    constructor
    · rintro ⟨q, hq, hout⟩
      cases hq
      rw [hrender] at hout
      cases hout
    · rintro ⟨⟨h, _⟩, _⟩
      exact absurd h heq

/-- Two directives between percent signs, the first of which would be read as part of a verb if it
were not doubled. -/
theorem render_interpolate_percents :
    ∃ q, interpolate (escapedTemplate "100%d" [⟨⟨"x", "int", none⟩, "{{ x : int }}", "%"⟩,
        ⟨⟨"y", "float64", some "%v"⟩, "{{y:float64:%v}}", []⟩])
        ⟨["%d", "%-05.2f"], [7, 9]⟩ = .ok q ∧
      q.render (fun n => '$' :: Text.ofInt n) = .ok "100%d$1%$2" := by
  have hwrites : Directive.Writes ⟨"x", "int", none⟩ "{{ x : int }}" ∧
      Directive.Writes ⟨"y", "float64", some "%v"⟩ "{{y:float64:%v}}" :=
    ⟨Directive.writes_iff_read?.2 (by decide +kernel), Directive.writes_iff_read?.2 (by decide +kernel)⟩
  have hd : IsVerb "%d" := ⟨['d'], @IsVerbBody.parts [] [] [] 'd' (List.forall_mem_nil _)
    (List.forall_mem_nil _) .absent (by decide), rfl⟩
  have hf : IsVerb "%-05.2f" := by
    refine ⟨"-05.2f", @IsVerbBody.parts ['-', '0'] ['5'] ['.', '2'] 'f' ?_ ?_ ?_ (by decide), rfl⟩
    · exact List.forall_mem_cons.2 ⟨by decide, List.forall_mem_singleton.2 (by decide)⟩
    · exact List.forall_mem_singleton.2 (by decide)
    · exact .digits (by decide) (List.forall_mem_nil _)
  refine ((@render_interpolate_iff Nat "100%d" [⟨⟨"x", "int", none⟩, "{{ x : int }}", "%"⟩,
    ⟨⟨"y", "float64", some "%v"⟩, "{{y:float64:%v}}", []⟩] ⟨["%d", "%-05.2f"], [7, 9]⟩
    (by decide) ?_ ?_ rfl fun n => '$' :: Text.ofInt n).1 _).2 ⟨by decide, by decide +kernel⟩
  · intro g hg
    rcases List.mem_cons.1 hg with rfl | hg
    · exact ⟨hwrites.1, by decide⟩
    · rw [List.mem_singleton.1 hg]
      exact ⟨hwrites.2, by decide⟩
  · intro spec hspec
    rcases List.mem_cons.1 hspec with rfl | hspec
    · exact hd
    · rw [List.mem_singleton.1 hspec]
      exact hf

end Query

end TypedQueries
