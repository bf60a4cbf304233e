import Mathlib.Data.List.Basic
import TypedQueries.Proofs.Lexemes

/-!
# Scanning written lines

A line that is written as blanks and tokens is scanned as those tokens, all of them on that line,
and lines below each other are scanned one after the other. What the change of indentation between
them adds is worked out from their indentations alone.
-/

namespace TypedQueries.Source

/-- A part of a written line. -/
inductive Piece where
  | blank
  /-- A token as it is written. -/
  | token (kind : TokenKind) (spelling : Text)

/-- How many brackets are open after a token before which `depth` are. -/
def TokenKind.nest (depth : Nat) : TokenKind → Nat
  | .symbol (.opening _) => depth + 1
  | .symbol (.closing _) => depth - 1
  | _ => depth

namespace Piece

def text : Piece → Text
  | blank => [' ']
  | token _ w => w

def kind? : Piece → Option TokenKind
  | blank => none
  | token k _ => some k

def write (ps : List Piece) : Text := ps.flatMap text

def kinds (ps : List Piece) : List TokenKind := ps.filterMap kind?

def first : List Piece → Char
  | [] => '\n'
  | blank :: _ => ' '
  | token _ w :: _ => w.headD '\n'

/-- Whether pieces end a line on which `depth` brackets are open before them: each is a way to
write its token, nothing runs into what follows it, and all brackets are closed. -/
def Ends [Release] (depth : Nat) : List Piece → Prop
  | [] => depth = 0
  | blank :: ps => Ends depth ps
  | token k w :: ps =>
    Spells k w ∧ k.allows (first ps) = true ∧ depth < Progress.depthLimit ∧ Ends (k.nest depth) ps

theorem write_cons (p : Piece) (ps : List Piece) : write (p :: ps) = p.text ++ write ps := rfl

theorem write_append (ps qs : List Piece) : write (ps ++ qs) = write ps ++ write qs :=
  List.flatMap_append

theorem kinds_append (ps qs : List Piece) : kinds (ps ++ qs) = kinds ps ++ kinds qs :=
  List.filterMap_append

/-- What follows a piece begins with the first character of the pieces after it. -/
theorem exists_eq_first_cons [Release] {ps : List Piece} {depth : Nat} (h : Ends depth ps)
    (r : Text) :
    ∃ r', write ps ++ '\n' :: r = first ps :: r' := by
  cases ps with
  | nil => exact ⟨r, rfl⟩
  | cons p ps =>
    cases p with
    | blank => exact ⟨_, rfl⟩
    | token k w =>
      obtain ⟨c, s, rfl, _⟩ := h.1.begins
      exact ⟨_, rfl⟩

theorem printed_of_ends [Release] {ps : List Piece} {depth : Nat} (h : Ends depth ps) :
    ∀ c ∈ write ps, 32 ≤ c.toNat := by
  induction ps generalizing depth with
  | nil => simp [write]
  | cons p ps ih =>
    intro c hc
    rw [write_cons, List.mem_append] at hc
    cases p with
    | blank =>
      rcases hc with hc | hc
      · obtain rfl := List.mem_singleton.1 hc
        decide
      · exact ih h c hc
    | token k w =>
      rcases hc with hc | hc
      · exact h.1.printed c hc
      · exact ih h.2.2.2 c hc

end Piece

/-! ### Positions -/

/-- The line of a place is told by the line feeds before it. -/
theorem line_afterText_eq (t : Text) (p : Position) :
    (p.afterText t).line = p.line + t.count '\n' := by
  induction t generalizing p with
  | nil => rfl
  | cons c t ih =>
    rw [Position.afterText, List.foldl_cons]
    refine (ih (p.after c)).trans ?_
    by_cases hc : c = '\n'
    · rw [hc, List.count_cons_self, Nat.add_comm _ 1, ← Nat.add_assoc]
      rfl
    · rw [Position.after, if_neg hc, List.count_cons_of_ne hc]

theorem line_afterText {t : Text} (h : ∀ c ∈ t, 32 ≤ c.toNat) (p : Position) :
    (p.afterText t).line = p.line := by
  rw [line_afterText_eq, List.count_eq_zero_of_not_mem fun hfeed => absurd (h _ hfeed) (by decide),
    Nat.add_zero]

theorem past_append (p : Progress) (w r : Text) :
    p.past (w ++ r) r = { p with position := p.position.afterText w } := by
  rw [Progress.past, List.length_append, Nat.add_sub_cancel, List.take_left]

/-- What of a token the line breaks around it show: its kind and the line on which it ends. -/
def Token.mark (t : Token) : TokenKind × Nat := (t.kind, t.lastLine)

/-! ### One line -/

theorem nested?_singleton {p : Progress} (h : p.depth < Progress.depthLimit) (k : TokenKind) :
    p.nested? [k] = some { p with depth := k.nest p.depth } := by
  cases k with
  | symbol s =>
    cases s with
    | opening b => exact if_pos h
    | _ => rfl
  | _ => rfl

section

variable [Release]

theorem scanRest?_blank (p : Progress) (r : Text) :
    scanRest? p (' ' :: r) = scanRest? (p.past (' ' :: r) r) r := by
  rw [scanRest?.eq_def]
  exact if_pos (by decide)

/-- A token is scanned where something follows that does not belong to it. -/
theorem scanRest?_token {k : TokenKind} {w : Text} (hw : Spells k w) {c : Char}
    (hc : k.allows c = true) {p : Progress} (hdepth : p.depth < Progress.depthLimit) (r : Text) :
    scanRest? p (w ++ c :: r) =
      (scanRest? { p with position := p.position.afterText w, depth := k.nest p.depth }
        (c :: r)).map (⟨k, p.position, (p.position.afterText w).line⟩ :: ·) := by
  obtain ⟨h, hread⟩ := hw.reads c r hc
  obtain ⟨a, s, rfl, hbegins⟩ := hw.begins
  simp only [beginsToken, Bool.and_eq_true, Bool.not_eq_true', decide_eq_true_eq] at hbegins
  obtain ⟨⟨⟨hspace, hcomment⟩, hline⟩, hslash⟩ := hbegins
  have hread : TokenKind.read? (a :: (s ++ c :: r)) = some ⟨[k], c :: r, h⟩ := hread
  have hpast : p.past (a :: (s ++ c :: r)) (c :: r) =
      { p with position := p.position.afterText (a :: s) } := past_append p (a :: s) (c :: r)
  rw [List.cons_append, scanRest?.eq_def]
  dsimp only
  rw [if_neg (by simp [hspace]), if_neg hcomment, if_neg hline, if_neg hslash, hread]
  have hnest := nested?_singleton (p := { p with position := p.position.afterText (a :: s) })
    hdepth k
  simp only [bind, Option.bind, hpast, hnest]
  cases scanRest? _ (c :: r) <;> rfl

theorem scanRest?_newline {p : Progress} (h : p.depth = 0) (r : Text) :
    scanRest? p ('\n' :: r) =
      (scanLines? ⟨⟨p.position.line + 1, 0⟩, 0, p.indentations⟩ r).map
        (⟨.newline, p.position, p.position.line⟩ :: ·) := by
  have hpast : p.past ('\n' :: r) r = ⟨⟨p.position.line + 1, 0⟩, 0, p.indentations⟩ := by
    rw [← List.singleton_append, past_append, h]
    rfl
  rw [scanRest?.eq_def]
  dsimp only
  rw [if_neg (by decide), if_neg (by decide), if_pos rfl, if_pos h, hpast]
  cases scanLines? _ r <;> rfl

/-- The pieces of a line up to its end are scanned as the tokens among them, all on that line. -/
theorem scanRest?_pieces {ps : List Piece} {p : Progress} (h : Piece.Ends p.depth ps) (r : Text) :
    ∃ ts : List Token,
      ts.map Token.mark = (Piece.kinds ps ++ [TokenKind.newline]).map (·, p.position.line) ∧
      scanRest? p (Piece.write ps ++ '\n' :: r) =
        (scanLines? ⟨⟨p.position.line + 1, 0⟩, 0, p.indentations⟩ r).map (ts ++ ·) := by
  induction ps generalizing p with
  | nil => exact ⟨[⟨.newline, p.position, p.position.line⟩], rfl, scanRest?_newline h r⟩
  | cons q ps ih =>
    cases q with
    | blank =>
      have hpast : p.past (' ' :: (Piece.write ps ++ '\n' :: r)) (Piece.write ps ++ '\n' :: r) =
          { p with position := p.position.afterText [' '] } :=
        past_append p [' '] (Piece.write ps ++ '\n' :: r)
      have hline : (p.position.afterText [' ']).line = p.position.line :=
        line_afterText (by simp) p.position
      obtain ⟨ts, hmarks, hscan⟩ := ih (p := { p with position := p.position.afterText [' '] }) h
      rw [hline] at hmarks hscan
      refine ⟨ts, hmarks, ?_⟩
      rw [Piece.write_cons, Piece.text, List.singleton_append, List.cons_append, scanRest?_blank,
        hpast, hscan]
    | token k w =>
      obtain ⟨hspells, hallows, hdepth, hends⟩ := h
      have hline : (p.position.afterText w).line = p.position.line :=
        line_afterText hspells.printed p.position
      obtain ⟨ts, hmarks, hscan⟩ := ih
        (p := { p with position := p.position.afterText w, depth := k.nest p.depth }) hends
      rw [hline] at hmarks hscan
      obtain ⟨r', hr'⟩ := Piece.exists_eq_first_cons hends r
      refine ⟨⟨k, p.position, p.position.line⟩ :: ts, ?_, ?_⟩
      · rw [List.map_cons, hmarks]
        rfl
      · rw [Piece.write_cons, Piece.text, List.append_assoc, hr',
          scanRest?_token hspells hallows hdepth, ← hr', hscan, hline, Option.map_map]
        rfl

end

/-! ### Lines below each other -/

theorem read?_blank (now : Indentation) (first : Nat) (r : Text) :
    Indentation.read? now first (' ' :: r) =
      (Indentation.read? ⟨now.wide + 1, now.narrow + 1⟩ first r).bind fun i =>
        some ⟨i.value, i.rest, Nat.le_succ_of_le i.atMost⟩ := by
  delta Indentation.read?
  rfl

theorem read?_end {c : Char} (hspace : TokenKind.isSpace c = false) (hslash : c ≠ '\\')
    (now : Indentation) (r : Text) :
    Indentation.read? now 0 (c :: r) = some (Reached.none now (c :: r)) := by
  obtain ⟨⟨h1, h2⟩, h3⟩ : (c ≠ ' ' ∧ c ≠ '\t') ∧ c ≠ '\x0c' := by
    simpa [TokenKind.isSpace] using hspace
  delta Indentation.read?
  refine (if_neg h1).trans ?_
  refine (if_neg h2).trans ?_
  refine (if_neg h3).trans ?_
  exact (if_neg hslash).trans rfl

/-- The blanks before a line are its indentation. -/
theorem read?_indentation {c : Char} (hspace : TokenKind.isSpace c = false) (hslash : c ≠ '\\')
    (n : Nat) (now : Indentation) (r : Text) :
    ∃ h, Indentation.read? now 0 (List.replicate n ' ' ++ c :: r) =
      some ⟨⟨now.wide + n, now.narrow + n⟩, c :: r, h⟩ := by
  induction n generalizing now with
  | zero =>
    rw [List.replicate_zero, List.nil_append]
    exact ⟨Nat.le_refl _, read?_end hspace hslash now r⟩
  | succ n ih =>
    obtain ⟨h, hread⟩ := ih ⟨now.wide + 1, now.narrow + 1⟩
    rw [List.replicate_succ, List.cons_append]
    refine ⟨Nat.le_succ_of_le h, ?_⟩
    rw [read?_blank, hread, Nat.add_right_comm, Nat.add_right_comm now.narrow]
    rfl

section

variable [Release]

theorem scanLines?_newline (p : Position) (stack : List Indentation) (r : Text) :
    scanLines? ⟨p, 0, stack⟩ ('\n' :: r) = scanLines? ⟨⟨p.line + 1, 0⟩, 0, stack⟩ r := by
  obtain ⟨h, hread⟩ : ∃ h, Indentation.read? ⟨0, 0⟩ 0 ('\n' :: r) = some ⟨⟨0, 0⟩, '\n' :: r, h⟩ :=
    read?_indentation (by decide) (by decide) 0 ⟨0, 0⟩ r
  have hstay : Progress.past ⟨p, 0, stack⟩ ('\n' :: r) ('\n' :: r) = ⟨p, 0, stack⟩ :=
    past_append _ [] _
  have hpast : Progress.past ⟨p, 0, stack⟩ ('\n' :: r) r = ⟨⟨p.line + 1, 0⟩, 0, stack⟩ :=
    past_append _ ['\n'] r
  rw [scanLines?, hread]
  simp only [bind, Option.bind, hstay, if_true, hpast]

theorem scanLines?_comment {w : Text} (hw : ∀ c ∈ w, 32 ≤ c.toNat) (line : Nat)
    (stack : List Indentation) (r : Text) :
    scanLines? ⟨⟨line, 0⟩, 0, stack⟩ ('#' :: (w ++ '\n' :: r)) =
      scanLines? ⟨⟨line + 1, 0⟩, 0, stack⟩ r := by
  obtain ⟨h, hread⟩ : ∃ h, Indentation.read? ⟨0, 0⟩ 0 ('#' :: (w ++ '\n' :: r)) =
      some ⟨⟨0, 0⟩, '#' :: (w ++ '\n' :: r), h⟩ :=
    read?_indentation (by decide) (by decide) 0 ⟨0, 0⟩ _
  have hstay : Progress.past ⟨⟨line, 0⟩, 0, stack⟩ ('#' :: (w ++ '\n' :: r))
      ('#' :: (w ++ '\n' :: r)) = ⟨⟨line, 0⟩, 0, stack⟩ := past_append _ [] _
  have hpast : Progress.past ⟨⟨line, 0⟩, 0, stack⟩ ('#' :: (w ++ '\n' :: r)) ('\n' :: r) =
      ⟨Position.afterText ⟨line, 0⟩ ('#' :: w), 0, stack⟩ := past_append _ ('#' :: w) _
  have hline : (Position.afterText ⟨line, 0⟩ ('#' :: w)).line = line :=
    line_afterText (by simpa using hw) _
  have hdrop : (w ++ '\n' :: r).dropWhile (fun d : Char => d ≠ '\n') = '\n' :: r := by
    refine Directive.dropWhile_append_of_stops (fun c hc => ?_) (Directive.stops_cons (by decide))
    refine decide_eq_true ?_
    rintro rfl
    exact absurd (hw _ hc) (by decide)
  rw [scanLines?, hread]
  simp only [bind, Option.bind, hstay, Reached.while, hdrop, hpast]
  rw [if_neg (by decide), if_pos trivial, scanLines?_newline, hline]

end

/-- A written line with its indentation. -/
structure Row where
  indent : Nat
  pieces : List Piece

namespace Row

def line (row : Row) : Text := List.replicate row.indent ' ' ++ Piece.write row.pieces

/-- Whether the line begins with a token and is one of tokens up to its end. -/
structure IsWritten [Release] (row : Row) : Prop where
  ends : Piece.Ends 0 row.pieces
  begins : ∃ k w ps, row.pieces = .token k w :: ps

theorem IsWritten.printed [Release] {row : Row} (h : row.IsWritten) :
    ∀ c ∈ row.line, 32 ≤ c.toNat := by
  intro c hc
  rcases List.mem_append.1 hc with hc | hc
  · rw [List.eq_of_mem_replicate hc]
    decide
  · exact Piece.printed_of_ends h.ends c hc

end Row

/-- A line of tokens is scanned as what its indentation adds, its tokens and its end. -/
theorem scanLines?_row [Release] {row : Row} (hrow : row.IsWritten)
    {stack stack' : List Indentation} {ks : List TokenKind}
    (henter : Indentation.enter? stack ⟨row.indent, row.indent⟩ = some (ks, stack')) (line : Nat)
    (r : Text) :
    ∃ ts : List Token,
      ts.map Token.mark = (ks ++ (Piece.kinds row.pieces ++ [TokenKind.newline])).map (·, line) ∧
      scanLines? ⟨⟨line, 0⟩, 0, stack⟩ (row.line ++ '\n' :: r) =
        (scanLines? ⟨⟨line + 1, 0⟩, 0, stack'⟩ r).map (ts ++ ·) := by
  obtain ⟨n, ps⟩ := row
  obtain ⟨hends, k, w, ps, rfl⟩ := hrow
  obtain ⟨c, s, rfl, hbegins⟩ := hends.1.begins
  simp only [beginsToken, Bool.and_eq_true, Bool.not_eq_true', decide_eq_true_eq] at hbegins
  obtain ⟨⟨⟨hspace, hcomment⟩, hnewline⟩, hslash⟩ := hbegins
  -- the line after its indentation, which begins with the character `c`
  obtain ⟨u, hu⟩ : ∃ u, Piece.write (.token k (c :: s) :: ps) ++ '\n' :: r = c :: u := ⟨_, rfl⟩
  have htext : Row.line ⟨n, .token k (c :: s) :: ps⟩ ++ '\n' :: r =
      List.replicate n ' ' ++ c :: u := by
    rw [← hu, Row.line, List.append_assoc]
  let p : Position := Position.afterText ⟨line, 0⟩ (List.replicate n ' ')
  have hline : p.line = line := by
    refine line_afterText (fun d hd => ?_) _
    rw [List.eq_of_mem_replicate hd]
    decide
  have hpast : Progress.past ⟨⟨line, 0⟩, 0, stack⟩ (List.replicate n ' ' ++ c :: u) (c :: u) =
      ⟨p, 0, stack⟩ := past_append _ _ _
  obtain ⟨h, hread⟩ := read?_indentation hspace hslash n ⟨0, 0⟩ u
  simp only [Nat.zero_add] at hread
  obtain ⟨ts, hmarks, hscan⟩ := scanRest?_pieces (p := ⟨p, 0, stack'⟩) hends r
  rw [hu] at hscan
  refine ⟨ks.map (⟨·, p, p.line⟩) ++ ts, ?_, ?_⟩
  · rw [List.map_append, hmarks, hline, List.map_map, @List.map_append _ _ _ ks]
    rfl
  · rw [htext, scanLines?, hread]
    simp only [bind, Option.bind, hpast, henter]
    rw [if_neg hnewline, if_neg hcomment, hscan, hline]
    cases scanLines? ⟨⟨line + 1, 0⟩, 0, stack'⟩ r with
    | none => rfl
    | some more => simp

/-! ### Whole texts -/

/-- Whether a text is one of printed characters on lines that are all ended. -/
structure Printed (t : Text) : Prop where
  chars : ∀ c ∈ t, c = '\n' ∨ 32 ≤ c.toNat
  ended : ∀ c ∈ t.getLast?, c = '\n'

namespace Printed

variable {l t : Text}

theorem nil : Printed [] := ⟨by simp, by simp⟩

theorem line (hl : ∀ c ∈ l, 32 ≤ c.toNat) (h : Printed t) : Printed (l ++ '\n' :: t) := by
  constructor
  · intro c hc
    rcases List.mem_append.1 hc with hc | hc
    · exact .inr (hl c hc)
    rcases List.mem_cons.1 hc with rfl | hc
    · exact .inl rfl
    · exact h.chars c hc
  · intro c hc
    rw [List.getLast?_append_cons, List.getLast?_cons] at hc
    cases hlast : t.getLast? with
    | none => simpa [hlast, eq_comm] using hc
    | some d =>
      obtain rfl : d = c := by simpa [hlast] using hc
      exact h.ended d hlast

theorem notMem (h : Printed t) {c : Char} (hline : c ≠ '\n') (hc : c.toNat < 32) : c ∉ t := by
  intro hmem
  rcases h.chars c hmem with he | hle
  · exact hline he
  · omega

theorem endLine_eq (h : Printed t) (hne : t ≠ []) : endLine t = t := by
  rw [endLine, if_pos]
  rw [List.getLast?_eq_some_getLast hne, Option.some.injEq]
  exact h.ended _ (List.getLast?_eq_some_getLast hne)

end Printed

/-- Whether a printed text, where the indentations in `stack` are in force, is scanned as tokens of
the kinds `ks`, on whichever line it begins. -/
structure Scans [Release] (stack : List Indentation) (t : Text) (ks : List TokenKind) : Prop where
  printed : Printed t
  reads : ∀ line, ∃ ts : List Token,
    ts.map Token.kind = ks ∧ scanLines? ⟨⟨line, 0⟩, 0, stack⟩ t = some ts

namespace Scans

variable [Release] {stack stack' : List Indentation} {t : Text} {ks : List TokenKind}

theorem nil (stack : List Indentation) : Scans stack [] (stack.map fun _ => .dedent) := by
  refine ⟨.nil, fun line => ⟨stack.map fun _ => ⟨.dedent, ⟨line, 0⟩, line⟩, by simp, ?_⟩⟩
  rw [scanLines?]
  rfl

theorem newline (h : Scans stack t ks) : Scans stack ('\n' :: t) ks := by
  refine ⟨.line (l := []) (by simp) h.printed, fun line => ?_⟩
  obtain ⟨ts, hkinds, hscan⟩ := h.reads (line + 1)
  exact ⟨ts, hkinds, by rw [scanLines?_newline, hscan]⟩

theorem row {row : Row} (hrow : row.IsWritten) {layout : List TokenKind}
    (henter : Indentation.enter? stack ⟨row.indent, row.indent⟩ = some (layout, stack'))
    (h : Scans stack' t ks) :
    Scans stack (row.line ++ '\n' :: t)
      (layout ++ (Piece.kinds row.pieces ++ TokenKind.newline :: ks)) := by
  refine ⟨.line hrow.printed h.printed, fun line => ?_⟩
  obtain ⟨ts, hkinds, hscan⟩ := h.reads (line + 1)
  obtain ⟨us, hmarks, hrows⟩ := scanLines?_row hrow henter line t
  refine ⟨us ++ ts, ?_, by rw [hrows, hscan, Option.map_some]⟩
  have hus : us.map Token.kind = layout ++ (Piece.kinds row.pieces ++ [TokenKind.newline]) := by
    have := congrArg (List.map Prod.fst) hmarks
    simpa [Function.comp_def, Token.mark] using this
  rw [List.map_append, hus, hkinds]
  simp

end Scans

end TypedQueries.Source
