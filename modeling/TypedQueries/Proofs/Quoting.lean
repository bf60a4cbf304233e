import Mathlib.Data.List.Basic
import TypedQueries.Proofs.Decoding
import TypedQueries.Proofs.Emitting
import TypedQueries.Proofs.Occurrences
import TypedQueries.Source.Plain

/-!
# What quoted formats stand for

A generated class returns its formats as a list of string literals. Each of them was quoted in ASCII
and is read by the escapes of the language that it stands in. The two agree on every character up to
U+FFFF. A character beyond is quoted as its two halves, and these are read as two characters, so a
format is read as it was exactly when it holds no such character.
-/

namespace TypedQueries.Source

open Source.Piece

/-! ### Formats by themselves -/

/-- Whether all characters of a text lie in the basic plane, which ends at U+FFFF. -/
def IsBasic (t : Text) : Prop := ∀ c ∈ t, c.toNat < 0x10000

instance (t : Text) : Decidable (IsBasic t) :=
  inferInstanceAs (Decidable (∀ c ∈ t, c.toNat < 0x10000))

theorem isBasic_cons {c : Char} {t : Text} :
    IsBasic (c :: t) ↔ c.toNat < 0x10000 ∧ IsBasic t := List.forall_mem_cons

section Formats

variable [Release]

theorem length_readBack_char (c : Char) :
    (readBack c).length = if c.toNat < 0x10000 then 1 else 2 := by
  rw [readBack, Literal.standing, List.length_map, codePoints]
  split <;> rfl

theorem length_le_readBack (t : Text) : t.length ≤ (t.flatMap readBack).length := by
  induction t with
  | nil => simp
  | cons c t ih =>
    rw [List.flatMap_cons, List.length_append, List.length_cons, length_readBack_char]
    split <;> omega

theorem length_readBack_iff (t : Text) :
    (t.flatMap readBack).length = t.length ↔ IsBasic t := by
  induction t with
  | nil => simp [IsBasic]
  | cons c t ih =>
    have hle := length_le_readBack t
    rw [List.flatMap_cons, List.length_append, List.length_cons, isBasic_cons, ← ih,
      length_readBack_char]
    split <;> omega

theorem readBack_eq_iff (t : Text) : t.flatMap readBack = t ↔ IsBasic t := by
  constructor
  · intro h
    rw [← length_readBack_iff, h]
  · intro h
    induction t with
    | nil => rfl
    | cons c t ih =>
      obtain ⟨hc, ht⟩ := isBasic_cons.1 h
      rw [List.flatMap_cons, ih ht, readBack, codePoints, if_pos hc]
      rfl

theorem map_readBack_eq_iff (ts : List Text) :
    (ts.map fun t => t.flatMap readBack) = ts ↔ ∀ t ∈ ts, IsBasic t := by
  induction ts with
  | nil => simp
  | cons t ts ih => rw [List.map_cons, List.cons.injEq, ih, readBack_eq_iff, List.forall_mem_cons]

/-- Whether a text is one string literal with the value `v`, from its first character to its
last. -/
def IsLiteral (t v : Text) : Prop := ∃ h, TokenKind.read? t = some ⟨[.text v], [], h⟩

theorem isLiteral_encode (spec : Text) :
    IsLiteral (Text.AsciiQuoted.encode spec) (spec.flatMap readBack) := by
  have h := @read?_encode _ spec [] (by simp)
  rwa [List.append_nil] at h

theorem IsLiteral.unique {t v w : Text} (hv : IsLiteral t v) (hw : IsLiteral t w) : v = w := by
  obtain ⟨_, hv⟩ := hv
  obtain ⟨_, hw⟩ := hw
  have hvalue := congrArg Found.value (Option.some.inj (hv.symm.trans hw))
  exact TokenKind.text.inj (List.cons.inj hvalue).1

/-- The literal of a format stands for it exactly when its characters lie in the basic plane. -/
theorem isLiteral_encode_iff (spec : Text) :
    IsLiteral (Text.AsciiQuoted.encode spec) spec ↔ IsBasic spec := by
  rw [← readBack_eq_iff]
  constructor
  · intro h
    exact (isLiteral_encode spec).unique h
  · intro h
    have hliteral := isLiteral_encode spec
    rwa [h] at hliteral

end Formats

/-! ### Lists of formats -/

def quotedList (specs : List Text) : Text :=
  '[' :: (Text.join [',', ' '] (specs.map Text.AsciiQuoted.encode) ++ [']'])

theorem items?_texts {vs : List Text} (hne : vs ≠ []) {ts rest : List Token} {p : Position}
    {n : Nat}
    (hts : Begins ts (commas (vs.map fun v => [.text v]))
      (⟨.symbol (.closing .square), p, n⟩ :: rest)) (named : Bool) :
    atItem ts = true ∧ ∃ comma, Yields (items? named ts) (vs.map Expr.text, comma)
      (⟨.symbol (.closing .square), p, n⟩ :: rest) := by
  induction vs generalizing ts with
  | nil => exact absurd rfl hne
  | cons v vs ih =>
    cases vs with
    | nil =>
      obtain ⟨q, m, r, rfl, hnil⟩ := begins_cons.1 hts
      obtain rfl := begins_nil.1 hnil
      have hclose := closes_cons (k := .symbol (.closing .square)) rfl p n rest
      exact ⟨rfl, false, items?_of_primary? rfl (primary?_text hclose) hclose rfl named
        (atWalrus_text v q m _)⟩
    | cons u us =>
      obtain ⟨q, m, r, rfl, hcomma⟩ := begins_cons.1 hts
      obtain ⟨q', m', r, rfl, hmore⟩ := begins_cons.1 hcomma
      have hclose := closes_cons (k := .symbol .comma) rfl q' m' r
      obtain ⟨hlt, hitem⟩ := item?_of_primary? rfl (primary?_text (v := v) (p := q) (n := m) hclose)
        hclose named (atWalrus_text v q m _)
      obtain ⟨hat, comma, hlt', hitems⟩ := ih (List.cons_ne_nil u us) hmore
      have hafter : afterSymbol? .comma (⟨.symbol .comma, q', m'⟩ :: r) =
          some ⟨(), r, shorter_tail _ r⟩ := rfl
      refine ⟨rfl, true, shorter_trans (shorter_trans hlt (shorter_tail _ r)) hlt', ?_⟩
      rw [items?, hitem]
      simp only [bind, Option.bind, hafter]
      rw [if_pos hat, hitems]
      rfl

def listKinds (vs : List Text) : List TokenKind :=
  .symbol (.opening .square) :: (commas (vs.map fun v => [.text v]) ++ [.symbol (.closing .square)])

theorem primary?_texts {vs : List Text} {ts rest : List Token} (hts : Begins ts (listKinds vs) rest)
    (hrest : Closes rest) : Yields (primary? ts) (.list (vs.map Expr.text)) rest := by
  obtain ⟨p, n, r₁, rfl, h₁⟩ := begins_cons.1 hts
  obtain ⟨mid, hitems, hclose⟩ := begins_append.1 h₁
  obtain ⟨q, m, rest, rfl, hnil⟩ := begins_cons.1 hclose
  obtain rfl := begins_nil.1 hnil
  obtain ⟨_, htrailers⟩ := trailers?_of_closes hrest (.list (vs.map Expr.text))
  have hclosing : afterSymbol? (.closing .square) (⟨.symbol (.closing .square), q, m⟩ :: rest) =
      some ⟨(), rest, shorter_tail _ rest⟩ := rfl
  have hdisplayed : Yields (displayed? r₁) (.list (vs.map Expr.text)) rest := by
    cases vs with
    | nil =>
      obtain rfl := begins_nil.1 hitems
      refine ⟨Nat.lt_succ_self _, ?_⟩
      rw [displayed?, hclosing]
      rfl
    | cons v vs =>
      obtain ⟨_, comma, hlt, hes⟩ := items?_texts (List.cons_ne_nil v vs) hitems true
      have hopen : afterSymbol? (.closing .square) r₁ = none := by
        cases vs <;> obtain ⟨q', m', r', rfl, _⟩ := begins_cons.1 hitems <;> rfl
      refine ⟨shorter_trans hlt (shorter_tail _ rest), ?_⟩
      rw [displayed?, hopen]
      simp only [hes, bind, Option.bind, hclosing]
  obtain ⟨hlt, hdisplayed⟩ := hdisplayed
  refine ⟨shorter_cons _ hlt, ?_⟩
  rw [primary?, atom?.eq_def]
  simp only [bind, Option.bind, hdisplayed, htrailers]

variable [Release]

def quotedPieces (specs : List Text) : List Piece :=
  listPieces (specs.map fun t =>
    [.token (.text (t.flatMap readBack)) (Text.AsciiQuoted.encode t)])

theorem write_quotedPieces (specs : List Text) :
    write (quotedPieces specs) = quotedList specs := by
  rw [quotedPieces, write_listPieces, List.map_map, quotedList]
  simp [Function.comp_def, write, Piece.text]

theorem kinds_quotedPieces (specs : List Text) :
    kinds (quotedPieces specs) = listKinds (specs.map fun t => t.flatMap readBack) := by
  rw [quotedPieces, kinds_listPieces, listKinds, List.map_map, List.map_map]
  rfl

theorem ends_quotedPieces (specs : List Text) : Ends 0 (quotedPieces specs) := by
  have hdepth : 0 + 1 < Progress.depthLimit := by decide
  have hitems : ∀ ps ∈ specs.map (fun t =>
      [Piece.token (.text (t.flatMap readBack)) (Text.AsciiQuoted.encode t)]), WritesItem 1 ps := by
    intro ps hps
    obtain ⟨t, _, rfl⟩ := List.mem_map.1 hps
    exact writesItem_encode t hdepth
  have hends := ends_listPieces hdepth hitems [] rfl
  rwa [List.append_nil] at hends

theorem scan?_line {line : Text} {ks : List TokenKind} (hline : IsLine 0 line ks)
    (hne : line ≠ []) :
    ∃ ts, scan? (Text.unifyLineEnds line) = some ts ∧ ts.map Token.kind = ks := by
  obtain ⟨row, hrow, hindent, rfl, rfl⟩ := hline
  have hprinted : Printed (row.line ++ '\n' :: []) := .line hrow.printed .nil
  have hreturn : '\r' ∉ row.line := fun hmem => absurd (hrow.printed _ hmem) (by decide)
  have hlast : row.line.getLast? ≠ some '\n' := by
    intro hlast
    exact absurd (hrow.printed _ (List.mem_of_getLast? hlast)) (by decide)
  have htop : Indentation.enter? [] ⟨row.indent, row.indent⟩ = some ([], []) := by
    rw [hindent]
    rfl
  obtain ⟨us, hmarks, hscan⟩ := scanLines?_row hrow htop 1 []
  have hnil : scanLines? ⟨⟨1 + 1, 0⟩, 0, []⟩ [] = some [] := by
    rw [scanLines?]
    rfl
  refine ⟨us, ?_, ?_⟩
  · rw [Companion.unifyLineEnds_of_notMem hreturn, scan?, endLine, if_neg hlast, hscan, hnil,
      Option.map_some, List.append_nil]
  · have hkinds := congrArg (List.map Prod.fst) hmarks
    simpa [Function.comp_def, Token.mark] using hkinds

/-- A written list of formats is an expression by itself, the list of what they are read as. -/
theorem readExpression?_quotedList (specs : List Text) :
    readExpression? (quotedList specs) =
      some (.list ((specs.map fun t => t.flatMap readBack).map Expr.text)) := by
  have hline : IsLine 0 (quotedList specs) (kinds (quotedPieces specs) ++ [.newline]) := by
    rw [← write_quotedPieces]
    exact isLine_of_ends (ends_quotedPieces specs) 0
  obtain ⟨ts, hscan, hkinds⟩ := scan?_line hline (List.cons_ne_nil _ _)
  rw [kinds_quotedPieces] at hkinds
  obtain ⟨front, back, rfl, hfront, hback⟩ := List.map_eq_append_iff.1 hkinds
  obtain ⟨⟨k, p, n⟩, r, rfl, rfl, hr⟩ := List.map_eq_cons_iff.1 hback
  obtain rfl := List.map_eq_nil_iff.1 hr
  have hclose := closes_cons (k := .newline) rfl p n []
  have hlist := primary?_texts ⟨front, rfl, hfront⟩ hclose
  obtain ⟨⟨k, q, m⟩, front, rfl, rfl, _⟩ := List.map_eq_cons_iff.1 hfront
  rw [List.cons_append] at hlist hscan
  have hwalrus : atWalrus (⟨.symbol (.opening .square), q, m⟩ :: (front ++ [⟨.newline, p, n⟩])) =
      false := by
    cases front <;> rfl
  obtain ⟨hlt, hitems⟩ := items?_of_primary? rfl hlist hclose rfl false hwalrus
  rw [readExpression?, hscan]
  simp only [bind, Option.bind, hitems]
  rfl

end TypedQueries.Source

namespace TypedQueries

namespace Template

theorem length_weave (first : Text) {fillers : List Text} {gs : List Segment}
    (h : fillers.length = gs.length) :
    (weave first (List.zipWith (fun filler g => (filler, g.after)) fillers gs)).length =
      first.length + fillers.flatten.length + (gs.flatMap Segment.after).length := by
  induction fillers generalizing first gs with
  | nil =>
    obtain rfl := List.length_eq_zero_iff.1 h.symm
    simp
  | cons filler fillers ih =>
    cases gs with
    | nil => simp at h
    | cons g gs =>
      have hrest := ih g.after (Nat.succ.inj h)
      rw [List.zipWith_cons_cons, weave, List.length_append, List.length_append, hrest]
      simp only [List.flatten_cons, List.flatMap_cons, List.length_append]
      omega

end Template

namespace Companion

open Source Text ParamSet Builder

theorem length_flatten_readBack_iff [Release] (specs : List Text) :
    (specs.map fun t => t.flatMap readBack).flatten.length = specs.flatten.length ↔
      ∀ t ∈ specs, IsBasic t := by
  have hflatten :
      (specs.map fun t => t.flatMap readBack).flatten = specs.flatten.flatMap readBack := by
    induction specs with
    | nil => rfl
    | cons t specs ih => simp only [List.map_cons, List.flatten_cons, List.flatMap_append, ih]
  rw [hflatten, length_readBack_iff]
  simp only [IsBasic, List.mem_flatten]
  constructor
  · intro h t ht c hc
    exact h c ⟨t, ht, hc⟩
  · rintro h c ⟨t, ht, hc⟩
    exact h t ht c hc

/-- A query gets the same text from formats and from what they are read back as exactly when all
characters of the formats lie in the basic plane. -/
theorem interpolate_readBack_iff [Release] {α : Type} {literal : Text} {specs : List Text}
    (hlen : specs.length = (Template.directives literal).length)
    (hne : Template.directives literal ≠ []) (args : List α) :
    ∃ q q', Query.interpolate literal ⟨specs, args⟩ = .ok q ∧
      Query.interpolate literal ⟨specs.map fun t => t.flatMap readBack, args⟩ = .ok q' ∧
      Template.Replaces literal specs q.text ∧ (q'.text = q.text ↔ ∀ t ∈ specs, IsBasic t) := by
  obtain ⟨q, hq, hreplaces, _⟩ := @Query.interpolate_replaces α literal ⟨specs, args⟩ hlen hne
  rw [Template.directives_eq, List.length_map] at hlen
  have hgs : Template.segments (Template.pieces literal) ≠ [] := by
    intro hnil
    rw [Template.directives_eq, hnil] at hne
    exact hne rfl
  have hmap : (specs.map fun t => t.flatMap readBack).length =
      (Template.segments (Template.pieces literal)).length := by
    rw [List.length_map, hlen]
  have hq' := Query.interpolate_eq literal (⟨specs.map fun t => t.flatMap readBack, args⟩ :
    ParamValues α)
  have hq₀ := Query.interpolate_eq literal (⟨specs, args⟩ : ParamValues α)
  simp only [hmap, Nat.lt_irrefl, if_false, if_neg hgs] at hq'
  simp only [hlen, Nat.lt_irrefl, if_false, if_neg hgs] at hq₀
  obtain rfl := Except.ok.inj (hq.symm.trans hq₀)
  refine ⟨_, _, hq, hq', hreplaces, ?_, ?_⟩
  · intro htext
    have hlength := congrArg List.length htext
    rw [Template.length_weave _ hmap, Template.length_weave _ hlen] at hlength
    rw [← length_flatten_readBack_iff]
    omega
  · intro hbasic
    rw [(map_readBack_eq_iff specs).2 hbasic]

/-- The accessor of the formats returns a list that is written by itself. -/
theorem emitClass_formats {p : ParamSet} {ss : List Slot} (h : slots p = .ok ss)
    (runtime : CodedText) :
    ∃ (front : CodedText) (back : Text), emitClass runtime p = .ok (front ++ CodedText.ofText
      ("    def format_specifiers(self) -> List[str]:\n        return " ++
        (quotedList (ss.map Prod.snd) ++ '\n' :: back))) := by
  let header : List Text := ('@' :: ("dataclass" : Text)) ::
    (Keyword.class_.spelling ++ ' ' :: (p.typeName ++ [':'])) :: (p.fields.map fieldLine ++ [[]])
  let after : List Text :=
    [] :: accessorLines "format_args" "Any" (ss.map fun s => join ['.'] ["self", s.1])
  have hdef : Keyword.def_.spelling = "def" := rfl
  have hreturn : Keyword.return_.spelling = "return" := rfl
  have hlines : unlines (classLines p ss) = unlines header ++
      ("    def format_specifiers(self) -> List[str]:\n        return " ++
        (quotedList (ss.map Prod.snd) ++ '\n' :: unlines after)) := by
    rw [classLines_eq]
    simp [header, after, unlines, accessorLines, quotedList, hdef, hreturn, Function.comp_def]
  refine ⟨"@" ++ runtime ++ "query_params" ++ CodedText.ofText ['\n'] ++ unlines header,
    unlines after, ?_⟩
  rw [List.append_assoc, ← CodedText.ofText_append, ← hlines, emitClass_eq, h,
    ← CodedText.unlines_ofText]
  rfl

/-- What is written for a format is one string literal by itself, and the literal stands for the
format exactly when all characters of the format lie in the basic plane. The same is true of all
formats of a query together: the list that the accessor of its class returns is read as the formats
of its slots, and the text that the query gets from that list is the one that it is to get, exactly
when none of them has a character beyond. -/
theorem formats_denoted_iff [Release] {α : Type} {resolve : Resolver}
    {queryName suffix literal : Text} {p : ParamSet}
    (h : (ofDirectives resolve queryName suffix (Template.directives literal)).result =
      .ok (some p)) (runtime : CodedText) (args : List α) :
    (∀ spec : Text, (∃ v, IsLiteral (AsciiQuoted.encode spec) v) ∧
      (IsLiteral (AsciiQuoted.encode spec) spec ↔ IsBasic spec)) ∧
    ∃ (ss : List Slot) (vs : List Text) (front : CodedText) (back : Text) (q q' : Query α),
      slots p = .ok ss ∧
      (∀ (i : Nat) (d : Directive) (s : Slot), (Template.directives literal)[i]? = some d →
        ss[i]? = some s → ∀ f, d.format = some f → s.2 = f) ∧
      emitClass runtime p = .ok (front ++ CodedText.ofText
        ("    def format_specifiers(self) -> List[str]:\n        return " ++
          (quotedList (ss.map Prod.snd) ++ '\n' :: back))) ∧
      readExpression? (quotedList (ss.map Prod.snd)) = some (.list (vs.map Expr.text)) ∧
      (vs = ss.map Prod.snd ↔ ∀ s ∈ ss, IsBasic s.2) ∧
      Query.interpolate literal ⟨ss.map Prod.snd, args⟩ = .ok q ∧
      Template.Replaces literal (ss.map Prod.snd) q.text ∧
      Query.interpolate literal ⟨vs, args⟩ = .ok q' ∧
      (q'.text = q.text ↔ ∀ s ∈ ss, IsBasic s.2) := by
  refine ⟨fun spec => ⟨⟨_, isLiteral_encode spec⟩, isLiteral_encode_iff spec⟩, ?_⟩
  obtain ⟨us, rfl, hne, hds, hindex, hformat⟩ := ofDirectives_eq_some h
  obtain ⟨_, hslots⟩ := @slots_gather (ClassName.ofQuery queryName suffix) us _ hindex
  obtain ⟨front, back, hclass⟩ := emitClass_formats hslots runtime
  have hlen : ((us.map Taken.slot).map Prod.snd).length = (Template.directives literal).length := by
    rw [← hds]
    simp
  have hnonempty : Template.directives literal ≠ [] := by
    rw [← hds]
    simpa using hne
  have hbasic : (∀ t ∈ (us.map Taken.slot).map Prod.snd, IsBasic t) ↔
      ∀ s ∈ us.map Taken.slot, IsBasic s.2 := List.forall_mem_map
  obtain ⟨q, q', hq, hq', hreplaces, htext⟩ := interpolate_readBack_iff hlen hnonempty args
  refine ⟨_, _, front, back, q, q', hslots, ?_, hclass, readExpression?_quotedList _, ?_, hq,
    hreplaces, hq', htext.trans hbasic⟩
  · intro i d s hd hs f hf
    rw [← hds, List.getElem?_map] at hd
    rw [List.getElem?_map] at hs
    obtain ⟨u, hu, rfl⟩ := Option.map_eq_some_iff.1 hs
    rw [hu] at hd
    cases hd
    have hmem : u ∈ us := List.mem_of_getElem? hu
    obtain ⟨source, hwrites⟩ :=
      Template.exists_writes_of_mem_directives (hds ▸ List.mem_map_of_mem hmem)
    obtain ⟨first, hfirst, hspec⟩ := hformat u hmem
    exact (standsFor_of_format (fun f hf => hwrites.format_ne_nil hf) hfirst hspec).1 f hf
  · exact (map_readBack_eq_iff _).trans hbasic

section

open scoped Source.Plain

/-- A format with a quote, a backslash and a letter that is not in ASCII is read as it was. -/
theorem formats_denoted_accented :
    ∃ (ss : List Slot) (vs : List Text),
      slots ⟨"AQueryParams", [⟨"x", "int", [⟨0, "%é\"\\"⟩]⟩]⟩ = .ok ss ∧
      readExpression? (quotedList (ss.map Prod.snd)) = some (.list (vs.map Expr.text)) ∧
      (vs = ss.map Prod.snd ↔ ∀ s ∈ ss, IsBasic s.2) := by
  obtain ⟨_, ss, vs, _, _, _, _, hslots, _, _, hread, hiff, _⟩ :=
    @formats_denoted_iff _ Nat builtin? "A_QUERY" "Params" "\x7b\x7b x : int : %é\"\\ \x7d\x7d"
      ⟨"AQueryParams", [⟨"x", "int", [⟨0, "%é\"\\"⟩]⟩]⟩ (by decide +kernel) "interpolate." [1]
  exact ⟨ss, vs, hslots, hread, hiff⟩

/-- A format with a character beyond the basic plane, which a directive may well have, is written as
two halves and read as two characters. -/
theorem formats_not_denoted_beyond :
    (ofDirectives builtin? "A_QUERY" "Params"
        (Template.directives "\x7b\x7bx: int: %😀\x7d\x7d")).result =
      .ok (some ⟨"AQueryParams", [⟨"x", "int", [⟨0, "%😀"⟩]⟩]⟩) ∧
    AsciiQuoted.encode "%😀" = "\"%\\ud83d\\ude00\"" ∧
    readExpression? (quotedList ["%😀"]) =
      some (.list [.text ['%', Release.standIn 0x3d, Release.standIn 0x600]]) ∧
    ¬ IsLiteral (AsciiQuoted.encode "%😀") "%😀" := by
  refine ⟨by decide +kernel, by decide, readExpression?_quotedList ["%😀"], ?_⟩
  rw [isLiteral_encode_iff]
  intro hbasic
  exact absurd (hbasic '😀' (by decide)) (by decide)

end

end Companion

end TypedQueries
