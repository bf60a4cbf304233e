import Mathlib.Data.List.Basic
import TypedQueries.Proofs.Characters
import TypedQueries.Proofs.Parsing
import TypedQueries.Proofs.Scanning

/-!
# Reading back generated classes

What a class is emitted as, item by item and line by line, is scanned as the tokens of a decorated
class. Every line is a statement by itself, so the class is read whatever its fields are, how many
there are of them and what their formats hold.
-/

namespace TypedQueries.Source

open Source.Piece

abbrev Piece.word [Release] (w : Text) : Piece := .token (.word (TokenKind.wordForm w)) w

/-! ### Written items -/

/-- Whether a character ends a word or a text before it. -/
def endsItem (c : Char) : Bool := !TokenKind.isWordPart c && !Literal.isQuote c

/-- Whether pieces are a way to write an item where `depth` brackets are open. -/
structure WritesItem [Release] (depth : Nat) (ps : List Piece) : Prop where
  isItem : IsItem (kinds ps)
  begins : ∃ k w ps', ps = .token k w :: ps' ∧ w.headD '\n' ≠ '='
  ends : ∀ {qs}, endsItem (first qs) = true → Ends depth qs → Ends depth (ps ++ qs)

/-- Whether a text is that of an item where `depth` brackets are open. -/
def IsItemText [Release] (depth : Nat) (t : Text) : Prop := ∃ ps, WritesItem depth ps ∧ write ps = t

theorem allows_word {w : Text} {c : Char} (h : endsItem c = true) :
    (TokenKind.word w).allows c = true := h

theorem allows_text {v : Text} {c : Char} (h : endsItem c = true) :
    (TokenKind.text v).allows c = true := by
  have hc : c ≠ '"' := by
    rintro rfl
    revert h
    decide
  exact decide_eq_true hc

theorem IsName.headD {w : Text} (h : IsName w) :
    w.headD '\n' ≠ '=' ∧ (TokenKind.symbol .dot).allows (w.headD '\n') = true := by
  cases w with
  | nil => exact absurd h.1 (by decide)
  | cons c r =>
    have hstart : Text.isIdentifierStart c = true := by
      have := h.1
      simp only [Text.isIdentifier, Bool.and_eq_true] at this
      exact this.1
    have hpart := Text.isIdentifierPart_of_isIdentifierStart hstart
    have hdot : c ≠ '.' := ne_of_isIdentifierPart hpart (by decide)
    have hdigit := isAsciiDigit_of_isIdentifierStart hstart
    exact ⟨ne_of_isIdentifierPart hpart (by decide), by simp [TokenKind.allows, hdot, hdigit]⟩

/-- Whether a text is a sequence of names with dots between them. -/
def IsDotted (t : Text) : Prop := ∀ w ∈ Text.splitOn '.' t, IsName w

instance (t : Text) : Decidable (IsDotted t) :=
  inferInstanceAs (Decidable (∀ w ∈ Text.splitOn '.' t, IsName w))

theorem IsDotted.exists_join {t : Text} (h : IsDotted t) :
    ∃ w ws, (∀ v ∈ w :: ws, IsName v) ∧ t = Text.join ['.'] (w :: ws) := by
  obtain ⟨w, ws, hsplit⟩ := List.exists_cons_of_ne_nil (Text.splitOn_ne_nil '.' t)
  rw [IsDotted, hsplit] at h
  exact ⟨w, ws, h, by rw [← hsplit, Text.join_splitOn]⟩

/-! ### Several items -/

def commaPieces : List (List Piece) → List Piece
  | [] => []
  | [ps] => ps
  | ps :: pss => ps ++ .token (.symbol .comma) [','] :: .blank :: commaPieces pss

theorem write_commaPieces (pss : List (List Piece)) :
    write (commaPieces pss) = Text.join [',', ' '] (pss.map write) := by
  induction pss with
  | nil => rfl
  | cons ps pss ih =>
    cases pss with
    | nil => rfl
    | cons qs qss =>
      have hjoin := Text.join_cons_cons [',', ' '] (write ps) (write qs) (qss.map write)
      rw [commaPieces, write_append, write_cons, write_cons, ih]
      · exact hjoin.symm
      · simp

theorem kinds_commaPieces (pss : List (List Piece)) :
    kinds (commaPieces pss) = commas (pss.map kinds) := by
  induction pss with
  | nil => rfl
  | cons ps pss ih =>
    cases pss with
    | nil => rfl
    | cons qs qss =>
      have hkinds : kinds (.token (.symbol .comma) [','] :: .blank :: commaPieces (qs :: qss)) =
          .symbol .comma :: kinds (commaPieces (qs :: qss)) := rfl
      rw [commaPieces, kinds_append, hkinds, ih]
      · rfl
      · simp

def listPieces (pss : List (List Piece)) : List Piece :=
  .token (.symbol (.opening .square)) ['['] ::
    (commaPieces pss ++ [.token (.symbol (.closing .square)) [']']])

theorem write_listPieces (pss : List (List Piece)) :
    write (listPieces pss) = '[' :: (Text.join [',', ' '] (pss.map write) ++ [']']) := by
  rw [listPieces, write_cons, write_append, write_commaPieces]
  rfl

theorem kinds_listPieces (pss : List (List Piece)) :
    kinds (listPieces pss) = .symbol (.opening .square) ::
      (commas (pss.map kinds) ++ [.symbol (.closing .square)]) := by
  rw [← kinds_commaPieces]
  exact congrArg (TokenKind.symbol (.opening .square) :: ·) (kinds_append _ _)

theorem depthLimit_pos : 0 < Progress.depthLimit := by decide

/-! ### Ways to write an item -/

variable [Release]

/-- The pieces of further names, each after a dot. -/
def dots (ws : List Text) : List Piece :=
  ws.flatMap fun w => [.token (.symbol .dot) ['.'], .word w]

theorem ends_dots {ws : List Text} (h : ∀ w ∈ ws, IsName w) {depth : Nat}
    (hdepth : depth < Progress.depthLimit) {qs : List Piece} (hfirst : endsItem (first qs) = true)
    (hqs : Ends depth qs) :
    endsItem (first (dots ws ++ qs)) = true ∧ Ends depth (dots ws ++ qs) := by
  induction ws with
  | nil => exact ⟨hfirst, hqs⟩
  | cons w ws ih =>
    have hw : IsName w := h w List.mem_cons_self
    obtain ⟨hfirst', hends⟩ := ih fun v hv => h v (List.mem_cons_of_mem w hv)
    have hdot : endsItem '.' = true := by decide
    refine ⟨hdot, spells_dot, hw.headD.2, hdepth, ?_⟩
    exact ⟨spells_word hw, allows_word hfirst', hdepth, hends⟩

theorem write_dots (w : Text) (ws : List Text) :
    w ++ write (dots ws) = Text.join ['.'] (w :: ws) := by
  induction ws generalizing w with
  | nil => simp [dots, write, Text.join]
  | cons v ws ih =>
    have hwrite : write (dots (v :: ws)) = '.' :: (v ++ write (dots ws)) := rfl
    rw [hwrite, ih, Text.join_cons_cons]
    rfl

theorem kinds_dots (ws : List Text) : kinds (dots ws) = dotted (ws.map TokenKind.wordForm) := by
  induction ws with
  | nil => rfl
  | cons w ws ih =>
    have hkinds : kinds (dots (w :: ws)) =
        .symbol .dot :: .word (TokenKind.wordForm w) :: kinds (dots ws) := rfl
    rw [hkinds, ih]
    rfl

theorem kinds_dotted (w : Text) (ws : List Text) :
    kinds (.word w :: dots ws) =
      .word (TokenKind.wordForm w) :: dotted (ws.map TokenKind.wordForm) :=
  congrArg (TokenKind.word (TokenKind.wordForm w) :: ·) (kinds_dots ws)

/-- Names with dots between them are an item. -/
theorem writesItem_dotted {w : Text} {ws : List Text} (h : ∀ v ∈ w :: ws, IsName v) {depth : Nat}
    (hdepth : depth < Progress.depthLimit) :
    WritesItem depth (.word w :: dots ws) := by
  have hw : IsName w := h w List.mem_cons_self
  refine ⟨?_, ⟨_, _, _, rfl, hw.headD.1⟩, ?_⟩
  · rw [kinds_dotted]
    exact .dotted _ _
  · intro qs hfirst hqs
    obtain ⟨hfirst', hends⟩ :=
      ends_dots (fun v hv => h v (List.mem_cons_of_mem w hv)) hdepth hfirst hqs
    exact ⟨spells_word hw, allows_word hfirst', hdepth, hends⟩

theorem isItemText_join {w : Text} {ws : List Text} (h : ∀ v ∈ w :: ws, IsName v) {depth : Nat}
    (hdepth : depth < Progress.depthLimit) :
    IsItemText depth (Text.join ['.'] (w :: ws)) :=
  ⟨_, writesItem_dotted h hdepth, write_dots w ws⟩

theorem isItemText_dotted {t : Text} (h : IsDotted t) {depth : Nat}
    (hdepth : depth < Progress.depthLimit) : IsItemText depth t := by
  obtain ⟨w, ws, hws, rfl⟩ := h.exists_join
  exact isItemText_join hws hdepth

theorem isItemText_name {w : Text} (h : IsName w) {depth : Nat}
    (hdepth : depth < Progress.depthLimit) : IsItemText depth w := by
  have hw : ∀ v ∈ [w], IsName v := by simpa using h
  exact isItemText_join hw hdepth

/-- A name with another after a dot is an item. -/
theorem isItemText_attribute {v w : Text} (hv : IsName v) (hw : IsName w) {depth : Nat}
    (hdepth : depth < Progress.depthLimit) : IsItemText depth (Text.join ['.'] [v, w]) := by
  refine isItemText_join ?_ hdepth
  intro u hu
  rcases List.mem_pair.1 hu with rfl | rfl
  · exact hv
  · exact hw

/-- A format is an item, whatever characters it holds. -/
theorem writesItem_encode (spec : Text) {depth : Nat} (hdepth : depth < Progress.depthLimit) :
    WritesItem depth
      [.token (.text (spec.flatMap readBack)) (Text.AsciiQuoted.encode spec)] := by
  refine ⟨.text _, ⟨_, _, _, rfl, ?_⟩, ?_⟩
  · have hquote : (Text.AsciiQuoted.encode spec).headD '\n' = '"' := rfl
    rw [hquote]
    decide
  · intro qs hfirst hqs
    exact ⟨spells_encode spec, allows_text hfirst, hdepth, hqs⟩

theorem isItemText_encode (spec : Text) {depth : Nat} (hdepth : depth < Progress.depthLimit) :
    IsItemText depth (Text.AsciiQuoted.encode spec) :=
  ⟨_, writesItem_encode spec hdepth, by simp [write, Piece.text]⟩

/-- An item with another one in square brackets after its name is an item. -/
theorem isItemText_subscript {w t : Text} (hw : IsName w) {depth : Nat}
    (hdepth : depth + 1 < Progress.depthLimit) (h : IsItemText (depth + 1) t) :
    IsItemText depth (w ++ '[' :: (t ++ [']'])) := by
  obtain ⟨ps, hps, rfl⟩ := h
  have hbefore : depth < Progress.depthLimit := Nat.lt_of_succ_lt hdepth
  let front : List Piece := [.word w, .token (.symbol (.opening .square)) ['[']]
  let back : List Piece := [.token (.symbol (.closing .square)) [']']]
  refine ⟨front ++ (ps ++ back), ⟨?_, ⟨_, _, _, rfl, hw.headD.1⟩, ?_⟩, ?_⟩
  · rw [kinds_append, kinds_append]
    exact hps.isItem.subscript _
  · intro qs _ hqs
    have hopen : endsItem '[' = true := by decide
    have hclose : endsItem ']' = true := by decide
    have hinner : Ends (depth + 1) (ps ++ (back ++ qs)) :=
      hps.ends hclose ⟨spells_closing (.inr rfl), rfl, hdepth, hqs⟩
    have hall : Ends depth (front ++ (ps ++ (back ++ qs))) :=
      ⟨spells_word hw, allows_word hopen, hbefore, spells_opening (.inr rfl), rfl, hbefore, hinner⟩
    simpa only [List.append_assoc] using hall
  · simp [front, back, write, Piece.text]

theorem ends_commaPieces {depth : Nat} (hdepth : depth < Progress.depthLimit)
    {pss : List (List Piece)} (h : ∀ ps ∈ pss, WritesItem depth ps) (qs : List Piece)
    (hfirst : endsItem (first qs) = true) (hqs : Ends depth qs) :
    Ends depth (commaPieces pss ++ qs) := by
  induction pss with
  | nil => exact hqs
  | cons ps pss ih =>
    have hps := h ps List.mem_cons_self
    have hrest := ih fun ps' hps' => h ps' (List.mem_cons_of_mem ps hps')
    cases pss with
    | nil => exact hps.ends hfirst hqs
    | cons ps' pss =>
      have hcomma : endsItem ',' = true := by decide
      rw [commaPieces, List.append_assoc]
      · exact hps.ends hcomma ⟨spells_comma, rfl, hdepth, hrest⟩
      · simp

theorem ends_listPieces {depth : Nat} (hdepth : depth + 1 < Progress.depthLimit)
    {pss : List (List Piece)} (h : ∀ ps ∈ pss, WritesItem (depth + 1) ps) (qs : List Piece)
    (hqs : Ends depth qs) : Ends depth (listPieces pss ++ qs) := by
  have hclose : endsItem ']' = true := by decide
  have hinner := ends_commaPieces hdepth h (.token (.symbol (.closing .square)) [']'] :: qs) hclose
    ⟨spells_closing (.inr rfl), rfl, hdepth, hqs⟩
  have hall : Ends depth (.token (.symbol (.opening .square)) ['['] ::
      (commaPieces pss ++ .token (.symbol (.closing .square)) [']'] :: qs)) :=
    ⟨spells_opening (.inr rfl), rfl, Nat.lt_of_succ_lt hdepth, hinner⟩
  simpa only [listPieces, List.append_assoc, List.cons_append, List.nil_append] using hall

/-- Items with commas between them are a list in square brackets. -/
theorem writesItem_list {depth : Nat} (hdepth : depth + 1 < Progress.depthLimit)
    {pss : List (List Piece)} (hne : pss ≠ []) (h : ∀ ps ∈ pss, WritesItem (depth + 1) ps) :
    WritesItem depth (listPieces pss) := by
  refine ⟨?_, ⟨_, _, _, rfl, by decide⟩, fun _ hqs => ends_listPieces hdepth h _ hqs⟩
  rw [kinds_listPieces]
  apply IsItem.list
  · simpa using hne
  · intro ks hks
    obtain ⟨ps, hps, rfl⟩ := List.mem_map.1 hks
    exact (h ps hps).isItem

theorem isItemText_list {ts : List Text} (hne : ts ≠ []) {depth : Nat}
    (hdepth : depth + 1 < Progress.depthLimit) (h : ∀ t ∈ ts, IsItemText (depth + 1) t) :
    IsItemText depth ('[' :: (Text.join [',', ' '] ts ++ [']'])) := by
  choose! pieces hpieces hwrite using h
  have hmap : (ts.map pieces).map write = ts := by
    rw [List.map_map]
    exact (List.map_congr_left hwrite).trans (List.map_id ts)
  have hitems : ∀ ps ∈ ts.map pieces, WritesItem (depth + 1) ps := by
    intro ps hps
    obtain ⟨t, ht, rfl⟩ := List.mem_map.1 hps
    exact hpieces t ht
  exact ⟨_, writesItem_list hdepth (by simpa using hne) hitems, by rw [write_listPieces, hmap]⟩

/-! ### Written lines -/

/-- Whether a line, with so many spaces before it, is scanned as tokens of the kinds `ks`. -/
def IsLine (indent : Nat) (line : Text) (ks : List TokenKind) : Prop :=
  ∃ row : Row, row.IsWritten ∧ row.indent = indent ∧ row.line = line ∧
    kinds row.pieces ++ [.newline] = ks

theorem isLine_of_ends {k : TokenKind} {w : Text} {ps : List Piece} (h : Ends 0 (.token k w :: ps))
    (n : Nat) :
    IsLine n (List.replicate n ' ' ++ write (.token k w :: ps))
      (kinds (.token k w :: ps) ++ [.newline]) :=
  ⟨⟨n, .token k w :: ps⟩, ⟨h, k, w, ps, rfl⟩, rfl, rfl, rfl⟩

theorem IsItemText.ends {t : Text} (h : IsItemText 0 t) :
    ∃ ps, WritesItem 0 ps ∧ write ps = t ∧ Ends 0 ps := by
  obtain ⟨ps, hps, rfl⟩ := h
  have hline : endsItem '\n' = true := by decide
  have hends : Ends 0 (ps ++ []) := hps.ends hline rfl
  rw [List.append_nil] at hends
  exact ⟨ps, hps, rfl, hends⟩

theorem isLine_decorator {t : Text} (h : IsItemText 0 t) :
    ∃ ks, IsItem ks ∧ IsLine 0 ('@' :: t) (decoratorKinds ks) := by
  obtain ⟨ps, hps, rfl, hends⟩ := h.ends
  refine ⟨kinds ps, hps.isItem,
    isLine_of_ends (w := ['@']) ⟨spells_at, ?_, depthLimit_pos, hends⟩ 0⟩
  obtain ⟨k, w, ps', rfl, hfirst⟩ := hps.begins
  exact decide_eq_true hfirst

theorem isLine_class {w : Text} (h : IsName w) :
    IsLine 0 (Keyword.class_.spelling ++ ' ' :: (w ++ [':']))
      (classKinds (TokenKind.wordForm w) [.newline]) := by
  have hcolon : endsItem ':' = true := by decide
  have hblank : (TokenKind.keyword .class_).allows ' ' = true := by decide
  have hends : Ends 0 [.token (.keyword .class_) Keyword.class_.spelling, .blank,
      .word w, .token (.symbol .colon) [':']] :=
    ⟨spells_keyword _, hblank, depthLimit_pos, spells_word h, allows_word hcolon, depthLimit_pos,
      spells_colon, rfl, depthLimit_pos, rfl⟩
  have hwrite : write [.token (.keyword .class_) Keyword.class_.spelling, .blank,
      .word w, .token (.symbol .colon) [':']] =
        Keyword.class_.spelling ++ ' ' :: (w ++ [':']) := by
    simp [write, Piece.text]
  have hline := isLine_of_ends hends 0
  rw [hwrite] at hline
  exact hline

theorem isLine_field {w t : Text} (hw : IsName w) (h : IsItemText 0 t) (n : Nat) :
    ∃ ks, IsStatement ks ∧ IsLine n (List.replicate n ' ' ++ (w ++ ':' :: ' ' :: t)) ks := by
  obtain ⟨ps, hps, rfl, hends⟩ := h.ends
  have hcolon : endsItem ':' = true := by decide
  have hall : Ends 0 (.word w :: .token (.symbol .colon) [':'] :: .blank :: ps) :=
    ⟨spells_word hw, allows_word hcolon, depthLimit_pos, spells_colon, rfl, depthLimit_pos, hends⟩
  exact ⟨_, .field _ hps.isItem, isLine_of_ends hall n⟩

theorem isLine_return {t : Text} (h : IsItemText 0 t) (n : Nat) :
    ∃ ks, IsStatement ks ∧
      IsLine n (List.replicate n ' ' ++ (Keyword.return_.spelling ++ ' ' :: t)) ks := by
  obtain ⟨ps, hps, rfl, hends⟩ := h.ends
  have hblank : (TokenKind.keyword .return_).allows ' ' = true := by decide
  have hall : Ends 0 (.token (.keyword .return_) Keyword.return_.spelling :: .blank :: ps) :=
    ⟨spells_keyword _, hblank, depthLimit_pos, hends⟩
  exact ⟨_, .return hps.isItem, isLine_of_ends hall n⟩

theorem isLine_accessor {name receiver t : Text} (hname : IsName name) (hreceiver : IsName receiver)
    (h : IsItemText 0 t) (n : Nat) :
    ∃ type, IsItem type ∧
      IsLine n (List.replicate n ' ' ++ (Keyword.def_.spelling ++ ' ' :: (name ++ '(' ::
        (receiver ++ ')' :: ' ' :: '-' :: '>' :: ' ' :: (t ++ [':'])))))
        (accessorKinds (TokenKind.wordForm name) (TokenKind.wordForm receiver) type
          [.newline]) := by
  obtain ⟨ps, hps, rfl⟩ := h
  have hcolon : endsItem ':' = true := by decide
  have hopen : endsItem '(' = true := by decide
  have hclose : endsItem ')' = true := by decide
  have hblank : (TokenKind.keyword .def_).allows ' ' = true := by decide
  have hlimit : 1 < Progress.depthLimit := by decide
  have htype : Ends 0 (ps ++ [.token (.symbol .colon) [':']]) :=
    hps.ends hcolon ⟨spells_colon, rfl, depthLimit_pos, rfl⟩
  let pieces : List Piece := .blank :: .word name ::
    .token (.symbol (.opening .round)) ['('] :: .word receiver ::
      .token (.symbol (.closing .round)) [')'] :: .blank :: .token (.symbol .arrow) ['-', '>'] ::
        .blank :: (ps ++ [.token (.symbol .colon) [':']])
  have hends : Ends 0 (.token (.keyword .def_) Keyword.def_.spelling :: pieces) :=
    ⟨spells_keyword _, hblank, depthLimit_pos, spells_word hname, allows_word hopen, depthLimit_pos,
      spells_opening (.inl rfl), rfl, depthLimit_pos, spells_word hreceiver, allows_word hclose,
      hlimit, spells_closing (.inl rfl), rfl, hlimit, spells_arrow, rfl, depthLimit_pos, htype⟩
  have hwrite : write (.token (.keyword .def_) Keyword.def_.spelling :: pieces) =
      Keyword.def_.spelling ++ ' ' :: (name ++ '(' :: (receiver ++ ')' :: ' ' :: '-' :: '>' ::
        ' ' :: (write ps ++ [':']))) := by
    simp [pieces, write, Piece.text]
  have hkinds : kinds (.token (.keyword .def_) Keyword.def_.spelling :: pieces) ++ [.newline] =
      accessorKinds (TokenKind.wordForm name) (TokenKind.wordForm receiver) (kinds ps)
        [.newline] := by
    have hfront : kinds (.token (.keyword .def_) Keyword.def_.spelling :: pieces) =
        accessorKinds (TokenKind.wordForm name) (TokenKind.wordForm receiver) (kinds ps) [] := by
      have := kinds_append ps [.token (.symbol .colon) [':']]
      rw [accessorKinds]
      exact congrArg (fun ks => TokenKind.keyword .def_ :: .word (TokenKind.wordForm name) ::
        .symbol (.opening .round) :: .word (TokenKind.wordForm receiver) ::
          .symbol (.closing .round) :: .symbol .arrow :: ks) this
    rw [hfront]
    simp [accessorKinds]
  have hline := isLine_of_ends hends n
  rw [hwrite, hkinds] at hline
  exact ⟨kinds ps, hps.isItem, hline⟩

/-! ### Lines below each other -/

section Lines

variable {n : Nat} {line t : Text} {ks ks' layout : List TokenKind}
  {stack stack' : List Indentation}

theorem IsLine.scans (h : IsLine n line ks)
    (henter : Indentation.enter? stack ⟨n, n⟩ = some (layout, stack'))
    (hscan : Scans stack' t ks') :
    Scans stack (line ++ '\n' :: t) (layout ++ (ks ++ ks')) := by
  obtain ⟨row, hrow, rfl, rfl, rfl⟩ := h
  simpa using hscan.row hrow henter

theorem scans_statements {lines : List Text}
    (h : ∀ l ∈ lines, ∃ ks, IsStatement ks ∧ IsLine n l ks)
    (hstay : Indentation.enter? stack ⟨n, n⟩ = some ([], stack)) :
    ∃ kss : List (List TokenKind), (∀ ks ∈ kss, IsStatement ks) ∧
      ∀ {t ks'}, Scans stack t ks' →
        Scans stack (Text.unlines lines ++ t) (kss.flatten ++ ks') := by
  induction lines with
  | nil => exact ⟨[], by simp, fun hscan => hscan⟩
  | cons l ls ih =>
    obtain ⟨ks, hstatement, hline⟩ := h l List.mem_cons_self
    obtain ⟨kss, hstatements, hrest⟩ := ih fun l' hl' => h l' (List.mem_cons_of_mem l hl')
    refine ⟨ks :: kss, ?_, ?_⟩
    · intro ks' hks'
      rcases List.mem_cons.1 hks' with rfl | hks'
      · exact hstatement
      · exact hstatements ks' hks'
    · intro t ks' hscan
      have hall := hline.scans hstay (hrest hscan)
      simpa [Text.unlines] using hall

end Lines

end TypedQueries.Source

namespace TypedQueries.Companion

open Source Text

/-! ### Lines of a class -/

theorem unlines_cons_append (l : Text) (ls : List Text) (t : Text) :
    unlines (l :: ls) ++ t = l ++ '\n' :: (unlines ls ++ t) := by
  simp [unlines]

def fieldLine (f : Field) : Text :=
  List.replicate 4 ' ' ++ (f.name ++ ':' :: ' ' :: fieldType f.typeName)

/-- The lines of an accessor that returns these items, which are of type `element`. -/
def accessorLines (name element : Text) (items : List Text) : List Text :=
  [List.replicate 4 ' ' ++ (Keyword.def_.spelling ++ ' ' :: (name ++ '(' :: ("self" ++ ')' :: ' ' ::
     '-' :: '>' :: ' ' :: ("List" ++ '[' :: (element ++ [']']) ++ [':'])))),
   List.replicate 8 ' ' ++
     (Keyword.return_.spelling ++ ' ' :: '[' :: (join [',', ' '] items ++ [']']))]

/-- After its marker a class is its second decorator, its first line, its fields and its
accessors. -/
theorem classLines_eq (p : ParamSet) (ss : List Slot) :
    classLines p ss = ('@' :: ("dataclass" : Text)) ::
      (Keyword.class_.spelling ++ ' ' :: (p.typeName ++ [':'])) ::
        (p.fields.map fieldLine ++
          [] :: (accessorLines "format_specifiers" "str" (ss.map fun s => AsciiQuoted.encode s.2) ++
            [] :: accessorLines "format_args" "Any"
              (ss.map fun s => join ['.'] ["self", s.1]))) := by
  have hclass : Keyword.class_.spelling = "class" := rfl
  have hdef : Keyword.def_.spelling = "def" := rfl
  have hreturn : Keyword.return_.spelling = "return" := rfl
  simp [classLines, indent, join, fieldLine, accessorLines, hclass, hdef, hreturn]

theorem emitClassText_of_slots {p : ParamSet} {ss : List Slot} (h : slots p = .ok ss)
    (runtime : Text) :
    emitClassText runtime p =
      .ok (unlines (('@' :: (runtime ++ "query_params")) :: classLines p ss)) := by
  rw [emitClassText, h]
  rfl

def memberIndent : Indentation := ⟨4, 4⟩

def bodyIndent : Indentation := ⟨8, 8⟩

/-- Whether lines are scanned as the kinds `ks` where a member of a class stands, when the line
after them leaves the body of an accessor. -/
def IsAccessor [Release] (lines : List Text) (ks : List TokenKind) : Prop :=
  ∀ {stack layout t ks'}, Indentation.enter? stack memberIndent = some (layout, [memberIndent]) →
    Scans [bodyIndent, memberIndent] t (.dedent :: ks') →
    Scans stack (unlines lines ++ t) (layout ++ (ks ++ ks'))

theorem isAccessor_accessorLines [Release] {name element : Text} {items : List Text}
    (hname : IsName name)
    (helement : IsName element) (hne : items ≠ []) (h : ∀ t ∈ items, IsItemText 1 t) :
    ∃ ks, IsStatement ks ∧ IsAccessor (accessorLines name element items) ks := by
  have hself : IsName "self" := by decide
  have htype : IsItemText 0 ("List" ++ '[' :: (element ++ [']'])) :=
    isItemText_subscript (by decide) (by decide) (isItemText_name helement (by decide))
  have hlist : IsItemText 0 ('[' :: (join [',', ' '] items ++ [']'])) :=
    isItemText_list hne (by decide) h
  obtain ⟨type, hitem, hheader⟩ := isLine_accessor hname hself htype 4
  obtain ⟨ks, hstatement, hreturn⟩ := isLine_return hlist 8
  refine ⟨accessorKinds (TokenKind.wordForm name) (TokenKind.wordForm "self") type
    (blockKinds [ks]), .accessor _ _ hitem (by simp) (by simpa using hstatement), ?_⟩
  intro stack layout t ks' henter hscan
  have hbodyIndent : Indentation.enter? [memberIndent] bodyIndent =
      some ([.indent], [bodyIndent, memberIndent]) := rfl
  have hbody := hreturn.scans hbodyIndent hscan
  have hall := hheader.scans henter hbody
  simpa [unlines, accessorLines, accessorKinds, blockKinds] using hall

theorem isAccessor_formats [Release] {ss : List Slot} (hne : ss ≠ []) :
    ∃ ks, IsStatement ks ∧ IsAccessor (accessorLines "format_specifiers" "str"
      (ss.map fun s => AsciiQuoted.encode s.2)) ks := by
  have hname : IsName "format_specifiers" := by decide
  have hstr : IsName "str" := by decide
  refine isAccessor_accessorLines hname hstr (by simpa using hne) ?_
  intro t ht
  obtain ⟨s, _, rfl⟩ := List.mem_map.1 ht
  exact isItemText_encode s.2 (by decide)

theorem isAccessor_arguments [Release] {ss : List Slot} (hne : ss ≠ []) (h : ∀ s ∈ ss, IsName s.1) :
    ∃ ks, IsStatement ks ∧ IsAccessor (accessorLines "format_args" "Any"
      (ss.map fun s => join ['.'] ["self", s.1])) ks := by
  have hname : IsName "format_args" := by decide
  have hany : IsName "Any" := by decide
  have hself : IsName "self" := by decide
  refine isAccessor_accessorLines hname hany (by simpa using hne) ?_
  intro t ht
  obtain ⟨s, hs, rfl⟩ := List.mem_map.1 ht
  exact isItemText_attribute hself (h s hs) (by decide)

/-- Whether tokens of the kinds `ks` are the definition of a class, whatever follows them. -/
def IsClass (name : Text) (ks : List TokenKind) : Prop :=
  ∀ {ts rest : List Token}, Begins ts ks rest →
    ∃ n, Yields (statement? ts) [⟨.classDefinition name [], n⟩] rest

/-- Whether the class, the fields and the types of a parameter set are called by names, and its
slots are filled with its fields. -/
structure IsNamed [Release] (p : ParamSet) : Prop where
  className : IsName p.typeName
  fields_ne_nil : p.fields ≠ []
  fields : ∀ f ∈ p.fields, IsName f.name ∧ IsItemText 0 (fieldType f.typeName)
  slots : ∃ ss, slots p = .ok ss ∧ ss ≠ [] ∧ ∀ s ∈ ss, IsName s.1

/-- What a class is emitted as is scanned as a class. -/
theorem scans_emitClass [Release] {name : Text} (hname : IsName name) {p : ParamSet}
    (h : IsNamed p) :
    ∃ text ks, emitClassText (name ++ ".") p = .ok text ∧
      IsClass (TokenKind.wordForm p.typeName) ks ∧
      ∀ {stack layout t ks'}, Indentation.enter? stack ⟨0, 0⟩ = some (layout, []) →
        Scans [bodyIndent, memberIndent] t (.dedent :: .dedent :: ks') →
        Scans stack (text ++ t) (layout ++ (ks ++ ks')) := by
  obtain ⟨hclass, hne, hfields, ss, hslots, hss, hnames⟩ := h
  -- every line by itself
  have hqueryParams : IsName "query_params" := by decide
  have hmarker : IsItemText 0 (join ['.'] [name, "query_params"]) :=
    isItemText_attribute hname hqueryParams depthLimit_pos
  have hdataclass : IsItemText 0 ("dataclass" : Text) := isItemText_name (by decide) depthLimit_pos
  obtain ⟨first, hfirst, hfirstLine⟩ := isLine_decorator hmarker
  obtain ⟨second, hsecond, hsecondLine⟩ := isLine_decorator hdataclass
  have hfieldLine : ∀ f ∈ p.fields, ∃ ks, IsStatement ks ∧ IsLine 4 (fieldLine f) ks :=
    fun f hf => isLine_field (hfields f hf).1 (hfields f hf).2 4
  obtain ⟨k₁, hstatement₁, hscans₁⟩ := isAccessor_formats hss
  obtain ⟨k₂, hstatement₂, hscans₂⟩ := isAccessor_arguments hss hnames
  obtain ⟨f, fs, hcons⟩ := List.exists_cons_of_ne_nil hne
  rw [hcons] at hfieldLine
  obtain ⟨k, hstatement, hline⟩ := hfieldLine f List.mem_cons_self
  have hmembers : ∀ l ∈ fs.map fieldLine, ∃ ks, IsStatement ks ∧ IsLine 4 l ks := by
    intro l hl
    obtain ⟨f', hf', rfl⟩ := List.mem_map.1 hl
    exact hfieldLine f' (List.mem_cons_of_mem f hf')
  have hstay : Indentation.enter? [memberIndent] memberIndent = some ([], [memberIndent]) := rfl
  have hleave : Indentation.enter? [bodyIndent, memberIndent] memberIndent =
      some ([.dedent], [memberIndent]) := rfl
  have hindent : Indentation.enter? [] memberIndent = some ([.indent], [memberIndent]) := rfl
  have htop : Indentation.enter? [] ⟨0, 0⟩ = some ([], []) := rfl
  obtain ⟨kss, hstatements, hscans⟩ := scans_statements hmembers hstay
  refine ⟨_, decoratorKinds first ++ (decoratorKinds second ++
    classKinds (TokenKind.wordForm p.typeName) (blockKinds (k :: (kss ++ [k₁, k₂])))),
    emitClassText_of_slots hslots (name ++ "."), ?_, ?_⟩
  · intro ts rest hts
    refine statement?_class hfirst hsecond _ (by simp) ?_ hts
    intro ks hks
    simp only [List.mem_cons, List.mem_append, List.not_mem_nil, or_false] at hks
    rcases hks with rfl | hks | rfl | rfl
    · exact hstatement
    · exact hstatements ks hks
    · exact hstatement₁
    · exact hstatement₂
  · intro stack layout t ks' henter hscan
    have hfirstText : join ['.'] [name, "query_params"] = name ++ "." ++ "query_params" := rfl
    rw [hfirstText] at hfirstLine
    have h₂ := hscans₂ hleave hscan
    have h₁ := hscans₁ hstay h₂.newline
    have hmember := hline.scans hindent (hscans h₁.newline)
    have hheader := (isLine_class hclass).scans htop hmember
    have hall := hfirstLine.scans henter (hsecondLine.scans htop hheader)
    rw [classLines_eq, hcons]
    simpa [unlines, classKinds, blockKinds] using hall

/-! ### Bodies -/

theorem emitText_cons {runtime text body : Text} {p : ParamSet} {ps : List ParamSet}
    (hclass : emitClassText runtime p = .ok text) (hbody : emitText runtime ps = .ok body) :
    emitText runtime (p :: ps) = .ok ('\n' :: '\n' :: (text ++ body)) := by
  rw [emitText] at hbody ⊢
  rw [List.mapM_cons, hclass]
  cases hclasses : ps.mapM (emitClassText runtime) with
  | error e =>
    rw [hclasses] at hbody
    cases hbody
  | ok classes =>
    rw [hclasses] at hbody
    cases hbody
    rfl

/-- A body is scanned as its classes. A class ends where the next line is no longer indented, which
is why the ends of indentations come first when a class stands before the body. -/
theorem scans_emit [Release] {name : Text} (hname : IsName name) {wanted : List ParamSet}
    (h : ∀ p ∈ wanted, IsNamed p) :
    ∃ body kss, emitText (name ++ ".") wanted = .ok body ∧
      List.Forall₂ (fun p ks => IsClass (TokenKind.wordForm p.typeName) ks) wanted kss ∧
      ∀ {stack}, Indentation.enter? stack ⟨0, 0⟩ = some (stack.map fun _ => .dedent, []) →
        Scans stack body ((stack.map fun _ => .dedent) ++ kss.flatten) := by
  induction wanted with
  | nil =>
    refine ⟨[], [], rfl, .nil, fun {stack} _ => ?_⟩
    simpa using Scans.nil stack
  | cons p ps ih =>
    obtain ⟨body, kss, hbody, hclasses, hscans⟩ := ih fun q hq => h q (List.mem_cons_of_mem p hq)
    obtain ⟨text, ks, htext, hclass, hscan⟩ := scans_emitClass hname (h p List.mem_cons_self)
    refine ⟨_, ks :: kss, emitText_cons htext hbody, .cons hclass hclasses,
      fun {stack} henter => ?_⟩
    have hleave : Indentation.enter? [bodyIndent, memberIndent] ⟨0, 0⟩ =
        some ([.dedent, .dedent], []) := rfl
    exact (hscan henter (hscans hleave)).newline.newline

/-- The tokens of classes are read as their definitions. -/
theorem statements?_classes [Release] {wanted : List ParamSet} {kss : List (List TokenKind)}
    (h : List.Forall₂ (fun p ks => IsClass (TokenKind.wordForm p.typeName) ks) wanted kss)
    {ts : List Token} (hts : ts.map Token.kind = kss.flatten) :
    ∃ ss, statements? ts = some ss ∧ ss.map Statement.kind =
      wanted.map fun p => .classDefinition (TokenKind.wordForm p.typeName) [] := by
  induction h generalizing ts with
  | nil =>
    obtain rfl := List.map_eq_nil_iff.1 hts
    exact ⟨[], by rw [statements?], rfl⟩
  | @cons p ks wanted kss hclass _ ih =>
    have hbegins : Begins ts (ks ++ kss.flatten) [] := ⟨ts, (List.append_nil ts).symm, hts⟩
    obtain ⟨mid, hfirst, rest, hmid, hrest⟩ := begins_append.1 hbegins
    rw [List.append_nil] at hmid
    subst hmid
    obtain ⟨n, hstatement⟩ := hclass hfirst
    obtain ⟨ss, hss, hkinds⟩ := ih hrest
    refine ⟨⟨.classDefinition (TokenKind.wordForm p.typeName) [], n⟩ :: ss, ?_, ?_⟩
    · rw [statements?_of_statement? hstatement, hss]
      rfl
    · rw [List.map_cons, hkinds]
      rfl

end TypedQueries.Companion
