import Mathlib.Data.List.Find
import Mathlib.Tactic.Tauto
import TypedQueries.Proofs.DirectiveGrammar
import TypedQueries.Source.Scan
import TypedQueries.Text.AsciiQuoted

/-!
# Written tokens

What a token may be written as, so that the scanner finds that token where it stands before a
character that cannot belong to it: words, keywords, symbols, and string literals that were quoted
in ASCII.
-/

namespace TypedQueries.Source

open Directive (Stops takeWhile_append_of_stops dropWhile_append_of_stops)

def IsName (w : Text) : Prop := Text.isIdentifier w = true ∧ Keyword.ofWord? w = none

instance (w : Text) : Decidable (IsName w) :=
  inferInstanceAs (Decidable (Text.isIdentifier w = true ∧ Keyword.ofWord? w = none))

/-! ### Characters of words -/

theorem ne_of_isIdentifierPart {c d : Char} (h : Text.isIdentifierPart c = true)
    (hd : Text.isIdentifierPart d = false) : c ≠ d := by
  rintro rfl
  rw [h] at hd
  cases hd

/-- A property of the characters below a bound, checked one by one. -/
theorem forall_char_of_lt (P : Char → Prop) {n : Nat} (h : ∀ m < n, P (Char.ofNat m)) {c : Char}
    (hc : c.toNat < n) : P c := by
  have := h c.toNat hc
  rwa [Char.ofNat_toNat] at this

theorem printed_of_isIdentifierPart {c : Char} (h : Text.isIdentifierPart c = true) :
    32 ≤ c.toNat := by
  by_contra hc
  have hcontrol := forall_char_of_lt (Text.isIdentifierPart · = false) (by decide)
    (Nat.lt_of_not_le hc)
  exact ne_of_isIdentifierPart h hcontrol rfl

theorem isAsciiDigit_of_isIdentifierStart {c : Char} (h : Text.isIdentifierStart c = true) :
    Text.isAsciiDigit c = false := by
  rw [Bool.eq_false_iff]
  intro hc
  have hlt : c.toNat < 58 := Nat.lt_succ_of_le (of_decide_eq_true (Bool.and_eq_true_iff.1 hc).2)
  have hdigit := forall_char_of_lt (Text.isIdentifierStart · = false) (by decide) hlt
  rw [hdigit] at h
  cases h

theorem isWordPart_of_isIdentifierPart {c : Char} (h : Text.isIdentifierPart c = true) :
    TokenKind.isWordPart c = true := by
  simp [TokenKind.isWordPart, h]

theorem isAsciiLetter_of_isWordPart {c : Char} (h : TokenKind.isWordPart c = false) :
    Text.isAsciiLetter c = false := by
  simp only [TokenKind.isWordPart, Text.isIdentifierPart, Bool.or_eq_false_iff,
    Bool.not_eq_false'] at h
  rw [if_pos h.1] at h
  simp only [Bool.or_eq_false_iff] at h
  exact h.2.1.1

theorem isQuote_of_isIdentifierPart {c : Char} (h : Text.isIdentifierPart c = true) :
    Literal.isQuote c = false := by
  have hdouble : c ≠ '"' := ne_of_isIdentifierPart h (by decide)
  have hsingle : c ≠ '\'' := ne_of_isIdentifierPart h (by decide)
  simp [Literal.isQuote, hdouble, hsingle]

theorem isIdentifierPart_of_mem {w : Text} (h : Text.isIdentifier w = true) :
    ∀ c ∈ w, Text.isIdentifierPart c = true := by
  cases w with
  | nil => simp
  | cons c r =>
    simp only [Text.isIdentifier, Bool.and_eq_true, List.all_eq_true] at h
    intro d hd
    rcases List.mem_cons.1 hd with rfl | hd
    · exact Text.isIdentifierPart_of_isIdentifierStart h.1
    · exact h.2 d hd

/-! ### Heads of texts -/

theorem stops_dropWhile {p q : Char → Bool} {w t : Text} (hw : ∀ c ∈ w, q c = false)
    (ht : Stops q (t.dropWhile p)) : Stops q ((w ++ t).dropWhile p) := by
  induction w with
  | nil => exact ht
  | cons c w ih =>
    rw [List.cons_append, List.dropWhile_cons]
    split
    · exact ih fun d hd => hw d (List.mem_cons_of_mem c hd)
    · exact Directive.stops_cons (hw c List.mem_cons_self)

theorem beginsNumber_cons {c : Char} {t : Text} (hdot : c ≠ '.')
    (hdigit : Text.isAsciiDigit c = false) : TokenKind.beginsNumber (c :: t) = false := by
  rw [TokenKind.beginsNumber]
  · exact hdigit
  · rintro d r rfl
    exact absurd rfl hdot

theorem opening?_eq_none {t : Text} (h : Stops Literal.isQuote (t.dropWhile Text.isAsciiLetter)) :
    Literal.opening? t = none := by
  rw [Literal.opening?]
  cases Literal.marks.find? fun x => (t.takeWhile Text.isAsciiLetter).map Literal.small = x.2 with
  | none => rfl
  | some m =>
    cases hd : t.dropWhile Text.isAsciiLetter with
    | nil => rfl
    | cons q r =>
      rw [hd] at h
      simp [h q rfl]

theorem leaving?_append {α : Type} (a : α) {w r : Text} (hw : w ≠ []) :
    ∃ h, Found.leaving? a (w ++ r) r = some ⟨a, r, h⟩ := by
  have hlen : r.length < (w ++ r).length := by
    rw [List.length_append]
    have := List.length_pos_iff.2 hw
    omega
  exact ⟨hlen, dif_pos hlen⟩

/-- Only the symbols that begin with the first character of a text can stand at its head. -/
theorem find?_symbols (a : Char) (t : Text) :
    symbols.find? (fun x => x.2.isPrefixOf (a :: t)) =
      (symbols.filter fun x => x.2.head? = some a).find? fun x => x.2.isPrefixOf (a :: t) := by
  have hne : ∀ x ∈ symbols, x.2 ≠ [] := by decide
  rw [← List.head?_filter, ← List.head?_filter, List.filter_filter]
  congr 1
  refine List.filter_congr fun x hx => ?_
  obtain ⟨c, r, hc⟩ := List.exists_cons_of_ne_nil (hne x hx)
  rw [hc]
  by_cases h : c = a
  · simp [h]
  · simp [List.isPrefixOf, h]

/-! ### What a token is written as -/

/-- Whether a character may follow a token without belonging to it. -/
def TokenKind.allows (k : TokenKind) (c : Char) : Bool :=
  match k with
  | .word _ => !isWordPart c && !Literal.isQuote c
  | .keyword _ => !isWordPart c && !Literal.isQuote c
  | .symbol .dot => c ≠ '.' && !Text.isAsciiDigit c
  | .symbol .colon => c ≠ '='
  | .symbol .at => c ≠ '='
  | .text _ => c ≠ '"'
  | _ => true

/-- Whether a token may begin with a character: not with one that means something else between
tokens. -/
def beginsToken (c : Char) : Bool :=
  !TokenKind.isSpace c && c ≠ '#' && c ≠ '\n' && c ≠ '\\'

section Spelling

variable [Release]

/-- The text `w` is a way to write a token of kind `k`. -/
structure Spells (k : TokenKind) (w : Text) : Prop where
  begins : ∃ c r, w = c :: r ∧ beginsToken c = true
  printed : ∀ c ∈ w, 32 ≤ c.toNat
  reads : ∀ c r, k.allows c = true →
    ∃ h, TokenKind.read? (w ++ c :: r) = some ⟨[k], c :: r, h⟩

/-- What stands for a text with no quote near its beginning is no literal. -/
theorem read?_of_readPlain? {t : Text} {f : Found (List TokenKind) t}
    (hopen : Literal.opening? t = none) (h : TokenKind.readPlain? t = some f) :
    TokenKind.read? t = some f := by
  rw [TokenKind.read?, hopen]
  exact h

theorem spells_of_ofWord? {w : Text} {k : TokenKind} (hid : Text.isIdentifier w = true)
    (hword : TokenKind.ofWord? w = some k)
    (hallows : ∀ c, k.allows c = true →
      TokenKind.isWordPart c = false ∧ Literal.isQuote c = false) : Spells k w := by
  have hpart := isIdentifierPart_of_mem hid
  obtain ⟨a, s, rfl, hstart⟩ : ∃ a s, w = a :: s ∧ Text.isIdentifierStart a = true := by
    cases w with
    | nil => cases hid
    | cons a s => exact ⟨a, s, rfl, (Bool.and_eq_true_iff.1 hid).1⟩
  have ha := hpart a List.mem_cons_self
  refine ⟨⟨a, s, rfl, ?_⟩, fun c hc => printed_of_isIdentifierPart (hpart c hc), fun c r hc => ?_⟩
  · have hne : a ≠ ' ' ∧ a ≠ '\t' ∧ a ≠ '\x0c' ∧ a ≠ '#' ∧ a ≠ '\n' ∧ a ≠ '\\' := by
      refine ⟨?_, ?_, ?_, ?_, ?_, ?_⟩ <;> exact ne_of_isIdentifierPart ha (by decide)
    simp [beginsToken, TokenKind.isSpace, hne]
  · obtain ⟨hnotPart, hnotQuote⟩ := hallows c hc
    have hstops : Stops TokenKind.isWordPart (c :: r) := Directive.stops_cons hnotPart
    have hparts : ∀ d ∈ a :: s, TokenKind.isWordPart d = true :=
      fun d hd => isWordPart_of_isIdentifierPart (hpart d hd)
    have hopen : Literal.opening? ((a :: s) ++ c :: r) = none := by
      refine opening?_eq_none (stops_dropWhile
        (fun d hd => isQuote_of_isIdentifierPart (hpart d hd)) ?_)
      rw [List.dropWhile_cons_of_neg (by simp [isAsciiLetter_of_isWordPart hnotPart])]
      exact Directive.stops_cons hnotQuote
    have hnumber : TokenKind.beginsNumber ((a :: s) ++ c :: r) = false :=
      beginsNumber_cons (ne_of_isIdentifierPart ha (by decide))
        (isAsciiDigit_of_isIdentifierStart hstart)
    have hhead : ((a :: s) ++ c :: r).head?.any TokenKind.isWordPart = true := by
      simpa using hparts a List.mem_cons_self
    obtain ⟨h, hleaving⟩ := leaving?_append [k] (List.cons_ne_nil a s) (r := c :: r)
    refine ⟨h, read?_of_readPlain? hopen ?_⟩
    rw [TokenKind.readPlain?, if_neg (by rw [hnumber]; exact Bool.false_ne_true), if_pos hhead,
      takeWhile_append_of_stops hparts hstops, dropWhile_append_of_stops hparts hstops, hword]
    exact hleaving

theorem spells_word {w : Text} (h : IsName w) : Spells (.word (TokenKind.wordForm w)) w := by
  refine spells_of_ofWord? h.1 ?_ fun c hc => ?_
  · rw [TokenKind.ofWord?, h.2]
    exact if_pos h.1
  · simpa [TokenKind.allows] using hc

theorem spells_keyword (k : Keyword) : Spells (.keyword k) k.spelling := by
  have hid : Text.isIdentifier k.spelling = true := by cases k <;> decide
  have hword : Keyword.ofWord? k.spelling = some k := by cases k <;> decide
  refine spells_of_ofWord? hid ?_ fun c hc => ?_
  · rw [TokenKind.ofWord?, hword]
  · simpa [TokenKind.allows] using hc

/-! ### Symbols -/

theorem spells_symbol {s : Symbol} {a : Char} {w : Text} (hbegins : beginsToken a = true)
    (hother : TokenKind.isWordPart a = false ∧ Literal.isQuote a = false)
    (hprinted : ∀ c ∈ a :: w, 32 ≤ c.toNat)
    (hreads : ∀ c r, (TokenKind.symbol s).allows c = true →
      TokenKind.beginsNumber (a :: (w ++ c :: r)) = false ∧
        symbols.find? (fun x => x.2.isPrefixOf (a :: (w ++ c :: r))) = some (s, a :: w)) :
    Spells (.symbol s) (a :: w) := by
  refine ⟨⟨a, w, rfl, hbegins⟩, hprinted, fun c r hc => ?_⟩
  obtain ⟨hnumber, hfind⟩ : TokenKind.beginsNumber (a :: w ++ c :: r) = false ∧
      symbols.find? (fun x => x.2.isPrefixOf (a :: w ++ c :: r)) = some (s, a :: w) := hreads c r hc
  have hopen : Literal.opening? (a :: w ++ c :: r) = none := by
    refine opening?_eq_none ?_
    rw [List.cons_append,
      List.dropWhile_cons_of_neg (by simp [isAsciiLetter_of_isWordPart hother.1])]
    exact Directive.stops_cons hother.2
  obtain ⟨h, hleaving⟩ := leaving?_append [TokenKind.symbol s] (List.cons_ne_nil a w) (r := c :: r)
  refine ⟨h, read?_of_readPlain? hopen ?_⟩
  rw [TokenKind.readPlain?, if_neg (by rw [hnumber]; exact Bool.false_ne_true),
    if_neg (by simp [hother.1])]
  change ((symbols.find? fun x => x.2.isPrefixOf (a :: w ++ c :: r)).bind fun x =>
    Found.leaving? [TokenKind.symbol x.1] (a :: w ++ c :: r)
      ((a :: w ++ c :: r).drop x.2.length)) = _
  rw [hfind, Option.bind_some, List.drop_left]
  exact hleaving

/-- A symbol that is the only one with its first character. -/
theorem spells_symbol_only {s : Symbol} {a : Char}
    (hfilter : (symbols.filter fun x => x.2.head? = some a) = [(s, [a])])
    (hbegins : beginsToken a = true)
    (hother : TokenKind.isWordPart a = false ∧ Literal.isQuote a = false)
    (hprinted : 32 ≤ a.toNat) (hdot : a ≠ '.') (hdigit : Text.isAsciiDigit a = false) :
    Spells (.symbol s) [a] := by
  refine spells_symbol hbegins hother (by simpa using hprinted) fun c r _ => ?_
  refine ⟨beginsNumber_cons hdot hdigit, ?_⟩
  rw [find?_symbols, hfilter]
  simp

theorem spells_comma : Spells (.symbol .comma) [','] := by
  apply spells_symbol_only <;> decide

theorem spells_opening {b : Bracket} (h : b = .round ∨ b = .square) :
    Spells (.symbol (.opening b)) [if b = .round then '(' else '['] := by
  rcases h with rfl | rfl
  · apply spells_symbol_only <;> decide
  · apply spells_symbol_only <;> decide

theorem spells_closing {b : Bracket} (h : b = .round ∨ b = .square) :
    Spells (.symbol (.closing b)) [if b = .round then ')' else ']'] := by
  rcases h with rfl | rfl
  · apply spells_symbol_only <;> decide
  · apply spells_symbol_only <;> decide

theorem spells_colon : Spells (.symbol .colon) [':'] := by
  refine spells_symbol (by decide) (by decide) (by simp) fun c r hc => ?_
  have hne : c ≠ '=' := by simpa [TokenKind.allows] using hc
  have hfilter : (symbols.filter fun x => x.2.head? = some ':') =
      [(.walrus, [':', '=']), (.colon, [':'])] := by decide
  refine ⟨beginsNumber_cons (by decide) (by decide), ?_⟩
  rw [find?_symbols, hfilter]
  simp [hne.symm]

theorem spells_at : Spells (.symbol .at) ['@'] := by
  refine spells_symbol (by decide) (by decide) (by simp) fun c r hc => ?_
  have hne : c ≠ '=' := by simpa [TokenKind.allows] using hc
  have hfilter : (symbols.filter fun x => x.2.head? = some '@') =
      [(.augmented, ['@', '=']), (.at, ['@'])] := by decide
  refine ⟨beginsNumber_cons (by decide) (by decide), ?_⟩
  rw [find?_symbols, hfilter]
  simp [hne.symm]

theorem spells_dot : Spells (.symbol .dot) ['.'] := by
  refine spells_symbol (by decide) (by decide) (by simp) fun c r hc => ?_
  obtain ⟨hne, hdigit⟩ : c ≠ '.' ∧ Text.isAsciiDigit c = false := by
    simpa [TokenKind.allows] using hc
  have hfilter : (symbols.filter fun x => x.2.head? = some '.') =
      [(.ellipsis, ['.', '.', '.']), (.dot, ['.'])] := by decide
  refine ⟨by simpa [TokenKind.beginsNumber] using hdigit, ?_⟩
  rw [find?_symbols, hfilter]
  simp [hne.symm]

theorem spells_arrow : Spells (.symbol .arrow) ['-', '>'] := by
  refine spells_symbol (by decide) (by decide) (by simp) fun c r _ => ?_
  have hfilter : (symbols.filter fun x => x.2.head? = some '-') =
      [(.arrow, ['-', '>']), (.augmented, ['-', '=']), (.minus, ['-'])] := by decide
  refine ⟨beginsNumber_cons (by decide) (by decide), ?_⟩
  rw [find?_symbols, hfilter]
  simp

end Spelling

/-! ### String literals -/

section Literals

variable {triple : Bool}

/-- The text between double quotes is read up to the closing ones. -/
theorem readBody?_cons {c : Char} (hquote : c ≠ '"') (hescape : c ≠ '\\') (hline : c ≠ '\n')
    (r : Text) :
    Literal.readBody? '"' triple (c :: r) =
      (Literal.readBody? '"' triple r).map fun x => (c :: x.1, x.2) := by
  rw [Literal.readBody?.eq_def]
  dsimp only
  rw [if_neg hquote, if_neg hescape, if_neg (by simp [hline])]

theorem readBody?_escape (e : Char) (r : Text) :
    Literal.readBody? '"' triple ('\\' :: e :: r) =
      (Literal.readBody? '"' triple r).map fun x => ('\\' :: e :: x.1, x.2) := by
  rw [Literal.readBody?, if_neg (by decide), if_pos rfl]

theorem readBody?_append {w : Text}
    (hw : ∀ c ∈ w, c ≠ '"' ∧ c ≠ '\\' ∧ c ≠ '\n') (r : Text) :
    Literal.readBody? '"' triple (w ++ r) =
      (Literal.readBody? '"' triple r).map fun x => (w ++ x.1, x.2) := by
  induction w with
  | nil => simp
  | cons c w ih =>
    obtain ⟨hquote, hescape, hline⟩ := hw c List.mem_cons_self
    rw [List.cons_append, readBody?_cons hquote hescape hline,
      ih fun d hd => hw d (List.mem_cons_of_mem c hd), Option.map_map]
    rfl

end Literals

section Decoding

variable [CharacterNames]

theorem decode?_cons {c : Char} (h : c ≠ '\\') (r : Text) :
    Literal.decode? false (c :: r) = (Literal.decode? false r).map (.char c :: ·) := by
  rw [Literal.decode?, if_neg h]
  cases Literal.decode? false r <;> rfl

theorem decode?_escape {t : Text} {f : Found CodedText t}
    (h : Literal.readEscape? false t = some f) :
    Literal.decode? false ('\\' :: t) = (Literal.decode? false f.rest).map (f.value ++ ·) := by
  obtain ⟨v, rest, hlt⟩ := f
  rw [Literal.decode?, if_pos rfl, h]
  simp only [bind, Option.bind]
  cases Literal.decode? false rest <;> rfl

theorem decode?_of_plain {w : Text} (h : '\\' ∉ w) :
    Literal.decode? false w = some (CodedText.ofText w) := by
  induction w with
  | nil =>
    rw [Literal.decode?]
    rfl
  | cons c w ih =>
    obtain ⟨hc, hw⟩ := List.ne_and_not_mem_of_not_mem_cons h
    rw [decode?_cons hc.symm, ih hw, Option.map_some]
    rfl

end Decoding

/-! #### Quoting in ASCII -/

open Text (hex hexDigit hexValue?)
open Text.AsciiQuoted (encodeChar unit)

theorem hexValue?_hexDigit : ∀ n < 16, hexValue? (hexDigit n) = some n := by decide

theorem hexDigit_plain : ∀ n < 16,
    hexDigit n ≠ '"' ∧ hexDigit n ≠ '\\' ∧ hexDigit n ≠ '\n' ∧ 32 ≤ (hexDigit n).toNat := by
  decide

theorem readHex?_cons {n d v count : Nat} {c : Char} {r rest : Text} (hd : hexValue? c = some d)
    (hr : ∃ h, Literal.readHex? (16 * n + d) count r = some ⟨v, rest, h⟩) :
    ∃ h, Literal.readHex? n (count + 1) (c :: r) = some ⟨v, rest, h⟩ := by
  obtain ⟨h, hr⟩ := hr
  refine ⟨Nat.le_succ_of_le h, ?_⟩
  rw [Literal.readHex?, hd]
  simp only [bind, Option.bind, hr]

theorem readHex?_hex (n : Nat) (r : Text) :
    ∃ h, Literal.readHex? 0 4 (hex 4 n ++ r) = some ⟨n % 0x10000, r, h⟩ := by
  have hdigit (i : Nat) := hexValue?_hexDigit (n / Nat.pow 16 i % 16) (Nat.mod_lt _ (by decide))
  have hvalue : 16 * (16 * (16 * (16 * 0 + n / Nat.pow 16 3 % 16) + n / Nat.pow 16 2 % 16) +
      n / Nat.pow 16 1 % 16) + n / Nat.pow 16 0 % 16 = n % 0x10000 := by
    simp only [Nat.pow_eq]
    omega
  rw [← hvalue]
  exact readHex?_cons (hdigit 3) <| readHex?_cons (hdigit 2) <| readHex?_cons (hdigit 1) <|
    readHex?_cons (hdigit 0) ⟨Nat.le_refl _, rfl⟩

theorem decode?_unit [CharacterNames] {n : Nat} (hn : n < 0x10000) {c : CodePoint}
    (hc : CodePoint.ofNat? n = some c) (r : Text) :
    Literal.decode? false (unit n ++ r) = (Literal.decode? false r).map (c :: ·) := by
  obtain ⟨h, hhex⟩ := readHex?_hex n r
  rw [Nat.mod_eq_of_lt hn] at hhex
  have hescape : Literal.readEscape? false ('u' :: (hex 4 n ++ r)) =
      some ⟨[c], r, Nat.lt_succ_of_le h⟩ := by
    have hlookup : Literal.letterEscapes.lookup 'u' = none := by decide
    have hcount : Literal.hexCount? false 'u' = some 4 := by decide
    rw [Literal.readEscape?, if_neg (by decide), hlookup]
    simp only [hcount, bind, Option.bind, hhex, hc]
  exact decode?_escape hescape

def halves (c : Char) : Nat × Nat :=
  (0xd800 + (c.toNat - 0x10000) / 0x400, 0xdc00 + (c.toNat - 0x10000) % 0x400)

theorem halves_bounds {c : Char} (h : 0x10000 ≤ c.toNat) :
    0xd800 ≤ (halves c).1 ∧ (halves c).1 < 0xdc00 ∧ 0xdc00 ≤ (halves c).2 ∧
      (halves c).2 < 0xe000 := by
  have hvalid : c.toNat < 0xd800 ∨ 0xdfff < c.toNat ∧ c.toNat < 0x110000 := c.valid
  simp only [halves]
  omega

/-- A character is quoted as a letter after a backslash, as itself, as one unit or, beyond U+FFFF,
as two. -/
theorem encodeChar_cases (c : Char) :
    (∃ e, encodeChar c = ['\\', e] ∧ Literal.letterEscapes.lookup e = some c ∧ e ≠ '\n' ∧
      32 ≤ e.toNat ∧ c.toNat < 0x10000) ∨
    (encodeChar c = [c] ∧ c ≠ '"' ∧ c ≠ '\\' ∧ c ≠ '\n' ∧ 32 ≤ c.toNat ∧ c.toNat < 0x10000) ∨
    (encodeChar c = unit c.toNat ∧ c.toNat < 0x10000) ∨
    (encodeChar c = unit (halves c).1 ++ unit (halves c).2 ∧ 0x10000 ≤ c.toNat) := by
  have hchar {n : Nat} (h : c.toNat = n) : c = Char.ofNat n := by rw [← h, Char.ofNat_toNat]
  generalize hw : encodeChar c = w
  rw [encodeChar] at hw
  split at hw
  · rename_i h
    exact .inl ⟨'"', hw.symm, by rw [h]; decide⟩
  split at hw
  · rename_i h
    exact .inl ⟨'\\', hw.symm, by rw [h]; decide⟩
  split at hw
  · rename_i h
    exact .inl ⟨'n', hw.symm, by rw [h]; decide⟩
  split at hw
  · rename_i h
    exact .inl ⟨'r', hw.symm, by rw [h]; decide⟩
  split at hw
  · rename_i h
    exact .inl ⟨'t', hw.symm, by rw [h]; decide⟩
  split at hw
  · rename_i h
    exact .inl ⟨'b', hw.symm, by rw [hchar h]; decide⟩
  split at hw
  · rename_i h
    exact .inl ⟨'f', hw.symm, by rw [hchar h]; decide⟩
  split at hw
  · rename_i hquote hslash hline _ _ _ _ hrange
    simp only [Bool.and_eq_true, decide_eq_true_eq] at hrange
    exact .inr (.inl ⟨hw.symm, hquote, hslash, hline, hrange.1, by omega⟩)
  split at hw
  · rename_i hsmall
    exact .inr (.inr (.inl ⟨hw.symm, hsmall⟩))
  · rename_i hlarge
    exact .inr (.inr (.inr ⟨hw.symm, Nat.le_of_not_lt hlarge⟩))

def halfOf (n : Nat) : Fin 2048 := ⟨(n - 0xd800) % 2048, Nat.mod_lt _ (by decide)⟩

/-- The code points that a quoted character is read as: beyond U+FFFF it is read as its halves. -/
def codePoints (c : Char) : CodedText :=
  if c.toNat < 0x10000 then [.char c]
  else [.half (halfOf (halves c).1), .half (halfOf (halves c).2)]

theorem ofNat?_toNat (c : Char) : CodePoint.ofNat? c.toNat = some (.char c) := by
  have hvalid : c.toNat.isValidChar := c.valid
  rw [CodePoint.ofNat?, if_pos hvalid, Char.ofNat_toNat]

theorem ofNat?_half {n : Nat} (hlow : 0xd800 ≤ n) (hhigh : n < 0xe000) :
    CodePoint.ofNat? n = some (.half (halfOf n)) := by
  have hvalid : ¬n.isValidChar := by
    simp only [Nat.isValidChar]
    omega
  have hlt : n - 0xd800 < 2048 := by omega
  have hmod : (n - 0xd800) % 2048 = n - 0xd800 := Nat.mod_eq_of_lt hlt
  rw [CodePoint.ofNat?, if_neg hvalid, dif_pos hlt]
  simp only [halfOf, hmod]

theorem decode?_encodeChar [CharacterNames] (c : Char) (r : Text) :
    Literal.decode? false (encodeChar c ++ r) =
      (Literal.decode? false r).map (codePoints c ++ ·) := by
  rcases encodeChar_cases c with ⟨e, he, hlookup, hline, _, hsmall⟩ |
    ⟨he, _, hslash, _, _, hsmall⟩ | ⟨he, hsmall⟩ | ⟨he, hlarge⟩
  · have hescape : Literal.readEscape? false (e :: r) =
        some ⟨[.char c], r, Nat.lt_succ_self _⟩ := by
      rw [Literal.readEscape?, if_neg hline, hlookup]
    rw [he, codePoints, if_pos hsmall]
    exact decode?_escape hescape
  · rw [he, codePoints, if_pos hsmall]
    exact decode?_cons hslash r
  · rw [he, codePoints, if_pos hsmall]
    exact decode?_unit hsmall (ofNat?_toNat c) r
  · obtain ⟨h₁, h₂, h₃, h₄⟩ := halves_bounds hlarge
    have hhigh := ofNat?_half h₁ (by omega)
    have hlow := ofNat?_half (by omega) h₄
    rw [he, List.append_assoc, decode?_unit (by omega) hhigh, decode?_unit (by omega) hlow,
      Option.map_map, codePoints, if_neg (Nat.not_lt.2 hlarge)]
    rfl

theorem hex_plain (n : Nat) :
    ∀ c ∈ hex 4 n, c ≠ '"' ∧ c ≠ '\\' ∧ c ≠ '\n' ∧ 32 ≤ c.toNat := by
  intro c hc
  obtain ⟨i, _, rfl⟩ := List.mem_map.1 hc
  exact hexDigit_plain _ (Nat.mod_lt _ (by decide))

theorem readBody?_unit (n : Nat) (r : Text) :
    Literal.readBody? '"' false (unit n ++ r) =
      (Literal.readBody? '"' false r).map fun x => (unit n ++ x.1, x.2) := by
  have hplain : ∀ c ∈ hex 4 n, c ≠ '"' ∧ c ≠ '\\' ∧ c ≠ '\n' := fun c hc =>
    ⟨(hex_plain n c hc).1, (hex_plain n c hc).2.1, (hex_plain n c hc).2.2.1⟩
  rw [unit, List.cons_append, List.cons_append, readBody?_escape,
    readBody?_append hplain, Option.map_map]
  rfl

/-- What a character is quoted as does not end the literal. -/
theorem readBody?_encodeChar (c : Char) (r : Text) :
    Literal.readBody? '"' false (encodeChar c ++ r) =
      (Literal.readBody? '"' false r).map fun x => (encodeChar c ++ x.1, x.2) := by
  rcases encodeChar_cases c with ⟨e, he, _⟩ | ⟨he, hquote, hslash, hline, _⟩ | ⟨he, _⟩ | ⟨he, _⟩
  · rw [he]
    exact readBody?_escape e r
  · rw [he]
    exact readBody?_cons hquote hslash hline r
  · rw [he, readBody?_unit]
  · rw [he, List.append_assoc, readBody?_unit, readBody?_unit, Option.map_map]
    simp [Function.comp_def]

theorem readBody?_encode (spec r : Text) :
    Literal.readBody? '"' false (spec.flatMap encodeChar ++ '"' :: r) =
      some (spec.flatMap encodeChar, r) := by
  induction spec with
  | nil =>
    rw [List.flatMap_nil, List.nil_append, Literal.readBody?.eq_def]
    rfl
  | cons c spec ih =>
    rw [List.flatMap_cons, List.append_assoc, readBody?_encodeChar, ih]
    rfl

theorem decode?_encode [CharacterNames] (spec : Text) :
    Literal.decode? false (spec.flatMap encodeChar) = some (spec.flatMap codePoints) := by
  induction spec with
  | nil => rw [List.flatMap_nil, Literal.decode?, List.flatMap_nil]
  | cons c spec ih =>
    rw [List.flatMap_cons, decode?_encodeChar, ih, Option.map_some, List.flatMap_cons]

theorem printed_unit (n : Nat) : ∀ c ∈ unit n, 32 ≤ c.toNat := by
  intro c hc
  rcases List.mem_cons.1 hc with rfl | hc
  · decide
  rcases List.mem_cons.1 hc with rfl | hc
  · decide
  · exact (hex_plain n c hc).2.2.2

theorem printed_encodeChar (c : Char) : ∀ d ∈ encodeChar c, 32 ≤ d.toNat := by
  rcases encodeChar_cases c with ⟨e, he, _, _, hprinted, _⟩ | ⟨he, _, _, _, hprinted, _⟩ |
    ⟨he, _⟩ | ⟨he, _⟩
  · rw [he]
    simpa using hprinted
  · rw [he]
    simpa using hprinted
  · rw [he]
    exact printed_unit _
  · rw [he]
    intro d hd
    rcases List.mem_append.1 hd with hd | hd
    · exact printed_unit _ d hd
    · exact printed_unit _ d hd

theorem encodeChar_eq_cons (c : Char) : ∃ d r, encodeChar c = d :: r ∧ d ≠ '"' := by
  rcases encodeChar_cases c with ⟨e, he, _⟩ | ⟨he, hquote, _⟩ | ⟨he, _⟩ | ⟨he, _⟩
  · exact ⟨_, _, he, by decide⟩
  · exact ⟨_, _, he, hquote⟩
  · exact ⟨_, _, he, by decide⟩
  · exact ⟨_, _, he, by decide⟩

/-! #### Literals as tokens -/

theorem opening?_of_ne {a b : Char} (h : ¬(a = '"' ∧ b = '"')) (r : Text) :
    Literal.opening? ('"' :: a :: b :: r) = some (⟨.text, false, '"', false⟩, a :: b :: r) := by
  have hif : (a = '"' && b = '"') = false := by simpa using h
  change (if (a = '"' && b = '"') = true then _ else _) = _
  rw [hif]
  rfl

/-- The first two characters of a quoted text are not both quotes, unless another quote follows it,
so the literal is not a triple-quoted one. -/
theorem opening?_encode (spec : Text) {rest : Text} (h : rest.head? ≠ some '"') :
    Literal.opening? (Text.AsciiQuoted.encode spec ++ rest) =
      some (⟨.text, false, '"', false⟩, spec.flatMap encodeChar ++ '"' :: rest) := by
  have htext : Text.AsciiQuoted.encode spec ++ rest =
      '"' :: (spec.flatMap encodeChar ++ '"' :: rest) := by
    simp [Text.AsciiQuoted.encode]
  rw [htext]
  cases spec with
  | nil =>
    cases rest with
    | nil => rfl
    | cons c r => exact opening?_of_ne (fun hq => h (by rw [hq.2]; rfl)) r
  | cons e spec =>
    obtain ⟨d, s, hd, hdne⟩ := encodeChar_eq_cons e
    obtain ⟨b, u, hu⟩ : ∃ b u, s ++ (spec.flatMap encodeChar ++ '"' :: rest) = b :: u :=
      List.exists_cons_of_ne_nil (by simp)
    have htail : (e :: spec).flatMap encodeChar ++ '"' :: rest = d :: b :: u := by
      rw [List.flatMap_cons, hd, List.append_assoc, List.cons_append, hu]
    rw [htail]
    exact opening?_of_ne (fun hq => hdne hq.1) u

section Tokens

variable [Release]

/-- What a quoted character is read as: a character beyond U+FFFF is read as the two characters
that are taken for its halves. -/
def readBack (c : Char) : Text := Literal.standing (codePoints c)

theorem standing_flatMap (spec : Text) :
    Literal.standing (spec.flatMap codePoints) = spec.flatMap readBack :=
  List.map_flatMap

theorem standing_ofText (t : Text) : Literal.standing (CodedText.ofText t) = t := by
  rw [Literal.standing, CodedText.ofText, List.map_map]
  exact List.map_id _

theorem read?_of_literal {t body r rest : Text} {triple : Bool} {v : CodedText}
    (hopen : Literal.opening? t = some (⟨.text, false, '"', triple⟩, r))
    (hbody : Literal.readBody? '"' triple r = some (body, rest))
    (hprinted : ∀ c ∈ body, 32 ≤ c.toNat)
    (hvalue : Literal.decode? false body = some v) (hlt : rest.length < t.length) :
    TokenKind.read? t = some ⟨[.text (Literal.standing v)], rest, hlt⟩ := by
  have hliteral : Literal.value? ⟨.text, false, body⟩ = some (Literal.standing v) := by
    change (Literal.decode? false body).map Literal.standing = _
    rw [hvalue, Option.map_some]
  have hreadable : body.contains Text.Utf8.unreadable = false := by
    rw [Bool.eq_false_iff]
    intro hc
    exact absurd (hprinted _ (List.contains_iff_mem.1 hc)) (by decide)
  rw [TokenKind.read?, hopen]
  simp only [hbody, hreadable, hliteral, bind, Option.bind]
  exact dif_pos hlt

theorem read?_encode (spec : Text) {rest : Text} (h : rest.head? ≠ some '"') :
    ∃ hlt, TokenKind.read? (Text.AsciiQuoted.encode spec ++ rest) =
      some ⟨[.text (spec.flatMap readBack)], rest, hlt⟩ := by
  have hlt : rest.length < (Text.AsciiQuoted.encode spec ++ rest).length := by
    simp [Text.AsciiQuoted.encode]
    omega
  have hprinted : ∀ d ∈ spec.flatMap encodeChar, 32 ≤ d.toNat := by
    intro d hd
    obtain ⟨e, _, hd⟩ := List.mem_flatMap.1 hd
    exact printed_encodeChar e d hd
  rw [← standing_flatMap]
  exact ⟨hlt, read?_of_literal (opening?_encode spec h) (readBody?_encode spec rest) hprinted
    (decode?_encode spec) hlt⟩

theorem spells_encode (spec : Text) :
    Spells (.text (spec.flatMap readBack)) (Text.AsciiQuoted.encode spec) := by
  refine ⟨⟨_, _, rfl, by decide⟩, fun d hd => ?_, fun c r hc => ?_⟩
  · have hd : d ∈ '"' :: (spec.flatMap encodeChar ++ ['"']) := hd
    rw [List.mem_cons, List.mem_append, List.mem_flatMap, List.mem_singleton] at hd
    rcases hd with rfl | ⟨e, _, hd⟩ | rfl
    · decide
    · exact printed_encodeChar e d hd
    · decide
  · have hne : c ≠ '"' := by simpa [TokenKind.allows] using hc
    exact read?_encode spec (by simpa using hne)

/-- A text without quotes and backslashes is a string literal between triple quotes. -/
theorem spells_triple {body : Text} (h : ∀ c ∈ body, c ≠ '"' ∧ c ≠ '\\' ∧ 32 ≤ c.toNat) :
    Spells (.text body) ('"' :: '"' :: '"' :: (body ++ ['"', '"', '"'])) := by
  have hplain : ∀ c ∈ body, c ≠ '"' ∧ c ≠ '\\' ∧ c ≠ '\n' := by
    intro c hc
    obtain ⟨hquote, hslash, hprinted⟩ := h c hc
    refine ⟨hquote, hslash, ?_⟩
    rintro rfl
    exact absurd hprinted (by decide)
  refine ⟨⟨'"', _, rfl, by decide⟩, fun d hd => ?_, fun c r _ => ?_⟩
  · simp only [List.mem_cons, List.mem_append, List.not_mem_nil, or_false] at hd
    by_cases hmem : d ∈ body
    · exact (h d hmem).2.2
    · have hd : d = '"' := by tauto
      rw [hd]
      decide
  · have htext : '"' :: '"' :: '"' :: (body ++ ['"', '"', '"']) ++ c :: r =
        '"' :: '"' :: '"' :: (body ++ '"' :: '"' :: '"' :: c :: r) := by simp
    have hopen : Literal.opening? ('"' :: '"' :: '"' :: (body ++ '"' :: '"' :: '"' :: c :: r)) =
        some (⟨.text, false, '"', true⟩, body ++ '"' :: '"' :: '"' :: c :: r) := rfl
    have hend : Literal.readBody? '"' true ('"' :: '"' :: '"' :: c :: r) = some ([], c :: r) := by
      rw [Literal.readBody?.eq_def]
      rfl
    have hbody : Literal.readBody? '"' true (body ++ '"' :: '"' :: '"' :: c :: r) =
        some (body, c :: r) := by
      rw [readBody?_append hplain, hend, Option.map_some, List.append_nil]
    have hvalue : Literal.decode? false body = some body :=
      decode?_of_plain fun hmem => (h _ hmem).2.1 rfl
    have hread := read?_of_literal hopen hbody (fun d hd => (h d hd).2.2) hvalue
    rw [standing_ofText] at hread
    have hlt : (c :: r).length <
        ('"' :: '"' :: '"' :: (body ++ '"' :: '"' :: '"' :: c :: r)).length := by
      simp
      omega
    rw [htext]
    exact ⟨hlt, hread hlt⟩

end Tokens

end TypedQueries.Source
