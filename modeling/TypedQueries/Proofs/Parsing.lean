import Mathlib.Data.Nat.Init
import TypedQueries.Source.Statement.Read

/-!
# Reading the tokens of a class

Which tokens are read as a name, a type, a list or a statement of the kinds that a generated class
is made of. A reader is followed by what it leaves, so these facts compose along a list of tokens.
-/

namespace TypedQueries.Source

/-- What a reader has found at the head of the tokens, and what it leaves. -/
def Yields {α : Type} {ts : List Token} (found : Option (Found α ts)) (a : α)
    (rest : List Token) : Prop :=
  ∃ h, found = some ⟨a, rest, h⟩

/-- Whether tokens begin with tokens of the kinds `ks`, with `rest` after them. -/
def Begins (ts : List Token) (ks : List TokenKind) (rest : List Token) : Prop :=
  ∃ front, ts = front ++ rest ∧ front.map Token.kind = ks

theorem begins_nil {ts rest : List Token} : Begins ts [] rest ↔ ts = rest := by
  simp [Begins]

theorem begins_cons {ts rest : List Token} {k : TokenKind} {ks : List TokenKind} :
    Begins ts (k :: ks) rest ↔ ∃ p l r, ts = ⟨k, p, l⟩ :: r ∧ Begins r ks rest := by
  constructor
  · rintro ⟨front, rfl, hkinds⟩
    obtain ⟨⟨k', p, l⟩, front', rfl, rfl, hfront⟩ := List.map_eq_cons_iff.1 hkinds
    exact ⟨p, l, _, rfl, front', rfl, hfront⟩
  · rintro ⟨p, l, r, rfl, front, rfl, rfl⟩
    exact ⟨⟨k, p, l⟩ :: front, rfl, rfl⟩

theorem begins_append {ts rest : List Token} {ks ks' : List TokenKind} :
    Begins ts (ks ++ ks') rest ↔ ∃ mid, Begins ts ks mid ∧ Begins mid ks' rest := by
  constructor
  · rintro ⟨front, rfl, hkinds⟩
    obtain ⟨a, b, rfl, rfl, rfl⟩ := List.map_eq_append_iff.1 hkinds
    exact ⟨b ++ rest, ⟨a, by simp, rfl⟩, b, rfl, rfl⟩
  · rintro ⟨mid, ⟨a, rfl, rfl⟩, b, rfl, rfl⟩
    exact ⟨a ++ b, by simp, by simp⟩

/-! ### What ends an expression -/

/-- Whether a token ends the expression before it: the end of a line, a closing bracket, a comma
or a colon. -/
def TokenKind.closes : TokenKind → Bool
  | .newline => true
  | .symbol s => s = .closing .round || s = .closing .square || s = .comma || s = .colon
  | _ => false

/-- Whether tokens begin with one that ends the expression before it. -/
def Closes (ts : List Token) : Prop := ∃ k p l r, ts = ⟨k, p, l⟩ :: r ∧ k.closes = true

theorem closes_cons {k : TokenKind} (h : k.closes = true) (p : Position) (l : Nat)
    (r : List Token) : Closes (⟨k, p, l⟩ :: r) := ⟨k, p, l, r, rfl, h⟩

theorem closes_cases {k : TokenKind} (h : k.closes = true) :
    k = .newline ∨ k = .symbol (.closing .round) ∨ k = .symbol (.closing .square) ∨
      k = .symbol .comma ∨ k = .symbol .colon := by
  cases k with
  | newline => exact .inl rfl
  | symbol s => simpa [TokenKind.closes, or_assoc] using h
  | _ => cases h

theorem between?_of_closes {ts : List Token} (h : Closes ts) (l : Level) :
    l.between? ts = none := by
  obtain ⟨k, p, n, r, rfl, hk⟩ := h
  rcases closes_cases hk with rfl | rfl | rfl | rfl | rfl <;> cases l <;> rfl

theorem trailers?_of_closes {ts : List Token} (h : Closes ts) (e : Expr) :
    ∃ h', trailers? e ts = some ⟨e, ts, h'⟩ := by
  obtain ⟨k, p, n, r, rfl, hk⟩ := h
  refine ⟨Nat.le_refl _, ?_⟩
  rcases closes_cases hk with rfl | rfl | rfl | rfl | rfl <;> rw [trailers?.eq_def] <;> rfl

theorem afterSymbol?_doubleStar_of_closes {ts : List Token} (h : Closes ts) :
    afterSymbol? .doubleStar ts = none := by
  obtain ⟨k, p, n, r, rfl, hk⟩ := h
  rcases closes_cases hk with rfl | rfl | rfl | rfl | rfl <;> rfl

theorem afterKeyword?_of_closes {ts : List Token} (h : Closes ts) (w : Keyword) :
    afterKeyword? w ts = none := by
  obtain ⟨k, p, n, r, rfl, hk⟩ := h
  rcases closes_cases hk with rfl | rfl | rfl | rfl | rfl <;> rfl

/-! ### Expressions without operators -/

/-- Whether an expression without operators can begin with a token: a name, a text or a list. -/
def TokenKind.isPlain : TokenKind → Bool
  | .word _ => true
  | .text _ => true
  | .symbol s => s = .opening .square
  | _ => false

theorem isPlain_cases {k : TokenKind} (h : k.isPlain = true) :
    (∃ w, k = .word w) ∨ (∃ v, k = .text v) ∨ k = .symbol (.opening .square) := by
  cases k with
  | word w => exact .inl ⟨w, rfl⟩
  | text v => exact .inr (.inl ⟨v, rfl⟩)
  | symbol s => exact .inr (.inr (by simpa [TokenKind.isPlain] using h))
  | _ => cases h

section Plain

variable {k : TokenKind} {p : Position} {n : Nat} {r rest : List Token} {e : Expr}

theorem beforeOperand?_of_isPlain (h : k.isPlain = true) (l : Level) :
    l.beforeOperand? (⟨k, p, n⟩ :: r) = none := by
  rcases isPlain_cases h with ⟨w, rfl⟩ | ⟨v, rfl⟩ | rfl <;> cases l <;> rfl

theorem power?_of_primary? (hk : k.isPlain = true) (h : Yields (primary? (⟨k, p, n⟩ :: r)) e rest)
    (hrest : Closes rest) : Yields (power? (⟨k, p, n⟩ :: r)) e rest := by
  obtain ⟨hlt, h⟩ := h
  have hawait : afterKeyword? .await_ (⟨k, p, n⟩ :: r) = none := by
    rcases isPlain_cases hk with ⟨w, rfl⟩ | ⟨v, rfl⟩ | rfl <;> rfl
  refine ⟨hlt, ?_⟩
  rw [power?, hawait]
  dsimp only
  rw [h]
  simp only [bind, Option.bind, afterSymbol?_doubleStar_of_closes hrest]

/-- Where no operator stands, an operand is an expression of every level. -/
theorem operation?_of_primary? (hk : k.isPlain = true)
    (h : Yields (primary? (⟨k, p, n⟩ :: r)) e rest) (hrest : Closes rest) (l : Level) :
    Yields (operation? l (⟨k, p, n⟩ :: r)) e rest := by
  induction hn : l.tighter using Nat.strong_induction_on generalizing l with
  | _ m ih =>
    subst hn
    have hafter : ∃ h', operations? l e rest = some ⟨e, rest, h'⟩ := by
      refine ⟨Nat.le_refl _, ?_⟩
      rw [operations?, between?_of_closes hrest]
      rfl
    obtain ⟨hle, hafter⟩ := hafter
    unfold Yields
    rw [operation?, beforeOperand?_of_isPlain hk l]
    dsimp only
    split
    · rename_i m hnext
      obtain ⟨hlt, hoperand⟩ := ih m.tighter (Level.tighter_of_next? hnext) m rfl
      refine ⟨hlt, ?_⟩
      simp only [hoperand, bind, Option.bind, hafter]
    · exact power?_of_primary? hk h hrest

theorem expression?_of_primary? (hk : k.isPlain = true)
    (h : Yields (primary? (⟨k, p, n⟩ :: r)) e rest) (hrest : Closes rest) :
    Yields (expression? (⟨k, p, n⟩ :: r)) e rest := by
  obtain ⟨hlt, hoperand⟩ := operation?_of_primary? hk h hrest .disjunction
  have hlambda : afterKeyword? .lambda_ (⟨k, p, n⟩ :: r) = none := by
    rcases isPlain_cases hk with ⟨w, rfl⟩ | ⟨v, rfl⟩ | rfl <;> rfl
  refine ⟨hlt, ?_⟩
  rw [expression?, hlambda]
  dsimp only
  rw [hoperand]
  simp only [bind, Option.bind, afterKeyword?_of_closes hrest]

/-- An expression that begins with no assignment is an item. -/
theorem item?_of_primary? (hk : k.isPlain = true)
    (h : Yields (primary? (⟨k, p, n⟩ :: r)) e rest) (hrest : Closes rest) (named : Bool)
    (hwalrus : atWalrus (⟨k, p, n⟩ :: r) = false) :
    Yields (item? named (⟨k, p, n⟩ :: r)) e rest := by
  have hstar : afterSymbol? .star (⟨k, p, n⟩ :: r) = none := by
    rcases isPlain_cases hk with ⟨w, rfl⟩ | ⟨v, rfl⟩ | rfl <;> rfl
  have hnamed : ¬(named && atWalrus (⟨k, p, n⟩ :: r)) = true := by simp [hwalrus]
  unfold Yields
  rw [item?, hstar]
  dsimp only
  rw [if_neg hnamed]
  exact expression?_of_primary? hk h hrest

theorem items?_of_primary? (hk : k.isPlain = true)
    (h : Yields (primary? (⟨k, p, n⟩ :: r)) e rest) (hrest : Closes rest)
    (hcomma : afterSymbol? .comma rest = none) (named : Bool)
    (hwalrus : atWalrus (⟨k, p, n⟩ :: r) = false) :
    Yields (items? named (⟨k, p, n⟩ :: r)) ([e], false) rest := by
  obtain ⟨hlt, hitem⟩ := item?_of_primary? hk h hrest named hwalrus
  refine ⟨hlt, ?_⟩
  rw [items?, hitem]
  simp only [bind, Option.bind, hcomma]

end Plain

/-! ### Names with dots -/

def dotted (ws : List Text) : List TokenKind := ws.flatMap fun w => [.symbol .dot, .word w]

theorem trailers?_dotted {ws : List Text} {ts rest : List Token} (h : Begins ts (dotted ws) rest)
    (hrest : Closes rest) (e : Expr) : ∃ e' h', trailers? e ts = some ⟨e', rest, h'⟩ := by
  induction ws generalizing ts e with
  | nil =>
    obtain rfl := begins_nil.1 h
    exact ⟨e, trailers?_of_closes hrest e⟩
  | cons w ws ih =>
    obtain ⟨p, l, r, rfl, h₁⟩ := begins_cons.1 h
    obtain ⟨q, m, r, rfl, h₂⟩ := begins_cons.1 h₁
    obtain ⟨e', hle, htrailers⟩ := ih h₂ (.attribute e w)
    refine ⟨e', by simp only [List.length_cons]; omega, ?_⟩
    rw [trailers?.eq_def]
    simp only [word?, bind, Option.bind, htrailers]

theorem primary?_dotted {w : Text} {ws : List Text} {ts rest : List Token} {p : Position} {n : Nat}
    (h : Begins ts (dotted ws) rest) (hrest : Closes rest) :
    ∃ e, Yields (primary? (⟨.word w, p, n⟩ :: ts)) e rest := by
  obtain ⟨e, hle, htrailers⟩ := trailers?_dotted h hrest (.name w p)
  refine ⟨e, Nat.lt_succ_of_le hle, ?_⟩
  rw [primary?, atom?.eq_def]
  simp only [bind, Option.bind, htrailers]

theorem primary?_text {v : Text} {p : Position} {n : Nat} {rest : List Token}
    (hrest : Closes rest) : Yields (primary? (⟨.text v, p, n⟩ :: rest)) (.text v) rest := by
  obtain ⟨_, htrailers⟩ := trailers?_of_closes hrest (.text v)
  obtain ⟨k, q, m, r, rfl, hk⟩ := hrest
  have hnone : ∃ h, literals? (⟨k, q, m⟩ :: r) = some ⟨[], ⟨k, q, m⟩ :: r, h⟩ := by
    refine ⟨Nat.le_refl _, ?_⟩
    rcases closes_cases hk with rfl | rfl | rfl | rfl | rfl <;> rw [literals?.eq_def] <;> rfl
  obtain ⟨_, hnone⟩ := hnone
  have hcombine : combine? [.text v] = some (.text v) := by simp [combine?]
  have hatom : atom? (⟨.text v, p, n⟩ :: ⟨k, q, m⟩ :: r) =
      some ⟨.text v, ⟨k, q, m⟩ :: r, Nat.lt_succ_self _⟩ := by
    rw [atom?.eq_def]
    dsimp only
    rw [strings?, literals?.eq_def]
    simp only [hnone, hcombine, bind, Option.bind]
    exact dif_pos (Nat.lt_succ_self _)
  refine ⟨Nat.lt_succ_self _, ?_⟩
  rw [primary?, hatom]
  simp only [bind, Option.bind, htrailers]

theorem primary?_word {w : Text} {p : Position} {n : Nat} {rest : List Token}
    (hrest : Closes rest) : Yields (primary? (⟨.word w, p, n⟩ :: rest)) (.name w p) rest := by
  obtain ⟨hle, htrailers⟩ := trailers?_of_closes hrest (.name w p)
  refine ⟨Nat.lt_succ_self _, ?_⟩
  rw [primary?, atom?.eq_def]
  simp only [bind, Option.bind, htrailers]

theorem atWalrus_text (v : Text) (p : Position) (n : Nat) (r : List Token) :
    atWalrus (⟨.text v, p, n⟩ :: r) = false := by
  cases r <;> rfl

theorem atWalrus_word (w : Text) (p : Position) (n : Nat) {rest : List Token}
    (hrest : Closes rest) : atWalrus (⟨.word w, p, n⟩ :: rest) = false := by
  obtain ⟨k, q, m, r, rfl, hk⟩ := hrest
  rcases closes_cases hk with rfl | rfl | rfl | rfl | rfl <;> rfl

/-! ### Items -/

/-- Whether tokens of the kinds `ks` are an expression without operators wherever something that
ends an expression follows them. -/
structure IsItem (ks : List TokenKind) : Prop where
  plain : ∃ k ks', ks = k :: ks' ∧ k.isPlain = true
  reads : ∀ {ts rest : List Token}, Begins ts ks rest → Closes rest →
    atWalrus ts = false ∧ ∃ e, Yields (primary? ts) e rest

namespace IsItem

variable {ks : List TokenKind} {ts rest : List Token}

theorem exists_cons (h : IsItem ks) (hts : Begins ts ks rest) :
    ∃ k p n r, ts = ⟨k, p, n⟩ :: r ∧ k.isPlain = true := by
  obtain ⟨k, ks', rfl, hk⟩ := h.plain
  obtain ⟨p, n, r, rfl, _⟩ := begins_cons.1 hts
  exact ⟨k, p, n, r, rfl, hk⟩

theorem item? (h : IsItem ks) (hts : Begins ts ks rest) (hrest : Closes rest) (named : Bool) :
    ∃ e, Yields (Source.item? named ts) e rest := by
  obtain ⟨hwalrus, e, he⟩ := h.reads hts hrest
  obtain ⟨k, p, n, r, rfl, hk⟩ := h.exists_cons hts
  exact ⟨e, item?_of_primary? hk he hrest named hwalrus⟩

theorem expression? (h : IsItem ks) (hts : Begins ts ks rest) (hrest : Closes rest) :
    ∃ e, Yields (Source.expression? ts) e rest := by
  obtain ⟨_, e, he⟩ := h.reads hts hrest
  obtain ⟨k, p, n, r, rfl, hk⟩ := h.exists_cons hts
  exact ⟨e, expression?_of_primary? hk he hrest⟩

theorem atItem (h : IsItem ks) (hts : Begins ts ks rest) : Source.atItem ts = true := by
  obtain ⟨k, p, n, r, rfl, hk⟩ := h.exists_cons hts
  rcases isPlain_cases hk with ⟨w, rfl⟩ | ⟨v, rfl⟩ | rfl <;> rfl

theorem afterSymbol?_closing (h : IsItem ks) (hts : Begins ts ks rest) (b : Bracket) :
    afterSymbol? (.closing b) ts = none := by
  obtain ⟨k, p, n, r, rfl, hk⟩ := h.exists_cons hts
  rcases isPlain_cases hk with ⟨w, rfl⟩ | ⟨v, rfl⟩ | rfl <;> rfl

theorem dotted (w : Text) (ws : List Text) : IsItem (.word w :: dotted ws) := by
  refine ⟨⟨_, _, rfl, rfl⟩, fun hts hrest => ?_⟩
  obtain ⟨p, n, r, rfl, hr⟩ := begins_cons.1 hts
  refine ⟨?_, primary?_dotted hr hrest⟩
  cases ws with
  | nil =>
    obtain rfl := begins_nil.1 hr
    exact atWalrus_word w p n hrest
  | cons v ws =>
    obtain ⟨q, m, r, rfl, _⟩ := begins_cons.1 hr
    rfl

theorem text (v : Text) : IsItem [.text v] := by
  refine ⟨⟨_, _, rfl, rfl⟩, fun hts hrest => ?_⟩
  obtain ⟨p, n, r, rfl, hr⟩ := begins_cons.1 hts
  obtain rfl := begins_nil.1 hr
  exact ⟨atWalrus_text v p n r, .text v, primary?_text hrest⟩

theorem subscript (w : Text) (h : IsItem ks) :
    IsItem (.word w :: .symbol (.opening .square) :: (ks ++ [.symbol (.closing .square)])) := by
  refine ⟨⟨_, _, rfl, rfl⟩, fun hts hrest => ?_⟩
  obtain ⟨p, n, r₁, rfl, h₁⟩ := begins_cons.1 hts
  obtain ⟨q, m, r₂, rfl, h₂⟩ := begins_cons.1 h₁
  obtain ⟨mid, hitem, hclose⟩ := begins_append.1 h₂
  obtain ⟨q', m', rest, rfl, hnil⟩ := begins_cons.1 hclose
  obtain rfl := begins_nil.1 hnil
  obtain ⟨e, hlt, hitem'⟩ := h.item? hitem (closes_cons rfl q' m' rest) true
  have hcolon : atSymbol .colon r₂ = false ∧ atSymbol .star r₂ = false := by
    obtain ⟨k, p, n, r, rfl, hk⟩ := h.exists_cons hitem
    rcases isPlain_cases hk with ⟨w, rfl⟩ | ⟨v, rfl⟩ | rfl <;> exact ⟨rfl, rfl⟩
  have hslices : Yields (slices? r₂) () rest := by
    refine ⟨by simp only [List.length_cons] at hlt; omega, ?_⟩
    rw [slices?, slice?, hcolon.1, hcolon.2]
    simp only [hitem', bind, Option.bind]
    rfl
  obtain ⟨hlt', hslices⟩ := hslices
  obtain ⟨_, htrailers⟩ := trailers?_of_closes hrest (.subscript (.name w p))
  refine ⟨rfl, .subscript (.name w p), by simp only [List.length_cons]; omega, ?_⟩
  rw [primary?, atom?.eq_def]
  simp only [bind, Option.bind]
  rw [trailers?.eq_def]
  simp only [hslices, bind, Option.bind, htrailers]

end IsItem

/-! ### Lists of items -/

def commas : List (List TokenKind) → List TokenKind
  | [] => []
  | [ks] => ks
  | ks :: kss => ks ++ .symbol .comma :: commas kss

theorem items?_commas {kss : List (List TokenKind)} (hne : kss ≠ []) (h : ∀ ks ∈ kss, IsItem ks)
    {ts rest : List Token} {p : Position} {n : Nat}
    (hts : Begins ts (commas kss) (⟨.symbol (.closing .square), p, n⟩ :: rest)) (named : Bool) :
    ∃ es, Yields (items? named ts) es (⟨.symbol (.closing .square), p, n⟩ :: rest) ∧
      atItem ts = true ∧ afterSymbol? (.closing .square) ts = none := by
  induction kss generalizing ts with
  | nil => exact absurd rfl hne
  | cons ks kss ih =>
    have hks := h ks List.mem_cons_self
    cases kss with
    | nil =>
      have hts : Begins ts ks (⟨.symbol (.closing .square), p, n⟩ :: rest) := hts
      obtain ⟨e, hlt, he⟩ := hks.item? hts (closes_cons rfl p n rest) named
      refine ⟨([e], false), ⟨hlt, ?_⟩, hks.atItem hts, hks.afterSymbol?_closing hts _⟩
      rw [items?, he]
      rfl
    | cons ks' kss =>
      obtain ⟨mid, hfirst, hmore⟩ := begins_append.1 hts
      obtain ⟨q, m, r, rfl, hr⟩ := begins_cons.1 hmore
      obtain ⟨e, hlt, he⟩ := hks.item? hfirst (closes_cons rfl q m r) named
      obtain ⟨⟨es, b⟩, ⟨hlt', hes⟩, hitem, _⟩ :=
        ih (List.cons_ne_nil _ _) (fun l hl => h l (List.mem_cons_of_mem ks hl)) hr
      have hcomma : afterSymbol? .comma (⟨.symbol .comma, q, m⟩ :: r) =
          some ⟨(), r, shorter_tail _ r⟩ := rfl
      refine ⟨(e :: es, true), ⟨?_, ?_⟩, hks.atItem hfirst, hks.afterSymbol?_closing hfirst _⟩
      · exact shorter_trans (shorter_trans hlt (shorter_tail _ r)) hlt'
      · rw [items?, he]
        simp only [bind, Option.bind, hcomma]
        rw [if_pos hitem, hes]

theorem IsItem.list {kss : List (List TokenKind)} (hne : kss ≠ []) (h : ∀ ks ∈ kss, IsItem ks) :
    IsItem (.symbol (.opening .square) :: (commas kss ++ [.symbol (.closing .square)])) := by
  refine ⟨⟨_, _, rfl, rfl⟩, fun hts hrest => ?_⟩
  obtain ⟨p, n, r₁, rfl, h₁⟩ := begins_cons.1 hts
  obtain ⟨mid, hitems, hclose⟩ := begins_append.1 h₁
  obtain ⟨q, m, rest, rfl, hnil⟩ := begins_cons.1 hclose
  obtain rfl := begins_nil.1 hnil
  obtain ⟨⟨es, b⟩, ⟨hlt, hes⟩, _, hopen⟩ := items?_commas hne h hitems true
  have hdisplayed : Yields (displayed? r₁) (.list es) rest := by
    refine ⟨by simp only [List.length_cons] at hlt; omega, ?_⟩
    rw [displayed?, hopen]
    simp only [hes, bind, Option.bind]
    rfl
  obtain ⟨hlt', hdisplayed⟩ := hdisplayed
  obtain ⟨_, htrailers⟩ := trailers?_of_closes hrest (.list es)
  refine ⟨?_, .list es, by simp only [List.length_cons]; omega, ?_⟩
  · cases r₁ <;> rfl
  · rw [primary?, atom?.eq_def]
    simp only [bind, Option.bind, hdisplayed, htrailers]

/-! ### Simple statements -/

theorem simpleLine?_of_simpleStatement? {ts : List Token} {kind : StatementKind} {p : Position}
    {n : Nat} {rest : List Token}
    (h : Yields (simpleStatement? ts) kind (⟨.newline, p, n⟩ :: rest)) :
    Yields (simpleLine? ts) [⟨kind, lastLine ts (⟨.newline, p, n⟩ :: rest)⟩] rest := by
  obtain ⟨hlt, h⟩ := h
  have hsemicolon : afterSymbol? .semicolon (⟨.newline, p, n⟩ :: rest) = none := rfl
  have hline : afterLine? (⟨.newline, p, n⟩ :: rest) = some ⟨(), rest, shorter_tail _ rest⟩ := rfl
  refine ⟨shorter_trans hlt (shorter_tail _ rest), ?_⟩
  rw [simpleLine?, h]
  simp only [bind, Option.bind, hsemicolon, hline]

/-- Whether tokens of the kinds `ks` are a statement, whatever follows them. -/
structure IsStatement (ks : List TokenKind) : Prop where
  begins : ∃ k ks', ks = k :: ks' ∧ k ≠ .dedent
  reads : ∀ {ts rest : List Token}, Begins ts ks rest → ∃ ss, Yields (statement? ts) ss rest

theorem expression?_colon (p : Position) (n : Nat) (r : List Token) :
    expression? (⟨.symbol .colon, p, n⟩ :: r) = none := by
  have hpower : power? (⟨.symbol .colon, p, n⟩ :: r) = none := by
    have hawait : afterKeyword? .await_ (⟨.symbol .colon, p, n⟩ :: r) = none := rfl
    rw [power?, hawait]
    dsimp only
    rw [primary?, atom?.eq_def]
    rfl
  have hoperation (l : Level) : operation? l (⟨.symbol .colon, p, n⟩ :: r) = none := by
    induction hn : l.tighter using Nat.strong_induction_on generalizing l with
    | _ m ih =>
      subst hn
      have hbefore : l.beforeOperand? (⟨.symbol .colon, p, n⟩ :: r) = none := by
        cases l <;> rfl
      rw [operation?, hbefore]
      dsimp only
      split
      · rename_i m hnext
        rw [ih m.tighter (Level.tighter_of_next? hnext) m rfl]
        rfl
      · exact hpower
  have hlambda : afterKeyword? .lambda_ (⟨.symbol .colon, p, n⟩ :: r) = none := rfl
  rw [expression?, hlambda]
  dsimp only
  rw [hoperation]
  rfl

/-- A word before a colon is no match statement, so it is read as a simple one. -/
theorem statement?_word_colon {w : Text} {p q : Position} {n m : Nat} {r : List Token} :
    statement? (⟨.word w, p, n⟩ :: ⟨.symbol .colon, q, m⟩ :: r) =
      simpleLine? (⟨.word w, p, n⟩ :: ⟨.symbol .colon, q, m⟩ :: r) := by
  have hstar : afterSymbol? .star (⟨.symbol .colon, q, m⟩ :: r) = none := rfl
  have hwalrus : atWalrus (⟨.symbol .colon, q, m⟩ :: r) = false := by cases r <;> rfl
  have hcases : cases? (⟨.symbol .colon, q, m⟩ :: r) = none := by
    rw [cases?, subject?, items?, item?, hstar]
    dsimp only
    rw [if_neg (by simp [hwalrus]), expression?_colon]
    rfl
  rw [statement?.eq_def]
  dsimp only
  split
  · rw [hcases]
  · rfl

theorem IsStatement.field (w : Text) {ks : List TokenKind} (h : IsItem ks) :
    IsStatement (.word w :: .symbol .colon :: (ks ++ [.newline])) := by
  refine ⟨⟨_, _, rfl, by simp⟩, fun {ts rest} hts => ?_⟩
  obtain ⟨p, n, r₁, rfl, h₁⟩ := begins_cons.1 hts
  obtain ⟨q, m, r₂, rfl, h₂⟩ := begins_cons.1 h₁
  obtain ⟨mid, htype, hend⟩ := begins_append.1 h₂
  obtain ⟨q', m', r₃, rfl, hnil⟩ := begins_cons.1 hend
  obtain rfl := begins_nil.1 hnil
  obtain ⟨e, hlt, htype⟩ := h.expression? htype (closes_cons rfl q' m' r₃)
  have hcolon : Closes (⟨.symbol .colon, q, m⟩ :: r₂) := closes_cons rfl q m r₂
  obtain ⟨hlt', hname⟩ := items?_of_primary? rfl (primary?_word hcolon) hcolon rfl false
    (atWalrus_word w p n hcolon)
  have hassign : afterSymbol? .assign (⟨.symbol .colon, q, m⟩ :: r₂) = none := rfl
  have haugmented : afterSymbol? .augmented (⟨.symbol .colon, q, m⟩ :: r₂) = none := rfl
  have hafter : afterSymbol? .colon (⟨.symbol .colon, q, m⟩ :: r₂) =
      some ⟨(), r₂, shorter_tail _ r₂⟩ := rfl
  have hinitial : initial? (⟨.newline, q', m'⟩ :: r₃) = some (.none none _) := rfl
  have hsimple : Yields (simpleStatement? (⟨.word w, p, n⟩ :: ⟨.symbol .colon, q, m⟩ :: r₂))
      (.annotated (.name w p) e none) (⟨.newline, q', m'⟩ :: r₃) := by
    refine ⟨shorter_cons _ (shorter_cons _ hlt), ?_⟩
    rw [simpleStatement?.eq_def]
    dsimp only
    rw [expressionStatement?, hname]
    simp only [bind, Option.bind, tupleOf, hassign, haugmented, hafter, Target.single?, htype,
      hinitial]
    rfl
  rw [statement?_word_colon]
  exact ⟨_, simpleLine?_of_simpleStatement? hsimple⟩

theorem IsStatement.return {ks : List TokenKind} (h : IsItem ks) :
    IsStatement (.keyword .return_ :: (ks ++ [.newline])) := by
  refine ⟨⟨_, _, rfl, by simp⟩, fun {ts rest} hts => ?_⟩
  obtain ⟨p, n, r₁, rfl, h₁⟩ := begins_cons.1 hts
  obtain ⟨mid, hvalue, hend⟩ := begins_append.1 h₁
  obtain ⟨q, m, r₂, rfl, hnil⟩ := begins_cons.1 hend
  obtain rfl := begins_nil.1 hnil
  have hclose : Closes (⟨.newline, q, m⟩ :: r₂) := closes_cons rfl q m r₂
  obtain ⟨e, hlt, hitems⟩ :
      ∃ e, Yields (items? false r₁) ([e], false) (⟨.newline, q, m⟩ :: r₂) := by
    obtain ⟨hwalrus, e, he⟩ := h.reads hvalue hclose
    obtain ⟨k, p, n, r, rfl, hk⟩ := h.exists_cons hvalue
    exact ⟨e, items?_of_primary? hk he hclose rfl false hwalrus⟩
  have hline : statement? (⟨.keyword .return_, p, n⟩ :: r₁) =
      simpleLine? (⟨.keyword .return_, p, n⟩ :: r₁) := by
    rw [statement?.eq_def]
  have hsimple : Yields (simpleStatement? (⟨.keyword .return_, p, n⟩ :: r₁)) .other
      (⟨.newline, q, m⟩ :: r₂) := by
    refine ⟨shorter_cons _ hlt, ?_⟩
    rw [simpleStatement?.eq_def]
    dsimp only
    rw [returned?, if_pos (h.atItem hvalue), hitems]
    rfl
  rw [hline]
  exact ⟨_, simpleLine?_of_simpleStatement? hsimple⟩

/-! ### Definitions -/

/-- The tokens of a block: its first line ends, and its statements are indented. -/
def blockKinds (kss : List (List TokenKind)) : List TokenKind :=
  .newline :: .indent :: (kss.flatten ++ [.dedent])

theorem indented?_flatten {kss : List (List TokenKind)} (hne : kss ≠ [])
    (h : ∀ ks ∈ kss, IsStatement ks) {ts rest : List Token}
    (hts : Begins ts (kss.flatten ++ [.dedent]) rest) : Yields (indented? ts) () rest := by
  induction kss generalizing ts with
  | nil => exact absurd rfl hne
  | cons ks kss ih =>
    rw [List.flatten_cons, List.append_assoc] at hts
    obtain ⟨mid, hfirst, hmore⟩ := begins_append.1 hts
    obtain ⟨ss, hlt, hss⟩ := (h ks List.mem_cons_self).reads hfirst
    cases kss with
    | nil =>
      obtain ⟨p, n, r, rfl, hnil⟩ := begins_cons.1 hmore
      obtain rfl := begins_nil.1 hnil
      have hdedent : afterKind? .dedent (⟨.dedent, p, n⟩ :: r) = some ⟨(), r, shorter_tail _ r⟩ :=
        rfl
      refine ⟨shorter_trans hlt (shorter_tail _ r), ?_⟩
      rw [indented?, hss]
      simp only [bind, Option.bind, hdedent]
    | cons ks' kss =>
      obtain ⟨k, ks'', rfl, hk⟩ := (h ks' (by simp)).begins
      obtain ⟨p, n, r, rfl, _⟩ := begins_cons.1 hmore
      have hdedent : afterKind? .dedent (⟨k, p, n⟩ :: r) = none := if_neg hk
      obtain ⟨hlt', hrest⟩ :=
        ih (List.cons_ne_nil _ _) (fun l hl => h l (List.mem_cons_of_mem ks hl)) hmore
      refine ⟨shorter_trans hlt hlt', ?_⟩
      rw [indented?, hss]
      simp only [bind, Option.bind, hdedent, hrest]

theorem block?_blockKinds {kss : List (List TokenKind)} (hne : kss ≠ [])
    (h : ∀ ks ∈ kss, IsStatement ks) {ts rest : List Token}
    (hts : Begins ts (blockKinds kss) rest) : Yields (block? ts) () rest := by
  obtain ⟨p, n, r₁, rfl, h₁⟩ := begins_cons.1 hts
  obtain ⟨q, m, r₂, rfl, h₂⟩ := begins_cons.1 h₁
  obtain ⟨hlt, hindented⟩ := indented?_flatten hne h h₂
  have hline : afterLine? (⟨.newline, p, n⟩ :: ⟨.indent, q, m⟩ :: r₂) =
      some ⟨(), ⟨.indent, q, m⟩ :: r₂, shorter_tail _ _⟩ := rfl
  have hindent : afterKind? .indent (⟨.indent, q, m⟩ :: r₂) = some ⟨(), r₂, shorter_tail _ _⟩ := rfl
  refine ⟨shorter_cons _ (shorter_cons _ hlt), ?_⟩
  rw [block?, hline]
  simp only [bind, Option.bind, hindent, hindented]

def accessorKinds (name receiver : Text) (type body : List TokenKind) : List TokenKind :=
  .keyword .def_ :: .word name :: .symbol (.opening .round) :: .word receiver ::
    .symbol (.closing .round) :: .symbol .arrow :: (type ++ .symbol .colon :: body)

theorem parameters?_receiver (receiver : Text) (p q : Position) (n m : Nat) (r : List Token) :
    ∃ h, parameters? true {} (⟨.word receiver, p, n⟩ :: ⟨.symbol (.closing .round), q, m⟩ :: r) =
      some ⟨(), ⟨.symbol (.closing .round), q, m⟩ :: r, h⟩ := by
  have htype (q : Position) : parameterType? true false (⟨.symbol (.closing .round), q, m⟩ :: r) =
      some ⟨(), ⟨.symbol (.closing .round), q, m⟩ :: r, Nat.le_refl _⟩ := by
    rw [parameterType?]
    rfl
  have hassign : afterSymbol? .assign (⟨.symbol (.closing .round), q, m⟩ :: r) = none := rfl
  refine ⟨Nat.le_succ _, ?_⟩
  rw [parameters?]
  simp only [afterSymbol?, reduceCtorEq, TokenKind.symbol.injEq, if_false, word?, htype, bind,
    Option.bind]
  rw [parametersAfter?]
  rfl

theorem functionHeader?_accessor {name receiver : Text} {type : List TokenKind} (h : IsItem type)
    {ts rest : List Token}
    (hts : Begins ts (.word name :: .symbol (.opening .round) :: .word receiver ::
      .symbol (.closing .round) :: .symbol .arrow :: (type ++ [.symbol .colon])) rest) :
    Yields (functionHeader? ts) name rest := by
  obtain ⟨p₁, n₁, r₁, rfl, h₁⟩ := begins_cons.1 hts
  obtain ⟨p₂, n₂, r₂, rfl, h₂⟩ := begins_cons.1 h₁
  obtain ⟨p₃, n₃, r₃, rfl, h₃⟩ := begins_cons.1 h₂
  obtain ⟨p₄, n₄, r₄, rfl, h₄⟩ := begins_cons.1 h₃
  obtain ⟨p₅, n₅, r₅, rfl, h₅⟩ := begins_cons.1 h₄
  obtain ⟨mid, htype, hcolon⟩ := begins_append.1 h₅
  obtain ⟨p₆, n₆, r₆, rfl, hnil⟩ := begins_cons.1 hcolon
  obtain rfl := begins_nil.1 hnil
  obtain ⟨e, hlt, he⟩ := h.expression? htype (closes_cons rfl p₆ n₆ r₆)
  obtain ⟨hle, hparameters⟩ :=
    parameters?_receiver receiver p₃ p₄ n₃ n₄ (⟨.symbol .arrow, p₅, n₅⟩ :: r₅)
  have hreturn : further? (.symbol .arrow) (⟨.symbol .arrow, p₅, n₅⟩ :: r₅) =
      some ⟨(), ⟨.symbol .colon, p₆, n₆⟩ :: r₆, Nat.le_of_lt (shorter_cons _ hlt)⟩ := by
    rw [further?, if_pos rfl, he]
    rfl
  have hlt' : r₆.length < r₅.length := shorter_trans hlt (shorter_tail _ r₆)
  refine ⟨by simp only [List.length_cons]; omega, ?_⟩
  rw [functionHeader?]
  simp only [word?, afterSymbol?, if_true, hparameters, hreturn, bind, Option.bind]

theorem IsStatement.accessor (name receiver : Text) {type : List TokenKind} (htype : IsItem type)
    {kss : List (List TokenKind)} (hne : kss ≠ []) (h : ∀ ks ∈ kss, IsStatement ks) :
    IsStatement (accessorKinds name receiver type (blockKinds kss)) := by
  refine ⟨⟨_, _, rfl, by simp⟩, fun {ts rest} hts => ?_⟩
  obtain ⟨p, n, r₁, rfl, h₁⟩ := begins_cons.1 hts
  have hsplit : Begins r₁ ((.word name :: .symbol (.opening .round) :: .word receiver ::
      .symbol (.closing .round) :: .symbol .arrow :: (type ++ [.symbol .colon])) ++
        blockKinds kss) rest := by
    simpa using h₁
  obtain ⟨r₂, hheader, hblock⟩ := begins_append.1 hsplit
  obtain ⟨hlt, hheader⟩ := functionHeader?_accessor htype hheader
  obtain ⟨hlt', hblock⟩ := block?_blockKinds hne h hblock
  have hclass : afterKeyword? .class_ (⟨.keyword .def_, p, n⟩ :: r₁) = none := rfl
  have hasync : afterKeyword? .async_ (⟨.keyword .def_, p, n⟩ :: r₁) = none := rfl
  have hdef : afterKeyword? .def_ (⟨.keyword .def_, p, n⟩ :: r₁) =
      some ⟨(), r₁, shorter_tail _ _⟩ := rfl
  refine ⟨[⟨.functionDefinition name, lastLine (⟨.keyword .def_, p, n⟩ :: r₁) rest⟩],
    shorter_cons _ (shorter_trans hlt hlt'), ?_⟩
  rw [statement?.eq_def]
  dsimp only
  rw [definition?, hclass]
  dsimp only
  split
  · rename_i f hf
    rw [hasync] at hf
    cases hf
  · simp only [Reached.none, hdef, hheader, hblock, bind, Option.bind]

/-! ### Classes -/

def decoratorKinds (ks : List TokenKind) : List TokenKind :=
  .symbol .at :: (ks ++ [.newline])

theorem decorated?_decorator {ks : List TokenKind} (h : IsItem ks) {ts mid rest : List Token}
    {ss : List Statement} (hts : Begins ts (decoratorKinds ks) mid)
    (hmid : Yields (decorated? mid) ss rest) : Yields (decorated? ts) ss rest := by
  obtain ⟨p, n, r₁, rfl, h₁⟩ := begins_cons.1 hts
  obtain ⟨r₂, hitem, hend⟩ := begins_append.1 h₁
  obtain ⟨q, m, r₃, rfl, hnil⟩ := begins_cons.1 hend
  obtain rfl := begins_nil.1 hnil
  obtain ⟨e, hlt, he⟩ := h.item? hitem (closes_cons rfl q m r₃) true
  obtain ⟨hlt', hmid⟩ := hmid
  have hstar : atSymbol .star r₁ = false := by
    obtain ⟨k, p, n, r, rfl, hk⟩ := h.exists_cons hitem
    rcases isPlain_cases hk with ⟨w, rfl⟩ | ⟨v, rfl⟩ | rfl <;> rfl
  have hat : afterSymbol? .at (⟨.symbol .at, p, n⟩ :: r₁) = some ⟨(), r₁, shorter_tail _ _⟩ := rfl
  have hcondition : condition? r₁ = some ⟨(), ⟨.newline, q, m⟩ :: r₃, hlt⟩ := by
    rw [condition?, if_neg (by simp [hstar]), he]
    rfl
  have hline : afterLine? (⟨.newline, q, m⟩ :: r₃) = some ⟨(), r₃, shorter_tail _ _⟩ := rfl
  refine ⟨shorter_cons _ (shorter_trans hlt (shorter_cons _ hlt')), ?_⟩
  rw [decorated?, hat]
  simp only [hcondition, hline, hmid, bind, Option.bind]

def classKinds (name : Text) (body : List TokenKind) : List TokenKind :=
  .keyword .class_ :: .word name :: .symbol .colon :: body

theorem decorated?_class (name : Text) {kss : List (List TokenKind)} (hne : kss ≠ [])
    (h : ∀ ks ∈ kss, IsStatement ks) {ts rest : List Token}
    (hts : Begins ts (classKinds name (blockKinds kss)) rest) :
    Yields (decorated? ts) [⟨.classDefinition name [], lastLine ts rest⟩] rest := by
  obtain ⟨p₁, n₁, r₁, rfl, h₁⟩ := begins_cons.1 hts
  obtain ⟨p₂, n₂, r₂, rfl, h₂⟩ := begins_cons.1 h₁
  obtain ⟨p₃, n₃, r₃, rfl, h₃⟩ := begins_cons.1 h₂
  obtain ⟨hlt, hblock⟩ := block?_blockKinds hne h h₃
  let header : List Token := ⟨.word name, p₂, n₂⟩ :: ⟨.symbol .colon, p₃, n₃⟩ :: r₃
  have hat : afterSymbol? .at (⟨.keyword .class_, p₁, n₁⟩ :: header) = none := rfl
  have hclass : afterKeyword? .class_ (⟨.keyword .class_, p₁, n₁⟩ :: header) =
      some ⟨(), header, shorter_tail _ _⟩ := rfl
  have hheader : classHeader? header = some ⟨(name, []), r₃, shorter_cons _ (shorter_tail _ _)⟩ :=
    rfl
  refine ⟨shorter_cons _ (shorter_cons _ (shorter_cons _ hlt)), ?_⟩
  rw [decorated?, hat]
  dsimp only
  rw [definition?, hclass]
  simp only [hheader, hblock, bind, Option.bind]

/-- A decorated class is a statement that defines that class. -/
theorem statement?_class {first second : List TokenKind} (hfirst : IsItem first)
    (hsecond : IsItem second) (name : Text) {kss : List (List TokenKind)} (hne : kss ≠ [])
    (h : ∀ ks ∈ kss, IsStatement ks) {ts rest : List Token}
    (hts : Begins ts (decoratorKinds first ++ (decoratorKinds second ++
      classKinds name (blockKinds kss))) rest) :
    ∃ n, Yields (statement? ts) [⟨.classDefinition name [], n⟩] rest := by
  obtain ⟨r₁, h₁, hmore⟩ := begins_append.1 hts
  obtain ⟨r₂, h₂, hclass⟩ := begins_append.1 hmore
  have hdecorated := decorated?_decorator hfirst h₁
    (decorated?_decorator hsecond h₂ (decorated?_class name hne h hclass))
  obtain ⟨p, n, r, rfl, _⟩ := begins_cons.1 h₁
  refine ⟨lastLine r₂ rest, ?_⟩
  rw [statement?.eq_def]
  exact hdecorated

/-! ### Modules -/

theorem statements?_of_statement? {ts rest : List Token} {ss : List Statement}
    (h : Yields (statement? ts) ss rest) :
    statements? ts = (statements? rest).map (ss ++ ·) := by
  obtain ⟨hlt, h⟩ := h
  cases ts with
  | nil => cases hlt
  | cons t r =>
    rw [statements?, h]
    simp only [bind, Option.bind]
    cases statements? rest <;> rfl

end TypedQueries.Source
