import Mathlib.Data.List.Basic
import TypedQueries.Companion.Preamble
import TypedQueries.Proofs.Parsing

/-!
# Reading the preamble of a module

A text on a line of its own and imports of names are read as statements that end on their lines.
The lines of a preamble are those up to the last import, whatever else follows that is none.
-/

namespace TypedQueries.Source

def OnLine (n : Nat) (ts : List Token) (ks : List TokenKind) : Prop :=
  ts.map Token.kind = ks ∧ ∀ t ∈ ts, t.lastLine = n

theorem OnLine.begins {n : Nat} {ts : List Token} {ks : List TokenKind} (h : OnLine n ts ks)
    (rest : List Token) : Begins (ts ++ rest) ks rest := ⟨ts, rfl, h.1⟩

theorem OnLine.append {n : Nat} {ts : List Token} {ks ks' : List TokenKind}
    (h : OnLine n ts (ks ++ ks')) : ∃ a b, ts = a ++ b ∧ OnLine n a ks ∧ OnLine n b ks' := by
  obtain ⟨hkinds, hlines⟩ := h
  obtain ⟨a, b, rfl, ha, hb⟩ := List.map_eq_append_iff.1 hkinds
  exact ⟨a, b, rfl, ⟨ha, fun t ht => hlines t (List.mem_append_left b ht)⟩, hb,
    fun t ht => hlines t (List.mem_append_right a ht)⟩

theorem OnLine.lastLine {n : Nat} {ts : List Token} {k : TokenKind} {ks : List TokenKind}
    (h : OnLine n ts (k :: ks)) (hk : k.isLayout = false) (rest : List Token) :
    Source.lastLine (ts ++ rest) rest = n := by
  obtain ⟨hkinds, hlines⟩ := h
  obtain ⟨t, ts, rfl, rfl, _⟩ := List.map_eq_cons_iff.1 hkinds
  have hfilter : ((t :: ts).filter fun u => !u.kind.isLayout) ≠ [] :=
    List.ne_nil_of_mem (List.mem_filter.2 ⟨List.mem_cons_self, by simp [hk]⟩)
  rw [Source.lastLine, List.length_append, Nat.add_sub_cancel, List.take_left]
  cases hlast : ((t :: ts).filter fun u => !u.kind.isLayout).getLast? with
  | none => exact absurd (List.getLast?_eq_none_iff.1 hlast) hfilter
  | some u => exact hlines u (List.mem_filter.1 (List.mem_of_getLast? hlast)).1

/-! ### A text by itself -/

theorem statement?_text {v : Text} {n : Nat} {ts : List Token}
    (h : OnLine n ts [.text v, .newline]) (rest : List Token) :
    Yields (statement? (ts ++ rest)) [⟨.expression (.text v), n⟩] rest := by
  have h : OnLine n ts ([.text v] ++ [.newline]) := h
  obtain ⟨a, b, rfl, ha, hb⟩ := h.append
  obtain ⟨p, l, r, htext, h₁⟩ := begins_cons.1 (ha.begins (b ++ rest))
  obtain rfl := begins_nil.1 h₁
  obtain ⟨q, m, r, hend, h₂⟩ := begins_cons.1 (hb.begins rest)
  obtain rfl := begins_nil.1 h₂
  have hlast := ha.lastLine rfl (b ++ r)
  rw [List.append_assoc, htext]
  rw [htext] at hlast
  rw [hend] at hlast ⊢
  have hclose : Closes (⟨.newline, q, m⟩ :: r) := closes_cons rfl q m r
  obtain ⟨hlt, hitems⟩ := items?_of_primary? rfl (primary?_text (v := v) (p := p) (n := l) hclose)
    hclose rfl false (atWalrus_text v p l _)
  have hsimple : Yields (simpleStatement? (⟨.text v, p, l⟩ :: ⟨.newline, q, m⟩ :: r))
      (.expression (.text v)) (⟨.newline, q, m⟩ :: r) := by
    refine ⟨hlt, ?_⟩
    rw [simpleStatement?.eq_def]
    dsimp only
    rw [expressionStatement?, hitems]
    rfl
  have hline : statement? (⟨.text v, p, l⟩ :: ⟨.newline, q, m⟩ :: r) =
      simpleLine? (⟨.text v, p, l⟩ :: ⟨.newline, q, m⟩ :: r) := by
    rw [statement?.eq_def]
  have := simpleLine?_of_simpleStatement? hsimple
  rwa [hlast, ← hline] at this

/-! ### Imports -/

theorem dottedName?_dotted {w : Text} {ws : List Text} {ts rest : List Token}
    (h : Begins ts (.word w :: dotted ws) rest) (hrest : afterSymbol? .dot rest = none) :
    ∃ path, Yields (dottedName? ts) path rest := by
  induction ws generalizing ts w with
  | nil =>
    obtain ⟨p, n, r, rfl, h₁⟩ := begins_cons.1 h
    obtain rfl := begins_nil.1 h₁
    refine ⟨w, Nat.lt_succ_self _, ?_⟩
    rw [dottedName?]
    simp only [word?, hrest, bind, Option.bind]
  | cons v ws ih =>
    obtain ⟨p, n, r, rfl, h₁⟩ := begins_cons.1 h
    obtain ⟨q, m, r, rfl, h₂⟩ := begins_cons.1 h₁
    obtain ⟨path, hlt, hpath⟩ := ih h₂
    refine ⟨w ++ '.' :: path, shorter_cons _ (shorter_cons _ hlt), ?_⟩
    rw [dottedName?]
    simp only [word?, afterSymbol?, if_true, hpath, bind, Option.bind]

theorem importedNames?_commas {ws : List Text} (hne : ws ≠ []) {ts rest : List Token}
    {p : Position} {n : Nat}
    (h : Begins ts (commas (ws.map fun w => [.word w])) (⟨.newline, p, n⟩ :: rest)) :
    ∃ names, Yields (importedNames? false ts) names (⟨.newline, p, n⟩ :: rest) := by
  induction ws generalizing ts with
  | nil => exact absurd rfl hne
  | cons w ws ih =>
    cases ws with
    | nil =>
      obtain ⟨q, m, r, rfl, h₁⟩ := begins_cons.1 h
      obtain rfl := begins_nil.1 h₁
      have halias : alias? (⟨.newline, p, n⟩ :: rest) = some (.none none _) := rfl
      have hcomma : afterSymbol? .comma (⟨.newline, p, n⟩ :: rest) = none := rfl
      refine ⟨[⟨w, none⟩], Nat.lt_succ_self _, ?_⟩
      rw [importedNames?]
      simp only [word?, halias, Reached.none, hcomma, bind, Option.bind]
    | cons v ws =>
      obtain ⟨q, m, r, rfl, h₁⟩ := begins_cons.1 h
      obtain ⟨q', m', r, rfl, h₂⟩ := begins_cons.1 h₁
      obtain ⟨names, hlt, hnames⟩ := ih (List.cons_ne_nil v ws) h₂
      have halias : alias? (⟨.symbol .comma, q', m'⟩ :: r) = some (.none none _) := rfl
      have hcomma : afterSymbol? .comma (⟨.symbol .comma, q', m'⟩ :: r) =
          some ⟨(), r, shorter_tail _ _⟩ := rfl
      refine ⟨⟨w, none⟩ :: names, shorter_cons _ (shorter_cons _ hlt), ?_⟩
      rw [importedNames?]
      simp only [word?, halias, Reached.none, hcomma, hnames, Bool.false_and,
        Bool.false_eq_true, if_false, bind, Option.bind]

theorem importList?_commas {ws : List Text} (hne : ws ≠ []) {ts rest : List Token}
    {p : Position} {n : Nat}
    (h : Begins ts (commas (ws.map fun w => [.word w])) (⟨.newline, p, n⟩ :: rest)) :
    ∃ names, Yields (importList? ts) names (⟨.newline, p, n⟩ :: rest) := by
  obtain ⟨names, hlt, hnames⟩ := importedNames?_commas hne h
  refine ⟨names, hlt, ?_⟩
  obtain ⟨w, ws, rfl⟩ := List.exists_cons_of_ne_nil hne
  -- a name comes first, and so neither a star nor a bracket
  obtain ⟨k, q, m, r, rfl⟩ : ∃ k q m r, ts = ⟨.word k, q, m⟩ :: r := by
    cases ws with
    | nil =>
      obtain ⟨q, m, r, rfl, _⟩ := begins_cons.1 h
      exact ⟨w, q, m, r, rfl⟩
    | cons v ws =>
      obtain ⟨q, m, r, rfl, _⟩ := begins_cons.1 h
      exact ⟨w, q, m, r, rfl⟩
  exact hnames

section From

variable {ts r rest : List Token} {q : Position} {m : Nat} {list : List ImportedName}

theorem importNames?_dotted {w : Text} {ws : List Text}
    (h : Begins ts (.word w :: dotted ws) (⟨.keyword .import_, q, m⟩ :: r))
    (hlist : Yields (importList? r) list rest) :
    ∃ path, Yields (importNames? ts) (.importNames 0 (some path) list) rest := by
  obtain ⟨hlt, hlist⟩ := hlist
  have hkeyword : afterKeyword? .import_ (⟨.keyword .import_, q, m⟩ :: r) =
      some ⟨(), r, shorter_tail _ _⟩ := rfl
  have hdot : afterSymbol? .dot (⟨.keyword .import_, q, m⟩ :: r) = none := rfl
  obtain ⟨path, hlt', hpath⟩ := dottedName?_dotted h hdot
  obtain ⟨p, n, r', rfl, _⟩ := begins_cons.1 h
  have hdots : leadingDots (⟨.word w, p, n⟩ :: r') = ⟨0, _, Nat.le_refl _⟩ := rfl
  refine ⟨path, shorter_trans hlt' (shorter_cons _ hlt), ?_⟩
  rw [importNames?, hdots]
  dsimp only
  split
  · rename_i hfound
    rw [hpath] at hfound
    cases hfound
    rw [if_neg (by simp)]
    simp only [hkeyword, hlist, bind, Option.bind]
  · rename_i hfound
    rw [hpath] at hfound
    cases hfound

theorem importNames?_dot (h : Begins ts [.symbol .dot] (⟨.keyword .import_, q, m⟩ :: r))
    (hlist : Yields (importList? r) list rest) :
    Yields (importNames? ts) (.importNames 1 none list) rest := by
  obtain ⟨hlt, hlist⟩ := hlist
  have hkeyword : afterKeyword? .import_ (⟨.keyword .import_, q, m⟩ :: r) =
      some ⟨(), r, shorter_tail _ _⟩ := rfl
  obtain ⟨p, n, r', rfl, hend⟩ := begins_cons.1 h
  obtain rfl := begins_nil.1 hend
  have hdots : leadingDots (⟨.symbol .dot, p, n⟩ :: ⟨.keyword .import_, q, m⟩ :: r) =
      ⟨1, ⟨.keyword .import_, q, m⟩ :: r, Nat.le_succ _⟩ := rfl
  have hpath : dottedName? (⟨.keyword .import_, q, m⟩ :: r) = none := by
    rw [dottedName?]
    rfl
  refine ⟨shorter_cons _ (shorter_cons _ hlt), ?_⟩
  rw [importNames?, hdots]
  dsimp only
  split
  · rename_i hfound
    rw [hpath] at hfound
    cases hfound
  · rw [if_neg (by simp)]
    simp only [Reached.none, hkeyword, hlist, bind, Option.bind]

end From

def importKinds (source : List TokenKind) (names : List Text) : List TokenKind :=
  .keyword .from_ :: (source ++ .keyword .import_ :: commas (names.map fun w => [.word w]))

/-- Whether tokens name what is imported from: a module, or the package itself by a dot. -/
def IsSource (ks : List TokenKind) : Prop :=
  (∃ w ws, ks = .word w :: dotted ws) ∨ ks = [.symbol .dot]

theorem importNames?_source {source : List TokenKind} (hsource : IsSource source)
    {names : List Text} (hne : names ≠ []) {ts rest : List Token} {p : Position} {n : Nat}
    (h : Begins ts (source ++ .keyword .import_ :: commas (names.map fun w => [.word w]))
      (⟨.newline, p, n⟩ :: rest)) :
    ∃ level path list,
      Yields (importNames? ts) (.importNames level path list) (⟨.newline, p, n⟩ :: rest) := by
  obtain ⟨mid, hfrom, himport⟩ := begins_append.1 h
  obtain ⟨q, m, r, rfl, hnames⟩ := begins_cons.1 himport
  obtain ⟨list, hlist⟩ := importList?_commas hne hnames
  rcases hsource with ⟨w, ws, rfl⟩ | rfl
  · obtain ⟨path, hpath⟩ := importNames?_dotted hfrom hlist
    exact ⟨0, some path, list, hpath⟩
  · exact ⟨1, none, list, importNames?_dot hfrom hlist⟩

/-- An import of names is a statement that ends on its line. -/
theorem statement?_import {source : List TokenKind} (hsource : IsSource source)
    {names : List Text} (hne : names ≠ []) {n : Nat} {ts : List Token}
    (h : OnLine n ts (importKinds source names ++ [.newline])) (rest : List Token) :
    ∃ level path list,
      Yields (statement? (ts ++ rest)) [⟨.importNames level path list, n⟩] rest := by
  obtain ⟨a, b, rfl, ha, hb⟩ := h.append
  obtain ⟨p, m, r, hfrom, h₁⟩ := begins_cons.1 (ha.begins (b ++ rest))
  obtain ⟨q, k, r', hend, h₂⟩ := begins_cons.1 (hb.begins rest)
  obtain rfl := begins_nil.1 h₂
  have hlast := ha.lastLine rfl (b ++ r')
  rw [List.append_assoc, hfrom]
  rw [hfrom] at hlast
  rw [hend] at h₁ hlast
  obtain ⟨level, path, list, hlt, himport⟩ := importNames?_source hsource hne h₁
  have hsimple : Yields (simpleStatement? (⟨.keyword .from_, p, m⟩ :: r))
      (.importNames level path list) (⟨.newline, q, k⟩ :: r') := by
    refine ⟨shorter_cons _ hlt, ?_⟩
    rw [simpleStatement?.eq_def]
    simp only [himport, bind, Option.bind]
  have hline : statement? (⟨.keyword .from_, p, m⟩ :: r) =
      simpleLine? (⟨.keyword .from_, p, m⟩ :: r) := by
    rw [statement?.eq_def]
  have := simpleLine?_of_simpleStatement? hsimple
  rw [hlast, ← hline] at this
  exact ⟨level, path, list, this⟩

end TypedQueries.Source
