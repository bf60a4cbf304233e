import TypedQueries.Proofs.DirectiveGrammar

/-!
# The parts of a written directive

A written directive taken apart into its names, its marks, its format and the blanks between them.
Every part ends where the next character cannot belong to it, so whatever follows a directive, there
is one way to take it apart, and one place at which it ends.
-/

namespace TypedQueries.Directive

/-! ### Parts -/

-- `List.all` goes along the text; the statement for all characters may be decided by trying each
instance : DecidablePred AllBlank := fun t =>
  decidable_of_iff (t.all Text.isBlank = true) List.all_eq_true

theorem isName_cons_iff {c : Char} {r : Text} :
    IsName (c :: r) ↔ isNameStart c = true ∧ r.all isNamePart = true := by
  rw [List.all_eq_true]
  constructor
  · rintro ⟨hc, hr⟩
    exact ⟨hc, hr⟩
  · rintro ⟨hc, hr⟩
    exact .mk hc hr

instance : DecidablePred IsName
  | [] => isFalse fun h => by cases h
  | _ :: _ => decidable_of_iff _ isName_cons_iff.symm

theorem isFormat_cons_cons_iff {m c : Char} {r : Text} :
    IsFormat (m :: c :: r) ↔ m = '%' ∧ (c :: r).all isFormatPart = true := by
  rw [List.all_eq_true]
  constructor
  · rintro ⟨hr⟩
    exact ⟨rfl, hr⟩
  · rintro ⟨rfl, hr⟩
    exact .mk hr

instance : DecidablePred IsFormat
  | [] => isFalse fun h => by cases h
  | [_] => isFalse fun h => by cases h
  | _ :: _ :: _ => decidable_of_iff _ isFormat_cons_cons_iff.symm

abbrev Blanks := { t : Text // AllBlank t }

abbrev Name := { t : Text // IsName t }

abbrev Format := { t : Text // IsFormat t }

def qualify (qualifier : Option Name) (n : Name) : Text :=
  match qualifier with
  | none => n
  | some q => q ++ '.' :: n

structure TypeForm where
  nullable : Bool
  qualifier : Option Name
  name : Name

def TypeForm.text (t : TypeForm) : Text :=
  if t.nullable then '*' :: qualify t.qualifier t.name else qualify t.qualifier t.name

/-- What follows the type of a directive. -/
inductive Ending where
  | plain (beforeBraces : Blanks)
  | formatted (beforeColon afterColon : Blanks) (format : Format) (beforeBraces : Blanks)

namespace Ending

def format? : Ending → Option Text
  | plain _ => none
  | formatted _ _ f _ => some f

def text : Ending → Text
  | plain b => b ++ ['}', '}']
  | formatted b₁ b₂ f b₃ => b₁ ++ ':' :: (b₂ ++ (f ++ (b₃ ++ ['}', '}'])))

end Ending

/-- A written directive, with the blanks that stand between its parts. -/
structure Form where
  beforeName : Blanks
  name : Name
  afterName : Blanks
  beforeType : Blanks
  type : TypeForm
  ending : Ending

namespace Form

def directive (f : Form) : Directive := ⟨f.name, f.type.text, f.ending.format?⟩

def text (f : Form) : Text :=
  '{' :: '{' :: (f.beforeName ++ (f.name ++
    (f.afterName ++ ':' :: (f.beforeType ++ (f.type.text ++ f.ending.text)))))

end Form

/-! ### Forms and the grammar -/

theorem isQualified_qualify (q : Option Name) (n : Name) : IsQualified (qualify q n) := by
  cases q with
  | none => exact .bare n.2
  | some q => exact .qualified q.2 n.2

theorem IsQualified.exists_qualify {t : Text} (h : IsQualified t) : ∃ q n, qualify q n = t := by
  cases h with
  | bare hn => exact ⟨none, ⟨_, hn⟩, rfl⟩
  | qualified hq hn => exact ⟨some ⟨_, hq⟩, ⟨_, hn⟩, rfl⟩

theorem TypeForm.isType_text (t : TypeForm) : IsType t.text := by
  have hqualified := isQualified_qualify t.qualifier t.name
  unfold text
  split
  · exact .nullable hqualified
  · exact .plain hqualified

theorem IsType.exists_form {t : Text} (h : IsType t) : ∃ f : TypeForm, f.text = t := by
  cases h with
  | plain hn =>
    obtain ⟨q, n, rfl⟩ := hn.exists_qualify
    exact ⟨⟨false, q, n⟩, rfl⟩
  | nullable hn =>
    obtain ⟨q, n, rfl⟩ := hn.exists_qualify
    exact ⟨⟨true, q, n⟩, rfl⟩

theorem Ending.isEnding_text (e : Ending) : IsEnding e.format? e.text := by
  cases e with
  | plain b => exact .plain b.2
  | formatted b₁ b₂ f b₃ => exact .formatted b₁.2 b₂.2 f.2 b₃.2

theorem IsEnding.exists_form {f : Option Text} {s : Text} (h : IsEnding f s) :
    ∃ e : Ending, e.format? = f ∧ e.text = s := by
  cases h with
  | plain hb => exact ⟨.plain ⟨_, hb⟩, rfl, rfl⟩
  | formatted hb₁ hb₂ hf hb₃ => exact ⟨.formatted ⟨_, hb₁⟩ ⟨_, hb₂⟩ ⟨_, hf⟩ ⟨_, hb₃⟩, rfl, rfl⟩

/-- The grammar admits exactly the texts of forms. -/
theorem writes_iff_exists_form {d : Directive} {s : Text} :
    Writes d s ↔ ∃ f : Form, f.directive = d ∧ f.text = s := by
  constructor
  · intro h
    cases h with
    | mk hb₁ hn hb₂ hb₃ ht he =>
      obtain ⟨t, rfl⟩ := ht.exists_form
      obtain ⟨e, rfl, rfl⟩ := he.exists_form
      exact ⟨⟨⟨_, hb₁⟩, ⟨_, hn⟩, ⟨_, hb₂⟩, ⟨_, hb₃⟩, t, e⟩, rfl, rfl⟩
  · rintro ⟨f, rfl, rfl⟩
    exact .mk f.beforeName.2 f.name.2 f.afterName.2 f.beforeType.2 f.type.isType_text
      f.ending.isEnding_text

theorem Form.writes (f : Form) : Writes f.directive f.text :=
  writes_iff_exists_form.2 ⟨f, rfl, rfl⟩

theorem Form.text_ne_nil (f : Form) : f.text ≠ [] := by simp [text]

/-! ### One way to take a text apart -/

/-- A run of characters of a class ends where the next one is of another class. -/
theorem append_inj_of_stops {p : Char → Bool} {a a' r r' : Text} (ha : ∀ c ∈ a, p c = true)
    (ha' : ∀ c ∈ a', p c = true) (hr : Stops p r) (hr' : Stops p r') (h : a ++ r = a' ++ r') :
    a = a' ∧ r = r' := by
  constructor
  · rw [← takeWhile_append_of_stops ha hr, h, takeWhile_append_of_stops ha' hr']
  · rw [← dropWhile_append_of_stops ha hr, h, dropWhile_append_of_stops ha' hr']

theorem Blanks.append_inj {b b' : Blanks} {r r' : Text} (hr : Stops Text.isBlank r)
    (hr' : Stops Text.isBlank r') (h : b.1 ++ r = b'.1 ++ r') : b = b' ∧ r = r' := by
  obtain ⟨hb, hrest⟩ := append_inj_of_stops b.2 b'.2 hr hr' h
  exact ⟨Subtype.ext hb, hrest⟩

theorem IsName.isNamePart {n : Text} (h : IsName n) : ∀ c ∈ n, isNamePart c = true := by
  cases h with
  | mk hc hr =>
    intro d hd
    rcases List.mem_cons.1 hd with rfl | hd
    · exact isNamePart_of_isNameStart hc
    · exact hr d hd

theorem Name.append_inj {n n' : Name} {r r' : Text} (hr : Stops isNamePart r)
    (hr' : Stops isNamePart r') (h : n.1 ++ r = n'.1 ++ r') : n = n' ∧ r = r' := by
  obtain ⟨hn, hrest⟩ := append_inj_of_stops n.2.isNamePart n'.2.isNamePart hr hr' h
  exact ⟨Subtype.ext hn, hrest⟩

theorem IsFormat.isFormatPart {f : Text} (h : IsFormat f) : ∀ c ∈ f, isFormatPart c = true := by
  cases h with
  | mk hp =>
    intro d hd
    rcases List.mem_cons.1 hd with rfl | hd
    · decide
    · exact hp d hd

theorem Format.append_inj {f f' : Format} {r r' : Text} (hr : Stops isFormatPart r)
    (hr' : Stops isFormatPart r') (h : f.1 ++ r = f'.1 ++ r') : f = f' ∧ r = r' := by
  obtain ⟨hf, hrest⟩ := append_inj_of_stops f.2.isFormatPart f'.2.isFormatPart hr hr' h
  exact ⟨Subtype.ext hf, hrest⟩

/-- A name that goes on with a dot is a qualifier, and any other one is not. -/
theorem qualify_append_inj {q q' : Option Name} {n n' : Name} {r r' : Text}
    (hr : Stops isNamePart r) (hr' : Stops isNamePart r') (hd : r.head? ≠ some '.')
    (hd' : r'.head? ≠ some '.') (h : qualify q n ++ r = qualify q' n' ++ r') :
    q = q' ∧ n = n' ∧ r = r' := by
  have hdot : ∀ t, Stops isNamePart ('.' :: t) := fun t => stops_cons (by decide)
  cases q with
  | none =>
    cases q' with
    | none =>
      obtain ⟨hn, hrest⟩ := Name.append_inj hr hr' h
      exact ⟨rfl, hn, hrest⟩
    | some q' =>
      simp only [qualify, List.append_assoc, List.cons_append] at h
      obtain ⟨_, rfl⟩ := Name.append_inj hr (hdot _) h
      exact absurd rfl hd
  | some q =>
    cases q' with
    | none =>
      simp only [qualify, List.append_assoc, List.cons_append] at h
      obtain ⟨_, rfl⟩ := Name.append_inj (hdot _) hr' h
      exact absurd rfl hd'
    | some q' =>
      simp only [qualify, List.append_assoc, List.cons_append] at h
      obtain ⟨rfl, hrest⟩ := Name.append_inj (hdot _) (hdot _) h
      obtain ⟨hn, hrest⟩ := Name.append_inj hr hr' (List.cons.inj hrest).2
      exact ⟨rfl, hn, hrest⟩

theorem qualify_append_ne_star (q : Option Name) (n : Name) (r s : Text) :
    qualify q n ++ r ≠ '*' :: s := by
  obtain ⟨c, u, hu, hc⟩ := (isQualified_qualify q n).exists_eq_cons
  intro h
  rw [hu] at h
  cases h
  exact absurd hc (by decide)

/-- The mark of a nullable type is no name, and what stands behind it is a qualified name. -/
theorem TypeForm.append_inj {t t' : TypeForm} {r r' : Text} (hr : Stops isNamePart r)
    (hr' : Stops isNamePart r') (hd : r.head? ≠ some '.') (hd' : r'.head? ≠ some '.')
    (h : t.text ++ r = t'.text ++ r') : t = t' ∧ r = r' := by
  obtain ⟨x, q, n⟩ := t
  obtain ⟨x', q', n'⟩ := t'
  cases x with
  | false =>
    cases x' with
    | false =>
      obtain ⟨rfl, rfl, rfl⟩ := qualify_append_inj hr hr' hd hd' h
      exact ⟨rfl, rfl⟩
    | true => exact absurd h (qualify_append_ne_star q n _ _)
  | true =>
    cases x' with
    | false => exact absurd h.symm (qualify_append_ne_star q' n' _ _)
    | true =>
      obtain ⟨rfl, rfl, rfl⟩ := qualify_append_inj hr hr' hd hd' (List.cons.inj h).2
      exact ⟨rfl, rfl⟩

theorem Ending.append_inj {e e' : Ending} {r r' : Text} (h : e.text ++ r = e'.text ++ r') :
    e = e' ∧ r = r' := by
  have hbrace : ∀ t, Stops Text.isBlank ('}' :: t) := fun t => stops_cons (by decide)
  have hcolon : ∀ t, Stops Text.isBlank (':' :: t) := fun t => stops_cons (by decide)
  cases e with
  | plain b =>
    cases e' with
    | plain b' =>
      simp only [text, List.append_assoc, List.cons_append, List.nil_append] at h
      obtain ⟨rfl, hrest⟩ := Blanks.append_inj (hbrace _) (hbrace _) h
      cases hrest
      exact ⟨rfl, rfl⟩
    | formatted b₁ b₂ f b₃ =>
      simp only [text, List.append_assoc, List.cons_append, List.nil_append] at h
      obtain ⟨_, hrest⟩ := Blanks.append_inj (hbrace _) (hcolon _) h
      cases hrest
  | formatted b₁ b₂ f b₃ =>
    cases e' with
    | plain b' =>
      simp only [text, List.append_assoc, List.cons_append, List.nil_append] at h
      obtain ⟨_, hrest⟩ := Blanks.append_inj (hcolon _) (hbrace _) h
      cases hrest
    | formatted b₁' b₂' f' b₃' =>
      simp only [text, List.append_assoc, List.cons_append, List.nil_append] at h
      obtain ⟨rfl, h₁⟩ := Blanks.append_inj (hcolon _) (hcolon _) h
      obtain ⟨rfl, h₂⟩ :=
        Blanks.append_inj (f.2.stops_isBlank _) (f'.2.stops_isBlank _) (List.cons.inj h₁).2
      obtain ⟨rfl, h₃⟩ := Format.append_inj (stops_isFormatPart_of_blank b₃.2 _)
        (stops_isFormatPart_of_blank b₃'.2 _) h₂
      obtain ⟨rfl, hrest⟩ := Blanks.append_inj (hbrace _) (hbrace _) h₃
      cases hrest
      exact ⟨rfl, rfl⟩

theorem Form.append_inj {f f' : Form} {r r' : Text} (h : f.text ++ r = f'.text ++ r') :
    f = f' ∧ r = r' := by
  obtain ⟨b₁, n, b₂, b₃, t, e⟩ := f
  obtain ⟨b₁', n', b₂', b₃', t', e'⟩ := f'
  have hcolon : ∀ u, Stops Text.isBlank (':' :: u) := fun u => stops_cons (by decide)
  have hname : isNamePart ':' = false := by decide
  simp only [text, List.append_assoc, List.cons_append, List.cons.injEq, true_and] at h
  obtain ⟨rfl, h₁⟩ := Blanks.append_inj (n.2.stops_isBlank _) (n'.2.stops_isBlank _) h
  obtain ⟨rfl, h₂⟩ := Name.append_inj (stops_isNamePart_of_blank b₂.2 hname _)
    (stops_isNamePart_of_blank b₂'.2 hname _) h₁
  obtain ⟨rfl, h₃⟩ := Blanks.append_inj (hcolon _) (hcolon _) h₂
  obtain ⟨rfl, h₄⟩ := Blanks.append_inj (t.isType_text.stops_isBlank _)
    (t'.isType_text.stops_isBlank _) (List.cons.inj h₃).2
  obtain ⟨rfl, h₅⟩ := TypeForm.append_inj (e.isEnding_text.stops_isNamePart _)
    (e'.isEnding_text.stops_isNamePart _) (e.isEnding_text.head?_ne_dot _)
    (e'.isEnding_text.head?_ne_dot _) h₄
  obtain ⟨rfl, rfl⟩ := Ending.append_inj h₅
  exact ⟨rfl, rfl⟩

end TypedQueries.Directive
