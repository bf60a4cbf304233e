import TypedQueries.Directive
import Mathlib.Data.List.TakeWhile

/-!
# The written forms of directives

A grammar for directives that mentions no reader: blanks may stand around each part, a name is a
letter or an underscore with letters, digits and underscores after it, a type may be qualified and
nullable, and a format runs up to the first blank or closing brace. Reading a directive at the head
of a text succeeds exactly when a written form stands there.
-/

namespace TypedQueries.Directive

/-! ### Runs of characters -/

/-- The text does not begin with a character of the class. -/
def Stops (p : Char → Bool) (t : Text) : Prop := ∀ c, t.head? = some c → p c = false

theorem stops_cons {p : Char → Bool} {c : Char} {t : Text} (h : p c = false) :
    Stops p (c :: t) := by
  intro d hd
  cases hd
  exact h

theorem stops_append {p : Char → Bool} {a b : Text} (ha : ∀ c ∈ a, p c = false)
    (hb : Stops p b) : Stops p (a ++ b) := by
  cases a with
  | nil => exact hb
  | cons c a => exact stops_cons (ha c (by simp))

theorem takeWhile_append_of_stops {p : Char → Bool} {a b : Text} (ha : ∀ c ∈ a, p c = true)
    (hb : Stops p b) : (a ++ b).takeWhile p = a := by
  rw [List.takeWhile_append_of_pos ha]
  cases b with
  | nil => simp
  | cons c b => simp [hb c rfl]

theorem dropWhile_append_of_stops {p : Char → Bool} {a b : Text} (ha : ∀ c ∈ a, p c = true)
    (hb : Stops p b) : (a ++ b).dropWhile p = b := by
  rw [List.dropWhile_append_of_pos ha]
  cases b with
  | nil => rfl
  | cons c b => simp [hb c rfl]

/-! ### Classes of characters -/

theorem isNamePart_of_isNameStart {c : Char} (h : isNameStart c = true) : isNamePart c = true := by
  simp [isNamePart, h]

theorem isNamePart_toNat {c : Char} (h : isNamePart c = true) :
    (48 ≤ c.toNat ∧ c.toNat ≤ 57) ∨ (65 ≤ c.toNat ∧ c.toNat ≤ 90) ∨ c.toNat = 95 ∨
      (97 ≤ c.toNat ∧ c.toNat ≤ 122) := by
  simp only [isNamePart, isNameStart, Text.isAsciiLetter, Text.isAsciiDigit, Bool.or_eq_true,
    Bool.and_eq_true, decide_eq_true_eq] at h
  rcases h with ((h | h) | h) | h
  · exact .inr (.inr (.inr h))
  · exact .inr (.inl h)
  · exact .inr (.inr (.inl (by rw [h]; rfl)))
  · exact .inl h

theorem isBlank_of_isNamePart {c : Char} (h : isNamePart c = true) : Text.isBlank c = false := by
  have hc := isNamePart_toNat h
  by_contra hb
  simp only [Text.isBlank, Text.inRanges, Text.blankRanges, List.any_cons, List.any_nil,
    Bool.or_false, Bool.not_eq_false, Bool.or_eq_true, Bool.and_eq_true, decide_eq_true_eq] at hb
  omega

theorem isNamePart_of_isBlank {c : Char} (h : Text.isBlank c = true) : isNamePart c = false := by
  by_contra hc
  rw [isBlank_of_isNamePart (by simpa using hc)] at h
  cases h

/-! ### The grammar -/

def AllBlank (t : Text) : Prop := ∀ c ∈ t, Text.isBlank c = true

/-- A letter or an underscore, and letters, digits and underscores after it. -/
inductive IsName : Text → Prop
  | mk {c r} : isNameStart c = true → (∀ d ∈ r, isNamePart d = true) → IsName (c :: r)

/-- A name with at most one qualifier. -/
inductive IsQualified : Text → Prop
  | bare {n} : IsName n → IsQualified n
  | qualified {q n} : IsName q → IsName n → IsQualified (q ++ '.' :: n)

/-- A qualified name, perhaps marked as nullable. -/
inductive IsType : Text → Prop
  | plain {n} : IsQualified n → IsType n
  | nullable {n} : IsQualified n → IsType ('*' :: n)

/-- A percent sign and at least one more character, none of them blank or a closing brace. -/
inductive IsFormat : Text → Prop
  | mk {c r} : (∀ d ∈ c :: r, isFormatPart d = true) → IsFormat ('%' :: c :: r)

/-- What may follow the type of a directive: the format, if there is one, and the closing braces. -/
inductive IsEnding : Option Text → Text → Prop
  | plain {b} : AllBlank b → IsEnding none (b ++ ['}', '}'])
  | formatted {b₁ b₂ f b₃} : AllBlank b₁ → AllBlank b₂ → IsFormat f → AllBlank b₃ →
      IsEnding (some f) (b₁ ++ ':' :: (b₂ ++ (f ++ (b₃ ++ ['}', '}']))))

/-- The text is a way to write the directive. -/
inductive Writes : Directive → Text → Prop
  | mk {b₁ n b₂ b₃ t f e} : AllBlank b₁ → IsName n → AllBlank b₂ → AllBlank b₃ → IsType t →
      IsEnding f e → Writes ⟨n, t, f⟩ ('{' :: '{' :: (b₁ ++ (n ++ (b₂ ++ ':' :: (b₃ ++ (t ++ e))))))

theorem IsName.ne_nil {n : Text} (h : IsName n) : n ≠ [] := by
  cases h
  simp

theorem IsFormat.ne_nil {f : Text} (h : IsFormat f) : f ≠ [] := by
  cases h
  simp

theorem Writes.isName {d : Directive} {s : Text} (h : Writes d s) : IsName d.name := by
  cases h
  assumption

theorem Writes.isType {d : Directive} {s : Text} (h : Writes d s) : IsType d.typeName := by
  cases h
  assumption

theorem Writes.format_ne_nil {d : Directive} {s f : Text} (h : Writes d s)
    (hf : d.format = some f) : f ≠ [] := by
  cases h with
  | mk _ _ _ _ _ he =>
    subst hf
    cases he with
    | formatted _ _ hf _ => exact hf.ne_nil

theorem Writes.exists_eq_cons {d : Directive} {s : Text} (h : Writes d s) :
    ∃ r, s = '{' :: '{' :: r := by
  cases h
  exact ⟨_, rfl⟩

/-! ### Written forms are read -/

theorem skipBlanks_append {b t : Text} (hb : AllBlank b) (ht : Stops Text.isBlank t) :
    skipBlanks (b ++ t) = t :=
  dropWhile_append_of_stops hb ht

theorem IsName.exists_eq_cons {n : Text} (h : IsName n) :
    ∃ c r, n = c :: r ∧ isNameStart c = true := by
  cases h with
  | mk hc _ => exact ⟨_, _, rfl, hc⟩

theorem IsQualified.exists_eq_cons {n : Text} (h : IsQualified n) :
    ∃ c r, n = c :: r ∧ isNameStart c = true := by
  cases h with
  | bare hn => exact hn.exists_eq_cons
  | qualified hq _ =>
    obtain ⟨c, r, rfl, hc⟩ := hq.exists_eq_cons
    exact ⟨c, _, rfl, hc⟩

theorem isBlank_of_isNameStart {c : Char} (h : isNameStart c = true) : Text.isBlank c = false :=
  isBlank_of_isNamePart (isNamePart_of_isNameStart h)

theorem IsName.stops_isBlank {n : Text} (h : IsName n) (rest : Text) :
    Stops Text.isBlank (n ++ rest) := by
  obtain ⟨c, r, rfl, hc⟩ := h.exists_eq_cons
  exact stops_cons (isBlank_of_isNameStart hc)

theorem IsType.stops_isBlank {t : Text} (h : IsType t) (rest : Text) :
    Stops Text.isBlank (t ++ rest) := by
  cases h with
  | plain hn =>
    obtain ⟨c, r, rfl, hc⟩ := hn.exists_eq_cons
    exact stops_cons (isBlank_of_isNameStart hc)
  | nullable _ => exact stops_cons (by decide)

theorem IsFormat.stops_isBlank {f : Text} (h : IsFormat f) (rest : Text) :
    Stops Text.isBlank (f ++ rest) := by
  cases h
  exact stops_cons (by decide)

/-- Blanks and the mark after them do not go on with a name, nor with a qualifier. -/
theorem stops_isNamePart_of_blank {b : Text} {c : Char} (hb : AllBlank b)
    (hc : isNamePart c = false) (rest : Text) : Stops isNamePart (b ++ c :: rest) :=
  stops_append (fun d hd => isNamePart_of_isBlank (hb d hd)) (stops_cons hc)

theorem head?_ne_dot_of_blank {b : Text} {c : Char} (hb : AllBlank b) (hc : c ≠ '.')
    (rest : Text) : (b ++ c :: rest).head? ≠ some '.' := by
  cases b with
  | nil => simpa using hc
  | cons d b =>
    rintro ⟨⟩
    exact absurd (hb '.' (by simp)) (by decide)

theorem readName?_append {n rest : Text} (hn : IsName n) (hr : Stops isNamePart rest) :
    readName? (n ++ rest) = some (n, rest) := by
  cases hn with
  | mk hc hp =>
    rw [List.cons_append, readName?, if_pos hc, takeWhile_append_of_stops hp hr,
      dropWhile_append_of_stops hp hr]

theorem readQualified?_append {n rest : Text} (hn : IsQualified n) (hr : Stops isNamePart rest)
    (hd : rest.head? ≠ some '.') : readQualified? (n ++ rest) = some (n, rest) := by
  cases hn with
  | bare hn =>
    rw [readQualified?, readName?_append hn hr]
    cases rest with
    | nil => rfl
    | cons c r =>
      have hc : c ≠ '.' := fun h => hd (by rw [h]; rfl)
      simp [hc]
  | qualified hq hn =>
    rw [List.append_assoc, List.cons_append, readQualified?,
      readName?_append hq (stops_cons (by decide))]
    simp only [readName?_append hn hr]

theorem readType?_append {t rest : Text} (ht : IsType t) (hr : Stops isNamePart rest)
    (hd : rest.head? ≠ some '.') : readType? (t ++ rest) = some (t, rest) := by
  cases ht with
  | plain hn =>
    obtain ⟨c, r, rfl, hc⟩ := hn.exists_eq_cons
    have hs : c ≠ '*' := by
      rintro rfl
      exact absurd hc (by decide)
    rw [← readQualified?_append hn hr hd]
    simp [readType?, hs]
  | nullable hn =>
    rw [List.cons_append, readType?, readQualified?_append hn hr hd]
    rfl

theorem readFormat?_append {f rest : Text} (hf : IsFormat f) (hr : Stops isFormatPart rest) :
    readFormat? (f ++ rest) = some (f, rest) := by
  cases hf with
  | @mk c r hp =>
    have hpr : ∀ d ∈ r, isFormatPart d = true := fun d hd => hp d (by simp [hd])
    rw [List.cons_append, List.cons_append, readFormat?, if_pos (hp c (by simp)),
      takeWhile_append_of_stops hpr hr, dropWhile_append_of_stops hpr hr]

theorem stops_isFormatPart_of_blank {b : Text} (hb : AllBlank b) (rest : Text) :
    Stops isFormatPart (b ++ '}' :: rest) := by
  refine stops_append (fun c hc => ?_) (stops_cons (by decide))
  simp [isFormatPart, hb c hc]

theorem readEnd?_append {f : Option Text} {e : Text} (he : IsEnding f e) (n t rest : Text) :
    readEnd? n t (e ++ rest) = some (⟨n, t, f⟩, rest) := by
  cases he with
  | @plain b hb =>
    have hs : skipBlanks (b ++ ['}', '}'] ++ rest) = '}' :: '}' :: rest := by
      rw [List.append_assoc]
      exact skipBlanks_append hb (stops_cons (by decide))
    rw [readEnd?, hs]
    rfl
  | @formatted b₁ b₂ f b₃ hb₁ hb₂ hf hb₃ =>
    have h₁ : skipBlanks (b₁ ++ ':' :: (b₂ ++ (f ++ (b₃ ++ '}' :: '}' :: rest)))) = _ :=
      skipBlanks_append hb₁ (stops_cons (by decide))
    have h₂ : skipBlanks (b₂ ++ (f ++ (b₃ ++ '}' :: '}' :: rest))) = _ :=
      skipBlanks_append hb₂ (hf.stops_isBlank _)
    have h₃ : skipBlanks (b₃ ++ '}' :: '}' :: rest) = _ :=
      skipBlanks_append hb₃ (stops_cons (by decide))
    have hread := readFormat?_append hf (stops_isFormatPart_of_blank hb₃ ('}' :: rest))
    simp only [List.append_assoc, List.cons_append, List.nil_append]
    rw [readEnd?, h₁]
    simp only [after?, if_true]
    rw [h₂, hread]
    simp [h₃, after?]

theorem IsEnding.stops_isNamePart {f : Option Text} {e : Text} (h : IsEnding f e) (rest : Text) :
    Stops isNamePart (e ++ rest) := by
  cases h with
  | plain hb =>
    rw [List.append_assoc]
    exact stops_isNamePart_of_blank hb (by decide) _
  | formatted hb _ _ _ =>
    rw [List.append_assoc]
    exact stops_isNamePart_of_blank hb (by decide) _

theorem IsEnding.head?_ne_dot {f : Option Text} {e : Text} (h : IsEnding f e) (rest : Text) :
    (e ++ rest).head? ≠ some '.' := by
  cases h with
  | plain hb =>
    rw [List.append_assoc]
    exact head?_ne_dot_of_blank hb (by decide) _
  | formatted hb _ _ _ =>
    rw [List.append_assoc]
    exact head?_ne_dot_of_blank hb (by decide) _

/-- A written directive is read, whatever follows it. -/
theorem read?_append {d : Directive} {s : Text} (h : Writes d s) (rest : Text) :
    read? (s ++ rest) = some (d, rest) := by
  cases h with
  | @mk b₁ n b₂ b₃ t f e hb₁ hn hb₂ hb₃ ht he =>
    have h₁ : skipBlanks (b₁ ++ (n ++ (b₂ ++ ':' :: (b₃ ++ (t ++ (e ++ rest)))))) = _ :=
      skipBlanks_append hb₁ (hn.stops_isBlank _)
    have h₂ : skipBlanks (b₂ ++ ':' :: (b₃ ++ (t ++ (e ++ rest)))) = _ :=
      skipBlanks_append hb₂ (stops_cons (by decide))
    have h₃ : skipBlanks (b₃ ++ (t ++ (e ++ rest))) = _ :=
      skipBlanks_append hb₃ (ht.stops_isBlank _)
    have hcolon : isNamePart ':' = false := by decide
    have hname := readName?_append hn
      (stops_isNamePart_of_blank hb₂ hcolon (b₃ ++ (t ++ (e ++ rest))))
    have htype := readType?_append ht (he.stops_isNamePart rest) (he.head?_ne_dot rest)
    simp only [List.append_assoc, List.cons_append]
    simp [read?, after?, h₁, hname, h₂, h₃, htype, readEnd?_append he]

/-! ### What is read is a written form -/

theorem allBlank_takeWhile (t : Text) : AllBlank (t.takeWhile Text.isBlank) :=
  fun _ hc => List.mem_takeWhile_imp hc

theorem exists_blanks (t : Text) : ∃ b, AllBlank b ∧ t = b ++ skipBlanks t :=
  ⟨_, allBlank_takeWhile t, List.takeWhile_append_dropWhile.symm⟩

theorem eq_append_of_after? {mark t rest : Text} (h : after? mark t = some rest) :
    t = mark ++ rest := by
  induction mark generalizing t with
  | nil =>
    cases h
    rfl
  | cons m ms ih =>
    cases t with
    | nil => cases h
    | cons c r =>
      simp only [after?] at h
      split at h
      · rename_i hm
        rw [hm, ih h]
        rfl
      · cases h

theorem isName_of_readName? {t n rest : Text} (h : readName? t = some (n, rest)) :
    IsName n ∧ t = n ++ rest := by
  cases t with
  | nil => cases h
  | cons c r =>
    simp only [readName?] at h
    split at h
    · rename_i hc
      cases h
      refine ⟨.mk hc fun _ hd => List.mem_takeWhile_imp hd, ?_⟩
      rw [List.cons_append, List.takeWhile_append_dropWhile]
    · cases h

theorem isQualified_of_readQualified? {t n rest : Text} (h : readQualified? t = some (n, rest)) :
    IsQualified n ∧ t = n ++ rest := by
  unfold readQualified? at h
  split at h
  · cases h
  · rename_i first r hf
    obtain ⟨hfirst, rfl⟩ := isName_of_readName? hf
    split at h
    · rename_i second rest' hs
      cases h
      obtain ⟨hsecond, rfl⟩ := isName_of_readName? hs
      exact ⟨.qualified hfirst hsecond, by simp⟩
    · cases h
      exact ⟨.bare hfirst, rfl⟩
  · rename_i hf
    cases h
    obtain ⟨hfirst, rfl⟩ := isName_of_readName? hf
    exact ⟨.bare hfirst, rfl⟩

theorem isType_of_readType? {t n rest : Text} (h : readType? t = some (n, rest)) :
    IsType n ∧ t = n ++ rest := by
  unfold readType? at h
  split at h
  · obtain ⟨⟨q, rest'⟩, hq, he⟩ := Option.map_eq_some_iff.1 h
    cases he
    obtain ⟨hn, rfl⟩ := isQualified_of_readQualified? hq
    exact ⟨.nullable hn, rfl⟩
  · obtain ⟨hn, rfl⟩ := isQualified_of_readQualified? h
    exact ⟨.plain hn, rfl⟩

theorem isFormat_of_readFormat? {t f rest : Text} (h : readFormat? t = some (f, rest)) :
    IsFormat f ∧ t = f ++ rest := by
  unfold readFormat? at h
  split at h
  · rename_i c r
    split at h
    · rename_i hc
      cases h
      refine ⟨.mk fun d hd => ?_, by simp [List.takeWhile_append_dropWhile]⟩
      rcases List.mem_cons.1 hd with rfl | hd
      · exact hc
      · exact List.mem_takeWhile_imp hd
    · cases h
  · cases h

theorem isEnding_of_readEnd? {n t s rest : Text} {d : Directive}
    (h : readEnd? n t s = some (d, rest)) :
    ∃ e, d.name = n ∧ d.typeName = t ∧ IsEnding d.format e ∧ s = e ++ rest := by
  obtain ⟨b₁, hb₁, hs⟩ := exists_blanks s
  unfold readEnd? at h
  split at h
  · rename_i r hr
    simp only [Option.bind_eq_bind, Option.bind_eq_some_iff, Option.some.injEq, Prod.mk.injEq,
      Prod.exists] at h
    obtain ⟨f, r', hf, rest', he, rfl, rfl⟩ := h
    obtain ⟨b₂, hb₂, hr₂⟩ := exists_blanks r
    obtain ⟨b₃, hb₃, hr₃⟩ := exists_blanks r'
    obtain ⟨hformat, hf'⟩ := isFormat_of_readFormat? hf
    refine ⟨_, rfl, rfl, .formatted hb₁ hb₂ hformat hb₃, ?_⟩
    rw [hs, eq_append_of_after? hr, hr₂, hf', hr₃, eq_append_of_after? he]
    simp
  · simp only [Option.bind_eq_bind, Option.bind_eq_some_iff, Option.some.injEq,
      Prod.mk.injEq] at h
    obtain ⟨rest', he, rfl, rfl⟩ := h
    refine ⟨_, rfl, rfl, .plain hb₁, ?_⟩
    rw [hs, eq_append_of_after? he]
    simp

theorem writes_of_read? {t rest : Text} {d : Directive} (h : read? t = some (d, rest)) :
    ∃ s, Writes d s ∧ t = s ++ rest := by
  unfold read? at h
  simp only [Option.bind_eq_bind, Option.bind_eq_some_iff, Prod.exists] at h
  obtain ⟨r₁, h₁, n, r₂, h₂, r₃, h₃, typeName, r₄, h₄, h₅⟩ := h
  obtain ⟨b₁, hb₁, e₁⟩ := exists_blanks r₁
  obtain ⟨b₂, hb₂, e₂⟩ := exists_blanks r₂
  obtain ⟨b₃, hb₃, e₃⟩ := exists_blanks r₃
  obtain ⟨hn, hn'⟩ := isName_of_readName? h₂
  obtain ⟨ht, ht'⟩ := isType_of_readType? h₄
  obtain ⟨e, hname, htype, he, rfl⟩ := isEnding_of_readEnd? h₅
  obtain ⟨dn, dt, df⟩ := d
  subst hname htype
  refine ⟨_, .mk hb₁ hn hb₂ hb₃ ht he, ?_⟩
  rw [eq_append_of_after? h₁, e₁, hn', e₂, eq_append_of_after? h₃, e₃, ht']
  simp

/-- A text is a written form when reading takes the whole of it. -/
theorem writes_iff_read? {d : Directive} {s : Text} : Writes d s ↔ read? s = some (d, []) := by
  constructor
  · intro h
    have hread := read?_append h []
    rwa [List.append_nil] at hread
  · intro h
    obtain ⟨s', hs', he⟩ := writes_of_read? h
    rwa [he, List.append_nil]

end TypedQueries.Directive
